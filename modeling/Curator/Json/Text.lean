/-
Values as compact text: no spaces, fields in order, and only quotes, backslashes and control
characters escaped.
-/
import Curator.Json.Basic
import Curator.Number.Layout

namespace Curator

namespace Json

/-- The text of a number: exact digits, or the shortest that read back. -/
def numberText : Number → String
  | .whole n => toString n.val
  | .real x => Layout.document.text x

/-- The lowercase hexadecimal digit of a number below sixteen. -/
def hexDigit (n : Nat) : Char := if n < 10 then Char.ofNat (48 + n) else Char.ofNat (87 + n)

/-- A character inside quotes. -/
def escapeChar (c : Char) : List Char :=
  if c == '"' then ['\\', '"']
  else if c == '\\' then ['\\', '\\']
  else if c == '\n' then ['\\', 'n']
  else if c == '\r' then ['\\', 'r']
  else if c == '\t' then ['\\', 't']
  else if c.toNat == 8 then ['\\', 'b']
  else if c.toNat == 12 then ['\\', 'f']
  else if c.toNat < 32 then ['\\', 'u', '0', '0', hexDigit (c.toNat / 16), hexDigit (c.toNat % 16)]
  else [c]

/-- A string in quotes. -/
def quote (s : String) : String :=
  "\"" ++ String.ofList (s.toList.flatMap escapeChar) ++ "\""

mutual

/-- The compact text of a value. -/
def text : Json → String
  | null => "null"
  | bool true => "true"
  | bool false => "false"
  | number n => numberText n
  | string s => quote s
  | array xs => "[" ++ itemsText xs ++ "]"
  | object fs => "\x7b" ++ fieldsText fs ++ "\x7d"

/-- Values with commas between them. -/
def itemsText : List Json → String
  | [] => ""
  | [x] => text x
  | x :: xs => text x ++ "," ++ itemsText xs

/-- Fields with commas between them. -/
def fieldsText : List (String × Json) → String
  | [] => ""
  | [(k, v)] => quote k ++ ":" ++ text v
  | (k, v) :: fs => quote k ++ ":" ++ text v ++ "," ++ fieldsText fs

end

end Json

end Curator
