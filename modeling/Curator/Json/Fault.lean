/-
Why a text writes no value, and where.

Reading stops at the first flaw.  The place is counted in lines and in the bytes of a line, up to where
the flaw was noticed; some flaws are only noticed by a look at what comes next, and then that counts as
well.  A text inside a text has lines of its own, so its faults are told as they are.
-/
import Curator.Text.Utf8

namespace Curator

namespace Json

/-- Why a text writes no value. -/
structure Fault where
  message : String
  line : Nat
  column : Nat
  /-- Whether the text is well formed up to there, and only what it writes stands for nothing. -/
  isMeaning : Bool
deriving DecidableEq

/-- The message of a fault with its place. -/
def Fault.text (f : Fault) : String :=
  f.message ++ " at line " ++ toString f.line ++ " column " ++ toString f.column

/-- What can be wrong with a text. -/
inductive Flaw where
  | endInArray
  | endInObject
  | endInString
  | endInValue
  | noColon
  | noItemEnd
  | noFieldEnd
  | noName
  | noWord
  | noValue
  | escape
  | number
  | range
  | control
  | loneHalf
  | brokenPair
  | trailingComma
  | trailing
  | tooDeep
  /-- An enclosed text is not written as a string. -/
  | notText (found : String)
  /-- An enclosed text has a fault. -/
  | enclosed (f : Fault)

namespace Flaw

def message : Flaw → String
  | endInArray => "EOF while parsing a list"
  | endInObject => "EOF while parsing an object"
  | endInString => "EOF while parsing a string"
  | endInValue => "EOF while parsing a value"
  | noColon => "expected `:`"
  | noItemEnd => "expected `,` or `]`"
  | noFieldEnd => "expected `,` or `\x7d`"
  | noName => "key must be a string"
  | noWord => "expected ident"
  | noValue => "expected value"
  | escape => "invalid escape"
  | number => "invalid number"
  | range => "number out of range"
  | control => "control character (\\u0000-\\u001F) found while parsing a string"
  | loneHalf => "lone leading surrogate in hex escape"
  | brokenPair => "unexpected end of hex escape"
  | trailingComma => "trailing comma"
  | trailing => "trailing characters"
  | tooDeep => "recursion limit exceeded"
  | notText found => "invalid type: " ++ found ++ ", expected raw value"
  | enclosed f => f.message

/-- Whether the text is well formed up to a flaw. -/
def isMeaning : Flaw → Bool
  | notText _ | enclosed _ => true
  | _ => false

end Flaw

/-- Where reading stopped. -/
structure Stop where
  flaw : Flaw
  /-- The text that was left. -/
  rest : List Char
  /-- How many bytes of it had been looked at. -/
  ahead : Nat

namespace Stop

/-- The bytes of some characters. -/
def bytes (cs : List Char) : List UInt8 := cs.flatMap Text.Utf8.encode

/-- The bytes of a text that had been looked at. -/
def seen (text : List Char) (s : Stop) : List UInt8 :=
  bytes (text.take (text.length - s.rest.length)) ++ (bytes (s.rest.take s.ahead)).take s.ahead

/-- The fault of a text whose reading stopped. -/
def fault (text : List Char) (s : Stop) : Fault :=
  match s.flaw with
  | .enclosed f => { f with isMeaning := true }
  | flaw =>
    let seen := s.seen text
    let newline : UInt8 := 10
    ⟨flaw.message, seen.count newline + 1, (seen.reverse.takeWhile (· != newline)).length,
      flaw.isMeaning⟩

end Stop

end Json

end Curator
