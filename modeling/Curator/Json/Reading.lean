/-
Reading values from text.

A text is one value, with blanks allowed around every token; reading it yields the wanted parts, or the
first fault on the way.  Containers nest at most 127 deep.  A number without a point and an exponent is
whole if it is in range, except that minus zero is the double.  Any other number is computed in doubles
from its digits and a power of ten, digits beyond 2 ^ 64 being dropped; up to fifteen digits and the
22nd power that is the nearest double, and beyond it may be a neighbour.

Where a value is wanted, an object whose first name is `enclosingName` stands for the value of the text
that it encloses, and must hold nothing else.

The readers of values, items and fields call one another with one unit of fuel less each time.  Every
call consumes a character, so twice the length of the text is always enough.
-/
import Curator.Json.Fault
import Curator.Json.Outline
import Curator.Json.Text
import Curator.Number.Decimal
import Curator.Number.Radix

namespace Curator

namespace Json

/-- The name under which an object encloses the text of a value. -/
def enclosingName : String := "$serde_json::private::RawValue"

/-- How deep containers may nest. -/
def maxDepth : Nat := 127

namespace Reading

/-- What was read off the front of a text, and what is left of it. -/
abbrev Front (α : Type) := α × List Char

/-- Stops at a flaw that is noticed before `rest`, or only `ahead` bytes further on. -/
def stop {α : Type} (flaw : Flaw) (rest : List Char) (ahead : Nat) : Except Stop (Front α) :=
  .error ⟨flaw, rest, ahead⟩

/-- Blanks between tokens: space, tab and the line ends. -/
def isSpace (c : Char) : Bool := c == ' ' || c == '\n' || c == '\r' || c == '\t'

def skip (cs : List Char) : List Char := cs.dropWhile isSpace

/-! ### Strings -/

/-- The number of four hexadecimal digits. -/
def unit? : List Char → Option (Nat × List Char)
  | a :: b :: c :: d :: rest =>
    match Radix.digit? a, Radix.digit? b, Radix.digit? c, Radix.digit? d with
    | some a, some b, some c, some d => some (a * 4096 + b * 256 + c * 16 + d, rest)
    | _, _, _, _ => none
  | _ => none

/-- Takes four hexadecimal digits off the front. -/
def digits (cs : List Char) : Except Stop (Front Nat) :=
  match unit? cs with
  | some r => .ok r
  | none =>
    if (Stop.bytes (cs.take 4)).length < 4 then stop .endInString [] 0 else stop .escape cs 4

/-- Takes the rest of a pair of escapes off the front, whose first half has been read. -/
def pair (high : Nat) : List Char → Except Stop (Front Char)
  | [] => stop .endInString [] 0
  | '\\' :: [] => stop .endInString [] 0
  | '\\' :: 'u' :: more => do
    let (low, rest) ← digits more
    if 0xDC00 ≤ low && low ≤ 0xDFFF then
      .ok (Char.ofNat (0x10000 + (high - 0xD800) * 1024 + (low - 0xDC00)), rest)
    else stop .loneHalf rest 0
  | '\\' :: more => stop .brokenPair more 1
  | more => stop .brokenPair more 1

/-- Takes the character of an escape by number off the front.  One above the basic plane takes a pair
of escapes; half of a pair is no character, unless none is wanted. -/
def numbered (wanted : Bool) (cs : List Char) : Except Stop (Front Char) := do
  let (n, rest) ← digits cs
  if wanted && 0xDC00 ≤ n && n ≤ 0xDFFF then stop .loneHalf rest 0
  else if wanted && 0xD800 ≤ n && n ≤ 0xDBFF then pair n rest
  else .ok (Char.ofNat n, rest)

/-- The character of an escape by letter. -/
def lettered? (c : Char) : Option Char :=
  if c == '"' || c == '\\' || c == '/' then some c
  else if c == 'b' then some '\x08'
  else if c == 'f' then some '\x0c'
  else if c == 'n' then some '\n'
  else if c == 'r' then some '\r'
  else if c == 't' then some '\t'
  else none

/-- Takes the character of an escape without its backslash off the front. -/
def escaped (wanted : Bool) : List Char → Except Stop (Front Char)
  | [] => stop .endInString [] 0
  | 'u' :: rest => numbered wanted rest
  | c :: rest =>
    match lettered? c with
    | some c => .ok (c, rest)
    | none => stop .escape (c :: rest) 1

/-- Takes characters up to the closing quote off the front; `done` are those before, last first. -/
def characters (wanted : Bool) : Nat → List Char → List Char → Except Stop (Front String)
  | _, _, [] => stop .endInString [] 0
  | _, done, '"' :: rest => .ok (String.ofList done.reverse, rest)
  | 0, _, cs => stop .endInString cs 0
  | fuel + 1, done, c :: rest =>
    if c == '\\' then
      match escaped wanted rest with
      | .ok (c, rest) => characters wanted fuel (c :: done) rest
      | .error s => .error s
    else if c.toNat < 32 then stop .control (c :: rest) 1
    else characters wanted fuel (c :: done) rest

/-- Takes a string without its opening quote off the front. -/
def string (wanted : Bool) (cs : List Char) : Except Stop (Front String) :=
  characters wanted cs.length [] cs

/-! ### Numbers -/

/-- Appends decimal digits to a number as long as it stays below 2 ^ 64: the number, and how many
digits were left over. -/
def appendDigits : Nat → List Char → Nat × Nat
  | n, [] => (n, 0)
  | n, c :: cs =>
    let m := 10 * n + (c.toNat - '0'.toNat)
    if m < 2 ^ 64 then appendDigits m cs else (n, cs.length + 1)

/-- The double nearest to a power of ten up to the 308th. -/
def powerOfTen? (n : Nat) : Option Double := Double.ofDecimal? false 1 n

/-- `significand * 10 ^ exponent`, computed in doubles: one multiplication by a power of ten, or a
division by one, or by two when the power would have no double. -/
def scaled? (significand : Nat) (exponent : Int) : Option Double := do
  let x := Double.ofInt significand
  if significand = 0 then return x
  if 0 ≤ exponent then
    guard (exponent ≤ 308)
    x.mul? (← powerOfTen? exponent.toNat)
  else if -308 ≤ exponent then x.div? (← powerOfTen? (-exponent).toNat)
  else if -616 ≤ exponent then
    (← x.div? (← powerOfTen? 308)).div? (← powerOfTen? (-exponent - 308).toNat)
  else return Double.zero false

/-- A double with a sign in front of its number. -/
def signed (negative : Bool) (x : Double) : Double := if negative then x.neg else x

/-- Stops at a text that should have gone on with a digit. -/
def noDigit {α : Type} (cs : List Char) : Except Stop (Front α) :=
  if cs.isEmpty then stop .endInValue [] 0 else stop .number cs 1

/-- Takes the digits of a whole part off the front.  Only zero itself starts with a zero. -/
def wholePart (cs : List Char) : Except Stop (Front (List Char)) :=
  let digits := cs.takeWhile Char.isDigit
  if digits.isEmpty then noDigit cs
  else if digits.head? == some '0' && 1 < digits.length then stop .number (cs.drop 1) 1
  else .ok (digits, cs.dropWhile Char.isDigit)

/-- Takes a point and the digits after it off the front, if there is one. -/
def fraction : List Char → Except Stop (Front (List Char))
  | '.' :: cs =>
    let digits := cs.takeWhile Char.isDigit
    if digits.isEmpty then noDigit cs else .ok (digits, cs.dropWhile Char.isDigit)
  | cs => .ok ([], cs)

/-- Takes an exponent off the front, if there is one: whether it is negative, and its digits. -/
def power : List Char → Except Stop (Front (Option (Bool × List Char)))
  | [] => .ok (none, [])
  | c :: cs =>
    if c == 'e' || c == 'E' then
      let (minus, body) := Decimal.sign cs
      let digits := body.takeWhile Char.isDigit
      if digits.isEmpty then noDigit body
      else .ok (some (minus, digits), body.dropWhile Char.isDigit)
    else .ok (none, c :: cs)

/-- The whole number of some digits, if it is in range; minus zero is not one. -/
def whole? (negative : Bool) (digits : Nat) : Option Whole :=
  if negative && digits == 0 then none
  else Whole.ofInt? (if negative then -(digits : Int) else digits)

/-- How many digits of an exponent follow the one that makes it too large for 32 bits. -/
def beyondPower : Nat → List Char → Nat
  | _, [] => 0
  | n, c :: cs =>
    let m := 10 * n + (c.toNat - '0'.toNat)
    if m < 2 ^ 31 then beyondPower m cs else cs.length

/-- Takes a number without its sign off the front. -/
def unsigned (negative : Bool) (cs : List Char) : Except Stop (Front Number) := do
  let (front, rest) ← wholePart cs
  let (back, rest) ← fraction rest
  let (power, rest) ← power rest
  let (n, dropped) := appendDigits 0 front
  let (m, unread) := appendDigits n back
  let exponent : Int :=
    match power with
    | some (minus, digits) =>
      if minus then -(Decimal.ofDigits digits : Int) else Decimal.ofDigits digits
    | none => 0
  match if back.isEmpty && power.isNone && dropped == 0 then whole? negative n else none with
  | some w => return (.whole w, rest)
  | none =>
    match scaled? m (dropped - (back.length - unread : Nat) + exponent) with
    | some x => return (.real (signed negative x), rest)
    | none =>
      let unused := (power.map fun p => beyondPower 0 p.2).getD 0
      stop .range (cs.drop (cs.length - rest.length - unused)) 0

/-- Takes a number off the front.  One that is not wanted may be out of range. -/
def number (wanted : Bool) (cs : List Char) : Except Stop (Front Number) := do
  let (negative, body) := match cs with
    | '-' :: body => (true, body)
    | _ => (false, cs)
  if wanted then unsigned negative body
  else
    let (_, rest) ← wholePart body
    let (_, rest) ← fraction rest
    let (_, rest) ← power rest
    return (.real (Double.zero false), rest)

/-! ### Values -/

/-- Takes the rest of a word off the front. -/
def word (v : Json) : List Char → List Char → Except Stop (Front Json)
  | [], cs => .ok (v, cs)
  | _ :: _, [] => stop .endInValue [] 0
  | e :: es, c :: cs => if e == c then word v es cs else stop .noWord (c :: cs) 1

/-- Takes a word or a number off the front. -/
def scalar (wanted : Bool) : List Char → Except Stop (Front Json)
  | [] => stop .endInValue [] 0
  | c :: cs =>
    if c == 'n' then word .null ['u', 'l', 'l'] cs
    else if c == 't' then word (.bool true) ['r', 'u', 'e'] cs
    else if c == 'f' then word (.bool false) ['a', 'l', 's', 'e'] cs
    else if c == '-' || c.isDigit then do
      let (n, rest) ← number wanted (c :: cs)
      return (.number n, rest)
    else stop .noValue (c :: cs) 1

/-- What a scalar is called when it stands where a text should. -/
def scalarName : Json → String
  | .bool b => "boolean `" ++ toString b ++ "`"
  | .number (.whole n) => "integer `" ++ toString n.val ++ "`"
  | .number (.real x) => "floating point `" ++ Layout.document.text x ++ "`"
  | _ => "null"

/-- Takes the colon between a name and its value off the front, with the blanks around it. -/
def colon (cs : List Char) : Except Stop (Front Unit) :=
  match skip cs with
  | [] => stop .endInObject [] 0
  | ':' :: rest => .ok ((), skip rest)
  | rest => stop .noColon rest 1

/-- Takes what follows the enclosing name off the front: a text, and the end of the object.
`enclosed` reads the text. -/
def enclosedValue (enclosed : String → Except Fault Json) (cs : List Char) :
    Except Stop (Front Json) := do
  let ((), cs) ← colon cs
  match cs with
  | '[' :: _ => stop (.notText "sequence") cs 0
  | '{' :: _ => stop (.notText "map") cs 0
  | '"' :: rest =>
    let (s, rest) ← string true rest
    match enclosed s with
    | .error f => stop (.enclosed f) rest 0
    | .ok v =>
      match skip rest with
      | [] => stop .endInObject [] 0
      | '}' :: rest => return (v, rest)
      | ',' :: rest => stop .trailingComma (',' :: rest) 1
      | rest => stop .trailing rest 1
  | cs =>
    let (v, rest) ← scalar true cs
    stop (.notText (scalarName v)) rest 0

/-- The depth that is left inside a container.  What is not wanted may nest as it likes. -/
def inside? (o : Outline) : Nat → Option Nat
  | 0 => if o.isNothing then some 0 else none
  | depth + 1 => some depth

mutual

/-- Takes a value off the front of a text that starts with one. -/
def value (enclosed : String → Except Fault Json) :
    Nat → Nat → Outline → List Char → Except Stop (Front Json)
  | 0, _, _, cs => stop .endInValue cs 0
  | fuel + 1, depth, o, cs =>
    match cs with
    | '"' :: rest => (string (!o.isNothing) rest).map fun (s, rest) => (.string s, rest)
    | '[' :: rest =>
      match inside? o depth with
      | none => stop .tooDeep cs 1
      | some depth =>
        match skip rest with
        | [] => stop .endInArray [] 0
        | ']' :: rest => .ok (.array [], rest)
        | rest => (items enclosed fuel depth o 0 rest).map fun (xs, rest) => (.array xs, rest)
    | '{' :: rest =>
      match inside? o depth with
      | none => stop .tooDeep cs 1
      | some depth =>
        match skip rest with
        | [] => stop .endInObject [] 0
        | '}' :: rest => .ok (.object [], rest)
        | '"' :: rest =>
          match string (!o.isNothing) rest with
          | .error s => .error s
          | .ok (name, rest) =>
            if o.isValue && name == enclosingName then enclosedValue enclosed rest
            else
              (fields enclosed fuel depth o name rest).map fun (fs, rest) => (.object fs, rest)
        | rest => stop .noName rest 1
    | cs => scalar (!o.isNothing) cs

/-- Takes the items of an array from a place on and its closing bracket off the front. -/
def items (enclosed : String → Except Fault Json) :
    Nat → Nat → Outline → Nat → List Char → Except Stop (Front (List Json))
  | 0, _, _, _, cs => stop .endInArray cs 0
  | fuel + 1, depth, o, place, cs =>
    match value enclosed fuel depth (o.item place) cs with
    | .error s => .error s
    | .ok (x, rest) =>
      match skip rest with
      | [] => stop .endInArray [] 0
      | ']' :: rest => .ok ([x], rest)
      | ',' :: rest =>
        match skip rest with
        | [] => stop .endInValue [] 0
        | ']' :: rest => stop .trailingComma (']' :: rest) 1
        | rest =>
          (items enclosed fuel depth o (place + 1) rest).map fun (xs, rest) => (x :: xs, rest)
      | rest => stop .noItemEnd rest 1

/-- Takes the fields of an object, the first without its name, and its closing brace off the front.
Fields of which nothing is wanted are dropped. -/
def fields (enclosed : String → Except Fault Json) :
    Nat → Nat → Outline → String → List Char → Except Stop (Front (List (String × Json)))
  | 0, _, _, _, cs => stop .endInObject cs 0
  | fuel + 1, depth, o, name, cs =>
    match colon cs with
    | .error s => .error s
    | .ok ((), cs) =>
      match value enclosed fuel depth (o.field name) cs with
      | .error s => .error s
      | .ok (x, rest) =>
        let field := if (o.field name).isNothing then [] else [(name, x)]
        match skip rest with
        | [] => stop .endInObject [] 0
        | '}' :: rest => .ok (field, rest)
        | ',' :: rest =>
          match skip rest with
          | [] => stop .endInValue [] 0
          | '}' :: rest => stop .trailingComma ('}' :: rest) 1
          | '"' :: rest =>
            match string (!o.isNothing) rest with
            | .error s => .error s
            | .ok (next, rest) =>
              (fields enclosed fuel depth o next rest).map fun (fs, rest) => (field ++ fs, rest)
          | rest => stop .noName rest 1
        | rest => stop .noFieldEnd rest 1

end

/-- Takes the one value of a text, where `enclosed` reads the texts that it encloses. -/
def whole (enclosed : String → Except Fault Json) (o : Outline) (cs : List Char) :
    Except Stop (Front Json) := do
  let (v, rest) ← value enclosed (2 * cs.length + 2) maxDepth o (skip cs)
  match skip rest with
  | [] => return (v, [])
  | rest => stop .trailing rest 1

/-- The wanted parts of what a text writes, with enclosed texts up to `levels` deep. -/
def wanted : Nat → Outline → String → Except Fault Json
  | 0, o, s =>
    match whole (fun _ => .ok .null) o s.toList with
    | .ok (v, _) => .ok v
    | .error e => .error (e.fault s.toList)
  | levels + 1, o, s =>
    match whole (wanted levels .value) o s.toList with
    | .ok (v, _) => .ok v
    | .error e => .error (e.fault s.toList)

end Reading

/-- The wanted parts of what a text writes, repeated names and all.  A text that is enclosed in it is
shorter, so there are no more levels of them than characters. -/
def wanted (o : Outline) (s : String) : Except Fault Json := Reading.wanted s.length o s

/-- The value that a text writes; of a repeated name the first place and the last value. -/
def read (s : String) : Except Fault Json := (wanted .value s).map settle

/-- The value that a text writes, if it writes one. -/
def read? (s : String) : Option Json := (read s).toOption

/-! ### Values as written -/

/-- The text that an object encloses, if its first name says that it does; it must hold nothing
else. -/
def enclosed? : List (String × Json) → Option (Option String)
  | (name, v) :: rest =>
    if name == enclosingName then some (if rest.isEmpty then v.string? else none) else none
  | [] => none

mutual

/-- The value that a written value stands for: enclosed texts are read, and of a repeated name the
first place and the last value stay. -/
def meaning? : Json → Option Json
  | array xs => (meaningItems? xs).map array
  | object fs =>
    match enclosed? fs with
    | some text => text.bind read?
    | none => (meaningFields? fs).map fun fs => object (Dict.ofList fs)
  | v => some v

/-- The values that written items stand for. -/
def meaningItems? : List Json → Option (List Json)
  | [] => some []
  | x :: xs =>
    match meaning? x, meaningItems? xs with
    | some v, some vs => some (v :: vs)
    | _, _ => none

/-- The fields that written fields stand for. -/
def meaningFields? : List (String × Json) → Option (List (String × Json))
  | [] => some []
  | (name, x) :: fs =>
    match meaning? x, meaningFields? fs with
    | some v, some vs => some ((name, v) :: vs)
    | _, _ => none

end

end Json

end Curator
