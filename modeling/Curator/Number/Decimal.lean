/-
Decimal numbers in text.

A numeral is an optional sign, digits with at most one point among or beside them, and an optional
exponent; at least one digit stands outside the exponent.  The words `inf`, `infinity` and `nan` are
numerals too, in any case and with any sign, but stand for no finite double, like a numeral that is
too large for one.
-/
import Curator.Number.Double

namespace Curator

/-- What a numeral stands for: a finite double, or nothing finite. -/
inductive Numeral where
  | finite (x : Double)
  | unbounded
deriving DecidableEq

namespace Numeral

/-- The double, when there is one. -/
def double? : Numeral → Option Double
  | finite x => some x
  | unbounded => none

end Numeral

namespace Decimal

/-- The number that a run of decimal digits writes. -/
def ofDigits (cs : List Char) : Nat :=
  cs.foldl (fun n c => 10 * n + (c.toNat - '0'.toNat)) 0

/-- Takes an optional sign off the front: whether it was a minus, and the rest. -/
def sign : List Char → Bool × List Char
  | '-' :: cs => (true, cs)
  | '+' :: cs => (false, cs)
  | cs => (false, cs)

/-- The exponent that a text consists of: nothing at all, or `e` with a signed run of digits. -/
def exponent? : List Char → Option Int
  | [] => some 0
  | c :: cs =>
    if c == 'e' || c == 'E' then
      let (minus, digits) := sign cs
      if digits.isEmpty || !digits.all Char.isDigit then none
      else some (if minus then -(ofDigits digits : Int) else ofDigits digits)
    else none

/-- The unsigned numeral that a text consists of, as digits and a power of ten. -/
def unsigned? (cs : List Char) : Option (Nat × Int) :=
  let front := cs.takeWhile Char.isDigit
  let rest := cs.dropWhile Char.isDigit
  let (back, rest) :=
    match rest with
    | '.' :: r => (r.takeWhile Char.isDigit, r.dropWhile Char.isDigit)
    | _ => ([], rest)
  if front.isEmpty && back.isEmpty then none
  else (exponent? rest).map fun e => (ofDigits (front ++ back), e - back.length)

/-- The words that are numerals without a finite value. -/
def unboundedWords : List String := ["inf", "infinity", "nan"]

/-- Reads a text that is one numeral from end to end. -/
def read? (cs : List Char) : Option Numeral :=
  let (negative, body) := sign cs
  if unboundedWords.contains (String.ofList (body.map Char.toLower)) then some .unbounded
  else
    (unsigned? body).map fun (digits, exponent) =>
      match Double.ofDecimal? negative digits exponent with
      | some x => .finite x
      | none => .unbounded

end Decimal

end Curator
