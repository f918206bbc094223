/-
How numbers are laid out as text.

The digits are always the shortest that read back; a `Layout` holds the remaining decisions.  Three
are in use: the one of documents, the one of plain messages, and the one of tokens in messages.
-/
import Curator.Number.Shortest

namespace Curator

/-- The decisions that turn shortest digits into text. -/
structure Layout where
  /-- The exponents of the leading digit that are written positionally; nothing means all. -/
  positional : Option (Int × Int)
  /-- Whether a number without a fraction is written with `.0`. -/
  fraction : Bool
  /-- Whether a positive exponent is written with its sign. -/
  plus : Bool
  tie : Tie

namespace Layout

/-- Numbers in documents: positional from 0.00001 to below 10 ^ 16, always with a fraction. -/
def document : Layout := ⟨some (-5, 15), true, true, .toEven⟩

/-- Numbers in plain messages: always positional, and whole numbers without a fraction. -/
def message : Layout := ⟨none, false, false, .away⟩

/-- Numbers of tokens: positional from 0.0001 to below 10 ^ 16, always with a fraction. -/
def token : Layout := ⟨some (-4, 15), true, false, .away⟩

/-- A text of `n` zeros. -/
def zeros (n : Nat) : String := String.ofList (List.replicate n '0')

/-- A decimal with the point in its place. -/
def positionalText (l : Layout) (d : DecimalForm) : String :=
  let digits := toString d.digits
  let places := digits.length
  if 0 ≤ d.exponent then digits ++ zeros d.exponent.toNat ++ (if l.fraction then ".0" else "")
  else
    let back := (-d.exponent).toNat
    if back < places then
      String.ofList (digits.toList.take (places - back)) ++ "." ++
        String.ofList (digits.toList.drop (places - back))
    else "0." ++ zeros (back - places) ++ digits

/-- A decimal with one digit before the point, and its exponent. -/
def scientificText (l : Layout) (d : DecimalForm) (lead : Int) : String :=
  let mantissa :=
    match (toString d.digits).toList with
    | [] => ""
    | [c] => String.ofList [c]
    | c :: cs => String.ofList (c :: '.' :: cs)
  mantissa ++ "e" ++ (if l.plus && 0 ≤ lead then "+" else "") ++ toString lead

/-- The text of a double. -/
def text (l : Layout) (x : Double) : String :=
  let d := x.shortest l.tie
  let lead : Int := d.exponent + (toString d.digits).length - 1
  let plain :=
    match l.positional with
    | none => true
    | some (low, high) => d.digits == 0 || (decide (low ≤ lead) && decide (lead ≤ high))
  (if x.negative then "-" else "") ++
    (if plain then l.positionalText d else l.scientificText d lead)

end Layout

end Curator
