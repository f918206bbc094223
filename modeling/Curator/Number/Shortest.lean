/-
The shortest decimal that reads back as a given double.

The reals that round to a double form an interval: from halfway to the neighbour below to halfway to
the neighbour above, with both ends when the mantissa is even.  For one digit, two digits, and so on
up to seventeen, the two decimals of that length around the value are tried; the first length with
one of them in the interval wins, and of two the nearer.  All comparisons are between natural
numbers, so nothing is rounded on the way.
-/
import Curator.Number.Double

namespace Curator

/-- Which of two equally near decimals is taken. -/
inductive Tie where
  | toEven
  | away
deriving DecidableEq

/-- The decimal number `digits * 10 ^ exponent`. -/
structure DecimalForm where
  digits : Nat
  exponent : Int
deriving DecidableEq

namespace Shortest

/-- Compares `a * 10 ^ i` with `b * 2 ^ j`. -/
def compareScaled (a : Nat) (i : Int) (b : Nat) (j : Int) : Ordering :=
  compare (a * 10 ^ i.toNat * 2 ^ (-j).toNat) (b * 2 ^ j.toNat * 10 ^ (-i).toNat)

/-- Whether a decimal lies among the reals that round to the magnitude of `x`. -/
def readsBack (x : Double) (d : DecimalForm) : Bool :=
  let narrow := x.mantissa == 2 ^ 52 && x.exponent != -1074
  let low := if narrow then 4 * x.mantissa - 1 else 4 * x.mantissa - 2
  let closed := x.mantissa % 2 == 0
  let fromLow := compareScaled d.digits d.exponent low (x.exponent - 2)
  let fromHigh := compareScaled d.digits d.exponent (4 * x.mantissa + 2) (x.exponent - 2)
  (fromLow == .gt || (closed && fromLow == .eq)) && (fromHigh == .lt || (closed && fromHigh == .eq))

/-- The least power of ten above the magnitude of `x`.  The binary logarithm tells it up to two. -/
def scale (x : Double) : Int :=
  let guess := ((x.mantissa.log2 : Int) + x.exponent) * 30103 / 100000 - 1
  let above (k : Int) : Bool := compareScaled 1 k x.mantissa x.exponent == .gt
  (([0, 1, 2, 3].map (guess + ·)).find? above).getD (guess + 4)

/-- The decimal with its unit at `10 ^ unit` that is next to the magnitude of `x` and reads back. -/
def onGrid? (tie : Tie) (x : Double) (unit : Int) : Option DecimalForm :=
  let num := x.mantissa * 2 ^ x.exponent.toNat * 10 ^ (-unit).toNat
  let den := 2 ^ (-x.exponent).toNat * 10 ^ unit.toNat
  let below := num / den
  let lower : DecimalForm := ⟨below, unit⟩
  let upper : DecimalForm := ⟨below + 1, unit⟩
  let nearer : DecimalForm :=
    match compare (2 * num) ((2 * below + 1) * den) with
    | .lt => lower
    | .gt => upper
    | .eq => if tie = .away ∨ below % 2 = 1 then upper else lower
  match readsBack x lower, readsBack x upper with
  | true, true => some nearer
  | true, false => some lower
  | false, true => some upper
  | false, false => none

/-- The value of a magnitude written out in full. -/
def exact (x : Double) : DecimalForm :=
  if 0 ≤ x.exponent then ⟨x.mantissa * 2 ^ x.exponent.toNat, 0⟩
  else ⟨x.mantissa * 5 ^ (-x.exponent).toNat, x.exponent⟩

/-- Moves up to `n` trailing zeros of the digits into the exponent. -/
def strip : Nat → DecimalForm → DecimalForm
  | 0, d => d
  | n + 1, d => if d.digits % 10 = 0 then strip n ⟨d.digits / 10, d.exponent + 1⟩ else d

end Shortest

/-- The shortest decimal that reads back as the magnitude of a double; zero is `0`. -/
def Double.shortest (tie : Tie) (x : Double) : DecimalForm :=
  if x.mantissa = 0 then ⟨0, 0⟩
  else
    let k := Shortest.scale x
    let found := (List.range 17).findSome? fun n => Shortest.onGrid? tie x (k - (n + 1 : Nat))
    Shortest.strip 20 (found.getD (Shortest.exact x))

end Curator
