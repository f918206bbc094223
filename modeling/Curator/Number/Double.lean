/-
Finite doubles, and arithmetic that computes exactly and rounds once.

A `Double` is a sign and a magnitude `mantissa * 2 ^ exponent` in the one canonical form that the
64-bit binary format allows.  `value` is the rational number it stands for; the two zeros share it.
`nearest` is the only place that rounds: to the nearest double, halves to an even mantissa, and
nothing when the result is too large.  Sum, difference, product and quotient are the exact
operation on values followed by `nearest`, so an operation without a finite result has none here.
-/
import Curator.Number.Power

namespace Curator

/-- The canonical magnitudes: full mantissas, except at the lowest exponent. -/
def Canonical (mantissa : Nat) (exponent : Int) : Prop :=
  mantissa < 2 ^ 53 ∧ -1074 ≤ exponent ∧ exponent ≤ 971 ∧ (2 ^ 52 ≤ mantissa ∨ exponent = -1074)

instance (mantissa : Nat) (exponent : Int) : Decidable (Canonical mantissa exponent) := by
  unfold Canonical
  infer_instance

/-- A finite number of the 64-bit binary format. -/
structure Double where
  negative : Bool
  mantissa : Nat
  exponent : Int
  canonical : Canonical mantissa exponent
deriving DecidableEq

namespace Double

/-- The zero of either sign. -/
def zero (negative : Bool) : Double := ⟨negative, 0, -1074, by decide⟩

/-- The magnitude with the given parts, if it is canonical. -/
def make? (negative : Bool) (mantissa : Nat) (exponent : Int) : Option Double :=
  if h : Canonical mantissa exponent then some ⟨negative, mantissa, exponent, h⟩ else none

/-- The rational number that a double stands for. -/
def value (x : Double) : Rat :=
  mkRat ((if x.negative then -1 else 1) * (x.mantissa * 2 ^ x.exponent.toNat : Nat))
    (2 ^ (-x.exponent).toNat)

/-! ### Rounding -/

/-- The natural number nearest to `num / den`; a half goes to the even neighbour. -/
def roundQuotient (num den : Nat) : Nat :=
  let floor := num / den
  let twice := 2 * (num % den)
  if twice < den then floor
  else if den < twice then floor + 1
  else if floor % 2 = 0 then floor
  else floor + 1

/-- The exponent of the largest power of two that is at most `num / den`. -/
def binade (num den : Nat) : Int :=
  let e : Int := (num.log2 : Int) - den.log2
  if den * 2 ^ e.toNat ≤ num * 2 ^ (-e).toNat then e else e - 1

/-- The double nearest to `num / den` with the given sign, or nothing when that is too large. -/
def nearest (negative : Bool) (num den : Nat) : Option Double :=
  if num = 0 then some (zero negative)
  else
    let e := max (binade num den - 52) (-1074)
    let m := roundQuotient (num * 2 ^ (-e).toNat) (den * 2 ^ e.toNat)
    if m = 2 ^ 53 then make? negative (2 ^ 52) (e + 1) else make? negative m e

/-- The double nearest to a rational number that is not zero. -/
def ofRat? (r : Rat) : Option Double := nearest (decide (r < 0)) r.num.natAbs r.den

/-- The double nearest to an integer.  All integers below 2 ^ 1023 in size have one. -/
def ofInt (n : Int) : Double := (nearest (decide (n < 0)) n.natAbs 1).getD (zero false)

/-- The double nearest to `digits * 10 ^ exponent`.  Exponents so far out that the result is
certain to be too large, or to vanish, are not written out as powers. -/
def ofDecimal? (negative : Bool) (digits : Nat) (exponent : Int) : Option Double :=
  if digits = 0 then some (zero negative)
  else if 400 < exponent then none
  else if exponent < -400 - (digits.log2 : Int) then some (zero negative)
  else nearest negative (digits * 10 ^ exponent.toNat) (10 ^ (-exponent).toNat)

/-! ### Arithmetic -/

/-- The double with the other sign. -/
def neg (x : Double) : Double := { x with negative := !x.negative }

/-- The rounded sum.  An exact zero is negative only when both summands are. -/
def add? (x y : Double) : Option Double :=
  let sum := x.value + y.value
  if sum = 0 then some (zero (x.negative && y.negative)) else ofRat? sum

/-- The rounded difference. -/
def sub? (x y : Double) : Option Double := add? x y.neg

/-- The rounded product. -/
def mul? (x y : Double) : Option Double :=
  let product := x.value * y.value
  nearest (x.negative != y.negative) product.num.natAbs product.den

/-- The rounded quotient; dividing by zero has no finite result. -/
def div? (x y : Double) : Option Double :=
  if y.mantissa = 0 then none
  else
    let quotient := x.value / y.value
    nearest (x.negative != y.negative) quotient.num.natAbs quotient.den

/-! ### Comparing and reading off -/

/-- Doubles in the order of their values. -/
def order (x y : Double) : Ordering :=
  if x.value < y.value then .lt else if y.value < x.value then .gt else .eq

/-- Whether two doubles have one value; the two zeros do. -/
def same (x y : Double) : Bool := x.value == y.value

/-- The integer a double is, if it has no fraction. -/
def whole? (x : Double) : Option Int :=
  if x.value.den = 1 then some x.value.num else none

theorem make?_eq_some {n : Bool} {m : Nat} {e : Int} {x : Double} (h : make? n m e = some x) :
    x.negative = n ∧ x.mantissa = m ∧ x.exponent = e := by
  unfold make? at h
  split at h
  · cases h; exact ⟨rfl, rfl, rfl⟩
  · cases h

theorem same_iff (x y : Double) : x.same y = true ↔ x.value = y.value := by
  simp [same]

end Double

end Curator
