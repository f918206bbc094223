/-
Whole numbers up to 2 ^ 53 in size are added without rounding.

Each of them is the value of a double, so `Double.ofInt` and `Double.add?`, which round to the nearest
double, have nothing to round.  What is written for such a sum is the whole number itself.  Larger whole
numbers lie in the cell of the double they are rounded to, which keeps it at most half a unit of its last
place away from them.
-/
import Curator.Proofs.Number.Nearest

namespace Curator

namespace Double

/-- The natural numbers up to 2 ^ 53 that are not zero are full mantissas times a power of two. -/
theorem exists_canonical {n : Nat} (hpos : n ≠ 0) (hn : n ≤ 2 ^ 53) :
    ∃ (m : Nat) (e : Int), Canonical m e ∧ (m : ℚ) * (2 : ℚ) ^ e = n := by
  rcases Nat.lt_or_eq_of_le hn with hlt | rfl
  · have hlog : n.log2 ≤ 52 := Nat.lt_succ_iff.mp ((Nat.log2_lt hpos).mpr hlt)
    have hunit : 2 ^ n.log2 * 2 ^ (52 - n.log2) = 2 ^ 52 := by
      rw [← pow_add, Nat.add_sub_cancel' hlog]
    refine ⟨n * 2 ^ (52 - n.log2), (n.log2 : Int) - 52, ⟨?_, by omega, by omega, Or.inl ?_⟩, ?_⟩
    · have hhigh : n * 2 ^ (52 - n.log2) < 2 ^ (n.log2 + 1) * 2 ^ (52 - n.log2) :=
        Nat.mul_lt_mul_of_pos_right Nat.lt_log2_self (by positivity)
      calc n * 2 ^ (52 - n.log2) < 2 ^ (n.log2 + 1) * 2 ^ (52 - n.log2) := hhigh
        _ = 2 * (2 ^ n.log2 * 2 ^ (52 - n.log2)) := by ring
        _ = 2 ^ 53 := by rw [hunit]; norm_num
    · calc 2 ^ 52 = 2 ^ n.log2 * 2 ^ (52 - n.log2) := hunit.symm
        _ ≤ n * 2 ^ (52 - n.log2) := Nat.mul_le_mul_right _ (Nat.log2_self_le hpos)
    · have hexponent : (n.log2 : Int) - 52 = -((52 - n.log2 : Nat) : Int) := by omega
      rw [hexponent, zpow_neg, zpow_natCast]
      push_cast
      field_simp
  · exact ⟨2 ^ 52, 1, by decide, by norm_num⟩

/-- The whole numbers up to 2 ^ 53 in size are values of doubles. -/
theorem exists_value_eq {n : Int} (hn : |n| ≤ 2 ^ 53) : ∃ x : Double, x.value = n := by
  by_cases hzero : n = 0
  · exact ⟨zero false, by rw [value_zero, hzero, Int.cast_zero]⟩
  · obtain ⟨hlow, hhigh⟩ := abs_le.mp hn
    have hsize : n.natAbs ≤ 2 ^ 53 := by omega
    obtain ⟨m, e, hcanonical, hvalue⟩ := exists_canonical (Int.natAbs_ne_zero.mpr hzero) hsize
    refine ⟨⟨decide (n < 0), m, e, hcanonical⟩, ?_⟩
    rw [value_eq, magnitude, hvalue, Nat.cast_natAbs]
    by_cases hneg : n < 0
    · simp [hneg, abs_of_neg hneg]
    · simp [hneg, abs_of_nonneg (not_lt.mp hneg)]

theorem value_ofInt {n : Int} (hn : |n| ≤ 2 ^ 53) : (ofInt n).value = n := by
  obtain ⟨x, hx⟩ := exists_value_eq hn
  exact ofInt_value hx

/-! ### Larger whole numbers -/

theorem inCell_ofInt {n : Nat} (hpos : 0 < n) (hn : n < 2 ^ 64) :
    (ofInt n).negative = false ∧ (ofInt n).InCell n := by
  have hcast : (n : ℚ) / ((1 : Nat) : ℚ) = n := by rw [Nat.cast_one, div_one]
  have hsmall : (n : ℚ) / ((1 : Nat) : ℚ) < 2 ^ (1023 : Int) := by
    have hn' : (n : ℚ) < 2 ^ (64 : Int) := by exact_mod_cast hn
    rw [hcast]
    exact hn'.trans_le (zpow_le_zpow_right₀ one_le_two (by decide))
  obtain ⟨x, hsign, hcell⟩ := exists_inCell hpos one_pos hsmall false
  have hnearest : nearest false n 1 = some x := hsign ▸ nearest_eq hpos one_pos hcell
  have hofInt : ofInt n = x := by
    rw [ofInt, decide_eq_false (Int.natCast_nonneg n).not_gt, Int.natAbs_natCast, hnearest]
    rfl
  rw [hofInt]
  exact ⟨hsign, hcast ▸ hcell⟩

/-- Only numbers far below one round to a zero. -/
theorem InCell.mantissa_ne_zero {x : Double} {r : ℚ} (h : x.InCell r) (hr : 1 ≤ r) :
    x.mantissa ≠ 0 := by
  intro hzero
  have hlowest : x.exponent = -1074 := by
    have hfull := x.canonical.2.2.2
    omega
  have hunit : (2 : ℚ) ^ (-1074 : Int) ≤ 1 := zpow_le_one_of_nonpos₀ one_le_two (by decide)
  have hhigh := h.le_high
  rw [hzero, hlowest, Nat.cast_zero] at hhigh
  linarith

theorem InCell.abs_sub_le {x : Double} {r : ℚ} (h : x.InCell r) :
    |x.magnitude - r| ≤ 1 / 2 * 2 ^ x.exponent := by
  have hunit : (0 : ℚ) < 2 ^ x.exponent := by positivity
  have hlow : (x.mantissa - 1 / 2) * 2 ^ x.exponent ≤ r := by
    refine le_trans (mul_le_mul_of_nonneg_right ?_ hunit.le) h.low_le
    linarith [x.reach_le]
  have hhigh := h.le_high
  rw [abs_le, magnitude]
  constructor <;> linarith

/-- A whole number below 2 ^ 64 is moved by at most 2 ^ 11. -/
theorem abs_value_ofInt_sub_le {n : Nat} (hpos : 0 < n) (hn : n < 2 ^ 64) :
    |(ofInt n).value - n| ≤ 2 ^ 11 := by
  obtain ⟨hsign, hcell⟩ := inCell_ofInt hpos hn
  rw [value_eq, hsign, if_neg Bool.false_ne_true, one_mul]
  generalize ofInt n = x at *
  have hunit : (0 : ℚ) < 2 ^ x.exponent := by positivity
  have hexponent : x.exponent ≤ 12 := by
    by_contra hlarge
    have hmantissa : 2 ^ 52 ≤ x.mantissa := by
      have hfull := x.canonical.2.2.2
      omega
    have hmantissa' : (2 : ℚ) ^ 52 ≤ x.mantissa := by exact_mod_cast hmantissa
    have hpower : (2 : ℚ) ^ (13 : Int) ≤ 2 ^ x.exponent :=
      zpow_le_zpow_right₀ one_le_two (by omega)
    have hlow := hcell.low_le
    have hreach := x.reach_le
    have hn' : (n : ℚ) < 2 ^ 64 := by exact_mod_cast hn
    have hsize : ((2 : ℚ) ^ 52 - 1 / 2) * 2 ^ (13 : Int) ≤ (x.mantissa - x.reach) * 2 ^ x.exponent :=
      mul_le_mul (by linarith) hpower (by positivity) (by linarith)
    have hbound : (2 : ℚ) ^ 64 ≤ ((2 : ℚ) ^ 52 - 1 / 2) * 2 ^ (13 : Int) := by norm_num
    linarith
  have hpower : (2 : ℚ) ^ x.exponent ≤ 2 ^ (12 : Int) := zpow_le_zpow_right₀ one_le_two hexponent
  refine hcell.abs_sub_le.trans ?_
  norm_num at hpower ⊢
  linarith

/-! ### Negative whole numbers -/

theorem value_neg (x : Double) : x.neg.value = -x.value := by
  have hmagnitude : x.neg.magnitude = x.magnitude := rfl
  have hsign : x.neg.negative = !x.negative := rfl
  rw [value_eq, value_eq, hmagnitude, hsign]
  cases x.negative <;> simp

/-- Rounding does not look at the sign. -/
theorem nearest_not (negative : Bool) (num den : Nat) :
    nearest (!negative) num den = (nearest negative num den).map neg := by
  have hmake (m : Nat) (e : Int) : make? (!negative) m e = (make? negative m e).map neg := by
    unfold make?
    split <;> rfl
  unfold nearest
  split
  · rfl
  · dsimp only
    split
    · exact hmake _ _
    · exact hmake _ _

theorem value_ofInt_neg (n : Int) : (ofInt (-n)).value = -(ofInt n).value := by
  by_cases hzero : n = 0
  · subst hzero
    exact (value_zero false).trans (neg_eq_zero.mpr (value_zero false)).symm
  · have hsign : decide (-n < 0) = !decide (n < 0) := by
      rw [← decide_not, decide_eq_decide]
      omega
    rw [ofInt, ofInt, Int.natAbs_neg, hsign, nearest_not]
    cases nearest (decide (n < 0)) n.natAbs 1 with
    | none =>
        rw [Option.map_none, Option.getD_none, value_zero, neg_zero]
    | some x => exact x.value_neg

/-- A whole number above 2 ^ 53 in size is not rounded to one below 2 ^ 52. -/
theorem le_abs_value_ofInt {n : Int} (hlarge : 2 ^ 53 < |n|) (hn : |n| < 2 ^ 64) :
    2 ^ 52 ≤ |(ofInt n).value| := by
  have hsize : |(ofInt n).value| = |(ofInt n.natAbs).value| := by
    rcases Int.natAbs_eq n with hpos | hneg
    · rw [← hpos]
    · rw [hneg, value_ofInt_neg, abs_neg, Int.natAbs_neg, Int.natAbs_natCast]
  rw [Int.abs_eq_natAbs] at hlarge hn
  have hlarge' : 2 ^ 53 < n.natAbs := by exact_mod_cast hlarge
  have hmoved := abs_value_ofInt_sub_le (Nat.zero_lt_of_lt hlarge') (by exact_mod_cast hn)
  have hcast : (2 : ℚ) ^ 53 < n.natAbs := by exact_mod_cast hlarge'
  have hvalue : (n.natAbs : ℚ) - 2 ^ 11 ≤ (ofInt n.natAbs).value := by
    linarith [(abs_le.mp hmoved).1]
  rw [hsize]
  refine le_trans ?_ (le_abs_self _)
  norm_num at hcast hvalue ⊢
  linarith

/-! ### Sums -/

/-- A sum that is the value of a double is not rounded. -/
theorem add?_of_value {x y z : Double} (hsum : x.value + y.value = z.value) :
    ∃ u, x.add? y = some u ∧ u.value = z.value := by
  rw [add?]
  by_cases hzero : x.value + y.value = 0
  · exact ⟨_, if_pos hzero, by rw [value_zero, ← hsum, hzero]⟩
  · have hmantissa : z.mantissa ≠ 0 := by
      rwa [Ne, ← value_eq_zero_iff, ← hsum]
    have hsign : decide (x.value + y.value < 0) = z.negative := by
      rw [Bool.eq_iff_iff, decide_eq_true_iff, negative_iff z hmantissa, hsum]
    have habs : |z.value| =
        ((x.value + y.value).num.natAbs : ℚ) / ((x.value + y.value).den : ℚ) := by
      rw [← hsum, Nat.cast_natAbs, Int.cast_abs, ← abs_of_pos (a := ((x.value + y.value).den : ℚ)),
        ← abs_div, Rat.num_div_den]
      exact_mod_cast (x.value + y.value).den_pos
    refine ⟨z, ?_, rfl⟩
    rw [if_neg hzero, ofRat?, hsign, nearest_value hmantissa (Rat.den_pos _) habs]

/-- A sum that is a whole number up to 2 ^ 53 in size is not rounded. -/
theorem add?_of_whole {x y : Double} {n : Int} (hsum : x.value + y.value = n) (hn : |n| ≤ 2 ^ 53) :
    ∃ z, x.add? y = some z ∧ z.value = n := by
  obtain ⟨z, hz⟩ := exists_value_eq hn
  obtain ⟨u, hu, hvalue⟩ := add?_of_value (hsum.trans hz.symm)
  exact ⟨u, hu, hvalue.trans hz⟩

end Double

namespace Json

/-- The whole number that a value is, if it is one. -/
def integer? : Json → Option Int
  | number (.whole n) => some n.val
  | number (.real x) => x.whole?
  | _ => none

/-- A whole number up to 2 ^ 53 in size is computed with as it is. -/
theorem exists_double {v : Json} {n : Int} (hv : v.integer? = some n) (hn : |n| ≤ 2 ^ 53) :
    ∃ x, v.double? = some x ∧ x.value = n := by
  unfold integer? at hv
  split at hv
  · rename_i w
    obtain rfl := Option.some.inj hv
    exact ⟨_, rfl, Double.value_ofInt hn⟩
  · exact ⟨_, rfl, Double.whole?_eq_some_iff.mp hv⟩
  · cases hv

theorem double?_isSome {v : Json} (hv : v.integer?.isSome) : v.double?.isSome := by
  unfold integer? at hv
  split at hv
  · rfl
  · rfl
  · cases hv

theorem ofInt_of_abs_le {n : Int} (hn : |n| ≤ 2 ^ 53) :
    ∃ h : -(2 ^ 63) ≤ n ∧ n < 2 ^ 64, ofInt n = .number (.whole ⟨n, h.1, h.2⟩) := by
  obtain ⟨hlow, hhigh⟩ := abs_le.mp hn
  have hrange : -(2 ^ 63) ≤ n ∧ n < 2 ^ 64 := by omega
  exact ⟨hrange, by rw [ofInt, Whole.ofInt?, dif_pos hrange]⟩

theorem integer?_ofInt {n : Int} (hn : |n| ≤ 2 ^ 53) : (ofInt n).integer? = some n := by
  obtain ⟨_, hwhole⟩ := ofInt_of_abs_le hn
  rw [hwhole, integer?]

/-- A sum of whole numbers that stays up to 2 ^ 53 in size is written as the whole number. -/
theorem ofDouble?_add {x y : Double} {a b : Int} (hx : x.value = a) (hy : y.value = b)
    (hsum : |a + b| ≤ 2 ^ 53) : ofDouble? (x.add? y) = ofInt (a + b) := by
  have hexact : x.value + y.value = ((a + b : Int) : ℚ) := by rw [hx, hy, Int.cast_add]
  obtain ⟨z, hz, hvalue⟩ := Double.add?_of_whole hexact hsum
  obtain ⟨_, hwhole⟩ := ofInt_of_abs_le hsum
  obtain ⟨hlow, hhigh⟩ := abs_le.mp hsum
  have hrange : -(2 ^ 63) < a + b ∧ a + b < 2 ^ 63 := by omega
  rw [hz, hwhole, ofDouble?, Number.ofDouble, Double.whole?_eq_some_iff.mpr hvalue]
  simp only [hrange, and_self, dif_pos]

end Json

end Curator
