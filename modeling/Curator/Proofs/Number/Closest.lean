/-
What a number is rounded to is the closest double.

No double lies between one and its neighbours, which are a unit of its last place above it and twice the
reach of its cell below it.  So a number in the cell of a double is no closer to any other; midway between
two doubles it lies in the cell of the one with the even mantissa.
-/
import Curator.Proofs.Number.Whole

namespace Curator

namespace Double

/-- No double is closer to a number, and if another one is as close, the mantissa of this one is even. -/
structure IsClosest (x : Double) (r : ℚ) : Prop where
  closest : ∀ y : Double, |x.value - r| ≤ |y.value - r|
  even : ∀ y : Double, |y.value - r| = |x.value - r| → y.value ≠ x.value → x.mantissa % 2 = 0

variable {x y : Double} {r : ℚ}

/-! ### Neighbours -/

/-- A double with no smaller a unit is so many units of this one. -/
theorem exists_units (h : x.exponent ≤ y.exponent) :
    ∃ n : Nat, y.magnitude = n * 2 ^ x.exponent := by
  obtain ⟨k, hk⟩ := Int.le.dest h
  refine ⟨y.mantissa * 2 ^ k, ?_⟩
  rw [magnitude, ← hk, zpow_add₀ two_ne_zero, zpow_natCast]
  push_cast
  ring

/-- Between a double and its neighbours there is none. -/
theorem gap (x y : Double) :
    y.magnitude ≤ (x.mantissa - 2 * x.reach) * 2 ^ x.exponent ∨ y.magnitude = x.magnitude ∨
      (x.mantissa + 1) * 2 ^ x.exponent ≤ y.magnitude := by
  have hunit : (0 : ℚ) < 2 ^ x.exponent := by positivity
  have hreach := x.reach_le
  by_cases hunits : x.exponent ≤ y.exponent
  · obtain ⟨n, hn⟩ := exists_units hunits
    rw [hn, magnitude]
    rcases lt_trichotomy n x.mantissa with hless | rfl | hmore
    · left
      have hless' : (n : ℚ) + 1 ≤ x.mantissa := by exact_mod_cast hless
      exact mul_le_mul_of_nonneg_right (by linarith) hunit.le
    · exact Or.inr (Or.inl rfl)
    · right; right
      have hmore' : (x.mantissa : ℚ) + 1 ≤ n := by exact_mod_cast hmore
      exact mul_le_mul_of_nonneg_right hmore' hunit.le
  · -- A smaller unit leaves the other one below the power of two that this one reaches.
    left
    obtain ⟨-, hlowest, -, -⟩ := y.canonical
    have hfull : 2 ^ 52 ≤ x.mantissa := by
      have := x.canonical.2.2.2
      omega
    have hbelow : y.magnitude ≤ (2 ^ 53 - 1) * 2 ^ (x.exponent - 1) := by
      have hmantissa : (y.mantissa : ℚ) + 1 ≤ 2 ^ 53 := by exact_mod_cast y.canonical.1
      refine mul_le_mul (by linarith) ?_ (by positivity) (by norm_num)
      exact zpow_le_zpow_right₀ one_le_two (by omega)
    have hhalf : (2 : ℚ) ^ x.exponent = 2 * 2 ^ (x.exponent - 1) := by
      rw [zpow_sub_one₀ two_ne_zero]
      ring
    have hend : (2 ^ 52 : ℚ) - 1 / 2 ≤ x.mantissa - 2 * x.reach := by
      by_cases hpower : x.mantissa = 2 ^ 52
      · have hquarter : x.reach = 1 / 4 := if_pos ⟨hpower, by omega⟩
        rw [hquarter, hpower]
        norm_num
      · have hmore : (2 ^ 52 : ℚ) + 1 ≤ x.mantissa := by
          exact_mod_cast (by omega : 2 ^ 52 + 1 ≤ x.mantissa)
        linarith
    calc y.magnitude ≤ (2 ^ 53 - 1) * 2 ^ (x.exponent - 1) := hbelow
      _ = (2 ^ 52 - 1 / 2) * 2 ^ x.exponent := by rw [hhalf]; ring
      _ ≤ (x.mantissa - 2 * x.reach) * 2 ^ x.exponent := mul_le_mul_of_nonneg_right hend hunit.le

/-! ### Cells -/

/-- Of two doubles of different size, a number in the cell of one is not closer to the other. -/
theorem InCell.abs_sub_le_of_ne (h : x.InCell r) (hne : y.magnitude ≠ x.magnitude) :
    |x.magnitude - r| ≤ |y.magnitude - r| ∧
      (|y.magnitude - r| = |x.magnitude - r| → x.mantissa % 2 = 0) := by
  have hunit : (0 : ℚ) < 2 ^ x.exponent := by positivity
  have hreach : 0 < x.reach * 2 ^ x.exponent := mul_pos x.reach_pos hunit
  have hvalue : x.magnitude = x.mantissa * 2 ^ x.exponent := rfl
  have hlow := h.low
  have hhigh := h.high
  rw [sub_mul, ← hvalue] at hlow
  rw [add_mul, ← hvalue] at hhigh
  have hgap := x.gap y
  rw [sub_mul, mul_assoc, add_mul, one_mul, ← hvalue] at hgap
  generalize x.magnitude = a at *
  generalize y.magnitude = b at *
  generalize x.reach * 2 ^ x.exponent = low at *
  generalize (2 : ℚ) ^ x.exponent = unit at *
  have hcell : a - low ≤ r ∧ r ≤ a + 1 / 2 * unit :=
    ⟨hlow.elim le_of_lt fun h => h.2.le, hhigh.elim le_of_lt fun h => h.2.le⟩
  rcases hgap with hbelow | hsame | habove
  · have hfar : |b - r| = r - b := by rw [abs_sub_comm, abs_of_nonneg (by linarith)]
    rw [hfar, abs_le]
    refine ⟨⟨by linarith, by linarith⟩, fun hequal => ?_⟩
    by_contra hodd
    have hlow' : a - low < r := hlow.resolve_right fun h => hodd h.1
    rcases abs_cases (a - r) with ⟨habs, -⟩ | ⟨habs, -⟩ <;> linarith
  · exact absurd hsame hne
  · have hfar : |b - r| = b - r := abs_of_nonneg (by linarith)
    rw [hfar, abs_le]
    refine ⟨⟨by linarith, by linarith⟩, fun hequal => ?_⟩
    by_contra hodd
    have hhigh' : r < a + 1 / 2 * unit := hhigh.resolve_right fun h => hodd h.1
    rcases abs_cases (a - r) with ⟨habs, -⟩ | ⟨habs, -⟩ <;> linarith

/-- A positive number in the cell of a double has that double closest to it. -/
theorem InCell.isClosest (h : x.InCell r) (hsign : x.negative = false) (hr : 0 < r) :
    x.IsClosest r := by
  have hx : x.value = x.magnitude := by rw [value_eq, hsign, if_neg Bool.false_ne_true, one_mul]
  have hfurther (y : Double) : |y.magnitude - r| ≤ |y.value - r| := by
    have hsizes := abs_abs_sub_abs_le_abs_sub y.value r
    rwa [abs_value, abs_of_pos hr] at hsizes
  refine ⟨fun y => ?_, fun y hequal hne => ?_⟩
  · rw [hx]
    by_cases hsame : y.magnitude = x.magnitude
    · rw [← hsame]
      exact hfurther y
    · exact (h.abs_sub_le_of_ne hsame).1.trans (hfurther y)
  · rw [hx] at hequal hne
    by_cases hsame : y.magnitude = x.magnitude
    · -- The other one is this one with a minus, and not as close.
      exfalso
      have hopposite : y.value = -x.magnitude := by
        rw [← hsame, ← abs_value] at hne ⊢
        rcases abs_choice y.value with habs | habs
        · exact absurd habs.symm hne
        · rw [habs, neg_neg]
      have hpos : 0 < x.magnitude := by
        have hnonneg := abs_nonneg y.value
        rw [abs_value, hsame] at hnonneg
        refine lt_of_le_of_ne hnonneg fun hzero => hne ?_
        rw [hopposite, ← hzero, neg_zero]
      rw [hopposite, abs_sub_comm, abs_of_pos (by linarith)] at hequal
      rcases abs_cases (x.magnitude - r) with ⟨habs, -⟩ | ⟨habs, -⟩ <;> linarith
    · obtain ⟨hle, heven⟩ := h.abs_sub_le_of_ne hsame
      exact heven (le_antisymm (hequal ▸ hfurther y) hle)

/-- The double of a whole number below 2 ^ 64 is the closest one. -/
theorem isClosest_ofInt {n : Nat} (hn : n < 2 ^ 64) :
    nearest false n 1 = some (ofInt n) ∧ (ofInt n).IsClosest n := by
  rcases Nat.eq_zero_or_pos n with rfl | hpos
  · have hvalue : (ofInt (0 : Nat)).value = ((0 : Nat) : ℚ) := value_zero false
    refine ⟨rfl, fun y => ?_, fun _ _ _ => rfl⟩
    rw [hvalue, sub_self, abs_zero]
    exact abs_nonneg _
  · obtain ⟨hsign, hcell⟩ := inCell_ofInt hpos hn
    refine ⟨?_, hcell.isClosest hsign (by exact_mod_cast hpos)⟩
    rw [← hsign]
    refine nearest_eq hpos one_pos ?_
    rwa [Nat.cast_one, div_one]

end Double

end Curator
