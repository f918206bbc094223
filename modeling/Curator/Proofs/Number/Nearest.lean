/-
Rounding finds the double whose cell a number lies in.

The cell of a double is the interval of the numbers that are nearer to it than to any other double,
with its two ends when the mantissa is even.  It reaches half a unit of the last place up and down,
except that below a power of two the doubles are twice as dense.  `nearest_eq` says that a quotient in
the cell of a double rounds to that double.  The exponent is fixed by the binade of the quotient, and
only below a power of two is it one too small; then the mantissa rounds up to the next power of two and
the two corrections cancel.  Every positive quotient below 2 ^ 1023 lies in a cell (`exists_inCell`).

A double that is not zero lies in its own cell, so a double is determined by its value, and rounding a
value that a double has gives that double back.
-/
import Curator.Json.Basic
import Mathlib.Algebra.Order.Field.Power
import Mathlib.Data.Nat.Log
import Mathlib.Tactic.FieldSimp
import Mathlib.Tactic.Linarith
import Mathlib.Tactic.NormNum
import Mathlib.Tactic.Positivity
import Mathlib.Tactic.Ring

namespace Curator

namespace Double

/-! ### Values -/

/-- The size of a double. -/
def magnitude (x : Double) : ℚ := x.mantissa * (2 : ℚ) ^ x.exponent

theorem zpow_eq_toNat (b : ℚ) (e : Int) :
    b ^ e = b ^ e.toNat / b ^ (-e).toNat := by
  rcases Int.le_total 0 e with he | he
  · have hneg : (-e).toNat = 0 := by omega
    rw [hneg, pow_zero, div_one, ← zpow_natCast, Int.toNat_of_nonneg he]
  · have hpos : e.toNat = 0 := by omega
    rw [hpos, pow_zero, one_div, ← zpow_natCast, ← zpow_neg, Int.toNat_of_nonneg (by omega), neg_neg]

theorem value_eq (x : Double) : x.value = (if x.negative then -1 else 1) * x.magnitude := by
  rw [value, magnitude, Rat.mkRat_eq_div, zpow_eq_toNat]
  cases x.negative
  · push_cast
    ring
  · push_cast
    ring

/-! ### Rounding a quotient to a natural number -/

/-- A quotient rounds to a number at most half away from it, and in the middle to an even one. -/
theorem roundQuotient_spec (num : Nat) {den : Nat} (hden : 0 < den) :
    ∃ m, roundQuotient num den = m ∧
      (2 * m * den < 2 * num + den ∨ (m % 2 = 0 ∧ 2 * m * den = 2 * num + den)) ∧
      (2 * num < (2 * m + 1) * den ∨ (m % 2 = 0 ∧ 2 * num = (2 * m + 1) * den)) := by
  have hnum := Nat.div_add_mod num den
  have hrest := Nat.mod_lt num hden
  unfold roundQuotient
  generalize num / den = q at *
  generalize num % den = r at *
  subst hnum
  have hdown : 2 * q * den = 2 * (den * q) := by ring
  have hdown' : (2 * q + 1) * den = 2 * (den * q) + den := by ring
  have hup : 2 * (q + 1) * den = 2 * (den * q) + 2 * den := by ring
  have hup' : (2 * (q + 1) + 1) * den = 2 * (den * q) + 3 * den := by ring
  dsimp only
  split
  · exact ⟨q, rfl, Or.inl (by omega), Or.inl (by omega)⟩
  · split
    · exact ⟨q + 1, rfl, Or.inl (by omega), Or.inl (by omega)⟩
    · split
      · exact ⟨q, rfl, Or.inl (by omega), Or.inr ⟨‹_›, by omega⟩⟩
      · exact ⟨q + 1, rfl, Or.inr ⟨by omega, by omega⟩, Or.inl (by omega)⟩

/-- A quotient rounds to the one number that it is at most half away from, in the middle to the even
one. -/
theorem roundQuotient_eq_iff {num den m : Nat} (hden : 0 < den) :
    roundQuotient num den = m ↔
      (2 * m * den < 2 * num + den ∨ (m % 2 = 0 ∧ 2 * m * den = 2 * num + den)) ∧
      (2 * num < (2 * m + 1) * den ∨ (m % 2 = 0 ∧ 2 * num = (2 * m + 1) * den)) := by
  -- of two such numbers, one more than the other, both would be even
  have hle {a b : Nat}
      (hlow : 2 * a * den < 2 * num + den ∨ (a % 2 = 0 ∧ 2 * a * den = 2 * num + den))
      (hhigh : 2 * num < (2 * b + 1) * den ∨ (b % 2 = 0 ∧ 2 * num = (2 * b + 1) * den)) :
      a ≤ b := by
    by_contra hlt
    have hapart : (2 * b + 2) * den ≤ 2 * a * den := Nat.mul_le_mul_right den (by omega)
    have hstep : (2 * b + 2) * den = (2 * b + 1) * den + den := by ring
    have hsame : 2 * a * den = (2 * b + 2) * den := by omega
    have hnext : 2 * a = 2 * b + 2 := Nat.eq_of_mul_eq_mul_right hden hsame
    omega
  obtain ⟨k, hround, hlow, hhigh⟩ := roundQuotient_spec num hden
  rw [hround]
  constructor
  · rintro rfl
    exact ⟨hlow, hhigh⟩
  · rintro ⟨hlow', hhigh'⟩
    exact le_antisymm (hle hlow hhigh') (hle hlow' hhigh)

/-! ### The binade of a quotient -/

theorem binade_spec {num den : Nat} (hnum : 0 < num) (hden : 0 < den) :
    (2 : ℚ) ^ binade num den ≤ num / den ∧ (num : ℚ) / den < 2 ^ (binade num den + 1) := by
  have hnumLow : (2 : ℚ) ^ (num.log2 : Int) ≤ num := by
    rw [zpow_natCast]
    exact_mod_cast Nat.log2_self_le hnum.ne'
  have hnumHigh : (num : ℚ) < 2 ^ ((num.log2 : Int) + 1) := by
    rw [zpow_add_one₀ two_ne_zero, zpow_natCast, ← pow_succ]
    exact_mod_cast Nat.lt_log2_self
  have hdenLow : (2 : ℚ) ^ (den.log2 : Int) ≤ den := by
    rw [zpow_natCast]
    exact_mod_cast Nat.log2_self_le hden.ne'
  have hdenHigh : (den : ℚ) < 2 ^ ((den.log2 : Int) + 1) := by
    rw [zpow_add_one₀ two_ne_zero, zpow_natCast, ← pow_succ]
    exact_mod_cast Nat.lt_log2_self
  have hden' : (0 : ℚ) < den := by exact_mod_cast hden
  generalize hguess : (num.log2 : Int) - den.log2 = e
  have hlog : (num.log2 : Int) = e + den.log2 := by omega
  have htest : den * 2 ^ e.toNat ≤ num * 2 ^ (-e).toNat ↔ (2 : ℚ) ^ e ≤ num / den := by
    rw [zpow_eq_toNat, div_le_div_iff₀ (by positivity) hden', ← @Nat.cast_le ℚ]
    push_cast
    rw [mul_comm]
  have hlow : (2 : ℚ) ^ (e - 1) ≤ num / den := by
    rw [le_div_iff₀ hden']
    calc (2 : ℚ) ^ (e - 1) * den
        ≤ 2 ^ (e - 1) * 2 ^ ((den.log2 : Int) + 1) :=
          mul_le_mul_of_nonneg_left hdenHigh.le (by positivity)
      _ = 2 ^ (num.log2 : Int) := by
          rw [← zpow_add₀ two_ne_zero, hlog]
          congr 1
          ring
      _ ≤ num := hnumLow
  have hhigh : (num : ℚ) / den < 2 ^ (e + 1) := by
    rw [div_lt_iff₀ hden']
    calc (num : ℚ) < 2 ^ ((num.log2 : Int) + 1) := hnumHigh
      _ = 2 ^ (e + 1) * 2 ^ (den.log2 : Int) := by
          rw [← zpow_add₀ two_ne_zero, hlog]
          congr 1
          ring
      _ ≤ 2 ^ (e + 1) * den := mul_le_mul_of_nonneg_left hdenLow (by positivity)
  rw [binade, hguess]
  split
  · rename_i h
    exact ⟨htest.mp h, hhigh⟩
  · rename_i h
    refine ⟨hlow, ?_⟩
    rw [sub_add_cancel]
    exact lt_of_not_ge fun hge => h (htest.mpr hge)

/-! ### Cells -/

/-- How far the cell of a double reaches down, in units of the last place. -/
def reach (x : Double) : ℚ := if x.mantissa = 2 ^ 52 ∧ x.exponent ≠ -1074 then 1 / 4 else 1 / 2

/-- A number lies in the cell of a double: nearer to it than to any other, or midway to another one
when the mantissa is even. -/
structure InCell (x : Double) (r : ℚ) : Prop where
  low : (x.mantissa - x.reach) * 2 ^ x.exponent < r ∨
    (x.mantissa % 2 = 0 ∧ (x.mantissa - x.reach) * 2 ^ x.exponent = r)
  high : r < (x.mantissa + 1 / 2) * 2 ^ x.exponent ∨
    (x.mantissa % 2 = 0 ∧ r = (x.mantissa + 1 / 2) * 2 ^ x.exponent)

theorem reach_pos (x : Double) : 0 < x.reach := by
  unfold reach
  split <;> norm_num

theorem reach_le (x : Double) : x.reach ≤ 1 / 2 := by
  unfold reach
  split <;> norm_num

theorem InCell.low_le {x : Double} {r : ℚ} (h : x.InCell r) :
    (x.mantissa - x.reach) * 2 ^ x.exponent ≤ r := by
  rcases h.low with hlt | ⟨-, heq⟩
  · exact hlt.le
  · exact heq.le

theorem InCell.le_high {x : Double} {r : ℚ} (h : x.InCell r) :
    r ≤ (x.mantissa + 1 / 2) * 2 ^ x.exponent := by
  rcases h.high with hlt | ⟨-, heq⟩
  · exact hlt.le
  · exact heq.le

/-- Scaling a quotient by a power of two and rounding it takes the multiple of the power that it is at
most half of it away from. -/
theorem roundQuotient_scaled_eq_iff {num den m : Nat} (hden : 0 < den) (e : Int) :
    roundQuotient (num * 2 ^ (-e).toNat) (den * 2 ^ e.toNat) = m ↔
      (((m : ℚ) - 1 / 2) * 2 ^ e < num / den ∨
        (m % 2 = 0 ∧ ((m : ℚ) - 1 / 2) * 2 ^ e = num / den)) ∧
      ((num : ℚ) / den < (m + 1 / 2) * 2 ^ e ∨
        (m % 2 = 0 ∧ (num : ℚ) / den = (m + 1 / 2) * 2 ^ e)) := by
  have hden' : (0 : ℚ) < den := by exact_mod_cast hden
  have hpos : (0 : ℚ) < 2 ^ (-e).toNat := by positivity
  have hscale (c : ℚ) : c * 2 ^ e = c * 2 ^ e.toNat / 2 ^ (-e).toNat := by
    rw [zpow_eq_toNat, mul_div_assoc]
  refine (roundQuotient_eq_iff (by positivity)).trans <| and_congr
    (or_congr ?_ (and_congr_right fun _ => ?_)) (or_congr ?_ (and_congr_right fun _ => ?_))
  · rw [hscale, div_lt_div_iff₀ hpos hden', ← @Nat.cast_lt ℚ]
    push_cast
    constructor <;> intro h <;> linarith
  · rw [hscale, div_eq_div_iff hpos.ne' hden'.ne', ← @Nat.cast_inj ℚ]
    push_cast
    constructor <;> intro h <;> linarith
  · rw [hscale, div_lt_div_iff₀ hden' hpos, ← @Nat.cast_lt ℚ]
    push_cast
    constructor <;> intro h <;> linarith
  · rw [hscale, div_eq_div_iff hden'.ne' hpos.ne', ← @Nat.cast_inj ℚ]
    push_cast
    constructor <;> intro h <;> linarith

theorem make?_self (x : Double) : make? x.negative x.mantissa x.exponent = some x :=
  dif_pos x.canonical

/-- The binade of a quotient in the cell of a double gives its exponent, except right below a power of
two. -/
theorem binade_of_inCell {x : Double} {num den : Nat} (hnum : 0 < num) (hden : 0 < den)
    (h : x.InCell (num / den)) :
    max (binade num den - 52) (-1074) = x.exponent ∨
      (x.mantissa = 2 ^ 52 ∧ x.exponent ≠ -1074 ∧ binade num den - 52 = x.exponent - 1 ∧
        (num : ℚ) / den < 2 ^ 52 * 2 ^ x.exponent) := by
  obtain ⟨hmantissa, hlowest, -, hfull⟩ := x.canonical
  obtain ⟨hbinade, hbinade'⟩ := binade_spec hnum hden
  generalize (num : ℚ) / den = r at *
  generalize binade num den = b at *
  have hunit : (0 : ℚ) < 2 ^ x.exponent := by positivity
  have hpower (k : Nat) : (2 : ℚ) ^ (x.exponent + k) = 2 ^ k * 2 ^ x.exponent := by
    rw [zpow_add₀ two_ne_zero, zpow_natCast, mul_comm]
  have hlow := h.low_le
  have hhigh := h.le_high
  have hmantissa' : (x.mantissa : ℚ) + 1 / 2 < 2 ^ 53 := by
    have : (x.mantissa : ℚ) + 1 ≤ 2 ^ 53 := by exact_mod_cast hmantissa
    linarith
  have hle : b ≤ x.exponent + 52 := by
    have hlt : (2 : ℚ) ^ b < 2 ^ (x.exponent + (53 : Nat)) := by
      rw [hpower]
      exact (hbinade.trans hhigh).trans_lt (mul_lt_mul_of_pos_right hmantissa' hunit)
    have := (zpow_lt_zpow_iff_right₀ one_lt_two).mp hlt
    push_cast at this
    omega
  by_cases hsame : max (b - 52) (-1074) = x.exponent
  · exact Or.inl hsame
  · have hnormal : x.exponent ≠ -1074 := by omega
    have hless : b + 1 ≤ x.exponent + (52 : Nat) := by
      push_cast
      omega
    have hbelow : r < 2 ^ 52 * 2 ^ x.exponent := by
      rw [← hpower]
      exact hbinade'.trans_le (zpow_le_zpow_right₀ one_le_two hless)
    have hpowerOfTwo : x.mantissa = 2 ^ 52 := by
      have hreach := x.reach_le
      have hlt : (x.mantissa : ℚ) - x.reach < 2 ^ 52 :=
        lt_of_mul_lt_mul_right (hlow.trans_lt hbelow) hunit.le
      have hlt' : (x.mantissa : ℚ) < 2 ^ 52 + 1 := by linarith
      have : x.mantissa < 2 ^ 52 + 1 := by exact_mod_cast hlt'
      omega
    refine Or.inr ⟨hpowerOfTwo, hnormal, ?_, hbelow⟩
    have hreach : x.reach = 1 / 4 := if_pos ⟨hpowerOfTwo, hnormal⟩
    have hlt : (2 : ℚ) ^ (x.exponent + (51 : Nat)) < 2 ^ (b + 1) := by
      rw [hpower]
      refine lt_of_le_of_lt (le_trans ?_ hlow) hbinade'
      rw [hreach, hpowerOfTwo]
      refine mul_le_mul_of_nonneg_right ?_ hunit.le
      norm_num
    have := (zpow_lt_zpow_iff_right₀ one_lt_two).mp hlt
    push_cast at this
    omega

/-- **Rounding.** A positive quotient in the cell of a double rounds to that double. -/
theorem nearest_eq {x : Double} {num den : Nat} (hnum : 0 < num) (hden : 0 < den)
    (h : x.InCell (num / den)) : nearest x.negative num den = some x := by
  unfold nearest
  rw [if_neg hnum.ne']
  rcases binade_of_inCell hnum hden h with hexponent | ⟨hmantissa, hnormal, hbinade, hbelow⟩
  · have hround : roundQuotient (num * 2 ^ (-x.exponent).toNat) (den * 2 ^ x.exponent.toNat) =
        x.mantissa := by
      refine (roundQuotient_scaled_eq_iff hden _).mpr ⟨?_, h.high⟩
      have hunit : (0 : ℚ) < 2 ^ x.exponent := by positivity
      by_cases hdense : x.mantissa = 2 ^ 52 ∧ x.exponent ≠ -1074
      · have hreach : x.reach = 1 / 4 := if_pos hdense
        have hcloser : ((x.mantissa : ℚ) - 1 / 2) * 2 ^ x.exponent <
            (x.mantissa - x.reach) * 2 ^ x.exponent :=
          mul_lt_mul_of_pos_right (by linarith) hunit
        exact Or.inl (hcloser.trans_le h.low_le)
      · have hreach : x.reach = 1 / 2 := if_neg hdense
        rw [← hreach]
        exact h.low
    have hsmall : x.mantissa ≠ 2 ^ 53 := x.canonical.1.ne
    simp only [hexponent, hround, hsmall, if_false]
    exact x.make?_self
  · -- The binade is one too low, and the mantissa rounds up to the next power of two.
    have hlowest := x.canonical.2.1
    have hmax : max (binade num den - 52) (-1074) = x.exponent - 1 := by omega
    have hhalf : (2 : ℚ) ^ x.exponent = 2 * 2 ^ (x.exponent - 1) := by
      rw [zpow_sub_one₀ two_ne_zero]
      ring
    have hunit : (0 : ℚ) < 2 ^ (x.exponent - 1) := by positivity
    have hreach : x.reach = 1 / 4 := if_pos ⟨hmantissa, hnormal⟩
    have hlowEnd : ((x.mantissa : ℚ) - x.reach) * 2 ^ x.exponent =
        (((2 ^ 53 : Nat) : ℚ) - 1 / 2) * 2 ^ (x.exponent - 1) := by
      rw [hhalf, hreach, hmantissa]
      push_cast
      ring
    have hround : roundQuotient (num * 2 ^ (-(x.exponent - 1)).toNat)
        (den * 2 ^ (x.exponent - 1).toNat) = 2 ^ 53 := by
      refine (roundQuotient_scaled_eq_iff hden _).mpr ⟨?_, Or.inl ?_⟩
      · rw [← hlowEnd]
        exact h.low.imp_right fun heq => ⟨by norm_num, heq.2⟩
      · refine hbelow.trans ?_
        rw [hhalf]
        push_cast
        nlinarith
    simp only [hmax, hround, if_true, sub_add_cancel]
    rw [← hmantissa]
    exact x.make?_self

/-- Every positive quotient that is not too large lies in the cell of a double. -/
theorem exists_inCell {num den : Nat} (hnum : 0 < num) (hden : 0 < den)
    (hsmall : (num : ℚ) / den < 2 ^ (1023 : Int)) (negative : Bool) :
    ∃ x : Double, x.negative = negative ∧ x.InCell (num / den) := by
  obtain ⟨hbinade, hbinade'⟩ := binade_spec hnum hden
  have hb : binade num den < 1023 :=
    (zpow_lt_zpow_iff_right₀ one_lt_two).mp (hbinade.trans_lt hsmall)
  generalize binade num den = b at *
  obtain ⟨e, he⟩ : ∃ e : Int, e = max (b - 52) (-1074) := ⟨_, rfl⟩
  obtain ⟨m, hm⟩ : ∃ m, roundQuotient (num * 2 ^ (-e).toNat) (den * 2 ^ e.toNat) = m := ⟨_, rfl⟩
  obtain ⟨hlow, hhigh⟩ := (roundQuotient_scaled_eq_iff hden e).mp hm
  generalize (num : ℚ) / den = r at *
  have hunit : (0 : ℚ) < 2 ^ e := by positivity
  have hpower (k : Nat) : (2 : ℚ) ^ (e + k) = 2 ^ k * 2 ^ e := by
    rw [zpow_add₀ two_ne_zero, zpow_natCast, mul_comm]
  have hfull : e ≠ -1074 → 2 ^ 52 * 2 ^ e ≤ r := by
    intro hnormal
    rw [← hpower]
    exact (zpow_le_zpow_right₀ one_le_two (by push_cast; omega)).trans hbinade
  have hle : m ≤ 2 ^ 53 := by
    have hbelow : r < 2 ^ 53 * 2 ^ e := by
      rw [← hpower]
      exact hbinade'.trans_le (zpow_le_zpow_right₀ one_le_two (by push_cast; omega))
    have hlow' : ((m : ℚ) - 1 / 2) * 2 ^ e ≤ r := hlow.elim le_of_lt fun h => h.2.le
    have hlt : (m : ℚ) - 1 / 2 < 2 ^ 53 :=
      lt_of_mul_lt_mul_right (hlow'.trans_lt hbelow) hunit.le
    have hlt' : (m : ℚ) < 2 ^ 53 + 1 := by linarith
    have : m < 2 ^ 53 + 1 := by exact_mod_cast hlt'
    omega
  have hhigh' : r ≤ ((m : ℚ) + 1 / 2) * 2 ^ e := hhigh.elim le_of_lt fun h => h.2.le
  rcases Nat.lt_or_eq_of_le hle with hlt | rfl
  · have hnormal : 2 ^ 52 ≤ m ∨ e = -1074 := by
      by_cases hlowest : e = -1074
      · exact Or.inr hlowest
      · have hge : (2 : ℚ) ^ 52 ≤ m + 1 / 2 :=
          le_of_mul_le_mul_right ((hfull hlowest).trans hhigh') hunit
        have hge' : (2 : ℚ) ^ 52 < m + 1 := by linarith
        have : 2 ^ 52 < m + 1 := by exact_mod_cast hge'
        exact Or.inl (by omega)
    refine ⟨⟨negative, m, e, hlt, by omega, by omega, hnormal⟩, rfl, ?_, hhigh⟩
    by_cases hdense : m = 2 ^ 52 ∧ e ≠ -1074
    · refine Or.inl (lt_of_lt_of_le ?_ (hfull hdense.2))
      refine mul_lt_mul_of_pos_right ?_ hunit
      have hmantissa : (m : ℚ) = 2 ^ 52 := by exact_mod_cast hdense.1
      rw [reach, if_pos hdense]
      dsimp only
      linarith
    · rw [reach, if_neg hdense]
      exact hlow
  · -- The mantissa rounds up to the next power of two, whose cell reaches half as far down.
    have hdouble : (2 : ℚ) ^ (e + 1) = 2 * 2 ^ e := by
      rw [zpow_add_one₀ two_ne_zero]
      ring
    refine ⟨⟨negative, 2 ^ 52, e + 1, by norm_num, by omega, by omega, Or.inl le_rfl⟩, rfl, ?_,
      Or.inl ?_⟩
    · rw [reach, if_pos ⟨rfl, by dsimp only; omega⟩]
      have hend : (((2 ^ 52 : Nat) : ℚ) - 1 / 4) * 2 ^ (e + 1) =
          (((2 ^ 53 : Nat) : ℚ) - 1 / 2) * 2 ^ e := by
        rw [hdouble]
        push_cast
        ring
      dsimp only
      rw [hend]
      exact hlow.imp_right fun h => ⟨by norm_num, h.2⟩
    · dsimp only
      rw [hdouble]
      push_cast at hhigh' ⊢
      linarith

/-! ### Doubles and their values -/

theorem magnitude_pos_iff (x : Double) : 0 < x.magnitude ↔ x.mantissa ≠ 0 := by
  rw [magnitude, mul_pos_iff_of_pos_right (by positivity), Nat.cast_pos, Nat.pos_iff_ne_zero]

theorem value_eq_zero_iff (x : Double) : x.value = 0 ↔ x.mantissa = 0 := by
  have hsign : (if x.negative then (-1 : ℚ) else 1) ≠ 0 := by split <;> norm_num
  have hunit : (2 : ℚ) ^ x.exponent ≠ 0 := by positivity
  rw [value_eq, magnitude, mul_eq_zero, mul_eq_zero, Nat.cast_eq_zero]
  tauto

theorem value_zero (negative : Bool) : (zero negative).value = 0 :=
  (value_eq_zero_iff _).mpr rfl

theorem negative_iff (x : Double) (hx : x.mantissa ≠ 0) : x.negative = true ↔ x.value < 0 := by
  have hpos := x.magnitude_pos_iff.mpr hx
  rw [value_eq]
  cases x.negative
  · simp [hpos.le]
  · simp [hpos]

theorem abs_value (x : Double) : |x.value| = x.magnitude := by
  have hnonneg : 0 ≤ x.magnitude := by
    unfold magnitude
    positivity
  rw [value_eq, abs_mul, abs_of_nonneg hnonneg]
  split <;> norm_num

theorem inCell_magnitude (x : Double) : x.InCell x.magnitude := by
  have hunit : (0 : ℚ) < 2 ^ x.exponent := by positivity
  have hreach := x.reach_pos
  refine ⟨Or.inl ?_, Or.inl ?_⟩
  · exact mul_lt_mul_of_pos_right (by linarith) hunit
  · exact mul_lt_mul_of_pos_right (by linarith) hunit

/-- A value that a double has rounds to that double. -/
theorem nearest_value {x : Double} (hx : x.mantissa ≠ 0) {num den : Nat} (hden : 0 < den)
    (hvalue : |x.value| = num / den) : nearest x.negative num den = some x := by
  have hmagnitude := x.abs_value.symm.trans hvalue
  have hnum : 0 < num := by
    by_contra hzero
    have hpos := x.magnitude_pos_iff.mpr hx
    rw [hmagnitude, Nat.eq_zero_of_not_pos hzero] at hpos
    simp at hpos
  exact nearest_eq hnum hden (hmagnitude ▸ x.inCell_magnitude)

/-- Doubles other than zero are determined by their values. -/
theorem eq_of_value_eq {x y : Double} (hx : x.mantissa ≠ 0) (h : x.value = y.value) : x = y := by
  have hy : y.mantissa ≠ 0 := by
    rwa [Ne, ← value_eq_zero_iff, ← h, value_eq_zero_iff]
  have hsign : x.negative = y.negative := by
    rw [Bool.eq_iff_iff, negative_iff x hx, negative_iff y hy, h]
  obtain ⟨num, den, hden, hquotient⟩ : ∃ num den : Nat, 0 < den ∧ |x.value| = num / den := by
    refine ⟨|x.value|.num.natAbs, |x.value|.den, |x.value|.den_pos, ?_⟩
    rw [Nat.cast_natAbs, abs_of_nonneg (Rat.num_nonneg.mpr (abs_nonneg _)), Rat.num_div_den]
  have hxs := nearest_value hx hden hquotient
  have hys := nearest_value hy hden (h ▸ hquotient)
  rw [hsign, hys] at hxs
  exact (Option.some.inj hxs).symm

theorem ofInt_eq {x : Double} (hx : x.mantissa ≠ 0) {n : Int} (h : x.value = n) :
    ofInt n = x := by
  have hsign : decide (n < 0) = x.negative := by
    rw [Bool.eq_iff_iff, decide_eq_true_iff, negative_iff x hx, h, Int.cast_lt_zero]
  have hvalue : |x.value| = (n.natAbs : ℚ) / ((1 : Nat) : ℚ) := by
    rw [h, Nat.cast_one, div_one, Nat.cast_natAbs, Int.cast_abs]
  rw [ofInt, hsign, nearest_value hx one_pos hvalue]
  rfl

theorem ofInt_value {x : Double} {n : Int} (h : x.value = n) : (ofInt n).value = n := by
  by_cases hx : x.mantissa = 0
  · have hn : n = 0 := by
      rw [(value_eq_zero_iff x).mpr hx] at h
      exact_mod_cast h.symm
    subst hn
    exact value_zero false
  · rw [ofInt_eq hx h, h]

theorem whole?_eq_some_iff {x : Double} {n : Int} : x.whole? = some n ↔ x.value = n := by
  unfold whole?
  constructor
  · intro h
    split at h
    · rename_i hden
      rw [← Rat.num_div_den x.value, hden, Option.some.inj h]
      simp
    · cases h
  · intro h
    rw [h]
    simp

/-! ### The order of two doubles -/

theorem order_eq_lt_iff (x y : Double) : x.order y = .lt ↔ x.value < y.value := by
  rw [order]
  split
  · exact iff_of_true rfl ‹_›
  · split <;> exact iff_of_false (by decide) ‹¬x.value < y.value›

theorem order_eq_gt_iff (x y : Double) : x.order y = .gt ↔ y.value < x.value := by
  rw [order]
  split
  · rename_i h
    exact iff_of_false (by decide) (lt_asymm h)
  · split
    · exact iff_of_true rfl ‹_›
    · exact iff_of_false (by decide) ‹_›

theorem order_eq_eq_iff (x y : Double) : x.order y = .eq ↔ x.value = y.value := by
  constructor
  · intro h
    have hless : ¬ x.value < y.value := by
      rw [← order_eq_lt_iff, h]
      decide
    have hmore : ¬ y.value < x.value := by
      rw [← order_eq_gt_iff, h]
      decide
    exact le_antisymm (not_lt.mp hmore) (not_lt.mp hless)
  · intro h
    rw [order, h, if_neg (lt_irrefl _), if_neg (lt_irrefl _)]

theorem swap_order (x y : Double) : (x.order y).swap = y.order x := by
  cases h : x.order y with
  | lt => exact ((order_eq_gt_iff y x).mpr ((order_eq_lt_iff x y).mp h)).symm
  | eq => exact ((order_eq_eq_iff y x).mpr ((order_eq_eq_iff x y).mp h).symm).symm
  | gt => exact ((order_eq_lt_iff y x).mpr ((order_eq_gt_iff x y).mp h)).symm

end Double

namespace Number

/-- Doubles of one value are written as one number. -/
theorem ofDouble_congr {x y : Double} (h : x.value = y.value) : ofDouble x = ofDouble y := by
  have hwhole : x.whole? = y.whole? := by
    unfold Double.whole?
    rw [h]
  by_cases hx : x.mantissa = 0
  · have hzero : x.whole? = some 0 := by
      rw [Double.whole?_eq_some_iff, (Double.value_eq_zero_iff x).mpr hx]
      rfl
    simp [ofDouble, ← hwhole, hzero]
  · rw [Double.eq_of_value_eq hx h]

/-- Reading a number back as a double keeps its value. -/
theorem value_toDouble_ofDouble (x : Double) : (ofDouble x).toDouble.value = x.value := by
  unfold ofDouble
  split
  · rename_i n hn
    have hvalue := Double.whole?_eq_some_iff.mp hn
    split
    · rw [toDouble, Double.ofInt_value hvalue, hvalue]
    · rfl
  · rfl

theorem ofDouble_toDouble (x : Double) : ofDouble (ofDouble x).toDouble = ofDouble x :=
  ofDouble_congr (value_toDouble_ofDouble x)

end Number

end Curator
