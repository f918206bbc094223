/-
The shortest decimal of a double reads back as that double.

`Shortest.readsBack` is the cell of a double in natural numbers, so whatever the search finds lies in
the cell; the value written out in full does so anyway, and moving zeros into the exponent changes no
value.  Reading a decimal rounds it, unless its exponent is far out.  A decimal in a cell never is,
since cells reach from half of the smallest double to the largest one.
-/
import Curator.Number.Shortest
import Curator.Proofs.Number.Nearest

namespace Curator

namespace DecimalForm

/-- The number that a decimal stands for. -/
def value (d : DecimalForm) : ℚ := d.digits * (10 : ℚ) ^ d.exponent

end DecimalForm

namespace Shortest

/-! ### Decimals in cells -/

theorem compareScaled_cast (a : Nat) (i : Int) (b : Nat) (j : Int) :
    ((a * 10 ^ i.toNat * 2 ^ (-j).toNat : Nat) : ℚ) =
        a * 10 ^ i * (10 ^ (-i).toNat * 2 ^ (-j).toNat) ∧
      ((b * 2 ^ j.toNat * 10 ^ (-i).toNat : Nat) : ℚ) =
        b * 2 ^ j * (10 ^ (-i).toNat * 2 ^ (-j).toNat) := by
  constructor
  · rw [Double.zpow_eq_toNat 10 i]
    push_cast
    field_simp
  · rw [Double.zpow_eq_toNat 2 j]
    push_cast
    field_simp

theorem compareScaled_eq_lt_iff {a : Nat} {i : Int} {b : Nat} {j : Int} :
    compareScaled a i b j = .lt ↔ (a : ℚ) * 10 ^ i < b * 2 ^ j := by
  obtain ⟨ha, hb⟩ := compareScaled_cast a i b j
  rw [compareScaled, Nat.compare_eq_lt, ← @Nat.cast_lt ℚ, ha, hb,
    mul_lt_mul_iff_of_pos_right (by positivity)]

theorem compareScaled_eq_gt_iff {a : Nat} {i : Int} {b : Nat} {j : Int} :
    compareScaled a i b j = .gt ↔ (b : ℚ) * 2 ^ j < a * 10 ^ i := by
  obtain ⟨ha, hb⟩ := compareScaled_cast a i b j
  rw [compareScaled, Nat.compare_eq_gt, ← @Nat.cast_lt ℚ, ha, hb,
    mul_lt_mul_iff_of_pos_right (by positivity)]

theorem compareScaled_eq_eq_iff {a : Nat} {i : Int} {b : Nat} {j : Int} :
    compareScaled a i b j = .eq ↔ (a : ℚ) * 10 ^ i = b * 2 ^ j := by
  obtain ⟨ha, hb⟩ := compareScaled_cast a i b j
  rw [compareScaled, Nat.compare_eq_eq, ← @Nat.cast_inj ℚ, ha, hb,
    mul_left_inj' (by positivity)]

/-- What reads back as a double are the decimals in its cell. -/
theorem readsBack_iff {x : Double} (hx : x.mantissa ≠ 0) {d : DecimalForm} :
    readsBack x d = true ↔ x.InCell d.value := by
  have hquarter : (2 : ℚ) ^ x.exponent = 4 * 2 ^ (x.exponent - 2) := by
    rw [zpow_sub₀ two_ne_zero]
    norm_num
    ring
  have hlow : (((if x.mantissa = 2 ^ 52 ∧ x.exponent ≠ -1074 then 4 * x.mantissa - 1
      else 4 * x.mantissa - 2 : Nat)) : ℚ) * 2 ^ (x.exponent - 2) =
      (x.mantissa - x.reach) * 2 ^ x.exponent := by
    rw [hquarter, Double.reach]
    split
    · rw [Nat.cast_sub (by omega)]
      push_cast
      ring
    · rw [Nat.cast_sub (by omega)]
      push_cast
      ring
  have hhigh : ((4 * x.mantissa + 2 : Nat) : ℚ) * 2 ^ (x.exponent - 2) =
      (x.mantissa + 1 / 2) * 2 ^ x.exponent := by
    rw [hquarter]
    push_cast
    ring
  unfold readsBack
  simp only [Bool.and_eq_true, Bool.or_eq_true, beq_iff_eq, bne_iff_ne, compareScaled_eq_gt_iff,
    compareScaled_eq_lt_iff, compareScaled_eq_eq_iff, hlow, hhigh]
  constructor
  · rintro ⟨hfrom, hto⟩
    exact ⟨hfrom.imp_right fun h => ⟨h.1, h.2.symm⟩, hto⟩
  · rintro ⟨hfrom, hto⟩
    exact ⟨hfrom.imp_right fun h => ⟨h.1, h.2.symm⟩, hto⟩

theorem onGrid?_readsBack {tie : Tie} {x : Double} {unit : Int} {d : DecimalForm}
    (h : onGrid? tie x unit = some d) : readsBack x d = true := by
  unfold onGrid? at h
  dsimp only at h
  split at h
  · rename_i hlower hupper
    cases h
    split
    · exact hlower
    · exact hupper
    · split
      · exact hupper
      · exact hlower
  · rename_i hlower _
    cases h
    exact hlower
  · rename_i _ hupper
    cases h
    exact hupper
  · cases h

theorem exact_value (x : Double) : (exact x).value = x.magnitude := by
  unfold exact DecimalForm.value Double.magnitude
  split
  · rename_i he
    obtain ⟨k, hk⟩ := Int.eq_ofNat_of_zero_le he
    rw [hk]
    push_cast
    simp
  · rename_i he
    obtain ⟨k, hk⟩ : ∃ k : Nat, x.exponent = -(k : Int) := ⟨(-x.exponent).toNat, by omega⟩
    have hten : (10 : ℚ) ^ k = 2 ^ k * 5 ^ k := by rw [← mul_pow]; norm_num
    rw [hk, neg_neg, Int.toNat_natCast, zpow_neg, zpow_neg, zpow_natCast, zpow_natCast, hten]
    push_cast
    field_simp

theorem strip_value (n : Nat) (d : DecimalForm) : (strip n d).value = d.value := by
  induction n generalizing d with
  | zero => rfl
  | succ n ih =>
      rw [strip]
      split
      · rename_i hdigits
        obtain ⟨k, hk⟩ : ∃ k, d.digits = 10 * k := ⟨d.digits / 10, by omega⟩
        have hdiv : d.digits / 10 = k := by omega
        rw [ih, DecimalForm.value, DecimalForm.value, zpow_add_one₀ (by norm_num), hdiv, hk]
        push_cast
        ring
      · rfl

end Shortest

namespace Double

/-- The shortest decimal of a double lies in its cell. -/
theorem inCell_shortest {x : Double} (hx : x.mantissa ≠ 0) (tie : Tie) :
    x.InCell (x.shortest tie).value := by
  unfold shortest
  rw [if_neg hx]
  dsimp only
  rw [Shortest.strip_value]
  cases hfound : (List.range 17).findSome? fun n =>
      Shortest.onGrid? tie x (Shortest.scale x - (n + 1 : Nat)) with
  | none =>
      rw [Option.getD_none, Shortest.exact_value]
      exact x.inCell_magnitude
  | some d =>
      obtain ⟨n, -, hn⟩ := List.exists_of_findSome?_eq_some hfound
      exact (Shortest.readsBack_iff hx).mp (Shortest.onGrid?_readsBack hn)

/-! ### Reading decimals -/

theorem InCell.lower {x : Double} (hx : x.mantissa ≠ 0) {r : ℚ} (h : x.InCell r) :
    (2 : ℚ) ^ (-1075 : Int) ≤ r := by
  have hmantissa : (1 : ℚ) ≤ x.mantissa := by exact_mod_cast Nat.one_le_iff_ne_zero.mpr hx
  have hreach := x.reach_le
  have hunit : (2 : ℚ) ^ (-1074 : Int) ≤ 2 ^ x.exponent :=
    zpow_le_zpow_right₀ one_le_two x.canonical.2.1
  have hpos : (0 : ℚ) < 2 ^ (-1074 : Int) := by positivity
  calc (2 : ℚ) ^ (-1075 : Int) = 1 / 2 * 2 ^ (-1074 : Int) := by
        rw [show (-1075 : Int) = -1074 - 1 by norm_num, zpow_sub_one₀ two_ne_zero]
        ring
    _ ≤ (x.mantissa - x.reach) * 2 ^ x.exponent :=
        mul_le_mul (by linarith) hunit hpos.le (by linarith)
    _ ≤ r := h.low_le

theorem InCell.upper {x : Double} {r : ℚ} (h : x.InCell r) : r < (2 : ℚ) ^ (1024 : Int) := by
  have hmantissa : (x.mantissa : ℚ) + 1 ≤ 2 ^ 53 := by exact_mod_cast x.canonical.1
  have hunit : (2 : ℚ) ^ x.exponent ≤ 2 ^ (971 : Int) :=
    zpow_le_zpow_right₀ one_le_two x.canonical.2.2.1
  have hpos : (0 : ℚ) < 2 ^ x.exponent := by positivity
  calc r ≤ (x.mantissa + 1 / 2) * 2 ^ x.exponent := h.le_high
    _ < 2 ^ 53 * 2 ^ x.exponent := mul_lt_mul_of_pos_right (by linarith) hpos
    _ ≤ 2 ^ 53 * 2 ^ (971 : Int) := mul_le_mul_of_nonneg_left hunit (by positivity)
    _ = 2 ^ (1024 : Int) := by
        rw [← zpow_natCast, ← zpow_add₀ two_ne_zero]
        norm_num

/-- The powers of ten beyond which decimals are not written out are outside all cells. -/
theorem two_zpow_le_ten_zpow : (2 : ℚ) ^ (1200 : Int) ≤ 10 ^ (400 : Int) := by
  calc (2 : ℚ) ^ (1200 : Int) = (2 ^ (3 : Int)) ^ (400 : Int) := by
        rw [← zpow_mul]
        rfl
    _ ≤ 10 ^ (400 : Int) := by
        refine zpow_le_zpow_left₀ (by norm_num) (by positivity) ?_
        norm_num

/-- A decimal in the cell of a double is read as that double. -/
theorem ofDecimal?_eq {x : Double} (hx : x.mantissa ≠ 0) {digits : Nat} {exponent : Int}
    (h : x.InCell (digits * (10 : ℚ) ^ exponent)) :
    ofDecimal? x.negative digits exponent = some x := by
  have hlower := h.lower hx
  have hupper := h.upper
  have hdigits : digits ≠ 0 := by
    rintro rfl
    rw [Nat.cast_zero, zero_mul] at hlower
    exact absurd hlower (not_le.mpr (by positivity))
  have hone : (1 : ℚ) ≤ digits := by exact_mod_cast Nat.one_le_iff_ne_zero.mpr hdigits
  have hsmall : exponent ≤ 400 := by
    by_contra hlarge
    have hbig : (2 : ℚ) ^ (1024 : Int) ≤ 10 ^ exponent :=
      calc (2 : ℚ) ^ (1024 : Int) ≤ 2 ^ (1200 : Int) :=
            zpow_le_zpow_right₀ one_le_two (by norm_num)
        _ ≤ 10 ^ (400 : Int) := two_zpow_le_ten_zpow
        _ ≤ 10 ^ exponent := zpow_le_zpow_right₀ (by norm_num) (by omega)
    have hgrow : (10 : ℚ) ^ exponent ≤ digits * 10 ^ exponent :=
      le_mul_of_one_le_left (by positivity) hone
    exact absurd hupper (not_lt.mpr (hbig.trans hgrow))
  have hlarge : -400 - (digits.log2 : Int) ≤ exponent := by
    by_contra hfar
    have hsize : (digits : ℚ) < 10 ^ ((digits.log2 : Int) + 1) :=
      calc (digits : ℚ) < 2 ^ ((digits.log2 : Int) + 1) := by
            rw [zpow_add_one₀ two_ne_zero, zpow_natCast, ← pow_succ]
            exact_mod_cast Nat.lt_log2_self
        _ ≤ 10 ^ ((digits.log2 : Int) + 1) :=
            zpow_le_zpow_left₀ (by omega) (by norm_num) (by norm_num)
    have hvanish : digits * (10 : ℚ) ^ exponent < 2 ^ (-1075 : Int) :=
      calc digits * (10 : ℚ) ^ exponent
          < 10 ^ ((digits.log2 : Int) + 1) * 10 ^ exponent :=
            mul_lt_mul_of_pos_right hsize (by positivity)
        _ = 10 ^ ((digits.log2 : Int) + 1 + exponent) := (zpow_add₀ (by norm_num) _ _).symm
        _ ≤ 10 ^ (-400 : Int) := zpow_le_zpow_right₀ (by norm_num) (by omega)
        _ ≤ 2 ^ (-1200 : Int) := by
            rw [zpow_neg, zpow_neg]
            exact inv_anti₀ (by positivity) two_zpow_le_ten_zpow
        _ ≤ 2 ^ (-1075 : Int) := zpow_le_zpow_right₀ one_le_two (by norm_num)
    exact absurd hlower (not_le.mpr hvanish)
  have hnum : 0 < digits * 10 ^ exponent.toNat := by positivity
  rw [ofDecimal?, if_neg hdigits, if_neg (by omega), if_neg (by omega)]
  refine nearest_eq hnum (by positivity) ?_
  push_cast
  rw [mul_div_assoc, ← zpow_eq_toNat]
  exact h

end Double

end Curator
