/-
The texts of numbers read back.

A number is written as digits, perhaps with a point among them and a power of ten after them, and a
sign in front.  `Writes` says of such a text, without its sign, what number it stands for; the three
ways of placing the point and the one with a power of ten all stand for the decimal that is laid out.
So the text of a double is read as a number in its cell, and that is the double again.  Whole numbers
are written with all their digits, and read as the double of their value.
-/
import Curator.Conversion
import Curator.Proofs.Number.ReadBack

namespace Curator

/-! ### Characters of numbers -/

/-- The characters that numbers are written with. -/
def IsNumeric (c : Char) : Prop := c.isDigit = true ∨ c ∈ ['.', 'e', '+', '-']

namespace Text

theorem isBlank_eq_false_of_isDigit {c : Char} (h : c.isDigit = true) : isBlank c = false := by
  rw [Char.isDigit_iff_toNat] at h
  rw [Bool.eq_false_iff, isBlank, Ne, CharSet.contains_iff]
  rintro ⟨r, hr, hlow, hhigh⟩
  simp only [blank, List.mem_cons, List.not_mem_nil, or_false] at hr
  simp only [Char.reduceToNat] at h
  rcases hr with rfl | rfl | rfl | rfl | rfl | rfl | rfl | rfl | rfl | rfl <;>
    simp only at hlow hhigh <;> omega

theorem isBlank_eq_false_of_isNumeric {c : Char} (h : IsNumeric c) : isBlank c = false := by
  rcases h with h | h
  · exact isBlank_eq_false_of_isDigit h
  · simp only [List.mem_cons, List.not_mem_nil, or_false] at h
    rcases h with rfl | rfl | rfl | rfl <;> decide

/-- A text without blanks has no blank ends. -/
theorem isTrimmed_of_forall {cs : List Char} (h : ∀ c ∈ cs, isBlank c = false) : IsTrimmed cs :=
  ⟨fun c hc => h c (List.mem_of_head? hc), fun c hc => h c (List.mem_of_getLast? hc)⟩

end Text

namespace Radix

/-- What is written like a number in base ten is no literal of another base. -/
theorem literal?_eq_none {cs : List Char} (h : ∀ c ∈ cs, IsNumeric c) : literal? cs = none := by
  have hbase : ∀ c, IsNumeric c → base? c = none := by
    intro c hc
    unfold base?
    rcases hc with hdigit | hc
    · rw [Char.isDigit_iff_toNat] at hdigit
      have hne : ∀ d : Char, 57 < d.toNat → (c == d) = false := by
        intro d hd
        rw [beq_eq_false_iff_ne]
        rintro rfl
        simp only [Char.reduceToNat] at hdigit
        omega
      simp [hne]
    · simp only [List.mem_cons, List.not_mem_nil, or_false] at hc
      rcases hc with rfl | rfl | rfl | rfl <;> rfl
  unfold literal?
  split
  · rename_i letter rest
    rw [hbase letter (h letter (by simp))]
  · rfl

end Radix

namespace Decimal

/-! ### Reading numerals in parts -/

theorem ofDigits_eq (cs : List Char) : ofDigits cs = Nat.ofDigitChars 10 cs 0 := rfl

theorem ofDigits_toDigits (n : Nat) : ofDigits (Nat.toDigits 10 n) = n :=
  Nat.ofDigitChars_ten_toDigits

theorem ofDigits_zeros_append (k : Nat) (cs : List Char) :
    ofDigits (List.replicate k '0' ++ cs) = ofDigits cs := by
  rw [ofDigits_eq, Nat.ofDigitChars_append, Nat.ofDigitChars_replicate_zero, Nat.mul_zero]
  rfl

theorem ofDigits_append_zeros (cs : List Char) (k : Nat) :
    ofDigits (cs ++ List.replicate k '0') = ofDigits cs * 10 ^ k := by
  rw [ofDigits_eq, Nat.ofDigitChars_append, Nat.ofDigitChars_replicate_zero, Nat.mul_comm]
  rfl

/-- No digit comes first. -/
def NoDigitFirst (cs : List Char) : Prop := ∀ c ∈ cs.head?, c.isDigit = false

theorem takeWhile_digits {front rest : List Char} (hfront : ∀ c ∈ front, c.isDigit = true)
    (hrest : NoDigitFirst rest) : (front ++ rest).takeWhile Char.isDigit = front := by
  rw [List.takeWhile_append_of_pos hfront]
  cases rest with
  | nil => simp
  | cons c rest => simp [hrest c rfl]

theorem dropWhile_digits {front rest : List Char} (hfront : ∀ c ∈ front, c.isDigit = true)
    (hrest : NoDigitFirst rest) : (front ++ rest).dropWhile Char.isDigit = rest := by
  rw [List.dropWhile_append_of_pos hfront]
  cases rest with
  | nil => rfl
  | cons c rest => simp [hrest c rfl]

/-- Digits, a point, digits and a power of ten. -/
theorem unsigned?_point {front back rest : List Char} (hne : front ≠ [])
    (hfront : ∀ c ∈ front, c.isDigit = true) (hback : ∀ c ∈ back, c.isDigit = true)
    (hrest : NoDigitFirst rest) :
    unsigned? (front ++ '.' :: (back ++ rest)) =
      (exponent? rest).map fun e => (ofDigits (front ++ back), e - (back.length : Int)) := by
  have hpoint : NoDigitFirst ('.' :: (back ++ rest)) := by
    rintro c ⟨⟩
    rfl
  unfold unsigned?
  rw [takeWhile_digits hfront hpoint, dropWhile_digits hfront hpoint]
  simp only [takeWhile_digits hback hrest, dropWhile_digits hback hrest]
  simp [hne]

/-- Digits and a power of ten. -/
theorem unsigned?_noPoint {front rest : List Char} (hne : front ≠ [])
    (hfront : ∀ c ∈ front, c.isDigit = true) (hrest : NoDigitFirst rest)
    (hpoint : rest.head? ≠ some '.') :
    unsigned? (front ++ rest) = (exponent? rest).map fun e => (ofDigits front, e) := by
  unfold unsigned?
  rw [takeWhile_digits hfront hrest, dropWhile_digits hfront hrest]
  cases rest with
  | nil => simp [hne]
  | cons c rest =>
      have hc : c ≠ '.' := fun heq => hpoint (by rw [heq]; rfl)
      dsimp only
      split
      · rename_i heq
        exact absurd (List.cons.inj heq).1 hc
      · simp [hne]

/-- A text of numeric characters that starts with a digit is a numeral of some number. -/
structure Writes (cs : List Char) (r : ℚ) : Prop where
  read : ∃ digits exponent, unsigned? cs = some (digits, exponent) ∧
    digits * (10 : ℚ) ^ exponent = r
  first : ∃ c rest, cs = c :: rest ∧ c.isDigit = true
  numeric : ∀ c ∈ cs, IsNumeric c

/-- The sign in front of a numeral. -/
def signChars (negative : Bool) : List Char := if negative then ['-'] else []

theorem sign_signChars_append (negative : Bool) {c : Char} (hc : c.isDigit = true)
    (rest : List Char) : sign (signChars negative ++ c :: rest) = (negative, c :: rest) := by
  cases negative with
  | true => rfl
  | false =>
      show sign (c :: rest) = (false, c :: rest)
      unfold sign
      split
      · rename_i heq
        obtain ⟨rfl, -⟩ := List.cons.inj heq
        exact absurd hc (by decide)
      · rename_i heq
        obtain ⟨rfl, -⟩ := List.cons.inj heq
        exact absurd hc (by decide)
      · rfl

/-- What starts with a digit is none of the words. -/
theorem not_unboundedWord {c : Char} (hc : c.isDigit = true) (rest : List Char) :
    unboundedWords.contains (String.ofList ((c :: rest).map Char.toLower)) = false := by
  have hlower : c.toLower = c := by
    unfold Char.toLower
    rw [dif_neg]
    rintro ⟨hupper, -⟩
    have hfrom : 65 ≤ c.toNat := UInt32.le_iff_toNat_le.mp hupper
    have hto := (Char.isDigit_iff_toNat.mp hc).2
    simp only [Char.reduceToNat] at hto
    omega
  rw [List.map_cons, hlower, ← Bool.not_eq_true, List.contains_iff_mem]
  intro hmem
  simp only [unboundedWords, List.mem_cons, List.not_mem_nil, or_false] at hmem
  rcases hmem with heq | heq | heq <;>
    · have hchars := congrArg String.toList heq
      rw [String.toList_ofList] at hchars
      obtain ⟨rfl, -⟩ := List.cons.inj hchars
      exact absurd hc (by decide)

theorem Writes.signed_numeric {cs : List Char} {r : ℚ} (h : Writes cs r) (negative : Bool) :
    ∀ d ∈ signChars negative ++ cs, IsNumeric d := by
  intro d hd
  rcases List.mem_append.mp hd with hd | hd
  · right
    cases negative with
    | true => simp_all [signChars]
    | false => cases hd
  · exact h.numeric d hd

/-- A signed numeral is read as the double nearest to its number. -/
theorem numberOfText_eq {cs : List Char} {r : ℚ} (h : Writes cs r) (negative : Bool) :
    ∃ (digits : Nat) (exponent : Int), digits * (10 : ℚ) ^ exponent = r ∧
      ∀ x, Double.ofDecimal? negative digits exponent = some x →
        numberOfText (signChars negative ++ cs) = .number x := by
  have hnumeric := h.signed_numeric negative
  obtain ⟨digits, exponent, hread, hvalue⟩ := h.read
  obtain ⟨c, rest, rfl, hc⟩ := h.first
  refine ⟨digits, exponent, hvalue, fun x hx => ?_⟩
  have hread' : read? (signChars negative ++ c :: rest) = some (.finite x) := by
    unfold read?
    rw [sign_signChars_append negative hc]
    dsimp only
    rw [not_unboundedWord hc, hread]
    simp only [Bool.false_eq_true, if_false, Option.map_some, hx]
  unfold numberOfText
  rw [Radix.literal?_eq_none hnumeric, hread']
  simp [Numeral.double?]

theorem isDigit_of_mem_toDigits {n : Nat} {c : Char} (h : c ∈ Nat.toDigits 10 n) :
    c.isDigit = true :=
  Nat.isDigit_of_mem_toDigits (by decide) (by decide) h

/-- Only the digits of zero start with a zero. -/
theorem eq_zero_of_head?_toDigits {n : Nat} (h : (Nat.toDigits 10 n).head? = some '0') : n = 0 := by
  induction n using Nat.strong_induction_on with
  | _ n ih =>
      by_cases hn : n < 10
      · rw [Nat.toDigits_of_lt_base hn] at h
        have hdigit : ∀ m < 10, Nat.digitChar m = '0' → m = 0 := by decide
        exact hdigit n hn (Option.some.inj h)
      · rw [Nat.toDigits_of_base_le (by decide) (Nat.le_of_not_lt hn),
          List.head?_append_of_ne_nil _ Nat.toDigits_ne_nil] at h
        have hzero := ih (n / 10) (by omega) h
        omega

theorem isDigit_of_mem_zeros {n : Nat} {c : Char} (h : c ∈ List.replicate n '0') :
    c.isDigit = true := by
  rw [List.eq_of_mem_replicate h]
  rfl

theorem writes_of_read {front tail : List Char} (hne : front ≠ [])
    (hfront : ∀ c ∈ front, c.isDigit = true) (htail : ∀ c ∈ tail, IsNumeric c) {digits : Nat}
    {exponent : Int} (hread : unsigned? (front ++ tail) = some (digits, exponent)) {r : ℚ}
    (hr : digits * (10 : ℚ) ^ exponent = r) : Writes (front ++ tail) r := by
  obtain ⟨c, rest, rfl⟩ := List.exists_cons_of_ne_nil hne
  refine ⟨⟨digits, exponent, hread, hr⟩, ⟨c, rest ++ tail, rfl, hfront c List.mem_cons_self⟩, ?_⟩
  intro d hd
  rcases List.mem_append.mp hd with hd | hd
  · exact Or.inl (hfront d hd)
  · exact htail d hd

/-- Some digits, and a point with more digits after it. -/
theorem writes_point {front back : List Char} (hne : front ≠ [])
    (hfront : ∀ c ∈ front, c.isDigit = true) (hback : ∀ c ∈ back, c.isDigit = true) {r : ℚ}
    (hr : (ofDigits (front ++ back) : ℚ) * 10 ^ (-(back.length : Int)) = r) :
    Writes (front ++ '.' :: back) r := by
  have hend : NoDigitFirst [] := nofun
  have hread := unsigned?_point hne hfront hback hend
  rw [List.append_nil, exponent?, Option.map_some, zero_sub] at hread
  refine writes_of_read hne hfront ?_ hread hr
  intro d hd
  rcases List.mem_cons.mp hd with rfl | hd
  · exact Or.inr (by decide)
  · exact Or.inl (hback d hd)

/-- Nothing but digits. -/
theorem writes_digits {cs : List Char} (hne : cs ≠ []) (hcs : ∀ c ∈ cs, c.isDigit = true) :
    Writes cs (ofDigits cs) := by
  have hend : NoDigitFirst [] := nofun
  have hnothing : ∀ d ∈ ([] : List Char), IsNumeric d := fun _ h => nomatch h
  have hread := unsigned?_noPoint hne hcs hend nofun
  rw [exponent?, Option.map_some] at hread
  have hwrites := writes_of_read hne hcs hnothing hread rfl
  rwa [List.append_nil, zpow_zero, mul_one] at hwrites

/-- All digits of a natural number. -/
theorem writes_toDigits (n : Nat) : Writes (Nat.toDigits 10 n) n := by
  have hwrites := writes_digits (Nat.toDigits_ne_nil (n := n) (b := 10))
    fun c => isDigit_of_mem_toDigits
  rwa [ofDigits_toDigits] at hwrites

end Decimal

namespace Layout

open Decimal

/-! ### Laid out decimals -/

theorem toList_zeros (n : Nat) : (zeros n).toList = List.replicate n '0' := by
  simp [zeros]

/-- Wherever the point is placed, the text stands for the decimal. -/
theorem writes_positionalText (d : DecimalForm) :
    Writes (document.positionalText d).toList d.value := by
  have hdigit : ∀ c ∈ Nat.toDigits 10 d.digits, c.isDigit = true := fun c => isDigit_of_mem_toDigits
  have hlength : (toString d.digits).length = (Nat.toDigits 10 d.digits).length := by
    rw [← String.length_toList, Nat.toString_eq_repr, Nat.toList_repr]
  unfold positionalText
  simp only [hlength]
  split
  · -- The point stands after zeros that the exponent gives.
    rename_i he
    obtain ⟨k, hk⟩ := Int.eq_ofNat_of_zero_le he
    have htext : (toString d.digits ++ zeros d.exponent.toNat ++
        (if document.fraction = true then ".0" else "")).toList =
        (Nat.toDigits 10 d.digits ++ List.replicate k '0') ++ '.' :: ['0'] := by
      simp [document, toList_zeros, hk]
    rw [htext]
    refine writes_point (by simp) ?_ (by simp) ?_
    · intro c hc
      rcases List.mem_append.mp hc with hc | hc
      · exact hdigit c hc
      · exact isDigit_of_mem_zeros hc
    · have hzeros : List.replicate k '0' ++ ['0'] = List.replicate (k + 1) '0' := by
        rw [List.replicate_succ']
      rw [List.append_assoc, hzeros, ofDigits_append_zeros, ofDigits_toDigits, DecimalForm.value,
        hk, List.length_singleton, Nat.cast_one, zpow_neg_one, zpow_natCast, pow_succ]
      push_cast
      field_simp
  · rename_i he
    obtain ⟨k, hk⟩ : ∃ k : Nat, d.exponent = -(k : Int) := ⟨(-d.exponent).toNat, by omega⟩
    have hback : (-d.exponent).toNat = k := by omega
    simp only [hback]
    split
    · -- The point stands among the digits.
      rename_i hless
      generalize hfront : (Nat.toDigits 10 d.digits).length - k = n
      have htext : (String.ofList ((toString d.digits).toList.take n) ++ "." ++
          String.ofList ((toString d.digits).toList.drop n)).toList =
          (Nat.toDigits 10 d.digits).take n ++ '.' :: (Nat.toDigits 10 d.digits).drop n := by
        simp
      rw [htext]
      refine writes_point ?_ (fun c hc => hdigit c (List.mem_of_mem_take hc))
        (fun c hc => hdigit c (List.mem_of_mem_drop hc)) ?_
      · rw [← List.length_pos_iff, List.length_take]
        omega
      · have hplaces : ((Nat.toDigits 10 d.digits).drop n).length = k := by
          rw [List.length_drop]
          omega
        rw [List.take_append_drop, ofDigits_toDigits, hplaces, DecimalForm.value, hk]
    · -- The point stands before zeros and all digits.
      rename_i hmore
      generalize hzeros : k - (Nat.toDigits 10 d.digits).length = n
      have htext : ("0." ++ zeros n ++ toString d.digits).toList =
          ['0'] ++ '.' :: (List.replicate n '0' ++ Nat.toDigits 10 d.digits) := by
        simp [toList_zeros]
      rw [htext]
      refine writes_point (by simp) (by simp) ?_ ?_
      · intro c hc
        rcases List.mem_append.mp hc with hc | hc
        · exact isDigit_of_mem_zeros hc
        · exact hdigit c hc
      · have hplaces : (List.replicate n '0' ++ Nat.toDigits 10 d.digits).length = k := by
          rw [List.length_append, List.length_replicate]
          omega
        have hdigits : ofDigits (['0'] ++ (List.replicate n '0' ++ Nat.toDigits 10 d.digits)) =
            d.digits := by
          rw [← List.append_assoc, ← List.replicate_one, List.replicate_append_replicate,
            ofDigits_zeros_append, ofDigits_toDigits]
        rw [hdigits, hplaces, DecimalForm.value, hk]

/-- The characters of a power of ten after its letter. -/
def powerChars (lead : Int) : List Char :=
  if 0 ≤ lead then '+' :: Nat.toDigits 10 lead.toNat else '-' :: Nat.toDigits 10 (-lead).toNat

theorem toList_toString (n : Int) :
    (toString n).toList = signChars (decide (n < 0)) ++ Nat.toDigits 10 n.natAbs := by
  rw [Int.toString_eq_repr, Int.repr_eq_if]
  split
  · have hneg : ¬ n < 0 := by omega
    have habs : n.natAbs = n.toNat := by omega
    simp [signChars, hneg, habs]
  · have hneg : n < 0 := by omega
    have habs : n.natAbs = (-n).toNat := by omega
    simp [signChars, hneg, habs]

theorem exponent?_powerChars (lead : Int) : exponent? ('e' :: powerChars lead) = some lead := by
  have hall : ∀ n, (Nat.toDigits 10 n).all Char.isDigit = true := by
    intro n
    exact List.all_eq_true.mpr fun c => isDigit_of_mem_toDigits
  by_cases hpos : 0 ≤ lead
  · simp [powerChars, hpos, exponent?, sign, hall, ofDigits_toDigits]
  · simp [powerChars, hpos, exponent?, sign, hall, ofDigits_toDigits]
    omega

theorem isNumeric_of_mem_power {lead : Int} {c : Char} (h : c ∈ 'e' :: powerChars lead) :
    IsNumeric c := by
  rcases List.mem_cons.mp h with rfl | h
  · exact Or.inr (by decide)
  · unfold powerChars at h
    split at h
    · rcases List.mem_cons.mp h with rfl | h
      · exact Or.inr (by decide)
      · exact Or.inl (isDigit_of_mem_toDigits h)
    · rcases List.mem_cons.mp h with rfl | h
      · exact Or.inr (by decide)
      · exact Or.inl (isDigit_of_mem_toDigits h)

/-- With one digit before the point and a power of ten, the text stands for the decimal as well. -/
theorem writes_scientificText (d : DecimalForm) :
    Writes (document.scientificText d
      (d.exponent + (Nat.toDigits 10 d.digits).length - 1)).toList d.value := by
  have hdigit : ∀ c ∈ Nat.toDigits 10 d.digits, c.isDigit = true := fun c => isDigit_of_mem_toDigits
  have hvalue : ofDigits (Nat.toDigits 10 d.digits) = d.digits := ofDigits_toDigits d.digits
  have hpower (lead : Int) : ((if (document.plus && decide (0 ≤ lead)) = true then "+" else "") ++
      toString lead).toList = powerChars lead := by
    rw [String.toList_append, toList_toString, powerChars]
    by_cases hlead : 0 ≤ lead
    · have hneg : ¬ lead < 0 := by omega
      have habs : lead.natAbs = lead.toNat := by omega
      simp [document, hlead, signChars, hneg, habs]
    · have hneg : lead < 0 := by omega
      have habs : lead.natAbs = (-lead).toNat := by omega
      simp [document, hlead, signChars, hneg, habs]
  have hdigits : (toString d.digits).toList = Nat.toDigits 10 d.digits := by
    rw [Nat.toString_eq_repr, Nat.toList_repr]
  unfold scientificText
  dsimp only
  rw [hdigits]
  cases hcs : Nat.toDigits 10 d.digits with
  | nil => exact absurd hcs Nat.toDigits_ne_nil
  | cons c cs =>
      rw [hcs] at hdigit hvalue
      generalize hlead : d.exponent + ((c :: cs).length : Int) - 1 = lead
      have hpowerRead : NoDigitFirst ('e' :: powerChars lead) := by
        rintro d ⟨⟩
        rfl
      cases cs with
      | nil =>
          have htext : (String.ofList [c] ++ "e" ++
              (if (document.plus && decide (0 ≤ lead)) = true then "+" else "") ++
              toString lead).toList = [c] ++ 'e' :: powerChars lead := by
            rw [String.append_assoc, String.toList_append, hpower]
            simp
          have hexponent : lead = d.exponent := by
            simp only [List.length_singleton] at hlead
            omega
          have hread := unsigned?_noPoint (by simp) hdigit hpowerRead nofun
          rw [exponent?_powerChars, Option.map_some, hvalue] at hread
          rw [htext]
          exact writes_of_read (by simp) hdigit (fun d => isNumeric_of_mem_power) hread
            (by rw [DecimalForm.value, hexponent])
      | cons c' cs =>
          have htext : (String.ofList (c :: '.' :: c' :: cs) ++ "e" ++
              (if (document.plus && decide (0 ≤ lead)) = true then "+" else "") ++
              toString lead).toList = [c] ++ '.' :: (c' :: cs ++ 'e' :: powerChars lead) := by
            rw [String.append_assoc, String.toList_append, hpower]
            simp
          have hfront : ∀ d ∈ [c], d.isDigit = true := fun d hd =>
            hdigit d (List.mem_cons.mpr (Or.inl (List.mem_singleton.mp hd)))
          have hback : ∀ d ∈ c' :: cs, d.isDigit = true := fun d hd =>
            hdigit d (List.mem_cons_of_mem _ hd)
          have hexponent : lead - ((c' :: cs).length : Int) = d.exponent := by
            simp only [List.length_cons] at hlead ⊢
            omega
          have hread : unsigned? ([c] ++ '.' :: (c' :: cs ++ 'e' :: powerChars lead)) =
              some (d.digits, lead - ((c' :: cs).length : Int)) := by
            rw [unsigned?_point (by simp) hfront hback hpowerRead, exponent?_powerChars, ← hvalue]
            rfl
          rw [htext]
          refine writes_of_read (by simp) hfront ?_ hread (by rw [DecimalForm.value, hexponent])
          intro d hd
          rcases List.mem_cons.mp hd with rfl | hd
          · exact Or.inr (by decide)
          · rcases List.mem_append.mp hd with hd | hd
            · exact Or.inl (hback d hd)
            · exact isNumeric_of_mem_power hd

theorem text_document (x : Double) :
    ∃ body, (document.text x).toList = signChars x.negative ++ body ∧
      Writes body (x.shortest document.tie).value := by
  have hsign : (if x.negative = true then "-" else "").toList = signChars x.negative := by
    cases x.negative <;> rfl
  have hlength (n : Nat) : (toString n).length = (Nat.toDigits 10 n).length := by
    rw [← String.length_toList, Nat.toString_eq_repr, Nat.toList_repr]
  unfold text
  dsimp only
  generalize x.shortest document.tie = d
  have hbody (plain : Bool) : Writes (if plain = true then document.positionalText d
      else document.scientificText d
        (d.exponent + (Nat.toDigits 10 d.digits).length - 1)).toList d.value := by
    cases plain with
    | true => exact writes_positionalText d
    | false => exact writes_scientificText d
  rw [String.toList_append, hsign, hlength]
  exact ⟨_, rfl, hbody _⟩

/-- The text of a double has a point or a power of ten. -/
theorem exists_mark_text_document (x : Double) :
    ∃ c ∈ (document.text x).toList, c = '.' ∨ c = 'e' := by
  have hpositional (d : DecimalForm) : '.' ∈ (document.positionalText d).toList := by
    unfold positionalText
    dsimp only
    split
    · simp [document]
    · split <;> simp
  have hscientific (d : DecimalForm) (lead : Int) :
      'e' ∈ (document.scientificText d lead).toList := by
    unfold scientificText
    simp
  have hbody (plain : Bool) (d : DecimalForm) (lead : Int) :
      ∃ c ∈ (if plain = true then document.positionalText d
        else document.scientificText d lead).toList, c = '.' ∨ c = 'e' := by
    cases plain with
    | true => exact ⟨'.', hpositional d, .inl rfl⟩
    | false => exact ⟨'e', hscientific d lead, .inr rfl⟩
  unfold text
  dsimp only
  rw [String.toList_append]
  obtain ⟨c, hc, hmark⟩ := hbody _ _ _
  exact ⟨c, List.mem_append_right _ hc, hmark⟩

end Layout

/-! ### Texts of numbers -/

open Decimal

theorem toNumber_of_writes {s : String} {negative : Bool} {cs : List Char} {r : ℚ}
    (hs : s.toList = signChars negative ++ cs) (h : Writes cs r) :
    toNumber (.string s) = numberOfText (signChars negative ++ cs) := by
  rw [toNumber, hs, Text.trimChars_eq_self <| Text.isTrimmed_of_forall fun c hc =>
    Text.isBlank_eq_false_of_isNumeric (h.signed_numeric negative c hc)]

/-- The text of a double in a document reads back as the double. -/
theorem toNumber_documentText {x : Double} (hx : x.mantissa ≠ 0) :
    toNumber (.string (Layout.document.text x)) = .number x := by
  obtain ⟨body, htext, hbody⟩ := Layout.text_document x
  obtain ⟨digits, exponent, hvalue, hread⟩ := numberOfText_eq hbody x.negative
  rw [toNumber_of_writes htext hbody]
  refine hread x (Double.ofDecimal?_eq hx ?_)
  rw [hvalue]
  exact Double.inCell_shortest hx _

/-- The digits of a whole number read back as a double of its value, if there is one. -/
theorem toNumber_toString {x : Double} {n : Int} (hx : x.value = n) :
    ∃ y, toNumber (.string (toString n)) = .number y ∧ y.value = x.value := by
  have hwrites := writes_toDigits n.natAbs
  obtain ⟨digits, exponent, hvalue, hread⟩ := numberOfText_eq hwrites (decide (n < 0))
  rw [toNumber_of_writes (Layout.toList_toString n) hwrites]
  by_cases hzero : x.mantissa = 0
  · have hn : n = 0 := by
      rw [(Double.value_eq_zero_iff x).mpr hzero] at hx
      exact_mod_cast hx.symm
    subst hn
    have hdigits : digits = 0 := by
      simpa [zpow_ne_zero] using hvalue
    refine ⟨_, hread _ (by rw [Double.ofDecimal?, if_pos hdigits]), ?_⟩
    rw [Double.value_zero, (Double.value_eq_zero_iff x).mpr hzero]
  · have hsign : decide (n < 0) = x.negative := by
      rw [Bool.eq_iff_iff, decide_eq_true_iff, Double.negative_iff x hzero, hx, Int.cast_lt_zero]
    refine ⟨x, hread x ?_, rfl⟩
    rw [hsign]
    refine Double.ofDecimal?_eq hzero ?_
    rw [hvalue, Nat.cast_natAbs, Int.cast_abs, ← hx, Double.abs_value]
    exact x.inCell_magnitude

/-- **Texts of numbers read back.** The text that stands for a number where a string is wanted is
read as a number of the same value. -/
theorem toNumber_numberScalarText (x : Double) :
    ∃ y, toNumber (.string (numberScalarText (Number.ofDouble x))) = .number y ∧
      y.value = x.value := by
  cases hwhole : x.whole? with
  | none =>
      have hzero : x.mantissa ≠ 0 := by
        intro hx
        have hvalue : x.value = ((0 : Int) : ℚ) := by
          rw [(Double.value_eq_zero_iff x).mpr hx, Int.cast_zero]
        rw [Double.whole?_eq_some_iff.mpr hvalue] at hwhole
        cases hwhole
      refine ⟨x, ?_, rfl⟩
      simp only [Number.ofDouble, hwhole, numberScalarText, Number.toDouble, Json.numberText]
      exact toNumber_documentText hzero
  | some n =>
      have hvalue := Double.whole?_eq_some_iff.mp hwhole
      have hsame : (Number.ofDouble x).toDouble.whole? = some n := by
        rw [Double.whole?_eq_some_iff, Number.value_toDouble_ofDouble, hvalue]
      rw [numberScalarText, hsame]
      dsimp only
      split
      · exact toNumber_toString hvalue
      · rename_i hlarge
        simp only [Number.ofDouble, hwhole]
        split
        · exact toNumber_toString hvalue
        · refine ⟨x, toNumber_documentText ?_, rfl⟩
          intro hx
          rw [(Double.value_eq_zero_iff x).mpr hx] at hvalue
          have hn : n = 0 := by exact_mod_cast hvalue.symm
          omega

end Curator
