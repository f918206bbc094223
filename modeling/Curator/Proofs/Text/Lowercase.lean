/-
Lowercasing a text has nothing left to do a second time, and leaves blanks where they are.

A lowercase form is never a character that lowercasing changes: no run of shifts leads to where another
one starts from, which is checked for the runs in pairs.  So the lowercase form of a text is its own
lowercase form, although a sigma is lowercased by what stands around it; no capital sigma is left.  Blanks
have no case and end a word, so for the form of a sigma the end of a text and a blank are the same.
-/
import Curator.Proofs.Text.CharSet
import Curator.Text.Lowercase

namespace Curator.Text

/-! ### Runs of shifts -/

namespace LowerShift

/-- The code point of the first lowercase form of a run. -/
def low (s : LowerShift) : Nat := ((s.first : Int) + s.shift).toNat

/-- The code point of the last lowercase form of a run. -/
def high (s : LowerShift) : Nat := ((s.last : Int) + s.shift).toNat

/-- Whether none of the lowercase forms of the first run is shifted by the second.  Where the two overlap,
both take every other character, and not the same ones. -/
def misses (s t : LowerShift) : Bool :=
  Nat.blt s.high t.first || Nat.blt t.last s.low ||
    (Nat.beq (s.step % 2) 0 || Nat.beq s.first s.last) && Nat.beq (t.step % 2) 0 &&
      Nat.beq ((s.low + t.first) % 2) 1

theorem covers_iff {s : LowerShift} {c : Char} :
    s.covers c = true ↔ s.first ≤ c.toNat ∧ c.toNat ≤ s.last ∧ s.step ∣ c.toNat - s.first := by
  simp [covers, Nat.dvd_iff_mod_eq_zero, and_assoc]

/-- What a run misses it does not shift. -/
theorem covers_eq_false_of_misses {s t : LowerShift} (h : s.misses t = true)
    (hs : 0 ≤ (s.first : Int) + s.shift) {c d : Char} (hc : s.covers c = true)
    (hd : (d.toNat : Int) = c.toNat + s.shift) : t.covers d = false := by
  rw [Bool.eq_false_iff, Ne, covers_iff]
  rintro ⟨hfirst, hlast, hstep⟩
  obtain ⟨hfirst', hlast', hstep'⟩ := covers_iff.mp hc
  have hlow : (s.low : Int) = s.first + s.shift := Int.toNat_of_nonneg hs
  have hhigh : (s.high : Int) = s.last + s.shift := Int.toNat_of_nonneg (by omega)
  simp only [misses, Bool.or_eq_true, Bool.and_eq_true, Nat.blt_eq, Nat.beq_eq] at h
  rcases h with (habove | hbelow) | ⟨⟨halternate, heven⟩, hodd⟩
  · omega
  · omega
  · have hsecond : 2 ∣ d.toNat - t.first := Nat.dvd_trans (Nat.dvd_of_mod_eq_zero heven) hstep
    rcases halternate with heven' | hsingle
    · have hother : 2 ∣ c.toNat - s.first := Nat.dvd_trans (Nat.dvd_of_mod_eq_zero heven') hstep'
      omega
    · omega

end LowerShift

/-- The capital I with a dot above, whose lowercase form is not a shifted character. -/
def dotted : LowerShift := ⟨0x130, 0x130, 1, 0⟩

/-- No run of shifts leads to where one starts from. -/
theorem misses_lowerShifts : ∀ s ∈ lowerShifts, (dotted :: lowerShifts).all s.misses = true := by
  decide +kernel

/-- Every run of shifts leads to characters. -/
theorem lowerShifts_bounds : ∀ s ∈ lowerShifts, 0 ≤ (s.first : Int) + s.shift ∧
    (s.high < 0xD800 ∨ 0xDFFF < s.low ∧ s.high < 0x110000) := by
  decide +kernel

/-- The lowercase form that a run of shifts gives a character. -/
theorem LowerShift.toNat_form {s : LowerShift} (hs : s ∈ lowerShifts) {c : Char}
    (hc : s.covers c = true) :
    ((Char.ofNat ((c.toNat : Int) + s.shift).toNat).toNat : Int) = c.toNat + s.shift := by
  obtain ⟨hpos, hchars⟩ := lowerShifts_bounds s hs
  obtain ⟨hfirst, hlast, -⟩ := covers_iff.mp hc
  have hvalid : (((c.toNat : Int) + s.shift).toNat).isValidChar := by
    unfold Nat.isValidChar
    unfold low high at hchars
    omega
  have hform : (Char.ofNatAux _ hvalid).toNat = ((c.toNat : Int) + s.shift).toNat := rfl
  rw [Char.ofNat, dif_pos hvalid, hform]
  omega

/-! ### Characters that lowercasing leaves alone -/

/-- Whether lowercasing leaves a character as it is, wherever it stands. -/
def IsLower (c : Char) : Prop := c ≠ 'Σ' ∧ lowerChar c = [c]

instance (c : Char) : Decidable (IsLower c) := inferInstanceAs (Decidable (_ ∧ _))

theorem isLower_of_not_covered {c : Char} (hdot : c ≠ 'İ')
    (h : ∀ s ∈ lowerShifts, s.covers c = false) : IsLower c := by
  refine ⟨?_, ?_⟩
  · rintro rfl
    have hshifted : ∃ s ∈ lowerShifts, s.covers 'Σ' = true := by decide +kernel
    obtain ⟨s, hs, hcovers⟩ := hshifted
    rw [h s hs] at hcovers
    cases hcovers
  · have hnone : (lowerShifts.find? fun s => s.covers c) = none :=
      List.find?_eq_none.mpr fun s hs => by simp [h s hs]
    simp [lowerChar, hdot, hnone]

/-- Blanks have no lowercase form but themselves. -/
theorem isLower_of_isBlank {c : Char} (hc : isBlank c = true) : IsLower c := by
  obtain ⟨r, hr, hlow, hhigh⟩ := (CharSet.contains_iff blank c).mp hc
  refine isLower_of_not_covered ?_ fun s hs => ?_
  · rintro rfl
    exact absurd hc (by decide)
  · have hapart : ∀ s ∈ lowerShifts, ∀ r ∈ blank.ranges, s.last < r.1 ∨ r.2 < s.first := by
      decide +kernel
    rw [Bool.eq_false_iff, Ne, LowerShift.covers_iff]
    rintro ⟨hfirst, hlast, -⟩
    have hout := hapart s hs r hr
    omega

/-- The lowercase form of a character is left alone. -/
theorem isLower_of_mem_lowerChar {c d : Char} (hc : c ≠ 'Σ') (hd : d ∈ lowerChar c) :
    IsLower d := by
  unfold lowerChar at hd
  split at hd
  · have hforms : IsLower 'i' ∧ IsLower '\u0307' := by decide +kernel
    rcases List.mem_cons.mp hd with rfl | hd
    · exact hforms.1
    · exact List.mem_singleton.mp hd ▸ hforms.2
  · rename_i hdot
    split at hd
    · rename_i s hfind
      have hs := List.mem_of_find?_eq_some hfind
      have hcovers := List.find?_some hfind
      have hmissed : ∀ t ∈ dotted :: lowerShifts, t.covers d = false := by
        intro t ht
        rw [List.mem_singleton.mp hd]
        exact LowerShift.covers_eq_false_of_misses
          (List.all_eq_true.mp (misses_lowerShifts s hs) t ht) (lowerShifts_bounds s hs).1 hcovers
          (LowerShift.toNat_form hs hcovers)
      refine isLower_of_not_covered ?_ fun t ht => hmissed t (List.mem_cons_of_mem _ ht)
      rintro rfl
      exact absurd (hmissed dotted List.mem_cons_self) (by decide)
    · rename_i hnone
      rw [List.mem_singleton] at hd
      subst hd
      refine isLower_of_not_covered (by simpa using hdot) fun s hs => ?_
      simpa using List.find?_eq_none.mp hnone s hs

/-- What a text is lowercased to is left alone. -/
theorem isLower_of_mem_lowercaseAfter {before cs : List Char} {d : Char}
    (hd : d ∈ lowercaseAfter before cs) : IsLower d := by
  induction cs generalizing before with
  | nil => cases hd
  | cons c cs ih =>
      rw [lowercaseAfter] at hd
      rcases List.mem_append.mp hd with hd | hd
      · split at hd
        · rw [List.mem_singleton] at hd
          rw [hd]
          split <;> decide +kernel
        · rename_i hsigma
          exact isLower_of_mem_lowerChar (by simpa using hsigma) hd
      · exact ih hd

/-- What lowercasing leaves alone it keeps, and goes on behind it. -/
theorem lowercaseAfter_append_of_isLower {cs : List Char} (h : ∀ c ∈ cs, IsLower c)
    (before after : List Char) :
    lowercaseAfter before (cs ++ after) = cs ++ lowercaseAfter (cs.reverse ++ before) after := by
  induction cs generalizing before with
  | nil => rfl
  | cons c cs ih =>
      obtain ⟨hsigma, hform⟩ := h c List.mem_cons_self
      have htail := ih (fun d hd => h d (List.mem_cons_of_mem c hd)) (c :: before)
      rw [List.cons_append, lowercaseAfter, if_neg (by simpa using hsigma), hform, htail]
      simp

theorem lowercaseAfter_of_isLower {cs : List Char} (h : ∀ c ∈ cs, IsLower c)
    (before : List Char) : lowercaseAfter before cs = cs := by
  have happend := lowercaseAfter_append_of_isLower h before []
  rwa [List.append_nil, lowercaseAfter, List.append_nil] at happend

theorem lowercase_lowercase (cs : List Char) : lowercase (lowercase cs) = lowercase cs :=
  lowercaseAfter_of_isLower (fun _ hd => isLower_of_mem_lowercaseAfter hd) []

/-! ### Blanks around a text -/

/-- Behind a word, blanks are as good as nothing. -/
theorem meetsCased_append_blanks {back : List Char} (h : ∀ c ∈ back, isBlank c = true)
    (cs : List Char) : meetsCased (cs ++ back) = meetsCased cs := by
  induction cs with
  | nil =>
      cases back with
      | nil => rfl
      | cons c back =>
          have hc := h c List.mem_cons_self
          simp [meetsCased, caseIgnorable_eq_false_of_isBlank hc, cased_eq_false_of_isBlank hc]
  | cons c cs ih =>
      unfold meetsCased at *
      rw [List.cons_append, List.dropWhile_cons, List.dropWhile_cons]
      by_cases hc : caseIgnorable.contains c = true
      · rw [if_pos hc, if_pos hc]
        exact ih
      · rw [if_neg hc, if_neg hc]

/-- Blanks around a text make no difference to how it is lowercased. -/
theorem lowercaseAfter_surrounded {front back : List Char} (hfront : ∀ c ∈ front, isBlank c = true)
    (hback : ∀ c ∈ back, isBlank c = true) (before cs : List Char) :
    lowercaseAfter (before ++ front) (cs ++ back) = lowercaseAfter before cs ++ back := by
  induction cs generalizing before with
  | nil => exact lowercaseAfter_of_isLower (fun c hc => isLower_of_isBlank (hback c hc)) _
  | cons c cs ih =>
      have htail : lowercaseAfter (c :: (before ++ front)) (cs ++ back) =
          lowercaseAfter (c :: before) cs ++ back := ih (c :: before)
      rw [List.cons_append, lowercaseAfter, lowercaseAfter, meetsCased_append_blanks hfront,
        meetsCased_append_blanks hback, htail, List.append_assoc]

theorem lowercase_surrounded {front back : List Char} (hfront : ∀ c ∈ front, isBlank c = true)
    (hback : ∀ c ∈ back, isBlank c = true) (cs : List Char) :
    lowercase (front ++ cs ++ back) = front ++ lowercase cs ++ back := by
  have hreverse : ∀ c ∈ front.reverse, isBlank c = true :=
    fun c hc => hfront c (List.mem_reverse.mp hc)
  have hinner := lowercaseAfter_surrounded hreverse hback [] cs
  rw [List.nil_append] at hinner
  rw [lowercase, List.append_assoc,
    lowercaseAfter_append_of_isLower fun c hc => isLower_of_isBlank (hfront c hc), List.append_nil,
    hinner, ← List.append_assoc]
  rfl

end Curator.Text
