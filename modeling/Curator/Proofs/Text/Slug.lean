/-
Slugs of texts with blanks.

A slug is made of the words of the lowercased text, so blanks around the text make no difference to
it, and it is empty if the text is blank.  It is empty only then, because every lowercase form of a
character that is no blank has one that is no blank either: no run of shifts leads to a blank.

A slug has no blanks, and lowercasing leaves its characters alone, so it is a text of one word in
lowercase: its own slug.
-/
import Curator.Proofs.Text.Lowercase
import Curator.Proofs.Text.Words
import Curator.Text.Slug

namespace Curator.Text

/-! ### Lowercase forms -/

/-- No run of shifts leads to a blank. -/
theorem shift_apart_of_blank : ∀ s ∈ lowerShifts, ∀ r ∈ blank.ranges,
    (s.last : Int) + s.shift < r.1 ∨ (r.2 : Int) < s.first + s.shift := by
  decide +kernel

theorem exists_not_isBlank_lowerChar {c : Char} (hc : isBlank c = false) :
    ∃ d ∈ lowerChar c, isBlank d = false := by
  unfold lowerChar
  split
  · exact ⟨'i', List.mem_cons_self, rfl⟩
  · split
    · rename_i s hs
      refine ⟨_, List.mem_singleton_self _, ?_⟩
      have hcovers := List.find?_some hs
      simp only [LowerShift.covers, Bool.and_eq_true, decide_eq_true_eq] at hcovers
      have hlow : ∀ r ∈ blank.ranges, 0 < r.1 := by decide
      rw [Bool.eq_false_iff, isBlank, Ne, CharSet.contains_iff]
      rintro ⟨r, hr, hfrom, hto⟩
      have hapart := shift_apart_of_blank s (List.mem_of_find?_eq_some hs) r hr
      have hpos := hlow r hr
      -- what is no character at all would count as the one of code point zero
      by_cases hvalid : ((c.toNat : Int) + s.shift).toNat.isValidChar
      · rw [Char.ofNat, dif_pos hvalid] at hfrom hto
        have hn : (Char.ofNatAux _ hvalid).toNat = ((c.toNat : Int) + s.shift).toNat := rfl
        omega
      · rw [Char.ofNat, dif_neg hvalid] at hfrom
        have hzero : r.1 ≤ 0 := hfrom
        omega
    · exact ⟨c, List.mem_singleton_self c, hc⟩

/-- Lowercasing leaves something of a text that is not blank. -/
theorem exists_not_isBlank_lowercaseAfter {c : Char} (hc : isBlank c = false) {cs : List Char}
    (hmem : c ∈ cs) (before : List Char) :
    ∃ d ∈ lowercaseAfter before cs, isBlank d = false := by
  induction cs generalizing before with
  | nil => cases hmem
  | cons e cs ih =>
      rw [lowercaseAfter]
      rcases List.mem_cons.mp hmem with rfl | hmem
      · have hform : ∃ d ∈ (if c == 'Σ' then
            [if meetsCased before && !meetsCased cs then 'ς' else 'σ'] else lowerChar c),
            isBlank d = false := by
          split
          · refine ⟨_, List.mem_singleton_self _, ?_⟩
            split <;> decide
          · exact exists_not_isBlank_lowerChar hc
        obtain ⟨d, hd, hblank⟩ := hform
        exact ⟨d, List.mem_append_left _ hd, hblank⟩
      · obtain ⟨d, hd, hblank⟩ := ih hmem (e :: before)
        exact ⟨d, List.mem_append_right _ hd, hblank⟩

/-! ### Slugs -/

theorem slug_trim (s : String) : slug (trim s) = slug s := by
  rw [slug, trim, String.toList_ofList, slugChars, trimChars_eq_self (isTrimmed_trimChars _)]
  rfl

/-- A slug is empty exactly if the text is blank. -/
theorem slugChars_eq_nil_iff (cs : List Char) : slugChars cs = [] ↔ trimChars cs = [] := by
  constructor
  · intro hslug
    by_cases hblank : trimChars cs = []
    · exact hblank
    exfalso
    obtain ⟨c, rest, htrim⟩ := List.exists_cons_of_ne_nil hblank
    have hc : isBlank c = false := head?_trimChars (by rw [htrim]; rfl)
    obtain ⟨d, hd, hblank⟩ := exists_not_isBlank_lowercaseAfter hc
      (htrim ▸ List.mem_cons_self : c ∈ trimChars cs) []
    obtain ⟨w, ws, hwords⟩ := List.exists_cons_of_ne_nil (words_ne_nil hd hblank)
    have hw : w ≠ [] := ne_nil_of_mem_words (hwords ▸ List.mem_cons_self)
    rw [slugChars, lowercase, hwords] at hslug
    cases ws with
    | nil => simp [hw] at hslug
    | cons _ _ => simp [hw] at hslug
  · intro htrim
    rw [slugChars, htrim]
    rfl

/-- It makes no difference to the words whether blanks are trimmed off before lowercasing. -/
theorem slugChars_eq (cs : List Char) :
    slugChars cs = ['-'].intercalate (words (lowercase cs)) := by
  obtain ⟨front, back, hcs, hfront, hback⟩ := exists_trimChars cs
  have hwords : words (lowercase cs) = words (lowercase (trimChars cs)) := by
    rw [hcs, lowercase_surrounded hfront hback, words_append_blanks hback,
      words_blanks_append hfront, ← hcs]
  rw [slugChars, hwords]

/-- What holds of the hyphen and of all characters of some words holds of the words joined. -/
theorem forall_mem_intercalate {P : Char → Prop} (hhyphen : P '-') {ws : List (List Char)}
    (hwords : ∀ w ∈ ws, ∀ c ∈ w, P c) : ∀ c ∈ ['-'].intercalate ws, P c := by
  induction ws with
  | nil => exact fun c hc => nomatch hc
  | cons w ws ih =>
      have hrest := ih fun v hv => hwords v (List.mem_cons_of_mem w hv)
      have hfirst := hwords w List.mem_cons_self
      cases ws with
      | nil =>
          rw [List.intercalate_singleton]
          exact hfirst
      | cons v ws =>
          rw [List.intercalate_cons_cons]
          intro c hc
          rcases List.mem_append.mp hc with hc | hc
          · rcases List.mem_append.mp hc with hc | hc
            · exact hfirst c hc
            · rw [List.mem_singleton.mp hc]
              exact hhyphen
          · exact hrest c hc

/-- A slug has no blanks, and nothing is left to lowercase in it. -/
theorem isLower_of_mem_slugChars {cs : List Char} :
    ∀ c ∈ slugChars cs, isBlank c = false ∧ IsLower c := by
  rw [slugChars_eq]
  refine forall_mem_intercalate (by decide +kernel) fun w hw c hc => ?_
  obtain ⟨hmem, hblank⟩ := mem_of_mem_words hw hc
  exact ⟨hblank, isLower_of_mem_lowercaseAfter hmem⟩

/-- A text without blanks in lowercase is its own slug. -/
theorem slugChars_eq_self {cs : List Char} (h : ∀ c ∈ cs, isBlank c = false ∧ IsLower c) :
    slugChars cs = cs := by
  have hlower : lowercase cs = cs := lowercaseAfter_of_isLower (fun c hc => (h c hc).2) []
  rw [slugChars_eq, hlower]
  by_cases hne : cs = []
  · rw [hne]
    rfl
  · rw [words_of_forall hne fun c hc => (h c hc).1, List.intercalate_singleton]

/--
**The form of slugs.**  A slug is the words of the lowercased text joined by single hyphens, and nothing
else about the text matters to it.  There are no blanks in it, it is empty exactly if all of the text is
blank, and it is its own slug.
-/
theorem slug_form (s : String) :
    (slug s).toList = ['-'].intercalate (words (lowercase s.toList)) ∧
    (∀ c ∈ (slug s).toList, isBlank c = false) ∧
    (slug s = "" ↔ ∀ c ∈ s.toList, isBlank c = true) ∧
    slug (slug s) = slug s := by
  rw [slug, String.toList_ofList]
  refine ⟨slugChars_eq s.toList, ?blanks, ?empty, ?again⟩
  case blanks =>
    intro c hc
    exact (isLower_of_mem_slugChars c hc).1
  case empty => rw [String.ofList_eq_empty_iff, slugChars_eq_nil_iff, trimChars_eq_nil_iff]
  case again =>
    rw [slug, String.toList_ofList, slugChars_eq_self fun c hc => isLower_of_mem_slugChars c hc]

example : slug " ΟΔΟΣ\u3000ΑΣ " = "οδος-ας" := by decide +kernel

end Curator.Text
