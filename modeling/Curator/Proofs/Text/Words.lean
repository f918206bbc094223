/-
Where a text has its words.

A text is cut at a character of the kind by cutting what stands before it and what stands after it.  So
blanks are where the words of two texts come apart, and around a text they add none.
-/
import Curator.Text.Words

namespace Curator.Text

/-! ### Pieces -/

/-- Cutting at a character gives the pieces before it and those after it. -/
theorem pieces_append {p : Char → Bool} {c : Char} (hc : p c = true) (before after : List Char) :
    pieces p (before ++ c :: after) = pieces p before ++ pieces p after := by
  induction before with
  | nil => simp [pieces, hc]
  | cons d before ih =>
      rw [List.cons_append, pieces, ih, pieces]
      split
      · rfl
      · obtain ⟨w, ws, hw⟩ := List.exists_cons_of_ne_nil (pieces_ne_nil p before)
        simp [hw]

/-- A text without characters to cut at is one piece. -/
theorem pieces_of_forall {p : Char → Bool} {cs : List Char} (h : ∀ c ∈ cs, p c = false) :
    pieces p cs = [cs] := by
  induction cs with
  | nil => rfl
  | cons c cs ih =>
      have htail := ih fun d hd => h d (List.mem_cons_of_mem c hd)
      simp [pieces, h c List.mem_cons_self, htail]

/-! ### Words -/

variable {c : Char} {cs : List Char}

/-- A blank comes between the words before it and those after it. -/
theorem words_append_blank (hc : isBlank c = true) (before after : List Char) :
    words (before ++ c :: after) = words before ++ words after := by
  rw [words, pieces_append hc, List.filter_append, words, words]

/-- A text without blanks is one word, if there is anything in it. -/
theorem words_of_forall (hne : cs ≠ []) (h : ∀ c ∈ cs, isBlank c = false) : words cs = [cs] := by
  simp [words, pieces_of_forall h, hne]

/-- Blanks before a text add no words. -/
theorem words_blanks_append {front : List Char} (h : ∀ c ∈ front, isBlank c = true)
    (cs : List Char) : words (front ++ cs) = words cs := by
  induction front with
  | nil => rfl
  | cons c front ih =>
      have hcut := words_append_blank (h c List.mem_cons_self) [] (front ++ cs)
      rw [List.cons_append, ← List.nil_append (c :: (front ++ cs)), hcut,
        ih fun d hd => h d (List.mem_cons_of_mem c hd)]
      rfl

/-- Blanks behind a text add no words. -/
theorem words_append_blanks {back : List Char} (h : ∀ c ∈ back, isBlank c = true)
    (cs : List Char) : words (cs ++ back) = words cs := by
  cases back with
  | nil => rw [List.append_nil]
  | cons c back =>
      have hrest : words (back ++ []) = [] :=
        words_blanks_append (fun d hd => h d (List.mem_cons_of_mem c hd)) []
      rw [List.append_nil] at hrest
      rw [words_append_blank (h c List.mem_cons_self), hrest, List.append_nil]

/-- A word is made of characters of the text, none of them blank. -/
theorem mem_of_mem_words {w : List Char} (hw : w ∈ words cs) (hc : c ∈ w) :
    c ∈ cs ∧ isBlank c = false := by
  have hpiece : w ∈ pieces isBlank cs := (List.mem_filter.mp hw).1
  have hmem : c ∈ (pieces isBlank cs).flatten := List.mem_flatten.mpr ⟨w, hpiece, hc⟩
  rw [flatten_pieces] at hmem
  exact ⟨(List.mem_filter.mp hmem).1, not_of_mem_pieces hpiece c hc⟩

/-- A text has a word if not all of it is blank. -/
theorem words_ne_nil {cs : List Char} {c : Char} (hmem : c ∈ cs) (hc : isBlank c = false) :
    words cs ≠ [] := by
  have hpiece : c ∈ (pieces isBlank cs).flatten := by
    rw [flatten_pieces, List.mem_filter, hc]
    exact ⟨hmem, rfl⟩
  obtain ⟨w, hw, hcw⟩ := List.mem_flatten.mp hpiece
  refine List.ne_nil_of_mem (List.mem_filter.mpr ⟨hw, ?_⟩)
  cases w with
  | nil => cases hcw
  | cons _ _ => rfl

theorem ne_nil_of_mem_words {cs w : List Char} (hw : w ∈ words cs) : w ≠ [] := by
  rintro rfl
  cases (List.mem_filter.mp hw).2

end Curator.Text
