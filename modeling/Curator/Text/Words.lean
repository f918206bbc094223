/-
Cutting a text into pieces.

`pieces` cuts at every character of a kind and keeps empty pieces, so joining gives the text back;
`words` are the pieces between blanks that are not empty.  `cut?` cuts once, at the first occurrence
of another text.
-/
import Curator.Text.Blank

namespace Curator.Text

/-- The pieces of a text between the characters that satisfy `p`, empty ones included. -/
def pieces (p : Char → Bool) : List Char → List (List Char)
  | [] => [[]]
  | c :: cs =>
    if p c then [] :: pieces p cs
    else
      match pieces p cs with
      | [] => [[c]]
      | w :: ws => (c :: w) :: ws

theorem pieces_ne_nil (p : Char → Bool) (cs : List Char) : pieces p cs ≠ [] := by
  cases cs with
  | nil => simp [pieces]
  | cons c cs =>
    rw [pieces]
    split
    · simp
    · split <;> simp

/-- The pieces hold every character that was not cut at, in order. -/
theorem flatten_pieces (p : Char → Bool) (cs : List Char) :
    (pieces p cs).flatten = cs.filter (fun c => !p c) := by
  induction cs with
  | nil => rfl
  | cons c cs ih =>
    rw [pieces]
    split
    · next h => simp [h, ih]
    · next h =>
      split
      · next hn => exact absurd hn (pieces_ne_nil p cs)
      · next w ws hw => simp [h, ← ih, hw]

/-- No piece holds a character that was cut at. -/
theorem not_of_mem_pieces {p : Char → Bool} {cs w : List Char} (hw : w ∈ pieces p cs) :
    ∀ c ∈ w, p c = false := by
  intro c hc
  have : c ∈ (pieces p cs).flatten := List.mem_flatten.2 ⟨w, hw, hc⟩
  rw [flatten_pieces, List.mem_filter] at this
  simpa using this.2

/-- The words of a text: its pieces between blanks, without the empty ones. -/
def words (cs : List Char) : List (List Char) :=
  (pieces isBlank cs).filter fun w => !w.isEmpty

/-- What stands before and after the first occurrence of a text in another. -/
def cut? (sought : List Char) : List Char → Option (List Char × List Char)
  | [] => if sought.isEmpty then some ([], []) else none
  | c :: cs =>
    if sought.isPrefixOf (c :: cs) then some ([], (c :: cs).drop sought.length)
    else (cut? sought cs).map fun parts => (c :: parts.1, parts.2)

/-- A text is found where it stands when its first character does not occur before. -/
theorem cut?_append {c : Char} {before : List Char} (hbefore : c ∉ before)
    (sought after : List Char) :
    cut? (c :: sought) (before ++ c :: sought ++ after) = some (before, after) := by
  induction before with
  | nil => simp [cut?]
  | cons d before ih =>
    simp only [List.mem_cons, not_or] at hbefore
    have hne : (c == d) = false := beq_eq_false_iff_ne.mpr hbefore.1
    have hmiss : (c :: sought).isPrefixOf (d :: (before ++ c :: sought ++ after)) = false := by
      rw [List.isPrefixOf_cons_cons, hne, Bool.false_and]
    rw [List.cons_append, List.cons_append, cut?, hmiss, ih hbefore.2]
    rfl

/-- A string cut at every occurrence of a character. -/
def splitAt (sep : Char) (s : String) : List String :=
  (pieces (· == sep) s.toList).map String.ofList

/-- Strings joined with `sep` between neighbours. -/
def join (sep : String) : List String → String
  | [] => ""
  | [s] => s
  | s :: rest => s ++ sep ++ join sep rest

end Curator.Text
