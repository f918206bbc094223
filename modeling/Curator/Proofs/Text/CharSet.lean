/-
Classes of characters that have nothing in common.

Two sets of characters are apart when no range of one meets a range of the other.  The tables of the
classes are compared once; after that a character of one set is known not to be in the other.
-/
import Curator.Text.Blank
import Curator.Text.Casing

namespace Curator.Text

namespace CharSet

/-- No range of one set meets a range of the other. -/
def Apart (s t : CharSet) : Prop := ∀ r ∈ s.ranges, ∀ q ∈ t.ranges, r.2 < q.1 ∨ q.2 < r.1

instance (s t : CharSet) : Decidable (s.Apart t) :=
  inferInstanceAs (Decidable (∀ r ∈ s.ranges, ∀ q ∈ t.ranges, r.2 < q.1 ∨ q.2 < r.1))

theorem Apart.contains_eq_false {s t : CharSet} (h : s.Apart t) {c : Char}
    (hc : s.contains c = true) : t.contains c = false := by
  rw [Bool.eq_false_iff]
  intro ht
  obtain ⟨r, hr, hlow, hhigh⟩ := (contains_iff s c).mp hc
  obtain ⟨q, hq, hlow', hhigh'⟩ := (contains_iff t c).mp ht
  have hapart := h r hr q hq
  omega

end CharSet

/-! ### Blanks and the case of letters -/

theorem cased_eq_false_of_isBlank {c : Char} (hc : isBlank c = true) : cased.contains c = false := by
  have hapart : blank.Apart cased := by decide +kernel
  exact hapart.contains_eq_false hc

/-- A blank is not passed over when the case of a word is decided. -/
theorem caseIgnorable_eq_false_of_isBlank {c : Char} (hc : isBlank c = true) :
    caseIgnorable.contains c = false := by
  have hapart : blank.Apart caseIgnorable := by decide +kernel
  exact hapart.contains_eq_false hc

end Curator.Text
