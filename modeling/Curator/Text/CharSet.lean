/-
Sets of characters written down as ranges of code points.

The character classes of the Unicode database are long lists of ranges; a `CharSet` is such a list
and `contains` its membership test.  The tables themselves stand in modules named for the class.
-/
namespace Curator.Text

/-- A set of characters: the union of inclusive ranges of code points. -/
structure CharSet where
  ranges : List (Nat × Nat)

namespace CharSet

/-- A character belongs to the set when one of the ranges holds its code point. -/
def contains (s : CharSet) (c : Char) : Bool :=
  s.ranges.any fun r => r.1 ≤ c.toNat && c.toNat ≤ r.2

theorem contains_iff (s : CharSet) (c : Char) :
    s.contains c = true ↔ ∃ r ∈ s.ranges, r.1 ≤ c.toNat ∧ c.toNat ≤ r.2 := by
  simp [contains]

end CharSet

end Curator.Text
