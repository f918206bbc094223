/-
Which expressions have the stored value of a variable, of whatever type.

Parentheses and plus signs leave nothing behind in the tree, so the tree of an expression is a bare path
exactly if its tokens are one path inside of them.  All other trees have a node or a number in them, and
whatever the variables are, arithmetic has a number or fails.
-/
import Curator.Proofs.Expression.Grammar
import Curator.Template

namespace Curator

namespace Expression

/-! ### Paths inside of parentheses and behind plus signs -/

/-- One path, inside of any parentheses and behind any plus signs. -/
inductive Wraps (name : String) : List Token → Prop
  | path : Wraps name [.path name]
  | plus {ts : List Token} (inner : Wraps name ts) : Wraps name (.plus :: ts)
  | parentheses {ts : List Token} (inner : Wraps name ts) :
      Wraps name (.leftParen :: (ts ++ [.rightParen]))

/-- A phrase whose tree is a bare path: what goes on behind a tree must be empty to leave it bare. -/
def Phrase.Bare (name : String) (ts : List Token) : Phrase → Prop
  | .sum | .product | .factor => Wraps name ts
  | .summands left | .factors left => ts = [] ∧ left = .path name

theorem Derives.bare {p : Phrase} {ts : List Token} {e : Expression} {name : String}
    (h : Derives p ts e) (he : e = .path name) : p.Bare name ts := by
  induction h with
  | sum first more ihFirst ihMore =>
      obtain ⟨rfl, hleft⟩ := ihMore he
      rw [List.append_nil]
      exact ihFirst hleft
  | product first more ihFirst ihMore =>
      obtain ⟨rfl, hleft⟩ := ihMore he
      rw [List.append_nil]
      exact ihFirst hleft
  | noSummands left => exact ⟨rfl, he⟩
  | noFactors left => exact ⟨rfl, he⟩
  | summand sign next more ihNext ihMore => cases (ihMore he).2
  | anotherFactor sign next more ihNext ihMore => cases (ihMore he).2
  | positive inner ih => exact .plus (ih he)
  | negative inner ih => cases he
  | number n => cases he
  | path other =>
      cases he
      exact .path
  | parentheses inner ih => exact .parentheses (ih he)

/-- A factor is a sum by itself. -/
theorem Derives.sum_of_factor {ts : List Token} {e : Expression} (h : Derives .factor ts e) :
    Derives .sum ts e := by
  have hproduct := Derives.product h (.noFactors e)
  rw [List.append_nil] at hproduct
  have hsum := Derives.sum hproduct (.noSummands e)
  rwa [List.append_nil] at hsum

theorem Wraps.derives {name : String} {ts : List Token} (h : Wraps name ts) :
    Derives .factor ts (.path name) := by
  induction h with
  | path => exact .path name
  | plus inner ih => exact .positive ih
  | parentheses inner ih => exact .parentheses ih.sum_of_factor

theorem derives_path_iff {ts : List Token} {name : String} :
    Derives .sum ts (.path name) ↔ Wraps name ts :=
  ⟨fun h => h.bare rfl, fun h => h.derives.sum_of_factor⟩

theorem parse_eq_path_iff {text name : String} :
    parse text = .ok (.path name) ↔ ∃ ts, Token.ofString text = .ok ts ∧ Wraps name ts := by
  unfold parse
  cases Token.ofString text with
  | error f => exact iff_of_false nofun (by rintro ⟨ts, ⟨⟩, -⟩)
  | ok ts =>
      dsimp only
      rw [ofTokens_eq_ok_iff, derives_path_iff]
      constructor
      · exact fun h => ⟨ts, rfl, h⟩
      · rintro ⟨us, ⟨⟩, h⟩
        exact h

end Expression

/-! ### What an expression comes to -/

/-- An expression that is not a bare path comes to a number, if to anything. -/
theorem Scope.evaluate_of_not_path {s : Scope} {text : String}
    (h : ∀ name, Expression.parse text ≠ .ok (.path name)) :
    (∃ x, s.evaluate text = .ok (.number (Number.ofDouble x))) ∨ ∃ f, s.evaluate text = .error f := by
  unfold Scope.evaluate
  split
  · exact Or.inr ⟨_, rfl⟩
  · rename_i name hname
    exact absurd hname (h name)
  · split
    · exact Or.inr ⟨_, rfl⟩
    · split
      · exact Or.inr ⟨_, rfl⟩
      · exact Or.inl ⟨_, rfl⟩

/--
**Only a bare path has a value that is not a number.**  An expression is read as a bare path exactly if its
tokens are one path, inside of any parentheses and behind any plus signs.  Its value is then the one of the
variable, of any type, or null if there is none.  All other expressions come to a number or fail, whatever
the values of the variables are.
-/
theorem Expression.bare_path_iff_wraps (text : String) :
    (∀ name, Expression.parse text = .ok (.path name) ↔
      ∃ ts, Token.ofString text = .ok ts ∧ Wraps name ts) ∧
    ∀ s : Scope,
      (∀ name ts, Token.ofString text = .ok ts → Wraps name ts →
        s.evaluate text = (s.variableAt name).map fun v => v.value.getD .null) ∧
      ((∀ name ts, Token.ofString text = .ok ts → ¬ Wraps name ts) →
        (∃ x, s.evaluate text = .ok (.number (Number.ofDouble x))) ∨
          ∃ f, s.evaluate text = .error f) := by
  refine ⟨fun name => parse_eq_path_iff, fun s => ⟨fun name ts hts h => ?_, fun hnone => ?_⟩⟩
  · rw [Scope.evaluate, parse_eq_path_iff.mpr ⟨ts, hts, h⟩]
  · refine Scope.evaluate_of_not_path fun name hname => ?_
    obtain ⟨ts, hts, h⟩ := parse_eq_path_iff.mp hname
    exact hnone name ts hts h

example : Expression.ofTokens [.plus, .leftParen, .plus, .path "this.title", .rightParen] =
    .ok (.path "this.title") := rfl

end Curator
