/-
The parser takes exactly what the grammar derives.

`Derives` is the grammar, read off the rules

    sum     := product (('+' | '-') product)*
    product := factor (('*' | '/') factor)*
    factor  := ('+' | '-') factor | number | path | '(' sum ')'

with the tree that each rule leaves.  A repetition is a phrase of its own that knows the tree before
it, so the loops of the parser and the repetitions of the grammar have the same shape.

Soundness is an induction on fuel: whatever is taken off the front is a phrase.  Completeness is an
induction on the derivation, for any tokens after the phrase that the phrase could not go on with,
and any fuel of at least `Phrase.cost`.  The cost of a sum is below the fuel that `ofTokens` starts
with, so running out of fuel never shows.  Since `ofTokens` is a function, a list of tokens has at
most one tree.
-/
import Curator.Expression.Tree

namespace Curator

namespace Expression

/-! ### The grammar -/

/-- The signs that join summands. -/
inductive JoinsSummands : Token → Operation → Prop
  | plus : JoinsSummands .plus .add
  | minus : JoinsSummands .minus .sub

/-- The signs that join factors. -/
inductive JoinsFactors : Token → Operation → Prop
  | star : JoinsFactors .star .mul
  | slash : JoinsFactors .slash .div

/-- The phrases of the grammar. -/
inductive Phrase where
  | sum
  /-- The summands after a first one; `left` is the tree before them. -/
  | summands (left : Expression)
  | product
  /-- The factors after a first one; `left` is the tree before them. -/
  | factors (left : Expression)
  | factor

/-- Some tokens are a phrase with a tree. -/
inductive Derives : Phrase → List Token → Expression → Prop
  | sum {ts us : List Token} {left e : Expression} (first : Derives .product ts left)
      (more : Derives (.summands left) us e) : Derives .sum (ts ++ us) e
  | noSummands (left : Expression) : Derives (.summands left) [] left
  | summand {t : Token} {op : Operation} {ts us : List Token} {left right e : Expression}
      (sign : JoinsSummands t op) (next : Derives .product ts right)
      (more : Derives (.summands (binary op left right)) us e) :
      Derives (.summands left) (t :: (ts ++ us)) e
  | product {ts us : List Token} {left e : Expression} (first : Derives .factor ts left)
      (more : Derives (.factors left) us e) : Derives .product (ts ++ us) e
  | noFactors (left : Expression) : Derives (.factors left) [] left
  | anotherFactor {t : Token} {op : Operation} {ts us : List Token} {left right e : Expression}
      (sign : JoinsFactors t op) (next : Derives .factor ts right)
      (more : Derives (.factors (binary op left right)) us e) :
      Derives (.factors left) (t :: (ts ++ us)) e
  | positive {ts : List Token} {e : Expression} (inner : Derives .factor ts e) :
      Derives .factor (.plus :: ts) e
  | negative {ts : List Token} {e : Expression} (inner : Derives .factor ts e) :
      Derives .factor (.minus :: ts) (negate e)
  | number (n : Numeral) : Derives .factor [.number n] (number n)
  | path (name : String) : Derives .factor [.path name] (path name)
  | parentheses {ts : List Token} {e : Expression} (inner : Derives .sum ts e) :
      Derives .factor (.leftParen :: (ts ++ [.rightParen])) e

theorem additive?_eq_some_iff {t : Token} {op : Operation} :
    additive? t = some op ↔ JoinsSummands t op := by
  constructor
  · intro h
    cases t <;> simp only [additive?, Option.some.injEq, reduceCtorEq] at h
    · subst h; exact .plus
    · subst h; exact .minus
  · intro h
    cases h <;> rfl

theorem multiplicative?_eq_some_iff {t : Token} {op : Operation} :
    multiplicative? t = some op ↔ JoinsFactors t op := by
  constructor
  · intro h
    cases t <;> simp only [multiplicative?, Option.some.injEq, reduceCtorEq] at h
    · subst h; exact .star
    · subst h; exact .slash
  · intro h
    cases h <;> rfl

/-! ### Taking a phrase off the front -/

namespace Phrase

/-- Takes a phrase off the front of some tokens. -/
def take : Phrase → Nat → List Token → Taken
  | .sum => Expression.sum
  | .summands left => fun fuel => Expression.summands fuel left
  | .product => Expression.product
  | .factors left => fun fuel => Expression.factors fuel left
  | .factor => Expression.factor

/-- The fuel that is enough for a phrase of some length. -/
def cost (length : Nat) : Phrase → Nat
  | .sum => 4 * length - 1
  | .summands _ => 4 * length + 1
  | .product => 4 * length - 2
  | .factors _ => 4 * length + 1
  | .factor => 4 * length - 3

/-- The least number of tokens in a phrase. -/
def least : Phrase → Nat
  | .summands _ | .factors _ => 0
  | .sum | .product | .factor => 1

/-- Whether a phrase could not go on with the tokens that follow it. -/
def EndsBefore (rest : List Token) : Phrase → Prop
  | .sum | .summands _ => ∀ t ∈ rest.head?, additive? t = none ∧ multiplicative? t = none
  | .product | .factors _ => ∀ t ∈ rest.head?, multiplicative? t = none
  | .factor => True

end Phrase

/-! ### Whatever is taken is a phrase -/

/-- What is taken with some fuel is a phrase, and the rest is what was not taken. -/
def SoundAt (fuel : Nat) : Prop :=
  ∀ (p : Phrase) {ts rest : List Token} {e : Expression}, p.take fuel ts = .ok (e, rest) →
    ∃ used, ts = used ++ rest ∧ Derives p used e

theorem sum_sound {fuel : Nat} (ih : SoundAt fuel) {ts rest : List Token} {e : Expression}
    (h : sum (fuel + 1) ts = .ok (e, rest)) : ∃ used, ts = used ++ rest ∧ Derives .sum used e := by
  rw [sum] at h
  split at h
  · cases h
  · rename_i left mid hfirst
    obtain ⟨us, rfl, hus⟩ := ih .product hfirst
    obtain ⟨vs, rfl, hvs⟩ := ih (.summands left) h
    exact ⟨us ++ vs, by simp, .sum hus hvs⟩

theorem summands_sound {fuel : Nat} (ih : SoundAt fuel) {left e : Expression}
    {ts rest : List Token} (h : summands (fuel + 1) left ts = .ok (e, rest)) :
    ∃ used, ts = used ++ rest ∧ Derives (.summands left) used e := by
  cases ts with
  | nil =>
      simp only [summands, Except.ok.injEq, Prod.mk.injEq] at h
      obtain ⟨rfl, rfl⟩ := h
      exact ⟨[], rfl, .noSummands left⟩
  | cons t ts =>
      rw [summands] at h
      split at h
      · simp only [Except.ok.injEq, Prod.mk.injEq] at h
        obtain ⟨rfl, rfl⟩ := h
        exact ⟨[], rfl, .noSummands left⟩
      · rename_i op hop
        split at h
        · cases h
        · rename_i right mid hnext
          obtain ⟨us, rfl, hus⟩ := ih .product hnext
          obtain ⟨vs, rfl, hvs⟩ := ih (.summands (binary op left right)) h
          exact ⟨t :: (us ++ vs), by simp, .summand (additive?_eq_some_iff.mp hop) hus hvs⟩

theorem product_sound {fuel : Nat} (ih : SoundAt fuel) {ts rest : List Token} {e : Expression}
    (h : product (fuel + 1) ts = .ok (e, rest)) :
    ∃ used, ts = used ++ rest ∧ Derives .product used e := by
  rw [product] at h
  split at h
  · cases h
  · rename_i left mid hfirst
    obtain ⟨us, rfl, hus⟩ := ih .factor hfirst
    obtain ⟨vs, rfl, hvs⟩ := ih (.factors left) h
    exact ⟨us ++ vs, by simp, .product hus hvs⟩

theorem factors_sound {fuel : Nat} (ih : SoundAt fuel) {left e : Expression}
    {ts rest : List Token} (h : factors (fuel + 1) left ts = .ok (e, rest)) :
    ∃ used, ts = used ++ rest ∧ Derives (.factors left) used e := by
  cases ts with
  | nil =>
      simp only [factors, Except.ok.injEq, Prod.mk.injEq] at h
      obtain ⟨rfl, rfl⟩ := h
      exact ⟨[], rfl, .noFactors left⟩
  | cons t ts =>
      rw [factors] at h
      split at h
      · simp only [Except.ok.injEq, Prod.mk.injEq] at h
        obtain ⟨rfl, rfl⟩ := h
        exact ⟨[], rfl, .noFactors left⟩
      · rename_i op hop
        split at h
        · cases h
        · rename_i right mid hnext
          obtain ⟨us, rfl, hus⟩ := ih .factor hnext
          obtain ⟨vs, rfl, hvs⟩ := ih (.factors (binary op left right)) h
          exact ⟨t :: (us ++ vs), by simp,
            .anotherFactor (multiplicative?_eq_some_iff.mp hop) hus hvs⟩

theorem factor_sound {fuel : Nat} (ih : SoundAt fuel) {ts rest : List Token} {e : Expression}
    (h : factor (fuel + 1) ts = .ok (e, rest)) :
    ∃ used, ts = used ++ rest ∧ Derives .factor used e := by
  cases ts with
  | nil => simp [factor] at h
  | cons t ts =>
      cases t with
      | plus =>
          obtain ⟨us, rfl, hus⟩ := ih .factor h
          exact ⟨.plus :: us, rfl, .positive hus⟩
      | minus =>
          simp only [factor] at h
          split at h
          · cases h
          · rename_i inner mid hinner
            simp only [Except.ok.injEq, Prod.mk.injEq] at h
            obtain ⟨rfl, rfl⟩ := h
            obtain ⟨us, rfl, hus⟩ := ih .factor hinner
            exact ⟨.minus :: us, rfl, .negative hus⟩
      | number n =>
          simp only [factor, Except.ok.injEq, Prod.mk.injEq] at h
          obtain ⟨rfl, rfl⟩ := h
          exact ⟨[.number n], rfl, .number n⟩
      | path name =>
          simp only [factor, Except.ok.injEq, Prod.mk.injEq] at h
          obtain ⟨rfl, rfl⟩ := h
          exact ⟨[.path name], rfl, .path name⟩
      | leftParen =>
          simp only [factor] at h
          split at h
          · cases h
          · rename_i inner mid hinner
            simp only [Except.ok.injEq, Prod.mk.injEq] at h
            obtain ⟨rfl, rfl⟩ := h
            obtain ⟨us, rfl, hus⟩ := ih .sum hinner
            exact ⟨.leftParen :: (us ++ [.rightParen]), by simp, .parentheses hus⟩
          · cases h
      | star => simp [factor] at h
      | slash => simp [factor] at h
      | rightParen => simp [factor] at h

theorem soundAt (fuel : Nat) : SoundAt fuel := by
  induction fuel with
  | zero =>
      intro p ts rest e h
      cases p <;>
        simp [Phrase.take, sum, summands, product, factors, factor] at h
  | succ fuel ih =>
      intro p ts rest e h
      cases p with
      | sum => exact sum_sound ih h
      | summands left => exact summands_sound ih h
      | product => exact product_sound ih h
      | factors left => exact factors_sound ih h
      | factor => exact factor_sound ih h

/-! ### Every phrase is taken

A phrase whose repetitions are over stops where the next token joins nothing; that token is either
the start of what follows the whole phrase, or a sign that belongs further out.
-/

theorem multiplicative?_of_joinsSummands {t : Token} {op : Operation} (h : JoinsSummands t op) :
    multiplicative? t = none := by
  cases h <;> rfl

/-- Only repetitions can be empty. -/
theorem Derives.least_le {p : Phrase} {ts : List Token} {e : Expression} (h : Derives p ts e) :
    p.least ≤ ts.length := by
  induction h with
  | sum first more ihFirst ihMore =>
      simp only [Phrase.least, List.length_append] at ihFirst ⊢
      omega
  | product first more ihFirst ihMore =>
      simp only [Phrase.least, List.length_append] at ihFirst ⊢
      omega
  | _ => simp [Phrase.least]

/-- What follows the rest of a sum ends its first product as well. -/
theorem Derives.endsBefore_of_summands {left e : Expression} {us rest : List Token}
    (h : Derives (.summands left) us e) (hrest : Phrase.sum.EndsBefore rest) :
    Phrase.product.EndsBefore (us ++ rest) := by
  intro t ht
  cases h with
  | noSummands => exact (hrest t ht).2
  | summand sign next more =>
      simp only [List.cons_append, List.head?_cons, Option.mem_def, Option.some.injEq] at ht
      subst ht
      exact multiplicative?_of_joinsSummands sign

/-- A phrase is taken off the front of any tokens that it ends before. -/
theorem Derives.take {p : Phrase} {ts : List Token} {e : Expression} (h : Derives p ts e) :
    ∀ {fuel : Nat} {rest : List Token}, p.EndsBefore rest → p.cost ts.length ≤ fuel →
      p.take fuel (ts ++ rest) = .ok (e, rest) := by
  induction h with
  | @sum ts us left e first more ihFirst ihMore =>
      intro fuel rest hrest hfuel
      have hpos := first.least_le
      simp only [Phrase.cost, Phrase.least, List.length_append] at hpos hfuel ihFirst ihMore
      obtain ⟨fuel, rfl⟩ : ∃ k, fuel = k + 1 := ⟨fuel - 1, by omega⟩
      have h1 := @ihFirst fuel _ (more.endsBefore_of_summands hrest) (by omega)
      have h2 := @ihMore fuel _ hrest (by omega)
      simp only [Phrase.take] at h1 h2 ⊢
      rw [List.append_assoc, Expression.sum, h1]
      exact h2
  | noSummands left =>
      intro fuel rest hrest hfuel
      obtain ⟨fuel, rfl⟩ : ∃ k, fuel = k + 1 := ⟨fuel - 1, by simp [Phrase.cost] at hfuel; omega⟩
      cases rest with
      | nil => rfl
      | cons t rest => simp [Phrase.take, summands, (hrest t rfl).1]
  | @summand t op ts us left right e sign next more ihNext ihMore =>
      intro fuel rest hrest hfuel
      have hpos := next.least_le
      simp only [Phrase.cost, Phrase.least, List.length_append, List.length_cons]
        at hpos hfuel ihNext ihMore
      obtain ⟨fuel, rfl⟩ : ∃ k, fuel = k + 1 := ⟨fuel - 1, by omega⟩
      have h1 := @ihNext fuel _ (more.endsBefore_of_summands hrest) (by omega)
      have h2 := @ihMore fuel _ hrest (by omega)
      simp only [Phrase.take] at h1 h2 ⊢
      rw [List.cons_append, List.append_assoc, summands, additive?_eq_some_iff.mpr sign]
      simp only [h1]
      exact h2
  | @product ts us left e first more ihFirst ihMore =>
      intro fuel rest hrest hfuel
      have hpos := first.least_le
      simp only [Phrase.cost, Phrase.least, List.length_append] at hpos hfuel ihFirst ihMore
      obtain ⟨fuel, rfl⟩ : ∃ k, fuel = k + 1 := ⟨fuel - 1, by omega⟩
      have h1 := @ihFirst fuel (us ++ rest) trivial (by omega)
      have h2 := @ihMore fuel _ hrest (by omega)
      simp only [Phrase.take] at h1 h2 ⊢
      rw [List.append_assoc, Expression.product, h1]
      exact h2
  | noFactors left =>
      intro fuel rest hrest hfuel
      obtain ⟨fuel, rfl⟩ : ∃ k, fuel = k + 1 := ⟨fuel - 1, by simp [Phrase.cost] at hfuel; omega⟩
      cases rest with
      | nil => rfl
      | cons t rest => simp [Phrase.take, factors, hrest t rfl]
  | @anotherFactor t op ts us left right e sign next more ihNext ihMore =>
      intro fuel rest hrest hfuel
      have hpos := next.least_le
      simp only [Phrase.cost, Phrase.least, List.length_append, List.length_cons]
        at hpos hfuel ihNext ihMore
      obtain ⟨fuel, rfl⟩ : ∃ k, fuel = k + 1 := ⟨fuel - 1, by omega⟩
      have h1 := @ihNext fuel (us ++ rest) trivial (by omega)
      have h2 := @ihMore fuel _ hrest (by omega)
      simp only [Phrase.take] at h1 h2 ⊢
      rw [List.cons_append, List.append_assoc, factors, multiplicative?_eq_some_iff.mpr sign]
      simp only [h1]
      exact h2
  | positive inner ih =>
      intro fuel rest hrest hfuel
      have hpos := inner.least_le
      simp only [Phrase.cost, Phrase.least, List.length_cons] at hpos hfuel ih
      obtain ⟨fuel, rfl⟩ : ∃ k, fuel = k + 1 := ⟨fuel - 1, by omega⟩
      exact @ih fuel _ hrest (by omega)
  | negative inner ih =>
      intro fuel rest hrest hfuel
      have hpos := inner.least_le
      simp only [Phrase.cost, Phrase.least, List.length_cons] at hpos hfuel ih
      obtain ⟨fuel, rfl⟩ : ∃ k, fuel = k + 1 := ⟨fuel - 1, by omega⟩
      have h1 := @ih fuel _ hrest (by omega)
      simp only [Phrase.take] at h1 ⊢
      simp only [List.cons_append, factor, h1]
  | number n =>
      intro fuel rest hrest hfuel
      obtain ⟨fuel, rfl⟩ : ∃ k, fuel = k + 1 := ⟨fuel - 1, by simp [Phrase.cost] at hfuel; omega⟩
      rfl
  | path name =>
      intro fuel rest hrest hfuel
      obtain ⟨fuel, rfl⟩ : ∃ k, fuel = k + 1 := ⟨fuel - 1, by simp [Phrase.cost] at hfuel; omega⟩
      rfl
  | parentheses inner ih =>
      intro fuel rest hrest hfuel
      simp only [Phrase.cost, List.length_cons, List.length_append, List.length_nil] at hfuel ih
      obtain ⟨fuel, rfl⟩ : ∃ k, fuel = k + 1 := ⟨fuel - 1, by omega⟩
      -- The closing parenthesis joins nothing, so the sum inside ends before it.
      have h1 := @ih fuel (.rightParen :: rest)
        (by intro t ht; cases ht; exact ⟨rfl, rfl⟩) (by omega)
      simp only [Phrase.take] at h1 ⊢
      rw [List.cons_append, List.append_assoc, List.singleton_append, factor]
      simp only [h1]

/-! ### Whole lists of tokens -/

theorem ofTokens_eq_ok_iff {ts : List Token} {e : Expression} :
    ofTokens ts = .ok e ↔ Derives .sum ts e := by
  constructor
  · intro h
    unfold ofTokens at h
    split at h
    · cases h
    · split at h
      · cases h
      · rename_i hsum
        cases h
        obtain ⟨used, hts, hused⟩ := sum_sound (soundAt (4 * ts.length + 3)) hsum
        rwa [hts, List.append_nil]
      · cases h
  · intro h
    have hpos : 0 < ts.length := h.least_le
    have htake : Phrase.sum.take (4 * ts.length + 4) (ts ++ []) = .ok (e, []) :=
      h.take (by simp [Phrase.EndsBefore]) (by simp only [Phrase.cost]; omega)
    rw [List.append_nil] at htake
    have hsum : sum (4 * ts.length + 4) ts = .ok (e, []) := htake
    cases ts with
    | nil => simp at hpos
    | cons t ts => simp only [ofTokens, hsum]

example : ofTokens [.path "a", .minus, .path "b", .star, .path "c", .minus, .path "d"] =
    .ok (binary .sub (binary .sub (path "a") (binary .mul (path "b") (path "c"))) (path "d")) := rfl

/-- A list of tokens is a sum with at most one tree. -/
theorem Derives.unique {ts : List Token} {e e' : Expression} (h : Derives .sum ts e)
    (h' : Derives .sum ts e') : e = e' := by
  have hok := ofTokens_eq_ok_iff.mpr h
  rw [ofTokens_eq_ok_iff.mpr h'] at hok
  exact (Except.ok.inj hok).symm

/--
**A text is read as the tree of the one sum that its tokens are.**  It is refused exactly when it
has no tokens, when its tokens cannot be told apart, or when they are no sum.
-/
theorem parse_iff_derives (s : String) :
    (∀ e, parse s = .ok e ↔ ∃ ts, Token.ofString s = .ok ts ∧ ts ≠ [] ∧ Derives .sum ts e ∧
      ∀ e', Derives .sum ts e' → e' = e) ∧
    ((∃ f, parse s = .error f) ↔ ¬ ∃ ts e, Token.ofString s = .ok ts ∧ ts ≠ [] ∧
      Derives .sum ts e) := by
  have hok : ∀ e, parse s = .ok e ↔ ∃ ts, Token.ofString s = .ok ts ∧ Derives .sum ts e := by
    intro e
    unfold parse
    cases Token.ofString s with
    | error f => simp
    | ok ts => simp [ofTokens_eq_ok_iff]
  have hne : ∀ {ts e}, Derives .sum ts e → ts ≠ [] := fun h =>
    List.ne_nil_of_length_pos (h.least_le)
  constructor
  · intro e
    rw [hok]
    constructor
    · rintro ⟨ts, hts, h⟩
      exact ⟨ts, hts, hne h, h, fun e' h' => h'.unique h⟩
    · rintro ⟨ts, hts, -, h, -⟩
      exact ⟨ts, hts, h⟩
  · constructor
    · rintro ⟨f, hf⟩ ⟨ts, e, hts, -, h⟩
      rw [(hok e).mpr ⟨ts, hts, h⟩] at hf
      cases hf
    · intro h
      cases hp : parse s with
      | error f => exact ⟨f, rfl⟩
      | ok e =>
          obtain ⟨ts, hts, hd⟩ := (hok e).mp hp
          exact absurd ⟨ts, e, hts, hne hd, hd⟩ h

end Expression

end Curator
