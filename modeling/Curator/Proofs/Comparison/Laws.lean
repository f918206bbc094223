/-
Comparing values is lawful.

Both sides of a comparison choose together what decides it: the numbers that they stand for, if both
stand for one, and otherwise the order of texts or of booleans, or plain equality.  The laws hold
across that choice because values that are the same stand for the same number or for none.  So two values
are equal exactly if they stand for numbers of one value, or if they stand for none and are the same
(`order?_eq_some_eq_iff`).  That is an equivalence as long as no object repeats a name, and looking at
the two sides the other way round only turns their order around.
-/
import Curator.Comparison
import Curator.Proofs.Json.Equality
import Curator.Proofs.Number.Nearest

namespace Curator

variable {a b c : Json}

/-! ### Equality -/

/-- The value of the number that one side of a comparison stands for. -/
def comparedValue? (v : Json) : Option Rat := (comparable? v).map Double.value

/-- Values that are the same stand for one number or for none. -/
theorem comparedValue?_of_same (h : a.same b = true) : comparedValue? a = comparedValue? b := by
  cases a with
  | null => cases b <;> simp [Json.same] at h; rfl
  | bool x => cases b <;> simp [Json.same] at h; rfl
  | array xs => cases b <;> simp [Json.same] at h; rfl
  | object fields => cases b <;> simp [Json.same] at h; rfl
  | string s =>
      cases b <;> simp [Json.same] at h
      rw [h]
  | number m =>
      cases b <;> simp [Json.same] at h
      rename_i n
      have hvalue : m.toDouble.value = n.toDouble.value := by
        cases m with
        | whole m =>
            cases n with
            | whole n => rw [Number.toDouble, Number.toDouble, beq_iff_eq.mp h]
            | real y => cases h
        | real x =>
            cases n with
            | whole n => cases h
            | real y => exact (Double.same_iff x y).mp h
      exact congrArg some hvalue

/-- Whatever order a kind of values has, equal by it are those that are the same. -/
theorem orderByKind?_eq_some_eq_iff : orderByKind? a b = some .eq ↔ a.same b = true := by
  have hother : (if a.same b then some Ordering.eq else none) = some .eq ↔ a.same b = true := by
    cases a.same b <;> simp
  cases a with
  | null =>
      cases b with
      | null => exact iff_of_true rfl rfl
      | _ => exact hother
  | bool x =>
      cases b with
      | bool y =>
          rw [orderByKind?, Option.some.injEq, Std.LawfulEqOrd.compare_eq_iff_eq, Json.same,
            beq_iff_eq]
      | _ => exact hother
  | string s =>
      cases b with
      | string t =>
          rw [orderByKind?, Option.some.injEq, Std.LawfulEqOrd.compare_eq_iff_eq, Json.same,
            beq_iff_eq]
      | _ => exact hother
  | number m => cases b <;> exact hother
  | array xs => cases b <;> exact hother
  | object fields => cases b <;> exact hother

/-- Two values are equal if they stand for numbers of one value, or for none and are the same. -/
theorem order?_eq_some_eq_iff :
    order? a b = some .eq ↔
      comparedValue? a = comparedValue? b ∧ (comparedValue? a = none → a.same b = true) := by
  unfold order?
  split
  · rename_i x y hx hy
    simp [comparedValue?, hx, hy, Double.order_eq_eq_iff]
  · rename_i hnumbers
    rw [orderByKind?_eq_some_eq_iff]
    constructor
    · intro h
      exact ⟨comparedValue?_of_same h, fun _ => h⟩
    · rintro ⟨hvalues, hsame⟩
      refine hsame ?_
      cases hx : comparable? a with
      | none => simp [comparedValue?, hx]
      | some x =>
          cases hy : comparable? b with
          | none => simp [comparedValue?, hx, hy] at hvalues
          | some y => exact absurd hy (hnumbers x y hx)

/-! ### The other way round -/

theorem swap_orderByKind? (ha : a.Settled) (hb : b.Settled) :
    (orderByKind? a b).map Ordering.swap = orderByKind? b a := by
  have hsame : a.same b = b.same a := Bool.eq_iff_iff.mpr ⟨ha.same_symm b, hb.same_symm a⟩
  have hother (h : a.same b = b.same a) :
      (if a.same b then some Ordering.eq else none).map Ordering.swap =
        if b.same a then some .eq else none := by
    rw [h]
    cases b.same a <;> rfl
  cases a with
  | null => cases b <;> rfl
  | bool x =>
      cases b with
      | bool y => exact congrArg some Std.OrientedOrd.eq_swap.symm
      | _ => exact hother hsame
  | string s =>
      cases b with
      | string t => exact congrArg some Std.OrientedOrd.eq_swap.symm
      | _ => exact hother hsame
  | number m => cases b <;> exact hother hsame
  | array xs => cases b <;> exact hother hsame
  | object fields => cases b <;> exact hother hsame

theorem swap_order? (ha : a.Settled) (hb : b.Settled) :
    (order? a b).map Ordering.swap = order? b a := by
  unfold order?
  cases hx : comparable? a with
  | none => cases comparable? b <;> exact swap_orderByKind? ha hb
  | some x =>
      cases hy : comparable? b with
      | none => exact swap_orderByKind? ha hb
      | some y => exact congrArg some (x.swap_order y)

/-! ### The comparators -/

namespace Comparator

theorem equal_holds_iff : equal.holds a b = true ↔ order? a b = some .eq := by
  rw [holds, beq_iff_eq]

theorem less_holds_iff : less.holds a b = true ↔ order? a b = some .lt := by
  rw [holds, beq_iff_eq]

theorem greater_holds_iff : greater.holds a b = true ↔ order? a b = some .gt := by
  rw [holds, beq_iff_eq]

/-- Values without an order differ, and stand in no other relation. -/
theorem order?_eq_none_iff :
    order? a b = none ↔ ∀ k : Comparator, k.holds a b = true ↔ k = notEqual := by
  constructor
  · intro hnone k
    cases k <;> simp [holds, hnone]
  · intro hall
    cases h : order? a b with
    | none => rfl
    | some o =>
        cases o with
        | lt => cases (hall less).mp (less_holds_iff.mpr h)
        | eq => cases (hall equal).mp (equal_holds_iff.mpr h)
        | gt => cases (hall greater).mp (greater_holds_iff.mpr h)

theorem equal_holds_trans (ha : a.Settled) (hab : equal.holds a b = true)
    (hbc : equal.holds b c = true) : equal.holds a c = true := by
  rw [equal_holds_iff, order?_eq_some_eq_iff] at hab hbc ⊢
  obtain ⟨hvalues, hsame⟩ := hab
  obtain ⟨hvalues', hsame'⟩ := hbc
  refine ⟨hvalues.trans hvalues', fun hnone => ?_⟩
  exact ha.same_trans b c (hsame hnone) (hsame' (hvalues ▸ hnone))

/--
**Comparing values is lawful.**  Two values are equal if they stand for numbers of one value, or for
none and are the same; that is an equivalence, across numbers and texts of numbers.  To be less is to be
greater the other way round, at most one of less, equal and greater holds, the other comparators are put
together from these, and values that none of them relates only differ.  An object is taken to name each
of its fields once, as every value that is read does.
-/
theorem comparisons_lawful (ha : a.Settled) (hb : b.Settled) :
    (equal.holds a b = true ↔
      comparedValue? a = comparedValue? b ∧ (comparedValue? a = none → a.same b = true)) ∧
    equal.holds a a = true ∧
    (equal.holds a b = true → equal.holds b a = true) ∧
    (equal.holds a b = true → equal.holds b c = true → equal.holds a c = true) ∧
    less.holds a b = greater.holds b a ∧
    ([less, equal, greater].filter fun k => k.holds a b).length ≤ 1 ∧
    greaterOrEqual.holds a b = (greater.holds a b || equal.holds a b) ∧
    lessOrEqual.holds a b = (less.holds a b || equal.holds a b) ∧
    notEqual.holds a b = !equal.holds a b ∧
    (order? a b = none ↔ ∀ k : Comparator, k.holds a b = true ↔ k = notEqual) := by
  refine ⟨equal_holds_iff.trans order?_eq_some_eq_iff, ?reflexive, ?symmetric, equal_holds_trans ha,
    ?turned, ?exclusive, rfl, rfl, rfl, order?_eq_none_iff⟩
  case reflexive =>
    rw [equal_holds_iff, order?_eq_some_eq_iff]
    exact ⟨rfl, fun _ => ha.same_self⟩
  case symmetric =>
    rw [equal_holds_iff, equal_holds_iff, ← swap_order? ha hb]
    intro h
    rw [h]
    rfl
  case turned =>
    rw [Bool.eq_iff_iff, less_holds_iff, greater_holds_iff, ← swap_order? ha hb]
    cases order? a b with
    | none => simp
    | some o => cases o <;> simp [Ordering.swap]
  case exclusive =>
    unfold holds
    cases order? a b with
    | none => decide
    | some o => cases o <;> decide

private def realFive : Json := .number (.real ⟨false, 5 * 2 ^ 50, -50, by decide⟩)

private def hexadecimalFive : Json := .string "0x5"

private def blankFive : Json := .string " 5 "

/-- Texts of numbers are equal across a number that they both write. -/
theorem comparisons_lawful_five :
    equal.holds hexadecimalFive realFive = true ∧ equal.holds realFive blankFive = true ∧
      equal.holds hexadecimalFive blankFive = true ∧ equal.holds realFive hexadecimalFive = true ∧
      less.holds hexadecimalFive realFive = greater.holds realFive hexadecimalFive := by
  have hhexadecimal : equal.holds hexadecimalFive realFive = true := by decide +kernel
  have hblank : equal.holds realFive blankFive = true := by decide +kernel
  obtain ⟨-, -, symmetric, transitive, turned, -⟩ :=
    comparisons_lawful (c := blankFive) (Json.Settled.string "0x5" : hexadecimalFive.Settled)
      (Json.Settled.number _ : realFive.Settled)
  exact ⟨hhexadecimal, hblank, transitive hhexadecimal hblank, symmetric hhexadecimal, turned⟩

end Comparator

end Curator
