/-
What an expression looks up.

The paths of an expression are collected in one walk over the tree, its value in another.  The walk that
collects carries the list of what it has met so far: that list names every leaf behind it once, in the
order of first appearance (`ListsOnce`), and each kind of node keeps it so.  The walk that evaluates asks
for the leaves in the same order and for nothing else, so two maps with the same values of the paths have
the same result, errors included.  That is why it is enough to look up the paths before evaluating.
-/
import Curator.Proofs.Serving
import Curator.Template
import Mathlib.Data.List.Basic

namespace Curator

/-- The value of a name in a map; a name without an entry counts as null. -/
def Dict.valueOf (d : Dict Json) (name : String) : Json := (d.get? name).getD .null

namespace Expression

/-- The path leaves of an expression from left to right, as often as they occur. -/
def leaves : Expression → List String
  | number _ => []
  | path name => [name]
  | negate e => e.leaves
  | binary _ l r => l.leaves ++ r.leaves

/-! ### Collecting the paths -/

/-- The first list has every name of the second one once, in the order of first appearance. -/
structure ListsOnce (names all : List String) : Prop where
  mem_iff : ∀ name, name ∈ names ↔ name ∈ all
  ordered : names.Pairwise fun a b => all.idxOf a < all.idxOf b

/-- Names that appear one after the other are different names. -/
theorem ListsOnce.nodup {names all : List String} (h : ListsOnce names all) : names.Nodup := by
  refine h.ordered.imp fun {a b} hlt => ?_
  rintro rfl
  exact Nat.lt_irrefl _ hlt

/-- More names behind a list do not change where its own first appear. -/
theorem ListsOnce.ordered_append {names all : List String} (h : ListsOnce names all)
    (more : List String) :
    names.Pairwise fun a b => (all ++ more).idxOf a < (all ++ more).idxOf b := by
  refine h.ordered.imp_of_mem fun {a b} ha hb hlt => ?_
  rwa [List.idxOf_append_of_mem ((h.mem_iff a).mp ha),
    List.idxOf_append_of_mem ((h.mem_iff b).mp hb)]

/-- A leaf that has been met is not listed again, and a new one comes last. -/
theorem ListsOnce.path {names all : List String} (h : ListsOnce names all) (name : String) :
    ListsOnce (if names.contains name then names else names ++ [name]) (all ++ [name]) := by
  split
  · rename_i hmet
    have hmem : name ∈ all := (h.mem_iff name).mp (List.contains_iff_mem.mp hmet)
    refine ⟨fun other => ?_, h.ordered_append [name]⟩
    rw [h.mem_iff, List.mem_append, List.mem_singleton]
    constructor
    · exact Or.inl
    · rintro (hother | rfl)
      · exact hother
      · exact hmem
  · rename_i hnew
    have hnot : name ∉ all := fun hmem => hnew (List.contains_iff_mem.mpr ((h.mem_iff name).mpr hmem))
    refine ⟨fun other => ?_, ?_⟩
    · rw [List.mem_append, List.mem_append, h.mem_iff]
    · refine List.pairwise_append.mpr ⟨h.ordered_append [name], List.pairwise_singleton _ _, ?_⟩
      intro a ha b hb
      have hmem : a ∈ all := (h.mem_iff a).mp ha
      rw [List.mem_singleton.mp hb, List.idxOf_append_of_mem hmem, List.idxOf_append_of_notMem hnot]
      exact Nat.lt_add_right _ (List.idxOf_lt_length_of_mem hmem)

/-- Walking on over an expression lists its leaves behind those that were met before. -/
theorem ListsOnce.addPaths {names all : List String} (h : ListsOnce names all) (e : Expression) :
    ListsOnce (e.addPaths names) (all ++ e.leaves) := by
  induction e generalizing names all with
  | number n =>
      rw [Expression.addPaths, leaves, List.append_nil]
      exact h
  | path name => exact h.path name
  | negate e ih => exact ih h
  | binary op l r ihLeft ihRight =>
      rw [Expression.addPaths, leaves, ← List.append_assoc]
      exact ihRight (ihLeft h)

theorem listsOnce_paths (e : Expression) : ListsOnce e.paths e.leaves :=
  ListsOnce.addPaths ⟨fun _ => Iff.rfl, List.Pairwise.nil⟩ e

/-! ### Evaluating over the paths -/

/-- An expression has one value, or one error, over all variables that agree on its leaves. -/
theorem evaluate_congr {e : Expression} {vars others : String → Json}
    (h : ∀ name ∈ e.leaves, vars name = others name) : e.evaluate vars = e.evaluate others := by
  induction e with
  | number n => rfl
  | path name => rw [evaluate, evaluate, h name (List.mem_singleton_self name)]
  | negate e ih => rw [evaluate, evaluate, ih h]
  | binary op l r ihLeft ihRight =>
      rw [evaluate, evaluate, ihLeft fun name hname => h name (List.mem_append_left _ hname),
        ihRight fun name hname => h name (List.mem_append_right _ hname)]

end Expression

namespace Scope

/-- A map has the values that some paths have here; what else it has does not matter. -/
def Supplies (s : Scope) (names : List String) (d : Dict Json) : Prop :=
  ∀ name ∈ names, ∃ v, s.variableAt name = .ok v ∧ d.valueOf name = v.value.getD .null

/-- Paths that can be looked up are looked up one after the other. -/
theorem exists_pathValues {s : Scope} {names : List String} {d : Dict Json}
    (h : s.Supplies names d) :
    ∃ values, s.pathValues names = .ok values ∧ ∀ name ∈ names, values.valueOf name = d.valueOf name := by
  induction names with
  | nil => exact ⟨[], rfl, fun name hname => nomatch hname⟩
  | cons first rest ih =>
      obtain ⟨v, hv, hvalue⟩ := h first List.mem_cons_self
      obtain ⟨values, hvalues, hsame⟩ := ih fun name hname => h name (List.mem_cons_of_mem _ hname)
      refine ⟨(first, v.value.getD .null) :: values, ?_, fun name hname => ?_⟩
      · rw [pathValues, hv, hvalues]
        rfl
      · rw [Dict.valueOf, Dict.get?_cons]
        split
        · rename_i hfirst
          subst hfirst
          exact hvalue.symm
        · rename_i hother
          have hmem := (List.mem_cons.mp hname).resolve_left fun heq => hother heq.symm
          exact hsame name hmem

end Scope

/--
**Nothing but its paths decides what an expression comes to.**  The paths of an expression are its path
leaves, each once, in the order in which they first appear from left to right.  Over two maps that have the
same values of the paths it has the same value or the same error, a missing entry counting as null.  So
looking up only the paths gives the result that any map gives which has their values; of a bare path, that
is the value itself.
-/
theorem Expression.paths_decide_value (e : Expression) :
    (∀ name, name ∈ e.paths ↔ name ∈ e.leaves) ∧
    e.paths.Nodup ∧
    (e.paths.Pairwise fun a b => e.leaves.idxOf a < e.leaves.idxOf b) ∧
    (∀ vars others : Dict Json, (∀ name ∈ e.paths, vars.valueOf name = others.valueOf name) →
      e.evaluate vars.valueOf = e.evaluate others.valueOf) ∧
    ∀ (s : Scope) (text : String) (d : Dict Json), Expression.parse text = .ok e →
      s.Supplies e.paths d →
      s.evaluate text =
        match e with
        | .path name => .ok (d.valueOf name)
        | e =>
          match e.evaluate d.valueOf with
          | .error _ => .error .notEvaluated
          | .ok x => .ok (.number (Number.ofDouble x)) := by
  have hlists := listsOnce_paths e
  have hcongr : ∀ vars others : Dict Json,
      (∀ name ∈ e.paths, vars.valueOf name = others.valueOf name) →
      e.evaluate vars.valueOf = e.evaluate others.valueOf := by
    intro vars others h
    exact evaluate_congr fun name hname => h name ((hlists.mem_iff name).mpr hname)
  refine ⟨hlists.mem_iff, hlists.nodup, hlists.ordered, hcongr, ?scope⟩
  case scope =>
    intro s text d hparse hsupplies
    obtain ⟨values, hvalues, hsame⟩ := Scope.exists_pathValues hsupplies
    have hresult := hcongr values d hsame
    rw [Scope.evaluate, hparse]
    cases e with
    | path name =>
        -- A bare path is not evaluated: what is looked up is the result.
        obtain ⟨v, hv, hvalue⟩ := hsupplies name (List.mem_singleton_self name)
        dsimp only
        rw [hv, hvalue]
        rfl
    | _ =>
        dsimp only
        rw [hvalues, ← hresult]
        rfl

/-- Items with a price and a tax on it. -/
private def taxedItems : Definition :=
  { Definition.ofNames "items" "items" with
    attributes := (NameMap.empty.insert "price" (.ofKind (.number none none))).insert "tax"
      (.ofKind (.number none none)) }

/-- An item that costs three and is taxed twice. -/
private def taxedItem : Scope where
  directory := ⟨[("items", ⟨taxedItems, none⟩)]⟩
  stores := .empty
  entity := "items"
  model := [("price", .ofNat 3), ("tax", .ofNat 2)]
  caller := none

/-- The tax less the price. -/
private def taxLessPrice : Expression :=
  .binary .sub (.binary .mul (.path "this.price") (.path "this.tax")) (.path "this.price")

/-- The two values that are looked up, and one that is not. -/
private def taxedValues : Dict Json :=
  [("this.name", .string "x"), ("this.tax", .ofNat 2), ("this.price", .ofNat 3)]

theorem Expression.paths_decide_value_taxed :
    taxLessPrice.paths = ["this.price", "this.tax"] ∧
    taxLessPrice.evaluate taxedValues.valueOf =
      taxLessPrice.evaluate (Dict.valueOf [("this.price", .ofNat 3), ("this.tax", .ofNat 2)]) ∧
    taxedItem.Supplies taxLessPrice.paths taxedValues ∧
    taxedItem.evaluate "this.price * this.tax - this.price" =
      match taxLessPrice.evaluate taxedValues.valueOf with
      | .error _ => .error .notEvaluated
      | .ok x => .ok (.number (Number.ofDouble x)) := by
  obtain ⟨-, -, -, hcongr, hscope⟩ := paths_decide_value taxLessPrice
  have hpaths : taxLessPrice.paths = ["this.price", "this.tax"] := by decide
  have hsupplies : taxedItem.Supplies taxLessPrice.paths taxedValues := by
    rw [hpaths]
    exact List.forall_mem_cons.mpr ⟨⟨_, rfl, rfl⟩, List.forall_mem_singleton.mpr ⟨_, rfl, rfl⟩⟩
  have hparse : parse "this.price * this.tax - this.price" = .ok taxLessPrice := by
    have hsome : (parse "this.price * this.tax - this.price").toOption = some taxLessPrice := by
      decide +kernel
    exact Outcome.toOption_eq_some_iff.mp hsome
  refine ⟨hpaths, hcongr _ _ ?_, hsupplies, hscope taxedItem _ taxedValues hparse hsupplies⟩
  rw [hpaths]
  exact List.forall_mem_cons.mpr ⟨rfl, List.forall_mem_singleton.mpr rfl⟩

end Curator
