/-
What writes leave of a document.

An insertion sets the id and an update never does.  An increment adds its deltas in turn and stops at
the first that is no number, so it touches just the fields of `Document.added`; it is the one write
that may add to the id, and what it leaves there is a number or null.
-/
import Curator.Proofs.Dict
import Curator.Store.Document

namespace Curator

namespace Document

theorem hasId_iff {id : String} {d : Document} : hasId id d = true ↔ d.id? = some id := beq_iff_eq

theorem id?_set_idField (d : Document) (id : String) :
    Document.id? (d.set idField (.string id)) = some id := by
  simp [Document.id?, Json.string?]

/-- Written fields that are no id leave the id alone. -/
theorem get?_update (d : Document) {fields : Document} (hfields : fields.names.Nodup)
    (name : String) :
    (update d fields).get? name =
      if name = idField then d.get? name else (fields.get? name).or (d.get? name) := by
  have hkept : (Dict.names (fields.filter fun e => e.1 != idField)).Nodup :=
    hfields.sublist (List.filter_sublist.map _)
  rw [update, Dict.get?_merge _ hkept, Dict.get?_filter fun n => n != idField]
  by_cases hname : name = idField
  · simp [hname]
  · simp [hname]

theorem id?_update (d fields : Document) : (update d fields).id? = d.id? := by
  have hkept : idField ∉ Dict.names (fields.filter fun e => e.1 != idField) := by
    simp [Dict.names]
  rw [id?, update, Dict.get?_merge_of_not_mem_names _ hkept, id?]

/-! ### Increments -/

/-- The deltas that an increment adds: those before the first that is no number. -/
def added (deltas : Document) : Document := deltas.takeWhile fun e => e.2.double?.isSome

theorem added_cons_of_number {name : String} {delta : Json} {x : Double}
    (hx : delta.double? = some x) (rest : Document) :
    added ((name, delta) :: rest) = (name, delta) :: added rest := by
  rw [added, List.takeWhile_cons_of_pos (by rw [hx]; rfl), added]

theorem added_cons_of_no_number {name : String} {delta : Json} (hnone : delta.double? = none)
    (rest : Document) : added ((name, delta) :: rest) = [] := by
  rw [added, List.takeWhile_cons_of_neg (by rw [hnone]; exact Bool.false_ne_true)]

theorem names_added_subset (deltas : Document) : (added deltas).names ⊆ deltas.names :=
  ((List.takeWhile_prefix _).sublist.map _).subset

/-- A field that is not added to keeps its value. -/
theorem get?_increment_of_not_mem (d : Document) {deltas : Document} {name : String}
    (h : name ∉ (added deltas).names) : (increment d deltas).2.get? name = d.get? name := by
  induction deltas generalizing d with
  | nil => rfl
  | cons e deltas ih =>
      obtain ⟨field, delta⟩ := e
      rw [increment]
      cases hx : delta.double? with
      | none => rfl
      | some x =>
          rw [added_cons_of_number hx, Dict.names_cons, List.mem_cons, not_or] at h
          dsimp only
          rw [ih _ h.2, Dict.get?_set_of_ne _ _ (Ne.symm h.1)]

theorem get?_increment_of_not_mem_names (d : Document) {deltas : Document} {name : String}
    (h : name ∉ deltas.names) : (increment d deltas).2.get? name = d.get? name :=
  get?_increment_of_not_mem d fun hadded => h (names_added_subset deltas hadded)

/-- A field that is added to once, by numbers throughout, holds the one sum. -/
theorem get?_increment (d : Document) {deltas : Document} (hdistinct : deltas.names.Nodup)
    (hnumbers : ∀ e ∈ deltas, e.2.double?.isSome) {name : String} {v : Json} {x : Double}
    (hv : deltas.get? name = some v) (hx : v.double? = some x) :
    (increment d deltas).2.get? name =
      some (Json.ofDouble? ((((d.get? name).bind Json.double?).getD (Double.zero false)).add? x)) := by
  induction deltas generalizing d with
  | nil => cases hv
  | cons e deltas ih =>
      obtain ⟨field, delta⟩ := e
      obtain ⟨hfresh, hdistinct⟩ := List.nodup_cons.mp hdistinct
      obtain ⟨hnumber, hnumbers⟩ := List.forall_mem_cons.mp hnumbers
      obtain ⟨y, hy⟩ := Option.isSome_iff_exists.mp hnumber
      rw [increment, hy]
      dsimp only
      rw [Dict.get?_cons] at hv
      by_cases hname : field = name
      · subst hname
        rw [if_pos rfl] at hv
        obtain rfl := Option.some.inj hv
        obtain rfl := Option.some.inj (hy.symm.trans hx)
        rw [get?_increment_of_not_mem_names _ hfresh, Dict.get?_set_self]
      · rw [if_neg hname] at hv
        rw [ih _ hdistinct hnumbers hv, Dict.get?_set_of_ne _ _ hname]

theorem string?_ofDouble? (x : Option Double) : (Json.ofDouble? x).string? = none := by
  cases x with
  | none => rfl
  | some x => rfl

/-- An increment leaves the id alone, or leaves none if it adds to it. -/
theorem id?_increment (d deltas : Document) :
    (increment d deltas).2.id? = if idField ∈ (added deltas).names then none else d.id? := by
  induction deltas generalizing d with
  | nil => rfl
  | cons e deltas ih =>
      obtain ⟨field, delta⟩ := e
      rw [increment]
      cases hx : delta.double? with
      | none => rw [added_cons_of_no_number hx]; rfl
      | some x =>
          dsimp only
          rw [ih, added_cons_of_number hx, Dict.names_cons]
          by_cases hfield : idField = field
          · subst hfield
            have hlost : Document.id? (d.set idField
                (Json.ofDouble? (Double.add? (((d.get? idField).bind Json.double?).getD
                  (Double.zero false)) x))) = none := by
              rw [id?, Dict.get?_set_self, Option.bind_some, string?_ofDouble?]
            rw [hlost, if_pos List.mem_cons_self, ite_self]
          · have hkept : ∀ v : Json, Document.id? (d.set field v) = d.id? := by
              intro v
              rw [id?, Dict.get?_set_of_ne _ _ (Ne.symm hfield), id?]
            simp only [List.mem_cons, hfield, false_or, hkept]

end Document

end Curator
