/-
What a caller can learn about hidden fields by reading: nothing.

`Entity.view` is what a caller may know of a collection: the ids of its documents in order, and of each
document the part that the caller may read.  The answers to reads are a function of the view.  A document
is found by its id alone, and it is shown as the view has it.  A filter could ask about hidden fields,
but a query that names one is refused before any document is looked at, with the same failure as a field
that does not exist; the filter of any other query holds of a document exactly when it holds of the part
that the caller may read.

So two states in which a caller has the same view cannot be told apart by reads, however much they differ
in fields that the caller may not read, in other collections, and in the record of hooks.
-/
import Curator.Proofs.Service.Writing
import Curator.Proofs.Store.Slots

namespace Curator

open Serving (runOn)

/-- The same place with another document in it. -/
def Slot.map (f : Document → Document) (x : Slot) : Slot := ⟨x.key, x.doc.map f⟩

/-- What a caller may know of the collection of an entity, if it has a store. -/
def Entity.view (e : Entity) (caller : Option String) (s : Stores) : Option (List Slot) :=
  e.handle?.map fun h => (h.slots s).map (Slot.map (e.visible caller))

namespace Handle

/-! ### Reading the parts of documents -/

variable {h : Handle} {s s' : Stores} {f : Document → Document}

theorem mapM_id_map (results : List (Except Failure Document)) :
    (results.mapM id).map (List.map f) = (results.map (Except.map f)).mapM id := by
  induction results with
  | nil => rfl
  | cons r results ih =>
      rw [List.mapM_cons, List.map_cons, List.mapM_cons, ← ih]
      cases r with
      | error e => rfl
      | ok d => cases results.mapM id <;> rfl

theorem findById?_congr (hslots : (h.slots s).map (Slot.map f) = (h.slots s').map (Slot.map f))
    (id : String) :
    (h.findById? id s).map (Option.map f) = (h.findById? id s').map (Option.map f) := by
  have hfind : ∀ s, (h.findById? id s).map (Option.map f) =
      (((h.slots s).map (Slot.map f)).find? fun x => x.key == some id).elim (.ok none)
        fun x => x.doc.map some := by
    intro s
    have hkeys : (fun x : Slot => x.key == some id) ∘ Slot.map f = fun x => x.key == some id := rfl
    rw [findById?_eq_slot, List.find?_map, hkeys]
    cases (h.slots s).find? fun x => x.key == some id with
    | none => rfl
    | some x => cases hx : x.doc <;> simp [Slot.map, hx, Except.map]
  rw [hfind, hfind, hslots]

/-- A filter that sees no more than the parts finds the same parts. -/
theorem find_congr (hslots : (h.slots s).map (Slot.map f) = (h.slots s').map (Slot.map f))
    {filter : Document} (hfilter : ∀ d, (f d).matchesFilter filter = d.matchesFilter filter) :
    (h.find filter s).map (List.map f) = (h.find filter s').map (List.map f) := by
  have hdocs : ∀ s, (h.documents s).map (List.map f) =
      (((h.slots s).map (Slot.map f)).map (·.doc)).mapM id := by
    intro s
    rw [documents_eq_mapM, mapM_id_map, List.map_map, List.map_map]
    rfl
  have hfind : ∀ s, (h.find filter s).map (List.map f) =
      ((h.documents s).map (List.map f)).map (List.filter fun d => d.matchesFilter filter) := by
    intro s
    rw [find]
    cases h.documents s with
    | error e => rfl
    | ok docs =>
        refine congrArg Except.ok ?_
        rw [List.filter_map]
        exact congrArg (List.map f) (List.filter_congr fun d _ => (hfilter d).symm)
  rw [hfind, hfind, hdocs, hdocs, hslots]

end Handle

namespace Entity

variable {e : Entity} {caller : Option String}

/-! ### What reads come to -/

theorem view_eq_iff {h : Handle} (hstore : e.handle? = some h) {s s' : Stores} :
    e.view caller s = e.view caller s' ↔
      (h.slots s).map (Slot.map (e.visible caller)) =
        (h.slots s').map (Slot.map (e.visible caller)) := by
  simp [view, hstore]

theorem load_congr {s s' : Stores} (hview : e.view caller s = e.view caller s') (id : String) :
    (e.load id s).map (e.visible caller) = (e.load id s').map (e.visible caller) := by
  have hload : ∀ s, (e.load id s).map (e.visible caller) =
      if isValidId id then do
        let h ← e.store
        let found ← (h.findById? id s).map (Option.map (e.visible caller))
        found.elim (.error e.documentNotFound) .ok
      else .error e.documentNotFound := by
    intro s
    rw [load]
    split
    · cases e.store with
      | error f => rfl
      | ok h =>
          simp only [Outcome.ok_bind]
          rcases h.findById? id s with f | _ | d
          · rfl
          · rfl
          · rfl
    · rfl
  rw [hload, hload]
  cases hstore : e.handle? with
  | none => simp only [store, hstore, Outcome.error_bind]
  | some h =>
      have hslots := (view_eq_iff hstore).mp hview
      simp only [store, hstore, Outcome.ok_bind, Handle.findById?_congr hslots id]

/-- A field that the caller may read has the same value in the part that the caller may read. -/
theorem value_visible {field : String} (hshows : e.shows caller field = true) (d : Document) :
    (e.visible caller d).value field = d.value field := by
  rw [Document.value, visible, Dict.get?_filter (e.shows caller), if_pos hshows, Document.value]

theorem matchesFilter_visible {filter : Document}
    (hshows : ∀ entry ∈ filter, e.shows caller entry.1 = true) (d : Document) :
    (e.visible caller d).matchesFilter filter = d.matchesFilter filter := by
  rw [Document.matchesFilter, Document.matchesFilter, Bool.eq_iff_iff, List.all_eq_true,
    List.all_eq_true]
  refine forall_congr' fun entry => imp_congr_right fun hentry => ?_
  rw [value_visible (hshows entry hentry)]

end Entity

namespace Service

/-- The filter of a query asks about no field that the caller may not read. -/
theorem shows_of_mem_queryFilter {e : Entity} {caller : Option String} :
    ∀ {query : List (String × Json)} {filter : Document},
      queryFilter e caller query = .ok filter →
      ∀ entry ∈ filter, e.shows caller entry.1 = true := by
  intro query
  induction query with
  | nil =>
      intro filter h entry hentry
      cases h
      cases hentry
  | cons first rest ih =>
      obtain ⟨name, v⟩ := first
      intro filter h entry hentry
      rw [queryFilter] at h
      split at h
      · cases h
      · rename_i a ha
        split at h
        · rename_i hallowed
          split at h
          · cases h
          · obtain ⟨more, hmore, rfl⟩ := Outcome.map_eq_ok_iff.mp h
            rcases List.mem_cons.mp hentry with rfl | hentry
            · simp only [Entity.shows, ha, hallowed]
            · exact ih hmore entry hentry
        · cases h

variable {svc : Service} {entity : String} {e : Entity} {req : Request} {w w' : World}

namespace Quiet

theorem get_congr (hq : svc.Quiet entity e)
    (hview : e.view req.caller w.stores = e.view req.caller w'.stores) (id : String) :
    (runOn (svc.get entity id req) w).1 = (runOn (svc.get entity id req) w').1 := by
  rw [hq.runOn_get, hq.runOn_get, Entity.load_congr hview]

theorem find_congr (hq : svc.Quiet entity e)
    (hview : e.view req.caller w.stores = e.view req.caller w'.stores) (query : Document) :
    (runOn (svc.find entity query req) w).1 = (runOn (svc.find entity query req) w').1 := by
  rw [hq.runOn_find, hq.runOn_find]
  cases hfilter : queryFilter e req.caller query with
  | error f => rfl
  | ok filter =>
      cases hstore : e.handle? with
      | none => simp only [Entity.store, hstore]; rfl
      | some h =>
          have hslots := (Entity.view_eq_iff hstore).mp hview
          have hshows := Entity.matchesFilter_visible (shows_of_mem_queryFilter hfilter)
          simp only [Entity.store, hstore, Outcome.ok_bind, Handle.find_congr hslots hshows]

end Quiet

/--
**Reads do not tell hidden fields.**  In two worlds in which a caller may know the same of a collection,
every read of the caller is answered in the same way, with documents or with a failure.
-/
theorem reads_eq_of_view_eq (hq : svc.Quiet entity e)
    (hview : e.view req.caller w.stores = e.view req.caller w'.stores) :
    (∀ id, (runOn (svc.get entity id req) w).1 = (runOn (svc.get entity id req) w').1) ∧
    ∀ query, (runOn (svc.find entity query req) w).1 = (runOn (svc.find entity query req) w').1 :=
  ⟨hq.get_congr hview, hq.find_congr hview⟩

/-! ### Accounts that differ in a hidden number -/

/-- Accounts that anyone may read, but for their numbers. -/
private def accounts : Entity :=
  ⟨{ Definition.ofNames "accounts" "accounts" with
      permissions := some ⟨some (.one .anyone), none, none, none⟩
      attributes := ⟨[("number", { Attribute.ofKind (.number none none) with
          permissions := some (.uniform (.one .nobody)) }),
        ("owner", .ofKind (.string none none))], by decide⟩ },
    some ⟨.memory, "accounts", []⟩⟩

private def accountService : Service :=
  ⟨⟨fun t _ => .ok t, fun n => String.ofList (List.replicate n 'x'), toString, .ok⟩,
    ⟨[("accounts", accounts)]⟩, fun _ _ => none⟩

/-- Two accounts, of which the first has a number of its own. -/
private def twoAccounts (number : Json) : World :=
  ⟨⟨[("accounts", [[("owner", .string "Ann"), ("number", number), ("id", .string "1")],
      [("owner", .string "Bob"), ("id", .string "2")]])], [], 2⟩, []⟩

private def nosyCaller : Request := ⟨some "9", none, 0⟩

private theorem accounts_quiet : accountService.Quiet "accounts" accounts where
  registered := rfl
  noHooks := ⟨rfl, rfl⟩
  noCode := ⟨rfl, rfl⟩
  noJoins := rfl

theorem reads_eq_of_view_eq_accounts :
    accountService.Quiet "accounts" accounts ∧
    accounts.view (some "9") (twoAccounts (.ofNat 7)).stores =
      accounts.view (some "9") (twoAccounts (.string "none")).stores ∧
    (∀ id, (runOn (accountService.get "accounts" id nosyCaller) (twoAccounts (.ofNat 7))).1 =
      (runOn (accountService.get "accounts" id nosyCaller) (twoAccounts (.string "none"))).1) ∧
    ∀ query, (runOn (accountService.find "accounts" query nosyCaller) (twoAccounts (.ofNat 7))).1 =
      (runOn (accountService.find "accounts" query nosyCaller) (twoAccounts (.string "none"))).1 := by
  have hview : accounts.view nosyCaller.caller (twoAccounts (.ofNat 7)).stores =
      accounts.view nosyCaller.caller (twoAccounts (.string "none")).stores := rfl
  exact ⟨accounts_quiet, hview, reads_eq_of_view_eq accounts_quiet hview⟩

end Service

end Curator
