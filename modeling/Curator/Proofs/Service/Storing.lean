/-
The one write that a call on an entity makes on its store.

Without declared hooks a call writes once at most.  `Service.storeWrite` tells which write that is
from what the call finds: a draft that is inserted, changes that are written over a document, or a
document that is deleted, as long as the code hook in front of it lets it pass.  Everything else that
a call does, joins and the other code hooks with it, leaves the stores alone.  So a run of calls is a
run of writes on the collection, and what is known of those carries over.
-/
import Curator.Proofs.Service.History
import Curator.Proofs.Store.Writes

namespace Curator

open Serving (runOn runOn_bind)

namespace Serving

variable {α β : Type}

/-- A computation leaves the stores as they are, whether it fails or not. -/
def KeepsStores (m : Serving α) : Prop := ∀ w, (runOn m w).2.stores = w.stores

theorem keepsStores_pure (a : α) : KeepsStores (pure a : Serving α) := fun _ => rfl

theorem keepsStores_look (f : Stores → Except Failure α) : KeepsStores (look f) := fun _ => rfl

theorem KeepsStores.bind {m : Serving α} {k : α → Serving β} (hm : KeepsStores m)
    (hk : ∀ a, KeepsStores (k a)) : KeepsStores (m >>= k) := by
  intro w
  have hfirst := hm w
  rw [runOn_bind]
  rcases hrun : runOn m w with ⟨f | a, v⟩
  · rw [hrun] at hfirst
    exact hfirst
  · rw [hrun] at hfirst
    exact (hk a v).trans hfirst

/-- What goes on after a result that does not depend on the world only has to keep the stores for
that result. -/
theorem KeepsStores.ofExcept_bind {r : Except Failure α} {k : α → Serving β}
    (hk : ∀ a, r = .ok a → KeepsStores (k a)) : KeepsStores (ofExcept r >>= k) := by
  intro w
  rw [runOn_bind, runOn_ofExcept]
  cases r with
  | error f => rfl
  | ok a => exact hk a rfl w

end Serving

open Serving (KeepsStores)

namespace Service

/-- An entity of a service with its store and without declared hooks.  It may have joins, and code
hooks may be installed for it. -/
structure Hookless (svc : Service) (entity : String) (e : Entity) (h : Handle) : Prop where
  registered : svc.directory.get entity = .ok e
  stored : e.handle? = some h
  noHooks : ∀ l, e.definition.hooksAt l = []

/-- What the code hook of a lifecycle point says of a document; without one nothing is said against
it. -/
def codeAnswer (svc : Service) (entity : String) (l : Lifecycle) (d : Document) (req : Request) :
    Except Failure Unit :=
  match svc.codeHook? entity l with
  | none => .ok ()
  | some hook => hook d req

/-- The write that a call makes on the store. -/
def storeWrite (svc : Service) (entity : String) (e : Entity) (ev : Event) : Option Write :=
  match ev.call with
  | .create input =>
    match svc.draft e input ev.request ev.before with
    | .error _ => none
    | .ok d => (svc.codeAnswer entity .beforeCreate d ev.request).toOption.map fun _ => .insert d
  | .update id input =>
    match e.load id ev.before, svc.changes e id input ev.request ev.before with
    | .ok d, .ok fields =>
      (svc.codeAnswer entity .beforeUpdate (Dict.merge d fields) ev.request).toOption.map fun _ =>
        .update id fields
    | _, _ => none
  | .delete id =>
    match doomed e id ev.request ev.before with
    | .error _ => none
    | .ok d => (svc.codeAnswer entity .beforeDelete d ev.request).toOption.map fun _ => .delete id
  | _ => none

/-- The writes that calls make, the newest first. -/
def writes (svc : Service) (entity : String) (e : Entity) (h : Handle) (past : List Event) :
    List WriteEvent :=
  past.filterMap fun ev =>
    (svc.storeWrite entity e ev).map (h.writeEvent svc.capabilities ev.before)

/-- A code hook only looks. -/
theorem keepsStores_runCode (svc : Service) (entity : String) (l : Lifecycle) (model : Document)
    (req : Request) : KeepsStores (svc.runCode entity l model req) := by
  intro w
  unfold runCode
  split
  · rfl
  · rw [runOn_bind, Serving.runOn_record]
    rfl

namespace Hookless

variable {svc : Service} {entity : String} {e : Entity} {h : Handle}

theorem store_eq (hh : svc.Hookless entity e h) : e.store = .ok h := by
  simp only [Entity.store, hh.stored]

/-- The hooks of a lifecycle point are its code hook, which leaves the stores alone. -/
theorem runHooks (hh : svc.Hookless entity e h) (l : Lifecycle) (d : Document) (req : Request)
    (w : World) : ∃ calls, runOn (svc.runHooks entity l d req) w =
      (svc.codeAnswer entity l d req, { w with calls := calls }) := by
  simp only [Service.runHooks, runOn_bind, Serving.runOn_ofExcept, hh.registered, hh.noHooks,
    runDeclared, Serving.runOn_pure, runCode, codeAnswer]
  cases svc.codeHook? entity l with
  | none => exact ⟨w.calls, rfl⟩
  | some hook =>
      simp only [runOn_bind, Serving.runOn_record, Serving.runOn_ofExcept]
      exact ⟨_, rfl⟩

theorem keepsStores_runHooks (hh : svc.Hookless entity e h) (l : Lifecycle) (d : Document)
    (req : Request) : KeepsStores (svc.runHooks entity l d req) := by
  intro w
  obtain ⟨calls, hrun⟩ := hh.runHooks l d req w
  rw [hrun]

theorem keepsStores_showWritten (hh : svc.Hookless entity e h) (l : Lifecycle) (d : Document)
    (id : String) (req : Request) : KeepsStores (svc.showWritten entity e l d id req) :=
  (hh.keepsStores_runHooks l d req).bind fun _ =>
    (Serving.keepsStores_look _).bind fun _ => Serving.keepsStores_look _

theorem stores_create (hh : svc.Hookless entity e h) (input : Json) (req : Request) (w : World) :
    (runOn (svc.create entity input req) w).2.stores =
      match svc.draft e input req w.stores with
      | .error _ => w.stores
      | .ok d =>
        match svc.codeAnswer entity .beforeCreate d req with
        | .error _ => w.stores
        | .ok _ => (h.insert svc.capabilities d w.stores).2 := by
  rw [create_eq hh.registered, runOn_bind, Serving.runOn_look]
  cases svc.draft e input req w.stores with
  | error f => rfl
  | ok d =>
      obtain ⟨calls, hrun⟩ := hh.runHooks .beforeCreate d req w
      simp only [storeDraft, runOn_bind, hrun, hh.store_eq, Serving.runOn_ofExcept,
        Serving.runOn_onStores]
      cases svc.codeAnswer entity .beforeCreate d req with
      | error f => rfl
      | ok _ =>
          dsimp only
          rcases h.insert svc.capabilities d w.stores with ⟨f | stored, s⟩
          · rfl
          · dsimp only
            cases Document.id? stored with
            | none => rfl
            | some id => exact hh.keepsStores_showWritten .afterCreate stored id req _

theorem stores_update (hh : svc.Hookless entity e h) (id : String) (input : Json) (req : Request)
    (w : World) :
    (runOn (svc.update entity id input req) w).2.stores =
      match e.load id w.stores, svc.changes e id input req w.stores with
      | .ok d, .ok fields =>
        match svc.codeAnswer entity .beforeUpdate (Dict.merge d fields) req with
        | .error _ => w.stores
        | .ok _ => (h.update svc.capabilities id fields w.stores).2
      | _, _ => w.stores := by
  rw [update_eq hh.registered, runOn_bind, Serving.runOn_look]
  cases svc.changes e id input req w.stores with
  | error f => cases e.load id w.stores <;> rfl
  | ok fields =>
      dsimp only
      rw [runOn_bind, Serving.runOn_look]
      cases e.load id w.stores with
      | error f => rfl
      | ok existing =>
          obtain ⟨calls, hrun⟩ := hh.runHooks .beforeUpdate (Dict.merge existing fields) req w
          simp only [storeChanges, runOn_bind, hrun, hh.store_eq, Serving.runOn_ofExcept,
            Serving.runOn_onStores]
          cases svc.codeAnswer entity .beforeUpdate (Dict.merge existing fields) req with
          | error f => rfl
          | ok _ =>
              dsimp only
              rcases h.update svc.capabilities id fields w.stores with ⟨f | _ | _, s⟩
              · rfl
              · rfl
              · simp only [if_true]
                exact (((Serving.keepsStores_look (e.load id)).bind fun updated =>
                  hh.keepsStores_showWritten .afterUpdate updated id req) _)

theorem stores_delete (hh : svc.Hookless entity e h) (id : String) (req : Request) (w : World) :
    (runOn (svc.delete entity id req) w).2.stores =
      match doomed e id req w.stores with
      | .error _ => w.stores
      | .ok d =>
        match svc.codeAnswer entity .beforeDelete d req with
        | .error _ => w.stores
        | .ok _ => (h.delete id w.stores).2 := by
  rw [delete_eq hh.registered, runOn_bind, Serving.runOn_look]
  cases doomed e id req w.stores with
  | error f => rfl
  | ok existing =>
      obtain ⟨calls, hrun⟩ := hh.runHooks .beforeDelete existing req w
      simp only [takeOut, runOn_bind, hrun, hh.store_eq, Serving.runOn_ofExcept,
        Serving.runOn_onStores]
      cases svc.codeAnswer entity .beforeDelete existing req with
      | error f => rfl
      | ok _ =>
          dsimp only
          rcases h.delete id w.stores with ⟨_ | _, s⟩
          · rfl
          · simp only [if_true]
            exact (((hh.keepsStores_runHooks .afterDelete existing req).bind fun _ =>
              Serving.keepsStores_pure (e.visible req.caller existing)) _)

theorem keepsStores_showOne (hh : svc.Hookless entity e h) (d : Document) (req : Request) :
    KeepsStores (svc.showOne entity e d req) := by
  rw [showOne]
  refine (hh.keepsStores_runHooks .beforeGet d req).bind fun _ =>
    (Serving.keepsStores_look _).bind fun shown => ?_
  exact (hh.keepsStores_runHooks .afterGet d req).bind fun _ => Serving.keepsStores_pure shown

theorem keepsStores_showAll (hh : svc.Hookless entity e h) (req : Request) (ds : List Document) :
    KeepsStores (svc.showAll entity e req ds) := by
  induction ds with
  | nil => exact Serving.keepsStores_pure []
  | cons d ds ih =>
      rw [showAll]
      exact (hh.keepsStores_showOne d req).bind fun shown =>
        ih.bind fun rest => Serving.keepsStores_pure (shown :: rest)

theorem keepsStores_get (hh : svc.Hookless entity e h) (id : String) (req : Request) :
    KeepsStores (svc.get entity id req) := by
  rw [Service.get, hh.registered]
  refine .ofExcept_bind ?_
  rintro e ⟨⟩
  refine .ofExcept_bind fun _ _ => ?_
  exact (Serving.keepsStores_look _).bind fun d => hh.keepsStores_showOne d req

theorem keepsStores_find (hh : svc.Hookless entity e h) (query : Document) (req : Request) :
    KeepsStores (svc.find entity query req) := by
  rw [Service.find, hh.registered]
  refine .ofExcept_bind ?_
  rintro e ⟨⟩
  refine .ofExcept_bind fun _ _ => .ofExcept_bind fun filter _ => .ofExcept_bind fun h' _ => ?_
  exact (Serving.keepsStores_look _).bind fun docs => hh.keepsStores_showAll req docs

/-- A call changes the stores by its write and by nothing else. -/
theorem stores_serve (hh : svc.Hookless entity e h) (call : Call) (req : Request) (w : World) :
    (runOn (svc.serve entity call req) w).2.stores =
      match svc.storeWrite entity e (svc.event entity call req w) with
      | none => w.stores
      | some x => (h.perform svc.capabilities w.stores x).2 := by
  cases call with
  | create input =>
      rw [serve, runOn_return_singleton, storeWrite]
      refine (hh.stores_create input req w).trans ?_
      dsimp only [event]
      cases svc.draft e input req w.stores with
      | error f => rfl
      | ok d =>
          dsimp only
          cases svc.codeAnswer entity .beforeCreate d req <;> rfl
  | get id =>
      rw [serve, runOn_return_singleton]
      exact hh.keepsStores_get id req w
  | find query => exact hh.keepsStores_find query req w
  | update id input =>
      rw [serve, runOn_return_singleton, storeWrite]
      refine (hh.stores_update id input req w).trans ?_
      dsimp only [event]
      cases e.load id w.stores with
      | error f => rfl
      | ok d =>
          cases svc.changes e id input req w.stores with
          | error f => rfl
          | ok fields =>
              dsimp only
              cases svc.codeAnswer entity .beforeUpdate (Dict.merge d fields) req <;> rfl
  | delete id =>
      rw [serve, runOn_return_singleton, storeWrite]
      refine (hh.stores_delete id req w).trans ?_
      dsimp only [event]
      cases doomed e id req w.stores with
      | error f => rfl
      | ok d =>
          dsimp only
          cases svc.codeAnswer entity .beforeDelete d req <;> rfl

/-- No call increments a field. -/
theorem storeWrite_ne_increment (svc : Service) (entity : String) (e : Entity) (ev : Event)
    (id : String) (deltas : Document) :
    svc.storeWrite entity e ev ≠ some (.increment id deltas) := by
  unfold storeWrite
  repeat' split
  all_goals simp

end Hookless

theorem not_increment_of_mem_writes {svc : Service} {entity : String} {e : Entity} {h : Handle}
    {past : List Event} {ev : WriteEvent} (hev : ev ∈ svc.writes entity e h past) (id : String)
    (deltas : Document) : ev.write ≠ .increment id deltas := by
  obtain ⟨call, -, hwrite⟩ := List.mem_filterMap.mp hev
  obtain ⟨x, hx, rfl⟩ := Option.map_eq_some_iff.mp hwrite
  rintro rfl
  exact Hookless.storeWrite_ne_increment svc entity e call id deltas hx

/-- **A run of calls is a run of writes on the collection of the entity.** -/
theorem Run.runs_writes {svc : Service} {entity : String} {e : Entity} {h : Handle}
    {past : List Event} {w : World} (hh : svc.Hookless entity e h) (hr : svc.Run entity h past w) :
    Handle.Run svc.capabilities h (svc.writes entity e h past) w.stores := by
  induction hr with
  | start empty =>
      refine .start ?_
      rw [Handle.entries_eq] at empty
      exact List.map_eq_nil_iff.mp empty
  | @call past w run call req ih =>
      have hstores := hh.stores_serve call req w
      rw [writes, List.filterMap_cons]
      cases hwrite : svc.storeWrite entity e (svc.event entity call req w) with
      | none =>
          rw [hwrite] at hstores
          rw [hstores]
          exact ih
      | some x =>
          rw [hwrite] at hstores
          rw [hstores]
          exact ih.write x
  | elsewhere run same ih => exact ih.elsewhere (Handle.slots_eq_of_entries same)

end Service

end Curator
