/-
What every call of a service leaves true of the stores.

A call writes in few ways: it inserts a draft, writes changes over a document, takes a document out, and
runs declared hooks before and after.  What survives each of these (`Service.Lasting`) survives the call,
wherever it fails, and so holds in every world that calls on the entities of a service come to.
-/
import Curator.Proofs.Service.Hooks
import Curator.Proofs.Service.Storing

namespace Curator

open Serving (runOn runOn_bind KeepsStores)

namespace Serving

variable {α β : Type} {P : Stores → Prop}

/-- A computation leaves something true of the stores, whether it fails or not. -/
def Keeps (P : Stores → Prop) (m : Serving α) : Prop := ∀ w, P w.stores → P (runOn m w).2.stores

theorem KeepsStores.keeps {m : Serving α} (hm : KeepsStores m) (P : Stores → Prop) : Keeps P m :=
  fun w hw => (hm w).symm ▸ hw

theorem keeps_throw (P : Stores → Prop) (f : Failure) : Keeps P (throw f : Serving α) :=
  fun _ hw => hw

theorem Keeps.bind {m : Serving α} {k : α → Serving β} (hm : Keeps P m) (hk : ∀ a, Keeps P (k a)) :
    Keeps P (m >>= k) := by
  intro w hw
  have hfirst := hm w hw
  rw [runOn_bind]
  rcases hrun : runOn m w with ⟨f | a, v⟩
  · rw [hrun] at hfirst
    exact hfirst
  · rw [hrun] at hfirst
    exact hk a v hfirst

/-- What goes on after a result only has to keep something for that result. -/
theorem Keeps.ofExcept_bind {r : Except Failure α} {k : α → Serving β}
    (hk : ∀ a, r = .ok a → Keeps P (k a)) : Keeps P (ofExcept r >>= k) := by
  intro w hw
  rw [runOn_bind, runOn_ofExcept]
  cases r with
  | error f => exact hw
  | ok a => exact hk a rfl w hw

theorem Keeps.look_bind {f : Stores → Except Failure α} {k : α → Serving β}
    (hk : ∀ s a, f s = .ok a → Keeps P (k a)) : Keeps P (look f >>= k) := by
  intro w hw
  rw [runOn_bind, runOn_look]
  cases hf : f w.stores with
  | error e => exact hw
  | ok a => exact hk w.stores a hf w hw

theorem Keeps.onStores_bind {f : Stores → Except Failure α × Stores} {k : α → Serving β}
    (hf : ∀ s, P s → P (f s).2) (hk : ∀ a, Keeps P (k a)) : Keeps P (onStores f >>= k) :=
  Keeps.bind (fun w hw => hf w.stores hw) hk

end Serving

open Serving (Keeps)

namespace Service

/-- Something that every declared hook of a service leaves true. -/
def HooksKeep (svc : Service) (P : Stores → Prop) : Prop :=
  ∀ entity e l hook, svc.directory.get entity = .ok e → hook ∈ e.definition.hooksAt l →
    ∀ model req s, P s → P (svc.hookEvent entity model req hook s).after

namespace HooksKeep

variable {svc : Service} {P : Stores → Prop} {entity : String} {e : Entity}

theorem runDeclared (hk : svc.HooksKeep P) (he : svc.directory.get entity = .ok e) {l : Lifecycle}
    (model : Document) (req : Request) {hooks : List Hook}
    (hhooks : ∀ hook ∈ hooks, hook ∈ e.definition.hooksAt l) :
    Keeps P (svc.runDeclared entity model req hooks) := by
  induction hooks with
  | nil => exact (Serving.keepsStores_pure ()).keeps P
  | cons hook hooks ih =>
      obtain ⟨hhook, hhooks⟩ := List.forall_mem_cons.mp hhooks
      refine Keeps.bind (fun w hw => ?_) fun _ => ih hhooks
      rw [runOn_runHook]
      exact hk entity e l hook he hhook model req w.stores hw

theorem runHooks (hk : svc.HooksKeep P) (entity : String) (l : Lifecycle) (model : Document)
    (req : Request) : Keeps P (svc.runHooks entity l model req) := by
  refine Keeps.ofExcept_bind fun e he => ?_
  refine (hk.runDeclared he model req fun _ hhook => hhook).bind fun _ => ?_
  exact (svc.keepsStores_runCode entity l model req).keeps P

/-- No hook issues an id. -/
theorem issued (svc : Service) (n : Nat) : svc.HooksKeep fun s => s.issued = n := by
  intro entity e l hook _ _ model req s hs
  cases svc.hookEvent_step entity model req hook s with
  | unplanned _ _ same => exact (congrArg Stores.issued same).trans hs
  | rests _ _ same => exact (congrArg Stores.issued same).trans hs
  | @writes w _ _ _ stores =>
      rw [stores, HookWrite.perform_issued]
      exact hs

end HooksKeep

/-- Something that every write of a service leaves true. -/
structure Lasting (svc : Service) (P : Stores → Prop) : Prop where
  inserted : ∀ {entity e h input req found d s}, svc.directory.get entity = .ok e →
    e.handle? = some h → svc.draft e input req found = .ok d → P s →
    P (h.insert svc.capabilities d s).2
  updated : ∀ {entity e h id input req found fields s}, svc.directory.get entity = .ok e →
    e.handle? = some h → svc.changes e id input req found = .ok fields → P s →
    P (h.update svc.capabilities id fields s).2
  deleted : ∀ {entity e h s}, svc.directory.get entity = .ok e → e.handle? = some h →
    ∀ id, P s → P (h.delete id s).2
  hooked : svc.HooksKeep P

namespace Lasting

variable {svc : Service} {P : Stores → Prop} {entity : String} {e : Entity}

theorem runHooks (hl : svc.Lasting P) (entity : String) (l : Lifecycle) (model : Document)
    (req : Request) : Keeps P (svc.runHooks entity l model req) :=
  hl.hooked.runHooks entity l model req

theorem showWritten (hl : svc.Lasting P) (entity : String) (e : Entity) (l : Lifecycle)
    (d : Document) (id : String) (req : Request) :
    Keeps P (svc.showWritten entity e l d id req) := by
  refine (hl.runHooks entity l d req).bind fun _ => Keeps.look_bind fun _ current _ => ?_
  exact (Serving.keepsStores_look _).keeps P

theorem create (hl : svc.Lasting P) (he : svc.directory.get entity = .ok e) (input : Json)
    (req : Request) : Keeps P (svc.create entity input req) := by
  rw [create_eq he]
  refine Keeps.look_bind fun found d hdraft => (hl.runHooks entity _ d req).bind fun _ => ?_
  refine Keeps.ofExcept_bind fun h hstore => ?_
  have hstore := Entity.store_eq_ok_iff.mp hstore
  refine Keeps.onStores_bind (fun s hs => hl.inserted he hstore hdraft hs) fun stored => ?_
  cases Document.id? stored with
  | none => exact Serving.keeps_throw P _
  | some id => exact hl.showWritten entity e _ stored id req

theorem update (hl : svc.Lasting P) (he : svc.directory.get entity = .ok e) (id : String)
    (input : Json) (req : Request) : Keeps P (svc.update entity id input req) := by
  rw [update_eq he]
  refine Keeps.look_bind fun found fields hchanges => Keeps.look_bind fun _ existing _ => ?_
  refine (hl.runHooks entity _ _ req).bind fun _ => Keeps.ofExcept_bind fun h hstore => ?_
  have hstore := Entity.store_eq_ok_iff.mp hstore
  refine Keeps.onStores_bind (fun s hs => hl.updated he hstore hchanges hs) fun found => ?_
  cases found with
  | false => exact Serving.keeps_throw P _
  | true =>
      exact Keeps.look_bind fun _ updated _ => hl.showWritten entity e _ updated id req

theorem delete (hl : svc.Lasting P) (he : svc.directory.get entity = .ok e) (id : String)
    (req : Request) : Keeps P (svc.delete entity id req) := by
  rw [delete_eq he]
  refine Keeps.look_bind fun _ existing _ => (hl.runHooks entity _ existing req).bind fun _ => ?_
  refine Keeps.ofExcept_bind fun h hstore => ?_
  have hstore := Entity.store_eq_ok_iff.mp hstore
  refine Keeps.onStores_bind (fun s hs => hl.deleted he hstore id hs) fun found => ?_
  cases found with
  | false => exact Serving.keeps_throw P _
  | true =>
      refine (hl.runHooks entity _ existing req).bind fun _ => ?_
      exact (Serving.keepsStores_pure _).keeps P

theorem showOne (hl : svc.Lasting P) (entity : String) (e : Entity) (d : Document) (req : Request) :
    Keeps P (svc.showOne entity e d req) := by
  refine (hl.runHooks entity _ d req).bind fun _ => Keeps.look_bind fun _ shown _ => ?_
  exact (hl.runHooks entity _ d req).bind fun _ => (Serving.keepsStores_pure shown).keeps P

theorem showAll (hl : svc.Lasting P) (entity : String) (e : Entity) (req : Request)
    (ds : List Document) : Keeps P (svc.showAll entity e req ds) := by
  induction ds with
  | nil => exact (Serving.keepsStores_pure []).keeps P
  | cons d ds ih =>
      refine (hl.showOne entity e d req).bind fun shown => ih.bind fun rest => ?_
      exact (Serving.keepsStores_pure (shown :: rest)).keeps P

/-- What every write of a service leaves true is left true by every call. -/
theorem serve (hl : svc.Lasting P) (entity : String) (call : Call) (req : Request) :
    Keeps P (svc.serve entity call req) := by
  have hone : ∀ {m : Serving Document}, Keeps P m → Keeps P (do return [← m]) := fun hm =>
    hm.bind fun d => (Serving.keepsStores_pure [d]).keeps P
  cases he : svc.directory.get entity with
  | error f =>
      -- an entity that is not there ends every call at once
      have hmissing : KeepsStores (svc.serve entity call req) := by
        intro w
        cases call <;> simp only [Service.serve, Service.create, Service.get, Service.find,
          Service.update, Service.delete, he] <;> rfl
      exact hmissing.keeps P
  | ok e =>
      cases call with
      | create input => exact hone (hl.create he input req)
      | get id =>
          refine hone (Keeps.ofExcept_bind fun e _ => Keeps.ofExcept_bind fun _ _ => ?_)
          exact Keeps.look_bind fun _ d _ => hl.showOne entity e d req
      | find query =>
          refine Keeps.ofExcept_bind fun e _ => Keeps.ofExcept_bind fun _ _ => ?_
          refine Keeps.ofExcept_bind fun filter _ => Keeps.ofExcept_bind fun h _ => ?_
          exact Keeps.look_bind fun _ docs _ => hl.showAll entity e req docs
      | update id input => exact hone (hl.update he id input req)
      | delete id => exact hone (hl.delete he id req)

end Lasting

/-- The worlds that calls on the entities of a service come to, from one in which a collection is empty.
In between anything else may happen, to anything but the collection. -/
inductive Reached (svc : Service) (h : Handle) : World → Prop
  | start {w : World} (empty : h.slots w.stores = []) : Reached svc h w
  | call {w : World} (run : Reached svc h w) (entity : String) (call : Call) (req : Request) :
      Reached svc h (runOn (svc.serve entity call req) w).2
  | elsewhere {w w' : World} (run : Reached svc h w)
      (same : h.slots w'.stores = h.slots w.stores) : Reached svc h w'

/-- What holds of the slots of an empty collection and lasts holds in every world that is reached. -/
theorem Lasting.reached {svc : Service} {h : Handle} {Q : List Slot → Prop}
    (hl : svc.Lasting fun s => Q (h.slots s)) (hempty : Q []) {w : World} (hw : svc.Reached h w) :
    Q (h.slots w.stores) := by
  induction hw with
  | start empty => exact empty ▸ hempty
  | call _ entity call req ih => exact hl.serve entity call req _ ih
  | elsewhere _ same ih => exact same ▸ ih

end Service

end Curator
