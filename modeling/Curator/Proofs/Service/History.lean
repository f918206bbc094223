/-
What a collection holds, told from the calls that were made.

A run makes calls on one entity in any order and for any callers, and in between lets everything else
change but the entity's own collection.  Its history, with the newest call first, says which ids are
alive and what each of their fields is, without a look at the stores: `Service.live` and
`Service.field`.  `Service.Tells` compares that with what the collection holds.

`Step` says everything that one call can do to the entries, and both directions of the main theorem
are read off it.  A call writes at most one document, and what it wrote is read again before the call
answers.  So the history is right as long as each written document reads back as it was written, which
is the case in memory, and it is wrong from the first one on that does not.
-/
import Curator.Proofs.Service.Writing
import Curator.Proofs.Store.Entries

namespace Curator

open Serving (runOn runOn_bind)

/-- The calls on an entity. -/
inductive Call where
  | create (input : Json)
  | get (id : String)
  | find (query : Document)
  | update (id : String) (input : Json)
  | delete (id : String)

/-- A call that was made. -/
structure Event where
  call : Call
  request : Request
  before : Stores
  after : Stores
  /-- The documents that were shown, or why none were. -/
  answer : Except Failure (List Document)

/-- Whether a call was answered without a failure. -/
def Event.succeeded (ev : Event) : Bool := ev.answer.isOk

/-- A document that is loaded is one that the collection holds. -/
theorem Entity.get?_of_load {e : Entity} {h : Handle} (store : e.store = .ok h)
    {docs : Dict Document} {s : Stores} (hs : h.Holds s docs) {id : String} {d : Document}
    (hload : e.load id s = .ok d) : isValidId id = true ∧ docs.get? id = some d := by
  unfold load at hload
  split at hload
  · rename_i hvalid
    rw [store, Outcome.ok_bind, hs.findById?, Outcome.ok_bind] at hload
    refine ⟨hvalid, ?_⟩
    cases hget : docs.get? id with
    | none =>
        rw [hget] at hload
        cases hload
    | some found =>
        rw [hget] at hload
        cases hload
        rfl
  · cases hload

namespace Service

/-! ### Runs -/

/-- Serves a call. -/
def serve (svc : Service) (entity : String) : Call → Request → Serving (List Document)
  | .create input, req => do return [← svc.create entity input req]
  | .get id, req => do return [← svc.get entity id req]
  | .find query, req => svc.find entity query req
  | .update id input, req => do return [← svc.update entity id input req]
  | .delete id, req => do return [← svc.delete entity id req]

/-- The event of a call that is made in some world. -/
def event (svc : Service) (entity : String) (call : Call) (req : Request) (w : World) : Event :=
  ⟨call, req, w.stores, (runOn (svc.serve entity call req) w).2.stores,
    (runOn (svc.serve entity call req) w).1⟩

/-- The runs that start with an empty collection, with the calls made so far. -/
inductive Run (svc : Service) (entity : String) (h : Handle) : List Event → World → Prop
  | start {w : World} (empty : h.entries w.stores = []) : Run svc entity h [] w
  | call {past : List Event} {w : World} (run : Run svc entity h past w) (call : Call)
      (req : Request) :
      Run svc entity h (svc.event entity call req w :: past)
        (runOn (svc.serve entity call req) w).2
  /-- Anything else happens, to anything but the collection. -/
  | elsewhere {past : List Event} {w w' : World} (run : Run svc entity h past w)
      (same : h.entries w'.stores = h.entries w.stores) : Run svc entity h past w'

/-! ### What a history tells -/

/-- The id of the document that a call creates. -/
def newId (svc : Service) (ev : Event) : String := svc.capabilities.issueId ev.before.issued

/-- The ids that were created and not deleted, in the order of their creation. -/
def live (svc : Service) : List Event → List String
  | [] => []
  | ev :: past =>
    match ev.call, ev.succeeded with
    | .create _, true => live svc past ++ [svc.newId ev]
    | .delete id, true => (live svc past).filter (· ≠ id)
    | _, _ => live svc past

/-- The value of a field under an id: what the last successful call that gave it one said. -/
def field (svc : Service) (e : Entity) : List Event → String → String → Option Json
  | [], _, _ => none
  | ev :: past, id, name =>
    match ev.call, ev.succeeded with
    | .create input, true =>
      if svc.newId ev = id then
        if name = idField then some (.string id)
        else svc.created e input ev.request ev.before name
      else field svc e past id name
    | .update changedId input, true =>
      if changedId = id then
        (svc.changed e input ev.request ev.before name).or (field svc e past id name)
      else field svc e past id name
    | _, _ => field svc e past id name

/-- A collection holds the documents that a history tells of, in order and with just their fields. -/
def Tells (svc : Service) (e : Entity) (h : Handle) (past : List Event) (s : Stores) : Prop :=
  ∃ docs, h.documents s = .ok docs ∧ docs.map Document.id? = (svc.live past).map some ∧
    ∀ d ∈ docs, ∀ id, Document.id? d = some id → ∀ name, d.get? name = svc.field e past id name

/-- A call that failed left the collection as it was. -/
def Harmless (h : Handle) (ev : Event) : Prop :=
  ev.succeeded = false → h.entries ev.after = h.entries ev.before

/-- The document that a call writes, with its id. -/
def written (svc : Service) (e : Entity) (h : Handle) (ev : Event) : Option (String × Document) :=
  match ev.call with
  | .create input =>
    match svc.draft e input ev.request ev.before with
    | .error _ => none
    | .ok d =>
      match (h.insert svc.capabilities d ev.before).1 with
      | .error _ => none
      | .ok stored => some (svc.newId ev, stored)
  | .update id input =>
    match svc.changes e id input ev.request ev.before, e.load id ev.before with
    | .ok fields, .ok d =>
      match (h.update svc.capabilities id fields ev.before).1 with
      | .ok true => some (id, Document.update d fields)
      | _ => none
    | _, _ => none
  | _ => none

/-- What a call writes is found again with the same fields. -/
def ReadsBack (svc : Service) (e : Entity) (h : Handle) (ev : Event) : Prop :=
  ∀ id d, svc.written e h ev = some (id, d) →
    isValidId id = true ∧ ∃ k, h.kept svc.capabilities d = .ok k ∧ ∀ name, k.get? name = d.get? name

/-! ### What one call can do -/

/-- What a call does to a collection that holds some documents. -/
inductive Step (svc : Service) (e : Entity) (h : Handle) (docs : Dict Document) (ev : Event) : Prop
  | quiet (nothing : svc.written e h ev = none) (same : h.entries ev.after = h.entries ev.before)
      (reads : ev.succeeded = true → (∃ id, ev.call = .get id) ∨ ∃ query, ev.call = .find query)
  | creates {input : Json} {d : Document} (call : ev.call = .create input)
      (draft : svc.draft e input ev.request ev.before = .ok d) (fresh : svc.newId ev ∉ docs.names)
      (writes : svc.written e h ev =
        some (svc.newId ev, d.set idField (.string (svc.newId ev))))
      (entries : h.entries ev.after = docs.mapValues .ok ++
        [(svc.newId ev, h.kept svc.capabilities (d.set idField (.string (svc.newId ev))))])
      (succeeds : ev.succeeded = (e.load (svc.newId ev) ev.after).isOk)
  | updates {id : String} {input : Json} {d fields : Document} (call : ev.call = .update id input)
      (changes : svc.changes e id input ev.request ev.before = .ok fields)
      (valid : isValidId id = true) (found : docs.get? id = some d)
      (writes : svc.written e h ev = some (id, Document.update d fields))
      (entries : h.entries ev.after =
        Handle.replaced docs id (h.kept svc.capabilities (Document.update d fields)))
      (succeeds : ev.succeeded = (e.load id ev.after).isOk)
  | deletes {id : String} (call : ev.call = .delete id) (nothing : svc.written e h ev = none)
      (entries : h.entries ev.after = Dict.mapValues .ok (docs.filter fun p => p.1 ≠ id))
      (succeeds : ev.succeeded = true)

theorem runOn_return_singleton (m : Serving Document) (w : World) :
    runOn (do return [← m]) w = ((runOn m w).1.map fun d => [d], (runOn m w).2) := by
  rw [runOn_bind]
  rcases runOn m w with ⟨f | d, v⟩
  · rfl
  · rfl

namespace Bare

variable {svc : Service} {entity : String} {e : Entity} {h : Handle}

theorem load_eq (hb : svc.Bare entity e h) (id : String) (s : Stores) :
    e.load id s =
      if isValidId id then
        match (h.entries s).get? id with
        | none => .error e.documentNotFound
        | some r => r
      else .error e.documentNotFound := by
  unfold Entity.load
  split
  · rename_i hvalid
    rw [hb.store_eq, Outcome.ok_bind, Handle.findById?_eq (ne_empty_of_isValidId hvalid)]
    cases (h.entries s).get? id with
    | none => rfl
    | some r => cases r <;> rfl
  · rfl

/-- A document that is loaded is one that the collection holds. -/
theorem load_eq_ok (hb : svc.Bare entity e h) {docs : Dict Document} {s : Stores}
    (hs : h.Holds s docs) {id : String} {d : Document} (hload : e.load id s = .ok d) :
    isValidId id = true ∧ docs.get? id = some d :=
  Entity.get?_of_load hb.store_eq hs hload

theorem step_create (hb : svc.Bare entity e h) {docs : Dict Document} {w : World}
    (hs : h.Holds w.stores docs) (input : Json) (req : Request) :
    Step svc e h docs (svc.event entity (.create input) req w) := by
  rw [event, serve, runOn_return_singleton, hb.runOn_create]
  cases hdraft : svc.draft e input req w.stores with
  | error f =>
      refine .quiet ?_ rfl nofun
      simp only [written, hdraft]
  | ok d =>
      dsimp only
      rcases hs.insert svc.capabilities (draft_id? hdraft) with
        ⟨f, s, hinsert, hsame⟩ | ⟨s, hinsert, hfresh, hadded⟩
      · rw [hinsert]
        refine .quiet ?_ hsame nofun
        simp only [written, hdraft, hinsert]
      · rw [hinsert]
        dsimp only
        rw [Document.id?_set_idField]
        refine .creates rfl hdraft hfresh ?_ (by rw [hadded, hs.entries]; rfl) ?_
        · simp only [written, hdraft, hinsert]
          rfl
        · dsimp only [Event.succeeded, newId]
          cases e.load (svc.capabilities.issueId w.stores.issued) s <;> rfl

theorem step_update (hb : svc.Bare entity e h) {docs : Dict Document} {w : World}
    (hs : h.Holds w.stores docs) (id : String) (input : Json) (req : Request) :
    Step svc e h docs (svc.event entity (.update id input) req w) := by
  rw [event, serve, runOn_return_singleton, hb.runOn_update]
  cases hchanges : svc.changes e id input req w.stores with
  | error f =>
      refine .quiet ?_ rfl nofun
      simp only [written, hchanges]
  | ok fields =>
      obtain ⟨⟨d, hload⟩, -⟩ := changes_eq_ok hchanges
      obtain ⟨hvalid, hfound⟩ := hb.load_eq_ok hs hload
      dsimp only
      rcases hs.update svc.capabilities fields hfound with
        ⟨f, s, hupdate, hsame⟩ | ⟨s, hupdate, hafter⟩
      · rw [hupdate]
        refine .quiet ?_ hsame nofun
        simp only [written, hchanges, hload, hupdate]
      · rw [hupdate]
        refine .updates rfl hchanges hvalid hfound ?_ hafter ?_
        · simp only [written, hchanges, hload, hupdate]
        · dsimp only [Event.succeeded]
          cases e.load id s <;> rfl

theorem step_delete (hb : svc.Bare entity e h) {docs : Dict Document} {w : World}
    (hs : h.Holds w.stores docs) (id : String) (req : Request) :
    Step svc e h docs (svc.event entity (.delete id) req w) := by
  rw [event, serve, runOn_return_singleton, hb.runOn_delete]
  cases hdoomed : doomed e id req w.stores with
  | error f => exact .quiet rfl rfl nofun
  | ok d =>
      obtain ⟨_, -, hload⟩ := Outcome.bind_eq_ok_iff.mp hdoomed
      obtain ⟨-, hfound⟩ := hb.load_eq_ok hs hload
      obtain ⟨s, hdelete, hafter⟩ := hs.delete id
      have hmem : id ∈ docs.names := Dict.mem_names_of_mem (Dict.mem_of_get?_eq_some hfound)
      rw [decide_eq_true hmem] at hdelete
      dsimp only
      rw [hdelete]
      exact .deletes rfl rfl hafter rfl

/-- Every call on a collection that holds some documents is one of the steps. -/
theorem step (hb : svc.Bare entity e h) {docs : Dict Document} {w : World}
    (hs : h.Holds w.stores docs) (call : Call) (req : Request) :
    Step svc e h docs (svc.event entity call req w) := by
  cases call with
  | create input => exact hb.step_create hs input req
  | get id =>
      refine .quiet rfl ?_ fun _ => .inl ⟨id, rfl⟩
      rw [event, serve, runOn_return_singleton, hb.runOn_get_snd]
  | find query =>
      refine .quiet rfl ?_ fun _ => .inr ⟨query, rfl⟩
      rw [event, serve, hb.runOn_find_snd]
  | update id input => exact hb.step_update hs id input req
  | delete id => exact hb.step_delete hs id req

end Bare

/-! ### Histories and collections -/

/-- The invariant of runs: the entries that a collection holds are those that the history tells of. -/
structure Follows (svc : Service) (e : Entity) (h : Handle) (past : List Event) (s : Stores)
    (docs : Dict Document) : Prop where
  holds : h.Holds s docs
  ids : docs.names = svc.live past
  fields : ∀ p ∈ docs, ∀ name, p.2.get? name = svc.field e past p.1 name

theorem Follows.tells {svc : Service} {e : Entity} {h : Handle} {past : List Event} {s : Stores}
    {docs : Dict Document} (hf : Follows svc e h past s docs) : svc.Tells e h past s := by
  refine ⟨docs.map (·.2), hf.holds.documents, ?_, ?_⟩
  · rw [← hf.ids, Dict.names, List.map_map, List.map_map]
    exact List.map_congr_left fun p hp => hf.holds.ids p hp
  · intro d hd id hid name
    obtain ⟨p, hp, rfl⟩ := List.mem_map.mp hd
    rw [hf.holds.ids p hp] at hid
    obtain rfl := Option.some.inj hid
    exact hf.fields p hp name

/-- A call that only reads, or that failed, is not told of. -/
theorem live_field_of_quiet {svc : Service} {e : Entity} {ev : Event} (past : List Event)
    (reads : ev.succeeded = true → (∃ id, ev.call = .get id) ∨ ∃ query, ev.call = .find query) :
    svc.live (ev :: past) = svc.live past ∧ svc.field e (ev :: past) = svc.field e past := by
  constructor
  · rw [live]
    split
    · rename_i input hcall hsucceeded
      rcases reads hsucceeded with ⟨_, hread⟩ | ⟨_, hread⟩ <;> rw [hread] at hcall <;> cases hcall
    · rename_i id hcall hsucceeded
      rcases reads hsucceeded with ⟨_, hread⟩ | ⟨_, hread⟩ <;> rw [hread] at hcall <;> cases hcall
    · rfl
  · funext id name
    rw [field]
    split
    · rename_i input hcall hsucceeded
      rcases reads hsucceeded with ⟨_, hread⟩ | ⟨_, hread⟩ <;> rw [hread] at hcall <;> cases hcall
    · rename_i changedId input hcall hsucceeded
      rcases reads hsucceeded with ⟨_, hread⟩ | ⟨_, hread⟩ <;> rw [hread] at hcall <;> cases hcall
    · rfl

/-- A successful creation is told of as the document that it writes. -/
theorem field_of_create {svc : Service} {e : Entity} {ev : Event} {input : Json} {d : Document}
    (past : List Event) (call : ev.call = .create input)
    (draft : svc.draft e input ev.request ev.before = .ok d) (succeeds : ev.succeeded = true)
    (name : String) :
    svc.field e (ev :: past) (svc.newId ev) name =
      (d.set idField (.string (svc.newId ev))).get? name := by
  simp only [field, call, succeeds, if_true]
  by_cases hname : name = idField
  · subst hname
    simp
  · rw [if_neg hname, Dict.get?_set_of_ne _ _ (Ne.symm hname), draft_get? draft]

/-- A successful update of a document that is told of is told of as the document that it writes. -/
theorem field_of_update {svc : Service} {e : Entity} {ev : Event} {id : String} {input : Json}
    {d fields : Document} {past : List Event} (call : ev.call = .update id input)
    (changes : svc.changes e id input ev.request ev.before = .ok fields)
    (succeeds : ev.succeeded = true) (told : ∀ name, d.get? name = svc.field e past id name)
    (name : String) :
    svc.field e (ev :: past) id name = (Document.update d fields).get? name := by
  simp only [field, call, succeeds, if_true]
  rw [Document.get?_update d (changes_names_nodup changes), ← told]
  split
  · rename_i hname
    subst hname
    rfl
  · rw [changes_get? changes]

/-! ### What each step keeps -/

namespace Follows

variable {svc : Service} {e : Entity} {h : Handle} {past : List Event} {ev : Event}
  {docs : Dict Document}

theorem quiet (hf : Follows svc e h past ev.before docs)
    (same : h.entries ev.after = h.entries ev.before)
    (reads : ev.succeeded = true → (∃ id, ev.call = .get id) ∨ ∃ query, ev.call = .find query) :
    Follows svc e h (ev :: past) ev.after docs := by
  obtain ⟨hlive, hfield⟩ := @live_field_of_quiet svc e _ past reads
  refine ⟨hf.holds.of_entries same, ?_, ?_⟩
  · rw [hlive, hf.ids]
  · rw [hfield]
    exact hf.fields

theorem create (hf : Follows svc e h past ev.before docs) {input : Json} {d k : Document}
    (call : ev.call = .create input) (draft : svc.draft e input ev.request ev.before = .ok d)
    (succeeds : ev.succeeded = true) (fresh : svc.newId ev ∉ docs.names)
    (entries : h.entries ev.after = h.entries ev.before ++ [(svc.newId ev, .ok k)])
    (hfields : ∀ name, k.get? name = (d.set idField (.string (svc.newId ev))).get? name) :
    Follows svc e h (ev :: past) ev.after (docs ++ [(svc.newId ev, k)]) := by
  refine ⟨hf.holds.appended fresh ?_ entries, ?_, ?_⟩
  · rw [Document.id?, hfields]
    exact Document.id?_set_idField d _
  · simp only [live, call, succeeds, Dict.names_append, hf.ids]
    rfl
  · intro p hp name
    rcases List.mem_append.mp hp with hp | hp
    · have hne : svc.newId ev ≠ p.1 := by
        intro heq
        exact fresh (heq ▸ Dict.mem_names_of_mem hp)
      simp only [field, call, succeeds]
      rw [if_neg hne]
      exact hf.fields p hp name
    · obtain rfl := List.mem_singleton.mp hp
      rw [field_of_create past call draft succeeds, hfields]

theorem update (hf : Follows svc e h past ev.before docs) {id : String} {input : Json}
    {d fields k : Document} (call : ev.call = .update id input)
    (changes : svc.changes e id input ev.request ev.before = .ok fields)
    (succeeds : ev.succeeded = true) (found : docs.get? id = some d)
    (entries : h.entries ev.after = Handle.replaced docs id (.ok k))
    (hfields : ∀ name, k.get? name = (Document.update d fields).get? name) :
    Follows svc e h (ev :: past) ev.after
      (docs.map fun p => (p.1, if p.1 = id then k else p.2)) := by
  have hmem := Dict.mem_of_get?_eq_some found
  have hid : Document.id? k = some id := by
    rw [Document.id?, hfields, Document.get?_update d (changes_names_nodup changes), if_pos rfl]
    exact hf.holds.ids _ hmem
  refine ⟨hf.holds.rewritten hid entries, ?_, ?_⟩
  · simp only [live, call, ← hf.ids]
    simp [Dict.names, Function.comp_def]
  · intro p hp name
    obtain ⟨old, hold, rfl⟩ := List.mem_map.mp hp
    by_cases heq : old.1 = id
    · rw [if_pos heq, heq, hfields, field_of_update call changes succeeds (hf.fields _ hmem)]
    · simp only [field, call, succeeds]
      rw [if_neg (Ne.symm heq), if_neg heq]
      exact hf.fields old hold name

theorem delete (hf : Follows svc e h past ev.before docs) {id : String}
    (call : ev.call = .delete id) (succeeds : ev.succeeded = true)
    (entries : h.entries ev.after = Dict.mapValues .ok (docs.filter fun p => p.1 ≠ id)) :
    Follows svc e h (ev :: past) ev.after (docs.filter fun p => p.1 ≠ id) := by
  refine ⟨hf.holds.removed entries, ?_, ?_⟩
  · simp only [live, call, succeeds, ← hf.ids]
    rw [Dict.names, Dict.names, List.filter_map]
    rfl
  · intro p hp name
    simp only [field, call]
    exact hf.fields p (List.mem_filter.mp hp).1 name

end Follows

theorem harmless_of_succeeded {h : Handle} {ev : Event} (succeeds : ev.succeeded = true) :
    Harmless h ev := by
  intro hfailed
  rw [succeeds] at hfailed
  cases hfailed

namespace Bare

variable {svc : Service} {entity : String} {e : Entity} {h : Handle}

/-- A call that is read back keeps the invariant. -/
theorem follows_step (hb : svc.Bare entity e h) {past : List Event} {ev : Event}
    {docs : Dict Document} (hf : Follows svc e h past ev.before docs)
    (hstep : Step svc e h docs ev) (hread : svc.ReadsBack e h ev) :
    (∃ docs', Follows svc e h (ev :: past) ev.after docs') ∧ Harmless h ev := by
  cases hstep with
  | quiet _ same reads => exact ⟨⟨docs, hf.quiet same reads⟩, fun _ => same⟩
  | creates call draft fresh writes entries succeeds =>
      obtain ⟨hvalid, k, hkept, hfields⟩ := hread _ _ writes
      have hsucceeded : ev.succeeded = true := by
        rw [succeeds, hb.load_eq, if_pos hvalid, entries, hkept, Dict.get?_append,
          Dict.get?_mapValues, (Dict.get?_eq_none_iff _ _).mpr fresh]
        simp [Dict.get?_cons, Except.isOk, Except.toBool]
      refine ⟨⟨_, hf.create call draft hsucceeded fresh ?_ hfields⟩,
        harmless_of_succeeded hsucceeded⟩
      rw [entries, hkept, hf.holds.entries]
  | updates call changes valid found writes entries succeeds =>
      obtain ⟨-, k, hkept, hfields⟩ := hread _ _ writes
      rw [hkept] at entries
      have hsucceeded : ev.succeeded = true := by
        rw [succeeds, hb.load_eq, if_pos valid, entries, Handle.get?_replaced found]
        rfl
      exact ⟨⟨_, hf.update call changes hsucceeded found entries hfields⟩,
        harmless_of_succeeded hsucceeded⟩
  | deletes call _ entries succeeds =>
      exact ⟨⟨_, hf.delete call succeeds entries⟩, harmless_of_succeeded succeeds⟩

/-- A call after which the history is still right is read back. -/
theorem readsBack_of_tells (hb : svc.Bare entity e h) {past : List Event} {ev : Event}
    {docs : Dict Document} (hf : Follows svc e h past ev.before docs)
    (hstep : Step svc e h docs ev) (htells : svc.Tells e h (ev :: past) ev.after) :
    svc.ReadsBack e h ev := by
  intro id' d' hwritten
  obtain ⟨read, hread, hids, htold⟩ := htells
  cases hstep with
  | quiet nothing _ _ => rw [nothing] at hwritten; cases hwritten
  | deletes _ nothing _ _ => rw [nothing] at hwritten; cases hwritten
  | creates call draft fresh writes entries succeeds =>
      rw [writes] at hwritten
      cases hwritten
      obtain ⟨k, hkept, rfl⟩ := Handle.documents_of_appended entries hread
      have hlength : docs.length = (svc.live past).length := by
        rw [← hf.ids, Dict.names, List.length_map]
      have hsucceeded : ev.succeeded = true := by
        cases hs : ev.succeeded with
        | true => rfl
        | false =>
            simp only [live, call, hs] at hids
            have := congrArg List.length hids
            simp only [List.length_map, List.length_append, List.length_singleton] at this
            omega
      have hvalid : isValidId (svc.newId ev) = true := by
        rw [succeeds, hb.load_eq] at hsucceeded
        split at hsucceeded
        · assumption
        · cases hsucceeded
      refine ⟨hvalid, k, hkept, fun name => ?_⟩
      have hid : Document.id? k = some (svc.newId ev) := by
        simp only [live, call, hsucceeded, List.map_append, List.map_cons, List.map_nil] at hids
        exact List.singleton_inj.mp (List.append_inj_right' hids rfl)
      rw [htold k (List.mem_append_right _ (List.mem_singleton.mpr rfl)) _ hid,
        field_of_create past call draft hsucceeded]
  | @updates id input d fields call changes valid found writes entries succeeds =>
      rw [writes] at hwritten
      obtain ⟨rfl, rfl⟩ := Prod.mk.inj (Option.some.inj hwritten)
      have hmem := Dict.mem_of_get?_eq_some found
      obtain ⟨k, hkept, hdocs⟩ := Handle.documents_of_replaced found entries hread
      have hsucceeded : ev.succeeded = true := by
        rw [succeeds, hb.load_eq, if_pos valid, entries, Handle.get?_replaced found, hkept]
        rfl
      refine ⟨valid, k, hkept, fun name => ?_⟩
      have hid : Document.id? k = some id := by
        simp only [live, call, ← hf.ids, hdocs, Dict.names, List.map_map] at hids
        have hsame := List.map_inj_left.mp hids _ hmem
        simpa using hsame
      rw [htold k (hdocs ▸ List.mem_map.mpr ⟨_, hmem, if_pos rfl⟩) id hid,
        field_of_update call changes hsucceeded (hf.fields _ hmem)]

/-- A run in which every call is read back keeps the invariant. -/
theorem run_follows (hb : svc.Bare entity e h) {past : List Event} {w : World}
    (hr : svc.Run entity h past w) (hread : ∀ ev ∈ past, svc.ReadsBack e h ev) :
    ∃ docs, Follows svc e h past w.stores docs := by
  induction hr with
  | start empty => exact ⟨[], ⟨empty, nofun, .nil⟩, rfl, nofun⟩
  | call run call req ih =>
      obtain ⟨docs, hf⟩ := ih fun ev hev => hread ev (List.mem_cons_of_mem _ hev)
      exact (hb.follows_step hf (hb.step hf.holds call req) (hread _ List.mem_cons_self)).1
  | elsewhere run same ih =>
      obtain ⟨docs, hf⟩ := ih hread
      exact ⟨docs, hf.holds.of_entries same, hf.ids, hf.fields⟩

theorem run_harmless (hb : svc.Bare entity e h) {past : List Event} {w : World}
    (hr : svc.Run entity h past w) (hread : ∀ ev ∈ past, svc.ReadsBack e h ev) :
    ∀ ev rest, (ev :: rest) <:+ past → svc.Tells e h (ev :: rest) ev.after ∧ Harmless h ev := by
  induction hr with
  | start _ =>
      intro ev rest hsuffix
      cases List.suffix_nil.mp hsuffix
  | @call past w run call req ih =>
      have hpast : ∀ ev ∈ past, svc.ReadsBack e h ev :=
        fun ev hev => hread ev (List.mem_cons_of_mem _ hev)
      intro ev rest hsuffix
      rcases List.suffix_cons_iff.mp hsuffix with hwhole | hsuffix
      · obtain ⟨rfl, rfl⟩ := List.cons.inj hwhole
        obtain ⟨docs, hf⟩ := hb.run_follows run hpast
        obtain ⟨⟨docs', hf'⟩, hharmless⟩ :=
          hb.follows_step hf (hb.step hf.holds call req) (hread _ List.mem_cons_self)
        exact ⟨hf'.tells, hharmless⟩
      · exact ih hpast ev rest hsuffix
  | elsewhere run same ih => exact ih hread

theorem run_readsBack (hb : svc.Bare entity e h) {past : List Event} {w : World}
    (hr : svc.Run entity h past w)
    (htells : ∀ ev rest, (ev :: rest) <:+ past → svc.Tells e h (ev :: rest) ev.after) :
    ∀ ev ∈ past, svc.ReadsBack e h ev := by
  induction hr with
  | start _ => nofun
  | @call past w run call req ih =>
      have hpast := ih fun ev rest hsuffix =>
        htells ev rest (hsuffix.trans (List.suffix_cons _ _))
      obtain ⟨docs, hf⟩ := hb.run_follows run hpast
      have hread := hb.readsBack_of_tells hf (hb.step hf.holds call req)
        (htells _ _ List.suffix_rfl)
      intro ev hev
      rcases List.mem_cons.mp hev with rfl | hev
      · exact hread
      · exact hpast ev hev
  | elsewhere run same ih => exact ih htells

end Bare

/--
**When a history tells what a collection holds.**  After every call of a run the collection holds just
the documents that the calls so far tell of, and every call that failed left it alone, exactly when
each document that a call wrote reads back as it was written.
-/
theorem tells_iff_readsBack {svc : Service} {entity : String} {e : Entity} {h : Handle}
    {past : List Event} {w : World} (hb : svc.Bare entity e h) (hr : svc.Run entity h past w) :
    (svc.Tells e h past w.stores ∧ ∀ ev rest, (ev :: rest) <:+ past →
      svc.Tells e h (ev :: rest) ev.after ∧ Harmless h ev) ↔
      ∀ ev ∈ past, svc.ReadsBack e h ev := by
  constructor
  · intro hall
    exact hb.run_readsBack hr fun ev rest hsuffix => (hall.2 ev rest hsuffix).1
  · intro hread
    obtain ⟨docs, hf⟩ := hb.run_follows hr hread
    exact ⟨hf.tells, hb.run_harmless hr hread⟩

/-! ### Collections in memory -/

theorem isValidId_of_load {e : Entity} {id : String} {s : Stores} {d : Document}
    (hload : e.load id s = .ok d) : isValidId id = true := by
  rw [Entity.load] at hload
  split at hload
  · assumption
  · cases hload

/-- Every id that is written under is one, if the issued ids are. -/
theorem isValidId_of_written {svc : Service} {e : Entity} {h : Handle} {ev : Event} {id : String}
    {d : Document} (hids : ∀ n, isValidId (svc.capabilities.issueId n) = true)
    (hwritten : svc.written e h ev = some (id, d)) : isValidId id = true := by
  unfold written at hwritten
  split at hwritten
  · split at hwritten
    · cases hwritten
    · split at hwritten
      · cases hwritten
      · cases hwritten
        exact hids _
  · split at hwritten
    · rename_i hload
      split at hwritten
      · cases hwritten
        exact isValidId_of_load hload
      · cases hwritten
    · cases hwritten
  · cases hwritten

/-- In memory, a history is right as long as the issued ids are ids. -/
theorem tells_of_memory {svc : Service} {entity : String} {e : Entity} {h : Handle}
    {past : List Event} {w : World} (hb : svc.Bare entity e h) (hr : svc.Run entity h past w)
    (hmemory : h.backing = .memory) (hids : ∀ n, isValidId (svc.capabilities.issueId n) = true) :
    svc.Tells e h past w.stores := by
  have hread : ∀ ev ∈ past, svc.ReadsBack e h ev := by
    intro ev _ id d hwritten
    refine ⟨isValidId_of_written hids hwritten, d, ?_, fun _ => rfl⟩
    simp only [Handle.kept, hmemory]
  obtain ⟨docs, hf⟩ := hb.run_follows hr hread
  exact hf.tells

/-! ### A number that does not read back -/

/-- Rates, each a number, that anyone may read and write. -/
private def rates : Entity :=
  ⟨{ Definition.ofNames "rates" "rates" with
      permissions := some ⟨some (.one .anyone), some (.one .anyone), some (.one .anyone), none⟩
      attributes := NameMap.empty.insert "rate" (.ofKind (.number none none)) },
    some ⟨.table, "rates", []⟩⟩

private def rateService : Service :=
  ⟨⟨fun t _ => .ok t, fun n => String.ofList (List.replicate n 'x'), fun _ => "1001",
      Document.reread⟩, ⟨[("rates", rates)]⟩, fun _ _ => none⟩

private def rateTable : Handle := ⟨.table, "rates", []⟩

private def noRates : World := ⟨Stores.empty, []⟩

/-- The double nearest to 3 * 10 ^ 23, whose text reads back as its neighbour. -/
private def steepRate : Double := ⟨false, 8940696716308594, 25, by decide⟩

private def steepCall : Call := .create (.object [("rate", .string "3e23")])

private def someone : Request := ⟨none, none, 0⟩

private def steepEvent : Event := rateService.event "rates" steepCall someone noRates

private def steepWorld : World :=
  (runOn (rateService.serve "rates" steepCall someone) noRates).2

private theorem rates_bare : rateService.Bare "rates" rates rateTable where
  registered := rfl
  stored := rfl
  noHooks := fun _ => rfl
  noCode := fun _ => rfl
  noJoins := rfl

private theorem steep_run : rateService.Run "rates" rateTable [steepEvent] steepWorld :=
  .call (.start rfl) steepCall someone

theorem tells_iff_readsBack_rates :
    rateService.Bare "rates" rates rateTable ∧
    rateService.Run "rates" rateTable [steepEvent] steepWorld ∧
    ((rateService.Tells rates rateTable [steepEvent] steepWorld.stores ∧
      ∀ ev rest, (ev :: rest) <:+ [steepEvent] →
        rateService.Tells rates rateTable (ev :: rest) ev.after ∧ Harmless rateTable ev) ↔
      ∀ ev ∈ [steepEvent], rateService.ReadsBack rates rateTable ev) :=
  ⟨rates_bare, steep_run, tells_iff_readsBack rates_bare steep_run⟩

/-- A table of documents as text does not hold what its history tells. -/
theorem not_tells_of_table :
    ¬ ∀ (svc : Service) (entity : String) (e : Entity) (h : Handle) (past : List Event) (w : World),
        svc.capabilities.codec = Document.reread →
        (∀ n, isValidId (svc.capabilities.issueId n) = true) → svc.Bare entity e h →
        svc.Run entity h past w → svc.Tells e h past w.stores := by
  intro hall
  have hid : isValidId "1001" = true := by decide
  obtain ⟨docs, hdocs, -, hfields⟩ := hall rateService "rates" rates rateTable [steepEvent]
    steepWorld rfl (fun _ => hid) rates_bare steep_run
  have hheld : ((rateTable.documents steepWorld.stores).toOption.map fun docs =>
      docs.map fun d => (d.id?, (d.get? "rate").bind Json.double?)) =
      some [(some "1001", some ⟨false, 8940696716308593, 25, by decide⟩)] := by decide +kernel
  have htold : (rateService.field rates [steepEvent] "1001" "rate").bind Json.double? =
      some steepRate := by decide +kernel
  rw [hdocs] at hheld
  obtain ⟨d, rest, rfl, hd, -⟩ := List.map_eq_cons_iff.mp (Option.some.inj hheld)
  obtain ⟨hidd, hrate⟩ := Prod.mk.inj hd
  rw [hfields d List.mem_cons_self "1001" hidd, htold] at hrate
  exact absurd hrate (by decide)

end Service

end Curator
