/-
Writes on one collection, one after the other.

A run makes writes in any order and with any arguments, and in between lets everything else change but
the collection itself.  Each write is an event that knows the stores before and after it and what it
was answered with.  `Handle.written` says which document an event left in the collection, and under
which id.  `Handle.WriteStep` says everything that one write can do, on either store.  The only thing
it needs is that no id is taken twice and that what can be read has the id it is found under
(`Handle.Filed`), and it preserves that, as long as what was written does not read back with another id.
-/
import Curator.Proofs.Store.Slots

namespace Curator

/-! ### Events -/

/-- The calls that write to a collection. -/
inductive Write where
  | insert (d : Document)
  | update (id : String) (fields : Document)
  | increment (id : String) (deltas : Document)
  | delete (id : String)

/-- A write makes one document of another, the one of an id. -/
def Write.Turns (x : Write) (id : String) (old new : Document) : Prop :=
  (∃ fields, x = .update id fields ∧ new = Document.update old fields) ∨
  (∃ deltas, x = .increment id deltas ∧ new = (Document.increment old deltas).2)

/-- What a write that succeeds is answered with. -/
inductive WriteAnswer where
  | stored (d : Document)
  | found (b : Bool)

/-- A write that was made. -/
structure WriteEvent where
  write : Write
  before : Stores
  after : Stores
  answer : Except Failure WriteAnswer

/-- The ids that documents were inserted under and not deleted since, in the order of insertion.  The
newest write comes first. -/
def WriteEvent.live : List WriteEvent → List String
  | [] => []
  | ev :: past =>
    match ev.write, ev.answer with
    | .insert _, .ok (.stored d) => live past ++ d.id?.toList
    | .delete id, _ => (live past).filter (· ≠ id)
    | _, _ => live past

/-- The stores that events come to. -/
def WriteEvent.latest (s : Stores) : List WriteEvent → Stores
  | [] => s
  | ev :: _ => ev.after

namespace Handle

/-- Makes a write. -/
def perform (c : Capabilities) (h : Handle) (s : Stores) :
    Write → Except Failure WriteAnswer × Stores
  | .insert d => ((h.insert c d s).1.map .stored, (h.insert c d s).2)
  | .update id fields => ((h.update c id fields s).1.map .found, (h.update c id fields s).2)
  | .increment id deltas =>
    ((h.increment c id deltas s).1.map .found, (h.increment c id deltas s).2)
  | .delete id => (.ok (.found (h.delete id s).1), (h.delete id s).2)

/-- The event of a write that is made on some stores. -/
def writeEvent (c : Capabilities) (h : Handle) (s : Stores) (x : Write) : WriteEvent :=
  ⟨x, s, (h.perform c s x).2, (h.perform c s x).1⟩

/-- The runs that start with an empty collection, with the writes made so far. -/
inductive Run (c : Capabilities) (h : Handle) : List WriteEvent → Stores → Prop
  | start {s : Stores} (empty : h.slots s = []) : Run c h [] s
  | write {past : List WriteEvent} {s : Stores} (run : Run c h past s) (x : Write) :
      Run c h (h.writeEvent c s x :: past) (h.perform c s x).2
  /-- Anything else happens, to anything but the collection. -/
  | elsewhere {past : List WriteEvent} {s s' : Stores} (run : Run c h past s)
      (same : h.slots s' = h.slots s) : Run c h past s'

/-- Every write of a run was made on what the run had come to. -/
theorem Run.of_suffix {c : Capabilities} {h : Handle} {past : List WriteEvent} {s : Stores}
    (hr : Run c h past s) {ev : WriteEvent} {rest : List WriteEvent}
    (hsuffix : (ev :: rest) <:+ past) :
    ∃ s x, Run c h rest s ∧ ev = h.writeEvent c s x := by
  induction hr with
  | start _ => cases List.suffix_nil.mp hsuffix
  | @write past s run x ih =>
      rcases List.suffix_cons_iff.mp hsuffix with hwhole | hsuffix
      · obtain ⟨rfl, rfl⟩ := List.cons.inj hwhole
        exact ⟨s, x, run, rfl⟩
      · exact ih hsuffix
  | elsewhere _ _ ih => exact ih hsuffix

/-- The events of given writes, made in turn on some stores.  Here too the newest comes first. -/
def events (c : Capabilities) (h : Handle) (s : Stores) : List Write → List WriteEvent
  | [] => []
  | x :: earlier => h.writeEvent c (WriteEvent.latest s (events c h s earlier)) x :: events c h s earlier

theorem run_events (c : Capabilities) {h : Handle} {s : Stores} (empty : h.slots s = [])
    (writes : List Write) :
    Run c h (h.events c s writes) (WriteEvent.latest s (h.events c s writes)) := by
  induction writes with
  | nil => exact .start empty
  | cons x earlier ih => exact .write ih x

theorem forall_mem_events {P : Write → Prop} {writes : List Write} (hall : ∀ x ∈ writes, P x)
    (c : Capabilities) (h : Handle) (s : Stores) : ∀ ev ∈ h.events c s writes, P ev.write := by
  induction writes with
  | nil => nofun
  | cons x earlier ih =>
      obtain ⟨hx, hearlier⟩ := List.forall_mem_cons.mp hall
      exact List.forall_mem_cons.mpr ⟨hx, ih hearlier⟩

/-- The document that an event left in the collection, with the id that it is kept under.  In memory,
an increment that fails leaves the sums before the failure. -/
def written (h : Handle) (ev : WriteEvent) : Option (String × Document) :=
  match ev.write with
  | .insert _ =>
    match ev.answer with
    | .ok (.stored d) => d.id?.map fun id => (id, d)
    | _ => none
  | .update id fields =>
    if ev.answer.isOk then
      (h.found? id ev.before).map fun d => (id, Document.update d fields)
    else none
  | .increment id deltas =>
    if ev.answer.isOk ∨ h.backing = .memory then
      (h.found? id ev.before).map fun d => (id, (Document.increment d deltas).2)
    else none
  | .delete _ => none

/-! ### What one write can do -/

/-- A collection in which ids are keys. -/
structure Filed (h : Handle) (s : Stores) : Prop where
  /-- No id is taken twice. -/
  keys : ((h.slots s).filterMap Slot.key).Nodup
  /-- A document that can be read has the id that it is found under. -/
  ids : ∀ x ∈ h.slots s, ∀ d, x.doc = .ok d → d.id? = x.key

/-- A write that looks for collisions: any but an increment in memory. -/
def Checks (h : Handle) (ev : WriteEvent) : Prop :=
  h.backing = .table ∨ ∀ id deltas, ev.write ≠ .increment id deltas

/-- How a write came to leave a document under an id. -/
inductive Leaves (c : Capabilities) (h : Handle) (ev : WriteEvent) (id : String) (d : Document) :
    Prop
  | inserted {brought : Document} (write : ev.write = .insert brought)
      (answer : ev.answer = .ok (.stored d)) (sets : d = brought.set idField (.string id))
      (fresh : ∀ x ∈ h.slots ev.before, x.key ≠ some id)
      (checked : Document.checkUnique h.unique d (h.held ev.before) = .ok ())
      (slots : h.slots ev.after = h.slots ev.before ++ [h.slot c id d])
  | rewritten {old : Document} (turns : ev.write.Turns id old d)
      (rewrites : h.Rewrites c id old d ev.before ev.after)
      (checked : h.Checks ev → Document.checkUnique h.unique d (h.held ev.before) = .ok ())

/-- What a write does to a collection in which ids are keys. -/
inductive WriteStep (c : Capabilities) (h : Handle) (ev : WriteEvent) : Prop
  | quiet (nothing : h.written ev = none) (same : h.slots ev.after = h.slots ev.before)
      (untold : ∀ past, WriteEvent.live (ev :: past) = WriteEvent.live past)
      (noDelete : ∀ id, ev.write ≠ .delete id)
  | leaves {id : String} {d : Document} (writes : h.written ev = some (id, d))
      (left : Leaves c h ev id d)
  | deletes {id : String} (write : ev.write = .delete id)
      (slots : h.slots ev.after = (h.slots ev.before).filter fun x => !(x.key == some id))

theorem WriteStep.left {c : Capabilities} {h : Handle} {ev : WriteEvent} (hstep : WriteStep c h ev)
    {id : String} {d : Document} (hwritten : h.written ev = some (id, d)) :
    Leaves c h ev id d := by
  cases hstep with
  | quiet nothing _ _ _ =>
      rw [nothing] at hwritten
      cases hwritten
  | leaves writes left =>
      rw [writes] at hwritten
      cases hwritten
      exact left
  | deletes write _ =>
      simp only [written, write] at hwritten
      cases hwritten

theorem Leaves.mem_after {c : Capabilities} {h : Handle} {ev : WriteEvent} {id : String}
    {d : Document} (hleft : Leaves c h ev id d) {x : Slot} (hx : x ∈ h.slots ev.after) :
    x = h.slot c id d ∨ x ∈ h.slots ev.before := by
  cases hleft with
  | inserted _ _ _ _ _ slots =>
      rw [slots] at hx
      rcases List.mem_append.mp hx with hx | hx
      · exact Or.inr hx
      · exact Or.inl (List.mem_singleton.mp hx)
  | rewritten _ rewrites _ => exact rewrites.mem_after hx

section Step

variable {h : Handle} {s : Stores}

theorem step_insert (c : Capabilities) (h : Handle) (s : Stores) (d : Document) :
    WriteStep c h (h.writeEvent c s (.insert d)) := by
  rw [writeEvent, perform]
  rcases h.insert_cases c d s with
    ⟨f, s', hinsert, hsame⟩ | ⟨s', hinsert, hfresh, hchecked, hslots⟩
  · rw [hinsert]
    exact .quiet rfl hsame (fun _ => rfl) nofun
  · rw [hinsert]
    refine .leaves ?_ (.inserted rfl rfl rfl hfresh hchecked hslots)
    simp [written, Except.map, Document.id?_set_idField]

theorem step_update (hkeys : ((h.slots s).filterMap Slot.key).Nodup) (c : Capabilities)
    (id : String) (fields : Document) : WriteStep c h (h.writeEvent c s (.update id fields)) := by
  rw [writeEvent, perform]
  cases hfound : h.found? id s with
  | none =>
      refine .quiet ?_ (slots_of_missing c hfound fields []).1 (fun _ => rfl) nofun
      simp only [written, hfound, Option.map_none, ite_self]
  | some d =>
      rcases update_cases c hkeys hfound fields with
        ⟨f, s', hupdate, hsame⟩ | ⟨s', hupdate, hchecked, hrewrites⟩
      · rw [hupdate]
        exact .quiet rfl hsame (fun _ => rfl) nofun
      · rw [hupdate]
        refine .leaves ?_ (.rewritten (.inl ⟨fields, rfl, rfl⟩) hrewrites fun _ => hchecked)
        simp [written, hfound, Except.map, Except.isOk, Except.toBool]

theorem step_increment (hkeys : ((h.slots s).filterMap Slot.key).Nodup) (c : Capabilities)
    (id : String) (deltas : Document) :
    WriteStep c h (h.writeEvent c s (.increment id deltas)) := by
  rw [writeEvent, perform]
  cases hfound : h.found? id s with
  | none =>
      refine .quiet ?_ (slots_of_missing c hfound [] deltas).2 (fun _ => rfl) nofun
      simp only [written, hfound, Option.map_none, ite_self]
  | some d =>
      cases hb : h.backing with
      | memory =>
          obtain ⟨s', hincrement, hrewrites⟩ := increment_of_memory hb c hkeys hfound deltas
          rw [hincrement]
          refine .leaves ?_ (.rewritten (.inr ⟨deltas, rfl, rfl⟩) hrewrites ?_)
          · simp only [written, hfound, hb, or_true, if_true, Option.map_some]
          · rintro (htable | hnone)
            · rw [hb] at htable
              cases htable
            · exact absurd rfl (hnone id deltas)
      | table =>
          rcases increment_of_table hb c hkeys hfound deltas with
            ⟨f, s', hincrement, hsame⟩ | ⟨s', hincrement, hchecked, hrewrites⟩
          · rw [hincrement]
            refine .quiet ?_ hsame (fun _ => rfl) nofun
            simp [written, hb, Except.map, Except.isOk, Except.toBool]
          · rw [hincrement]
            refine .leaves ?_ (.rewritten (.inr ⟨deltas, rfl, rfl⟩) hrewrites fun _ => hchecked)
            simp [written, hfound, Except.map, Except.isOk, Except.toBool]

/-- Every write on a collection that takes no id twice is one of the steps. -/
theorem writeStep_of_keys (hkeys : ((h.slots s).filterMap Slot.key).Nodup) (c : Capabilities)
    (x : Write) : WriteStep c h (h.writeEvent c s x) := by
  cases x with
  | insert d => exact step_insert c h s d
  | update id fields => exact step_update hkeys c id fields
  | increment id deltas => exact step_increment hkeys c id deltas
  | delete id =>
      obtain ⟨s', hdelete, hafter⟩ := h.delete_eq id s
      rw [writeEvent, perform, hdelete]
      exact .deletes rfl hafter

/-- Every write on a collection in which ids are keys is one of the steps. -/
theorem Filed.writeStep (hf : h.Filed s) (c : Capabilities) (x : Write) :
    WriteStep c h (h.writeEvent c s x) :=
  writeStep_of_keys hf.keys c x

end Step

/-! ### The ids of written documents -/

/-- What a write left in the collection has, if it can be read back, the id that it was written
with. -/
def KeepsId (c : Capabilities) (h : Handle) (ev : WriteEvent) : Prop :=
  ∀ id d k, h.written ev = some (id, d) → h.kept c d = .ok k → Document.id? k = d.id?

/-- A write is no increment that adds to a field. -/
def Spares (h : Handle) (field : String) (ev : WriteEvent) : Prop :=
  ∀ id deltas, ev.write = .increment id deltas → (h.written ev).isSome →
    field ∉ (Document.added deltas).names

instance (c : Capabilities) (h : Handle) (ev : WriteEvent) : Decidable (h.KeepsId c ev) :=
  decidable_of_iff
    (∀ e ∈ h.written ev, ∀ k ∈ (h.kept c e.2).toOption, Document.id? k = Document.id? e.2) <| by
    constructor
    · intro hall id d k hwritten hk
      exact hall (id, d) hwritten k (by rw [hk]; rfl)
    · rintro hkeeps ⟨id, d⟩ hwritten k hk
      exact hkeeps id d k hwritten (Outcome.toOption_eq_some_iff.mp hk)

theorem keepsId_of_memory {h : Handle} (hb : h.backing = .memory) (c : Capabilities)
    (ev : WriteEvent) : h.KeepsId c ev := by
  intro id d k _ hk
  rw [kept, hb] at hk
  cases hk
  rfl

theorem spares_of_not_mem {h : Handle} {field : String} {ev : WriteEvent}
    (hnot : ∀ id deltas, ev.write = .increment id deltas → field ∉ Dict.names deltas) :
    h.Spares field ev := by
  intro id deltas hincrement _ hadds
  exact hnot id deltas hincrement (Document.names_added_subset deltas hadds)

/-- A document is left with the id that it is left under, or with none if that is what was added
to. -/
theorem Filed.id?_left {c : Capabilities} {h : Handle} {ev : WriteEvent} (hf : h.Filed ev.before)
    {id : String} {d : Document} (hwritten : h.written ev = some (id, d))
    (hleft : Leaves c h ev id d) :
    (h.Spares idField ev ∧ d.id? = some id) ∨ (¬ h.Spares idField ev ∧ d.id? = none) := by
  cases hleft with
  | @inserted brought write _ sets _ _ _ =>
      refine Or.inl ⟨fun _ _ hincrement => ?_, sets ▸ Document.id?_set_idField brought id⟩
      rw [write] at hincrement
      cases hincrement
  | @rewritten old turns rewrites _ =>
      have hold : Document.id? old = some id := hf.ids _ rewrites.mem_slots old rfl
      rcases turns with ⟨fields, hupdate, rfl⟩ | ⟨deltas, hincrement, rfl⟩
      · refine Or.inl ⟨fun _ _ hincrement => ?_, by rw [Document.id?_update, hold]⟩
        rw [hupdate] at hincrement
        cases hincrement
      · rw [Document.id?_increment, hold]
        by_cases hadds : idField ∈ (Document.added deltas).names
        · refine Or.inr ⟨fun hspares => hspares id deltas hincrement ?_ hadds, if_pos hadds⟩
          rw [hwritten]
          rfl
        · refine Or.inl ⟨fun _ deltas' hother _ => ?_, if_neg hadds⟩
          rw [hincrement] at hother
          cases hother
          exact hadds

/-! ### Ids stay keys -/

/-- A document that reads back under its id is found under it. -/
theorem slot_key_of_kept {c : Capabilities} {h : Handle} {id : String} {d k : Document}
    (hk : h.kept c d = .ok k) (hid : k.id? = some id) : (h.slot c id d).key = some id := by
  cases hb : h.backing with
  | memory =>
      rw [kept, hb] at hk
      cases hk
      exact slot_key c hid
  | table => simp only [slot, hb]

/-- The id that a rewritten document is found under is the one before, or there is none left. -/
theorem keys_sublist_of_rewritten {before after : List Slot} {x y : Slot} {id : String}
    (hx : x.key = some id) (hy : y.key = some id ∨ y.key = none) :
    ((before ++ y :: after).filterMap Slot.key).Sublist
      ((before ++ x :: after).filterMap Slot.key) := by
  rw [List.filterMap_append, List.filterMap_append, List.filterMap_cons_some hx]
  rcases hy with hy | hy
  · simp [List.filterMap_cons_some hy]
  · rw [List.filterMap_cons_none hy]
    exact (List.sublist_cons_self _ _).append_left _

/-- What is left under an id, or under none, takes no id twice. -/
theorem Leaves.nodup_keys {c : Capabilities} {h : Handle} {ev : WriteEvent} {id : String}
    {d : Document} (hleft : Leaves c h ev id d)
    (hkeys : ((h.slots ev.before).filterMap Slot.key).Nodup)
    (hkey : (h.slot c id d).key = some id ∨ (h.slot c id d).key = none) :
    ((h.slots ev.after).filterMap Slot.key).Nodup := by
  cases hleft with
  | @inserted brought _ _ sets fresh _ slots =>
      have hid : d.id? = some id := sets ▸ Document.id?_set_idField brought id
      rw [slots, List.filterMap_append, List.filterMap_cons_some (slot_key c hid),
        List.filterMap_nil]
      refine List.nodup_append.mpr ⟨hkeys, List.pairwise_singleton _ id, ?_⟩
      rintro a ha b hb rfl
      obtain rfl := List.mem_singleton.mp hb
      obtain ⟨x, hx, hkey⟩ := List.mem_filterMap.mp ha
      exact fresh x hx hkey
  | rewritten _ rewrites _ =>
      obtain ⟨before, after, hbefore, hafter, -⟩ := rewrites
      rw [hbefore] at hkeys
      rw [hafter]
      exact hkeys.sublist (keys_sublist_of_rewritten rfl hkey)

namespace Filed

variable {c : Capabilities} {h : Handle} {ev : WriteEvent}

/-- What is left under an id takes no id twice. -/
theorem keys_left (hf : h.Filed ev.before) {id : String} {d : Document}
    (hwritten : h.written ev = some (id, d)) (hleft : Leaves c h ev id d) :
    ((h.slots ev.after).filterMap Slot.key).Nodup := by
  have hkey : (h.slot c id d).key = some id ∨ (h.slot c id d).key = none := by
    rcases hf.id?_left hwritten hleft with ⟨-, hid⟩ | ⟨-, hid⟩
    · exact Or.inl (slot_key c hid)
    · unfold slot
      cases h.backing with
      | memory => exact Or.inr hid
      | table => exact Or.inl rfl
  exact hleft.nodup_keys hf.keys hkey

/-- A write keeps the ids keys if what it left is found under the id that it reads back with. -/
theorem step (hf : h.Filed ev.before) (hstep : WriteStep c h ev)
    (hread : ∀ id d k, h.written ev = some (id, d) → h.kept c d = .ok k →
      Document.id? k = (h.slot c id d).key) : h.Filed ev.after := by
  cases hstep with
  | quiet _ same _ _ => exact ⟨same ▸ hf.keys, same ▸ hf.ids⟩
  | @leaves id d writes left =>
      refine ⟨hf.keys_left writes left, fun x hx k hk => ?_⟩
      rcases left.mem_after hx with rfl | hx
      · exact hread id d k writes (by rw [← slot_doc c h id, hk])
      · exact hf.ids x hx k hk
  | deletes _ slots =>
      constructor
      · rw [slots]
        exact hf.keys.sublist (List.filter_sublist.filterMap _)
      · intro x hx
        rw [slots] at hx
        exact hf.ids x (List.mem_filter.mp hx).1

end Filed

namespace Run

variable {c : Capabilities} {h : Handle} {past : List WriteEvent} {s : Stores}

/-- Ids are keys in every run of a collection in memory, and in those of a table in which they read
back and are not added to. -/
theorem filed (hr : Run c h past s)
    (hids : h.backing = .table → ∀ ev ∈ past, h.KeepsId c ev ∧ h.Spares idField ev) : h.Filed s := by
  induction hr with
  | start empty =>
      constructor
      · rw [empty]
        exact .nil
      · rw [empty]
        nofun
  | @write past s run x ih =>
      have hf : h.Filed (h.writeEvent c s x).before :=
        ih fun hb ev hev => hids hb ev (List.mem_cons_of_mem _ hev)
      refine hf.step (hf.writeStep c x) fun id d k hwritten hk => ?_
      cases hb : h.backing with
      | memory =>
          rw [kept, hb] at hk
          cases hk
          simp only [slot, hb]
      | table =>
          obtain ⟨hkeeps, hspares⟩ := hids hb _ List.mem_cons_self
          rcases hf.id?_left hwritten ((hf.writeStep c x).left hwritten) with ⟨-, hid⟩ | ⟨hadds, -⟩
          · rw [hkeeps id d k hwritten hk, hid, slot_key c hid]
          · exact absurd hspares hadds
  | elsewhere run same ih =>
      have hf := ih hids
      exact ⟨same ▸ hf.keys, same ▸ hf.ids⟩

/-- In such a run every write was made on a collection in which ids are keys. -/
theorem forall_filed (hr : Run c h past s)
    (hids : h.backing = .table → ∀ ev ∈ past, h.KeepsId c ev ∧ h.Spares idField ev) :
    ∀ ev ∈ past, h.Filed ev.before ∧ WriteStep c h ev := by
  induction hr with
  | start _ => exact List.forall_mem_nil _
  | @write past s run x ih =>
      have hpastIds := fun hb ev hev => hids hb ev (List.mem_cons_of_mem _ hev)
      have hf : h.Filed (h.writeEvent c s x).before := run.filed hpastIds
      exact List.forall_mem_cons.mpr ⟨⟨hf, hf.writeStep c x⟩, ih hpastIds⟩
  | elsewhere _ _ ih => exact ih hids

/-- No run takes an id twice, whatever documents read back as. -/
theorem keys (hr : Run c h past s) : ((h.slots s).filterMap Slot.key).Nodup := by
  cases hb : h.backing with
  | memory =>
      refine (hr.filed fun htable => ?_).keys
      rw [hb] at htable
      cases htable
  | table =>
      have hslot : ∀ id d, (h.slot c id d).key = some id := fun id d => by simp only [slot, hb]
      induction hr with
      | start empty =>
          rw [empty]
          exact .nil
      | @write past s run x ih =>
          cases writeStep_of_keys ih c x with
          | quiet _ same _ _ => exact same ▸ ih
          | @leaves id d _ left => exact left.nodup_keys ih (.inl (hslot id d))
          | deletes _ slots => exact slots ▸ ih.sublist (List.filter_sublist.filterMap _)
      | elsewhere run same ih => exact same ▸ ih

end Run

end Handle

end Curator
