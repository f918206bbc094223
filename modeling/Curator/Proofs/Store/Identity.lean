/-
The id of a document is its key, over any run of writes.

`Handle.Keyed` compares a collection with the history of its writes: the documents are just those that
were inserted and not deleted, each still with its id, and these ids are the ones under which a
document is found.  A write keeps that as long as what it left reads back with the id that it is kept
under, so `Handle.ReadsUnderId` is the condition on each event, and it is also necessary.  Where
reading back keeps ids, as it always does in memory, the condition fails for one kind of write only:
an increment that adds to the id itself, which no other write ever changes.
-/
import Curator.Proofs.Store.Writes

namespace Curator

/-- Slots whose documents can be read, each with its id, are the slots of some documents. -/
theorem Slot.exists_docs {slots : List Slot}
    (hslots : ∀ x ∈ slots, ∃ d, x.doc = .ok d ∧ Document.id? d = x.key) :
    ∃ docs : List Document,
      slots.map (·.doc) = docs.map .ok ∧ docs.map Document.id? = slots.map (·.key) := by
  induction slots with
  | nil => exact ⟨[], rfl, rfl⟩
  | cons x slots ih =>
      obtain ⟨⟨d, hd, hid⟩, hslots⟩ := List.forall_mem_cons.mp hslots
      obtain ⟨docs, hdocs, hids⟩ := ih hslots
      exact ⟨d :: docs, by rw [List.map_cons, List.map_cons, hd, hdocs],
        by rw [List.map_cons, List.map_cons, hid, hids]⟩

namespace Handle

/-- The documents of a collection are those that a history tells of, under their ids. -/
structure Keyed (h : Handle) (past : List WriteEvent) (s : Stores) : Prop where
  /-- Every document has the id that it was inserted under. -/
  documents : ∃ docs, h.documents s = .ok docs ∧
    docs.map Document.id? = (WriteEvent.live past).map some
  /-- No two documents have the same id. -/
  distinct : (WriteEvent.live past).Nodup
  /-- A document is found under the ids that were inserted and not deleted since, and no others. -/
  found : ∀ id, (∃ d, h.findById? id s = .ok (some d)) ↔ id ∈ WriteEvent.live past

/-- A write changes no id: an insertion adds one, a deletion takes the given one out, and the others
leave all ids as they are. -/
def LeavesIds (h : Handle) (ev : WriteEvent) : Prop :=
  ∃ before after, h.documents ev.before = .ok before ∧ h.documents ev.after = .ok after ∧
    match ev.write with
    | .insert _ => before.map Document.id? <+: after.map Document.id?
    | .delete id => after.map Document.id? = (before.map Document.id?).filter (· ≠ some id)
    | _ => after.map Document.id? = before.map Document.id?

/-- What a write left in the collection reads back as a document with the id that it is kept under. -/
def ReadsUnderId (c : Capabilities) (h : Handle) (ev : WriteEvent) : Prop :=
  ∀ id d, h.written ev = some (id, d) → ∃ k, h.kept c d = .ok k ∧ Document.id? k = some id

/-- What a write left in the collection can be read back. -/
def Readable (c : Capabilities) (h : Handle) (ev : WriteEvent) : Prop :=
  ∀ id d, h.written ev = some (id, d) → ∃ k, h.kept c d = .ok k

theorem readable_of_memory {h : Handle} (hb : h.backing = .memory) (c : Capabilities)
    (ev : WriteEvent) : h.Readable c ev :=
  fun _ d _ => ⟨d, by rw [kept, hb]⟩

/-- Where ids are kept, a write reads back under the id unless it adds to it. -/
theorem Filed.readsUnderId_iff_spares {c : Capabilities} {h : Handle} {ev : WriteEvent}
    (hf : h.Filed ev.before) (hstep : WriteStep c h ev) (hkeeps : h.KeepsId c ev)
    (hreadable : h.Readable c ev) :
    h.ReadsUnderId c ev ↔ h.Spares idField ev := by
  constructor
  · intro hread
    cases hwritten : h.written ev with
    | none =>
        intro id deltas _ hsome
        rw [hwritten] at hsome
        cases hsome
    | some written =>
        obtain ⟨id, d⟩ := written
        rcases hf.id?_left hwritten (hstep.left hwritten) with ⟨hspares, -⟩ | ⟨-, hlost⟩
        · exact hspares
        · obtain ⟨k, hk, hid⟩ := hread id d hwritten
          rw [hkeeps id d k hwritten hk, hlost] at hid
          cases hid
  · intro hspares id d hwritten
    obtain ⟨k, hk⟩ := hreadable id d hwritten
    rcases hf.id?_left hwritten (hstep.left hwritten) with ⟨-, hid⟩ | ⟨hadds, -⟩
    · exact ⟨k, hk, (hkeeps id d k hwritten hk).trans hid⟩
    · exact absurd hspares hadds

/-! ### What a write does to the ids -/

theorem live_of_turns {ev : WriteEvent} {id : String} {old new : Document}
    (turns : ev.write.Turns id old new) (past : List WriteEvent) :
    WriteEvent.live (ev :: past) = WriteEvent.live past := by
  rcases turns with ⟨fields, hw, -⟩ | ⟨deltas, hw, -⟩
  · simp only [WriteEvent.live, hw]
  · simp only [WriteEvent.live, hw]

/-- What a write does to the ids that documents are found under, and to those that are told of. -/
inductive KeyStep (h : Handle) (ev : WriteEvent) : Prop
  | adds {d : Document} {id : String} (write : ev.write = .insert d)
      (told : ∀ past, WriteEvent.live (ev :: past) = WriteEvent.live past ++ [id])
      (keys : (h.slots ev.after).map (·.key) = (h.slots ev.before).map (·.key) ++ [some id])
  | removes {id : String} (write : ev.write = .delete id)
      (told : ∀ past, WriteEvent.live (ev :: past) = (WriteEvent.live past).filter (· ≠ id))
      (keys : (h.slots ev.after).map (·.key) =
        ((h.slots ev.before).map (·.key)).filter (· ≠ some id))
  | keeps (noDelete : ∀ id, ev.write ≠ .delete id)
      (told : ∀ past, WriteEvent.live (ev :: past) = WriteEvent.live past)
      (keys : (h.slots ev.after).map (·.key) = (h.slots ev.before).map (·.key))

section Step

variable {c : Capabilities} {h : Handle} {ev : WriteEvent}

theorem keyStep_of_writeStep (hstep : WriteStep c h ev) (hread : h.ReadsUnderId c ev) :
    KeyStep h ev := by
  cases hstep with
  | quiet _ same untold noDelete => exact .keeps noDelete untold (by rw [same])
  | @leaves id d writes left =>
      obtain ⟨k, hk, hid⟩ := hread id d writes
      have hkey : (h.slot c id d).key = some id := slot_key_of_kept hk hid
      cases left with
      | @inserted brought write answer sets _ _ slots =>
          have hown : d.id? = some id := sets ▸ Document.id?_set_idField brought id
          have htold : ∀ past, WriteEvent.live (ev :: past) = WriteEvent.live past ++ [id] := by
            intro past
            simp only [WriteEvent.live, write, answer, hown, Option.toList_some]
          exact .adds write htold (by rw [slots, List.map_append, List.map_singleton, hkey])
      | @rewritten old turns rewrites _ =>
          obtain ⟨before, after, hbefore, hafter, -⟩ := rewrites
          refine .keeps ?_ (live_of_turns turns) ?_
          · rintro other hdelete
            rcases turns with ⟨fields, hw, -⟩ | ⟨deltas, hw, -⟩
            · rw [hw] at hdelete
              cases hdelete
            · rw [hw] at hdelete
              cases hdelete
          · rw [hbefore, hafter, List.map_append, List.map_append, List.map_cons, List.map_cons,
              hkey]
  | @deletes id write slots =>
      refine .removes write (fun past => by simp only [WriteEvent.live, write]) ?_
      rw [slots, List.filter_map]
      congr 1
      refine List.filter_congr fun x _ => ?_
      simp [Bool.beq_eq_decide_eq]

theorem readable_of_writeStep (hstep : WriteStep c h ev) (hread : h.ReadsUnderId c ev)
    (hbefore : ∀ x ∈ h.slots ev.before, ∃ d, x.doc = .ok d) :
    ∀ x ∈ h.slots ev.after, ∃ d, x.doc = .ok d := by
  intro x hx
  cases hstep with
  | quiet _ same _ _ => exact hbefore x (same ▸ hx)
  | @leaves id d writes left =>
      obtain ⟨k, hk, -⟩ := hread id d writes
      rcases left.mem_after hx with rfl | hx
      · exact ⟨k, by rw [slot_doc, hk]⟩
      · exact hbefore x hx
  | deletes _ slots =>
      rw [slots] at hx
      exact hbefore x (List.mem_filter.mp hx).1

end Step

/-! ### Histories and collections -/

/-- The invariant of runs: the documents of a collection can all be read, and are found under the ids
that the history tells of. -/
structure Tracks (h : Handle) (past : List WriteEvent) (s : Stores) : Prop where
  filed : h.Filed s
  keys : (h.slots s).map (·.key) = (WriteEvent.live past).map some
  readable : ∀ x ∈ h.slots s, ∃ d, x.doc = .ok d

namespace Tracks

variable {c : Capabilities} {h : Handle} {past : List WriteEvent} {s : Stores}

theorem exists_documents (ht : Tracks h past s) :
    ∃ docs, h.documents s = .ok docs ∧ docs.map Document.id? = (h.slots s).map (·.key) := by
  have hread : ∀ x ∈ h.slots s, ∃ d, x.doc = .ok d ∧ Document.id? d = x.key := by
    intro x hx
    obtain ⟨d, hd⟩ := ht.readable x hx
    exact ⟨d, hd, ht.filed.ids x hx d hd⟩
  obtain ⟨docs, hdocs, hids⟩ := Slot.exists_docs hread
  exact ⟨docs, documents_eq_ok_iff.mpr hdocs, hids⟩

theorem keyed (ht : Tracks h past s) : h.Keyed past s where
  documents := by
    obtain ⟨docs, hdocs, hids⟩ := ht.exists_documents
    exact ⟨docs, hdocs, hids.trans ht.keys⟩
  distinct := by
    have hlive : (h.slots s).filterMap Slot.key = WriteEvent.live past := by
      have hkeys := congrArg (List.filterMap id) ht.keys
      rw [List.filterMap_map, List.filterMap_map] at hkeys
      exact hkeys.trans List.filterMap_some
    exact hlive ▸ ht.filed.keys
  found := by
    intro id
    have hlive : id ∈ WriteEvent.live past ↔ ∃ x ∈ h.slots s, x.key = some id := by
      have hkey : some id ∈ (h.slots s).map (·.key) ↔ id ∈ WriteEvent.live past := by
        rw [ht.keys]
        simp
      rw [← hkey, List.mem_map]
    rw [findById?_eq_slot, hlive]
    cases hx : (h.slots s).find? fun x => x.key == some id with
    | none =>
        constructor
        · rintro ⟨d, hd⟩
          cases hd
        · rintro ⟨x, hmem, hkey⟩
          exact absurd (beq_iff_eq.mpr hkey) (List.find?_eq_none.mp hx x hmem)
    | some x =>
        have hmem := List.mem_of_find?_eq_some hx
        obtain ⟨d, hd⟩ := ht.readable x hmem
        constructor
        · intro _
          exact ⟨x, hmem, by simpa using List.find?_some hx⟩
        · intro _
          refine ⟨d, ?_⟩
          dsimp only
          rw [hd]
          rfl

/-- Two collections that are told of compare as the ids do that their documents are found under. -/
theorem leavesIds {ev : WriteEvent} {past' : List WriteEvent} (ht : Tracks h past ev.before)
    (ht' : Tracks h past' ev.after)
    (hids : match ev.write with
      | .insert _ => (h.slots ev.before).map (·.key) <+: (h.slots ev.after).map (·.key)
      | .delete id => (h.slots ev.after).map (·.key) =
          ((h.slots ev.before).map (·.key)).filter (· ≠ some id)
      | _ => (h.slots ev.after).map (·.key) = (h.slots ev.before).map (·.key)) :
    h.LeavesIds ev := by
  obtain ⟨before, hbefore, hbeforeIds⟩ := ht.exists_documents
  obtain ⟨after, hafter, hafterIds⟩ := ht'.exists_documents
  refine ⟨before, after, hbefore, hafter, ?_⟩
  rw [hbeforeIds, hafterIds]
  exact hids

/-- A write whose document reads back under its id keeps the invariant. -/
theorem step (ev : WriteEvent) (ht : Tracks h past ev.before) (hstep : WriteStep c h ev)
    (hread : h.ReadsUnderId c ev) : Tracks h (ev :: past) ev.after ∧ h.LeavesIds ev := by
  have hfiled : h.Filed ev.after := by
    refine ht.filed.step hstep fun id d k hwritten hk => ?_
    obtain ⟨k', hk', hid⟩ := hread id d hwritten
    rw [hk] at hk'
    cases hk'
    rw [hid, slot_key_of_kept hk hid]
  have hreadable : ∀ x ∈ h.slots ev.after, ∃ d, x.doc = .ok d :=
    readable_of_writeStep hstep hread ht.readable
  cases keyStep_of_writeStep hstep hread with
  | adds write told keys =>
      have ht' : Tracks h (ev :: past) ev.after :=
        ⟨hfiled, by rw [keys, told, ht.keys, List.map_append, List.map_singleton], hreadable⟩
      refine ⟨ht', ht.leavesIds ht' ?_⟩
      rw [write, keys]
      exact List.prefix_append _ _
  | @removes id write told keys =>
      have hsame : ((WriteEvent.live past).map some).filter (· ≠ some id) =
          ((WriteEvent.live past).filter (· ≠ id)).map some := by
        rw [List.filter_map]
        congr 1
        refine List.filter_congr fun other _ => ?_
        simp
      have ht' : Tracks h (ev :: past) ev.after :=
        ⟨hfiled, by rw [keys, told, ht.keys, hsame], hreadable⟩
      refine ⟨ht', ht.leavesIds ht' ?_⟩
      rw [write]
      exact keys
  | keeps noDelete told keys =>
      have ht' : Tracks h (ev :: past) ev.after :=
        ⟨hfiled, by rw [keys, told, ht.keys], hreadable⟩
      refine ⟨ht', ht.leavesIds ht' ?_⟩
      rw [keys]
      cases hw : ev.write with
      | insert d => exact List.prefix_rfl
      | delete id => exact absurd hw (noDelete id)
      | update id fields => rfl
      | increment id deltas => rfl

/-- A write after which the ids are still as the history tells left a document that reads back under
its id. -/
theorem readsUnderId (ev : WriteEvent) (ht : Tracks h past ev.before) (hstep : WriteStep c h ev)
    (hkeyed : h.Keyed (ev :: past) ev.after) : h.ReadsUnderId c ev := by
  intro id d hwritten
  obtain ⟨all, hall, hids⟩ := hkeyed.documents
  rw [documents_eq_ok_iff] at hall
  cases hstep.left hwritten with
  | @inserted brought write answer sets _ _ slots =>
      have hid : d.id? = some id := sets ▸ Document.id?_set_idField brought id
      rw [slots, List.map_append] at hall
      obtain ⟨others, new, rfl, -, hnew⟩ := List.map_eq_append_iff.mp hall.symm
      obtain ⟨k, rfl, hk⟩ := List.map_eq_singleton_iff.mp hnew
      refine ⟨k, (slot_doc c h id d).symm.trans hk.symm, ?_⟩
      simp only [WriteEvent.live, write, answer, hid, List.map_append] at hids
      exact List.singleton_inj.mp (List.append_inj_right' hids rfl)
  | @rewritten old turns rewrites _ =>
      obtain ⟨before, after, hbefore, hafter, -⟩ := rewrites
      rw [hafter, List.map_append, List.map_cons] at hall
      obtain ⟨first, rest, rfl, hfirst, hrest⟩ := List.map_eq_append_iff.mp hall.symm
      obtain ⟨k, last, rfl, hk, -⟩ := List.map_eq_cons_iff.mp hrest
      refine ⟨k, (slot_doc c h id d).symm.trans hk.symm, ?_⟩
      rw [live_of_turns turns, ← ht.keys, hbefore, List.map_append, List.map_append, List.map_cons,
        List.map_cons] at hids
      have hlength : (first.map Document.id?).length = (before.map (·.key)).length := by
        simpa using congrArg List.length hfirst
      exact (List.cons.inj (List.append_inj_right hids hlength)).1

end Tracks

/-! ### Runs -/

namespace Run

variable {c : Capabilities} {h : Handle} {past : List WriteEvent} {s : Stores}

theorem tracks (hr : Run c h past s) (hread : ∀ ev ∈ past, h.ReadsUnderId c ev) :
    Tracks h past s := by
  induction hr with
  | start empty =>
      have hnone : ∀ {P : Slot → Prop} {s : Stores}, h.slots s = [] → ∀ x ∈ h.slots s, P x := by
        intro P s hs x hx
        rw [hs] at hx
        cases hx
      exact ⟨⟨by rw [empty]; exact .nil, hnone empty⟩, by rw [empty]; rfl, hnone empty⟩
  | @write past s run x ih =>
      have ht : Tracks h past s := ih fun ev hev => hread ev (List.mem_cons_of_mem _ hev)
      exact (Tracks.step (h.writeEvent c s x) ht (ht.filed.writeStep c x)
        (hread _ List.mem_cons_self)).1
  | elsewhere run same ih =>
      have ht := ih hread
      exact ⟨⟨same ▸ ht.filed.keys, same ▸ ht.filed.ids⟩, same ▸ ht.keys, same ▸ ht.readable⟩

theorem keyed_of_readsUnderId (hr : Run c h past s) (hread : ∀ ev ∈ past, h.ReadsUnderId c ev) :
    ∀ ev rest, (ev :: rest) <:+ past → h.Keyed (ev :: rest) ev.after ∧ h.LeavesIds ev := by
  intro ev rest hsuffix
  obtain ⟨s, x, run, rfl⟩ := hr.of_suffix hsuffix
  obtain ⟨hhead, hrest⟩ := List.forall_mem_cons.mp fun ev hev => hread ev (hsuffix.subset hev)
  have ht : Tracks h rest s := run.tracks hrest
  obtain ⟨ht', hleaves⟩ := Tracks.step (h.writeEvent c s x) ht (ht.filed.writeStep c x) hhead
  exact ⟨ht'.keyed, hleaves⟩

theorem readsUnderId_of_keyed (hr : Run c h past s)
    (hkeyed : ∀ ev rest, (ev :: rest) <:+ past → h.Keyed (ev :: rest) ev.after) :
    ∀ ev ∈ past, h.ReadsUnderId c ev := by
  induction hr with
  | start _ => nofun
  | @write past s run x ih =>
      have hpast := ih fun ev rest hsuffix =>
        hkeyed ev rest (hsuffix.trans (List.suffix_cons _ _))
      have ht := run.tracks hpast
      have hread := Tracks.readsUnderId (h.writeEvent c s x) ht (ht.filed.writeStep c x)
        (hkeyed _ _ List.suffix_rfl)
      exact List.forall_mem_cons.mpr ⟨hread, hpast⟩
  | elsewhere run same ih => exact ih hkeyed

theorem readsUnderId_iff_spares (hr : Run c h past s)
    (hkeeps : ∀ ev ∈ past, h.KeepsId c ev ∧ h.Readable c ev) :
    (∀ ev ∈ past, h.ReadsUnderId c ev) ↔ ∀ ev ∈ past, h.Spares idField ev := by
  induction hr with
  | start _ => exact iff_of_true nofun nofun
  | @write past s run x ih =>
      obtain ⟨⟨hkeep, hreadable⟩, hkeeps⟩ := List.forall_mem_cons.mp hkeeps
      rw [List.forall_mem_cons, List.forall_mem_cons, ← ih hkeeps]
      refine and_congr_left fun hpast => ?_
      have hf : h.Filed (h.writeEvent c s x).before := (run.tracks hpast).filed
      exact hf.readsUnderId_iff_spares (hf.writeStep c x) hkeep hreadable
  | elsewhere run same ih => exact ih hkeeps

end Run

/-- **A collection is keyed by id after every write of a run exactly when every written document reads
back under its id.**  Where reading back keeps ids, and so always in memory, that says that no
increment added to an id. -/
theorem keyed_iff_readsUnderId {c : Capabilities} {h : Handle} {past : List WriteEvent} {s : Stores}
    (hr : Run c h past s) :
    ((h.Keyed past s ∧ ∀ ev rest, (ev :: rest) <:+ past →
      h.Keyed (ev :: rest) ev.after ∧ h.LeavesIds ev) ↔ ∀ ev ∈ past, h.ReadsUnderId c ev) ∧
    ((h.backing = .memory ∨ ∀ ev ∈ past, h.KeepsId c ev ∧ h.Readable c ev) →
      ((∀ ev ∈ past, h.ReadsUnderId c ev) ↔ ∀ ev ∈ past, h.Spares idField ev)) := by
  constructor
  · constructor
    · intro hall
      exact hr.readsUnderId_of_keyed fun ev rest hsuffix => (hall.2 ev rest hsuffix).1
    · intro hread
      exact ⟨(hr.tracks hread).keyed, hr.keyed_of_readsUnderId hread⟩
  · rintro (hb | hkeeps)
    · exact hr.readsUnderId_iff_spares fun ev _ =>
        ⟨keepsId_of_memory hb c ev, readable_of_memory hb c ev⟩
    · exact hr.readsUnderId_iff_spares hkeeps

/-! ### An increment that adds to the id -/

private def anyCapabilities : Capabilities :=
  ⟨fun t _ => .ok t, fun n => String.ofList (List.replicate n 'x'), fun _ => "1001",
    Document.reread⟩

private def things : Handle := ⟨.memory, "things", []⟩

/-- A thing, and one added to a field of it. -/
private def addedOne (field : String) : List Write :=
  [.increment "1001" [(field, .ofNat 1)], .insert [("n", .ofNat 1)]]

private def thingsAfter (writes : List Write) : List WriteEvent :=
  things.events anyCapabilities Stores.empty writes

private theorem run_things (writes : List Write) :
    Run anyCapabilities things (thingsAfter writes)
      (WriteEvent.latest Stores.empty (thingsAfter writes)) :=
  run_events anyCapabilities rfl writes

theorem keyed_iff_readsUnderId_things :
    Run anyCapabilities things (thingsAfter (addedOne "n"))
      (WriteEvent.latest Stores.empty (thingsAfter (addedOne "n"))) ∧
    (∀ ev ∈ thingsAfter (addedOne "n"), things.Spares idField ev) ∧
    things.Keyed (thingsAfter (addedOne "n"))
      (WriteEvent.latest Stores.empty (thingsAfter (addedOne "n"))) := by
  have hdeltas : ∀ x ∈ addedOne "n", ∀ id deltas, x = .increment id deltas →
      idField ∉ Dict.names deltas := by simp [addedOne, idField]
  have hspares : ∀ ev ∈ thingsAfter (addedOne "n"), things.Spares idField ev := fun ev hev =>
    spares_of_not_mem (forall_mem_events hdeltas anyCapabilities things Stores.empty ev hev)
  have hboth := keyed_iff_readsUnderId (run_things (addedOne "n"))
  exact ⟨run_things _, hspares, (hboth.1.mpr ((hboth.2 (.inl rfl)).mpr hspares)).1⟩

/-- A collection is not keyed by id after an increment of the id. -/
theorem not_keyed_of_increment :
    ¬ ∀ (c : Capabilities) (h : Handle) (past : List WriteEvent) (s : Stores),
        Run c h past s → h.Keyed past s := by
  intro hall
  have hkeyed := hall _ _ _ _ (run_things (addedOne idField))
  have hlive : WriteEvent.live (thingsAfter (addedOne idField)) = ["1001"] := by decide +kernel
  have hmissing : (things.found? "1001"
      (WriteEvent.latest Stores.empty (thingsAfter (addedOne idField)))).isNone = true := by
    decide +kernel
  obtain ⟨d, hd⟩ := (hkeyed.found "1001").mpr (by rw [hlive]; exact List.mem_singleton.mpr rfl)
  rw [found?, hd] at hmissing
  cases hmissing

end Handle

end Curator
