/-
What a creation or an update leaves behind when it fails.

A call that sends an input is checked before anything is stored: permissions, coercion, and the
collisions that the store looks for.  A failure among these leaves every document as it was.  But the
call is not over when the document is stored.  What was written is read again and shown, the templates of
joins are filled with the values that were just stored, and a value that a template cannot deal with
fails the call after the fact.

`Service.Fails` has these two cases and no third.  In the second one the documents are as before only if
the write put back what was there, so `failed_keeps_documents_iff` says exactly which failures a client
may take for calls that did not happen.
-/
import Curator.Proofs.Service.History
import Curator.Proofs.Store.Refusal

namespace Curator

open Serving (runOn)

theorem Stores.SameDocuments.slots_eq {s s' : Stores} (hsame : s.SameDocuments s') (h : Handle) :
    h.slots s' = h.slots s := by
  cases hb : h.backing with
  | memory => rw [Handle.slots_of_memory hb, Handle.slots_of_memory hb, hsame.memory]
  | table => rw [Handle.slots_of_table hb, Handle.slots_of_table hb, hsame.rows]

namespace Handle

/-! ### Writes that are accepted -/

variable {c : Capabilities} {h : Handle} {s : Stores}

/-- An insertion that is accepted makes a difference. -/
theorem not_sameDocuments_insert {d stored : Document} (haccepted : (h.insert c d s).1 = .ok stored) :
    ¬ s.SameDocuments (h.insert c d s).2 := by
  intro hsame
  rcases h.insert_cases c d s with ⟨f, s', hinsert, -⟩ | ⟨s', hinsert, -, -, hslots⟩
  · rw [hinsert] at haccepted
    cases haccepted
  · have hsame := hsame.slots_eq h
    rw [hinsert, hslots] at hsame
    exact absurd hsame (by simp)

/-- Rows are rewritten to themselves if the row of the id holds already what is written. -/
theorem rewritten_rows_eq_iff (hb : h.backing = .table)
    (hkeys : ((h.slots s).filterMap Slot.key).Nodup) {id : String} {d : Document}
    (hfound : h.found? id s = some d) (doc : Except Failure Document) :
    (s.rows.map fun r => if Table.isAt h.collection id r then { r with doc := doc } else r) =
      s.rows ↔ doc = .ok d := by
  have hmem : (⟨some id, .ok d⟩ : Slot) ∈ h.slots s := by
    obtain ⟨before, after, hslots, -⟩ := exists_slot_of_found? hfound
    rw [hslots]
    exact List.mem_append_right _ List.mem_cons_self
  constructor
  · intro hsame
    have hslot := hmem
    rw [slots_of_table hb] at hslot
    obtain ⟨r, hr, hslot⟩ := List.mem_map.mp hslot
    obtain ⟨hrow, hcoll⟩ := List.mem_filter.mp hr
    obtain ⟨hid, hdoc⟩ := Slot.mk.inj hslot
    have hat : Table.isAt h.collection id r = true := by
      rw [Table.isAt, hcoll, Option.some.inj hid, beq_self_eq_true, Bool.true_and]
    have hr := List.map_inj_left.mp (hsame.trans (List.map_id s.rows).symm) r hrow
    rw [if_pos hat] at hr
    exact (congrArg Row.doc hr).trans hdoc
  · rintro rfl
    refine (List.map_congr_left fun r hr => ?_).trans (List.map_id s.rows)
    split
    · rename_i hat
      obtain ⟨hcoll, hid⟩ : r.collection = h.collection ∧ r.id = id := by simpa [Table.isAt] using hat
      have hslot : (⟨some r.id, r.doc⟩ : Slot) ∈ h.slots s := by
        rw [slots_of_table hb]
        exact List.mem_map_of_mem (List.mem_filter.mpr ⟨hr, beq_iff_eq.mpr hcoll⟩)
      have heq := Slot.eq_of_key hkeys hmem hslot rfl (congrArg some hid)
      rw [← (Slot.mk.inj heq).2]
      rfl
    · rfl

/-- An update that is accepted makes none if it puts back the document that was there. -/
theorem sameDocuments_update_iff (hkeys : ((h.slots s).filterMap Slot.key).Nodup) {id : String}
    {fields d : Document} (hfound : h.found? id s = some d)
    (haccepted : (h.update c id fields s).1 = .ok true) :
    s.SameDocuments (h.update c id fields s).2 ↔ h.kept c (Document.update d fields) = .ok d := by
  rw [Handle.update] at haccepted ⊢
  cases hb : h.backing with
  | memory =>
      have hdoc : Memory.findById id (s.memoryAt h.collection) = some d :=
        (findById_of_found? hb).symm.trans hfound
      rw [change_of_memory hb] at haccepted
      rw [sameDocuments_change_of_memory hb]
      rcases Memory.update_cases h.unique fields hdoc with ⟨f, hupdate⟩ | ⟨hupdate, -⟩
      · rw [hupdate] at haccepted
        cases haccepted
      · rw [hupdate]
        simp only [kept, hb, Except.ok.injEq]
        exact Memory.replace_eq_self_iff hdoc _
  | table =>
      rw [change_of_table hb] at haccepted
      rw [sameDocuments_change_of_table hb]
      rcases Table.modify_cases c.codec h.collection h.unique
          (fun d => .ok (Document.update d fields)) ((findById_eq_ok_iff hb).mpr hfound) with
        ⟨f, hmodify⟩ | ⟨new, hnew, -, hmodify⟩
      · rw [Table.update, hmodify] at haccepted
        cases haccepted
      · cases hnew
        rw [Table.update, hmodify]
        simp only [kept, hb]
        exact rewritten_rows_eq_iff hb hkeys hfound _

end Handle

theorem Entity.found?_of_load {e : Entity} {h : Handle} (hstore : e.handle? = some h) {id : String}
    {s : Stores} {d : Document} (hload : e.load id s = .ok d) : h.found? id s = some d := by
  rw [Entity.load] at hload
  split at hload
  · simp only [Entity.store, hstore, Outcome.ok_bind] at hload
    obtain ⟨found, hfind, hload⟩ := Outcome.bind_eq_ok_iff.mp hload
    cases found with
    | none => cases hload
    | some d' =>
        cases hload
        rw [Handle.found?, hfind]
        rfl
  · cases hload

/-- A document is loaded from the first slot of its id. -/
theorem Entity.load_of_append {e : Entity} {h : Handle} (hstore : e.handle? = some h) {id : String}
    (hvalid : isValidId id = true) {s : Stores} {before after : List Slot} {x : Slot}
    (hslots : h.slots s = before ++ x :: after) (hbefore : ∀ y ∈ before, y.key ≠ some id)
    (hkey : x.key = some id) : e.load id s = x.doc := by
  rw [Entity.load, if_pos hvalid]
  simp only [Entity.store, hstore, Outcome.ok_bind,
    Handle.findById?_of_append hslots hbefore hkey]
  cases x.doc with
  | error f => rfl
  | ok d => rfl

/-- A call that sends an input. -/
def Call.Sends (call : Call) : Prop :=
  ∃ input, call = .create input ∨ ∃ id, call = .update id input

namespace Service

/-- What a call wrote was there already, as it is kept. -/
def Restores (svc : Service) (e : Entity) (h : Handle) (ev : Event) : Prop :=
  ∀ id d, svc.written e h ev = some (id, d) →
    ∃ k, e.load id ev.before = .ok k ∧ h.kept svc.capabilities d = .ok k

/-! ### What a write does -/

/-- A document was written under an id. -/
structure Wrote (svc : Service) (e : Entity) (h : Handle) (id : String) (d : Document)
    (s s' : Stores) : Prop where
  /-- Nothing has changed if the document was there already, as it is kept. -/
  same : s.SameDocuments s' ↔ ∃ k, e.load id s = .ok k ∧ h.kept svc.capabilities d = .ok k
  /-- The document is read again as it is kept. -/
  read : isValidId id = true → e.load id s' = h.kept svc.capabilities d

variable {svc : Service} {e : Entity} {h : Handle} {s s' : Stores} {d : Document}

theorem wrote_of_insert (hstore : e.handle? = some h) (hd : d.id? = none)
    (hinsert : h.insert svc.capabilities d s =
      (.ok (d.set idField (.string (svc.capabilities.issueId s.issued))), s')) :
    svc.Wrote e h (svc.capabilities.issueId s.issued)
      (d.set idField (.string (svc.capabilities.issueId s.issued))) s s' := by
  have hid : Handle.idFor svc.capabilities d s = svc.capabilities.issueId s.issued := by
    rw [Handle.idFor, hd]
    rfl
  have hdiffers := Handle.not_sameDocuments_insert (congrArg Prod.fst hinsert)
  rcases h.insert_cases svc.capabilities d s with
    ⟨f, t, hrefused, -⟩ | ⟨t, haccepted, hfresh, -, hslots⟩
  · rw [hinsert] at hrefused
    cases hrefused
  · rw [hinsert] at hdiffers haccepted
    obtain rfl := (Prod.mk.inj haccepted).2
    rw [hid] at hfresh hslots
    refine ⟨iff_of_false hdiffers ?_, fun hvalid => ?_⟩
    · -- The id is a new one, so nothing was there before.
      rintro ⟨k, hload, -⟩
      obtain ⟨before, after, hbefore, -⟩ :=
        Handle.exists_slot_of_found? (Entity.found?_of_load hstore hload)
      exact hfresh ⟨_, .ok k⟩ (hbefore ▸ List.mem_append_right _ List.mem_cons_self) rfl
    · rw [Entity.load_of_append hstore hvalid hslots hfresh
        (Handle.slot_key _ (Document.id?_set_idField d _)), Handle.slot_doc]

theorem wrote_of_update (hstore : e.handle? = some h)
    (hkeys : ((h.slots s).filterMap Slot.key).Nodup) {id : String} (hload : e.load id s = .ok d)
    {fields : Document} (hupdate : h.update svc.capabilities id fields s = (.ok true, s')) :
    svc.Wrote e h id (Document.update d fields) s s' := by
  have hfound := Entity.found?_of_load hstore hload
  have hsame := Handle.sameDocuments_update_iff hkeys hfound (congrArg Prod.fst hupdate)
  rcases Handle.update_cases svc.capabilities hkeys hfound fields with
    ⟨f, t, hrefused, -⟩ | ⟨t, haccepted, -, hrewrites⟩
  · rw [hupdate] at hrefused
    cases hrefused
  · rw [hupdate] at hsame haccepted
    obtain rfl := (Prod.mk.inj haccepted).2
    refine ⟨hsame.trans ⟨fun hput => ⟨d, hload, hput⟩, ?_⟩, fun hvalid => ?_⟩
    · rintro ⟨k, hload', hput⟩
      obtain rfl := Except.ok.inj (hload.symm.trans hload')
      exact hput
    · have hkey := Handle.slot_key_of_id?_eq svc.capabilities hrewrites.mem_slots
        (Document.id?_update d fields)
      obtain ⟨before, after, -, hslots, hother⟩ := hrewrites
      rw [Entity.load_of_append hstore hvalid hslots
        (fun x hx => hother x (List.mem_append_left _ hx)) hkey, Handle.slot_doc]

/-! ### How calls fail -/

/-- A call that sends an input fails before it writes, or because what it wrote cannot be shown. -/
inductive Fails (svc : Service) (e : Entity) (ev : Event) (f : Failure) : Prop
  | early (nothing : ∀ h, e.handle? = some h → svc.written e h ev = none)
      (same : ev.before.SameDocuments ev.after)
  | late {h : Handle} {id : String} {d : Document} (stored : e.handle? = some h)
      (writes : svc.written e h ev = some (id, d)) (wrote : svc.Wrote e h id d ev.before ev.after)
      (shown : svc.shown e id ev.request.caller ev.after = .error f)

namespace Unhooked

variable {entity : String} {req : Request} {w : World} {f : Failure}

theorem fails_create (hu : svc.Unhooked entity e) {input : Json}
    (hfailed : (svc.event entity (.create input) req w).answer = .error f) :
    svc.Fails e (svc.event entity (.create input) req w) f := by
  rw [event, serve, runOn_return_singleton, hu.runOn_create] at hfailed ⊢
  cases hdraft : svc.draft e input req w.stores with
  | error refused =>
      refine .early (fun h _ => ?_) ⟨fun _ => rfl, rfl⟩
      simp only [written, hdraft]
  | ok d =>
      rw [hdraft] at hfailed
      cases hstore : e.handle? with
      | none =>
          simp only [Entity.store, hstore]
          refine .early (fun h hh => ?_) ⟨fun _ => rfl, rfl⟩
          exact absurd (hh.symm.trans hstore) (Option.some_ne_none h)
      | some h =>
          simp only [Entity.store, hstore] at hfailed ⊢
          rcases h.insert_cases svc.capabilities d w.stores with
            ⟨refused, s, hinsert, -⟩ | ⟨s, hinsert, -⟩
          · have hkept := Handle.insert_keeps_documents (congrArg Prod.fst hinsert)
            rw [hinsert] at hkept ⊢
            refine .early (fun h' hh => ?_) hkept
            obtain rfl := Option.some.inj (hstore.symm.trans hh)
            simp only [written, hdraft, hinsert]
          · rw [Handle.idFor, draft_id? hdraft, Option.getD_none] at hinsert
            rw [hinsert] at hfailed ⊢
            simp only [Document.id?_set_idField] at hfailed ⊢
            refine .late hstore ?_ (wrote_of_insert hstore (draft_id? hdraft) hinsert)
              (Outcome.map_eq_error_iff.mp hfailed)
            simp only [written, hdraft, hinsert]
            rfl

theorem fails_update (hu : svc.Unhooked entity e)
    (hkeys : ∀ h, e.handle? = some h → ((h.slots w.stores).filterMap Slot.key).Nodup)
    {id : String} {input : Json}
    (hfailed : (svc.event entity (.update id input) req w).answer = .error f) :
    svc.Fails e (svc.event entity (.update id input) req w) f := by
  rw [event, serve, runOn_return_singleton, hu.runOn_update] at hfailed ⊢
  cases hchanges : svc.changes e id input req w.stores with
  | error refused =>
      refine .early (fun h _ => ?_) ⟨fun _ => rfl, rfl⟩
      simp only [written, hchanges]
  | ok fields =>
      rw [hchanges] at hfailed
      cases hstore : e.handle? with
      | none =>
          simp only [Entity.store, hstore]
          refine .early (fun h hh => ?_) ⟨fun _ => rfl, rfl⟩
          exact absurd (hh.symm.trans hstore) (Option.some_ne_none h)
      | some h =>
          simp only [Entity.store, hstore] at hfailed ⊢
          obtain ⟨⟨d, hload⟩, -⟩ := changes_eq_ok hchanges
          rcases Handle.update_cases svc.capabilities (hkeys h hstore)
              (Entity.found?_of_load hstore hload) fields with
            ⟨refused, s, hupdate, -⟩ | ⟨s, hupdate, -⟩
          · have hkept := Handle.update_keeps_documents (congrArg Prod.fst hupdate)
            rw [hupdate] at hkept ⊢
            refine .early (fun h' hh => ?_) hkept
            obtain rfl := Option.some.inj (hstore.symm.trans hh)
            simp only [written, hchanges, hload, hupdate]
          · rw [hupdate] at hfailed ⊢
            refine .late hstore ?_ (wrote_of_update hstore (hkeys h hstore) hload hupdate)
              (Outcome.map_eq_error_iff.mp hfailed)
            simp only [written, hchanges, hload, hupdate]

/-- A call that sends an input fails in one of the two ways. -/
theorem fails (hu : svc.Unhooked entity e)
    (hkeys : ∀ h, e.handle? = some h → ((h.slots w.stores).filterMap Slot.key).Nodup)
    {call : Call} (hcall : call.Sends) (hfailed : (svc.event entity call req w).answer = .error f) :
    svc.Fails e (svc.event entity call req w) f := by
  obtain ⟨input, rfl | ⟨id, rfl⟩⟩ := hcall
  · exact hu.fails_create hfailed
  · exact hu.fails_update hkeys hfailed

end Unhooked

/--
**What a failed call leaves behind.**  A creation or an update that fails leaves every document as it was
exactly when it wrote none or put back the one that was there.  If it wrote any, then what failed was to
read that document back and to show it.
-/
theorem failed_keeps_documents_iff {entity : String} {req : Request} {w : World} {f : Failure}
    (hu : svc.Unhooked entity e)
    (hkeys : ∀ h, e.handle? = some h → ((h.slots w.stores).filterMap Slot.key).Nodup)
    {call : Call} (hcall : call.Sends) (hfailed : (svc.event entity call req w).answer = .error f) :
    (w.stores.SameDocuments (svc.event entity call req w).after ↔
      ∀ h, e.handle? = some h → svc.Restores e h (svc.event entity call req w)) ∧
    ∀ h id d, e.handle? = some h → svc.written e h (svc.event entity call req w) = some (id, d) →
      isValidId id = true →
      (h.kept svc.capabilities d >>= fun k =>
        svc.present e k req.caller (svc.event entity call req w).after) = .error f := by
  cases hu.fails hkeys hcall hfailed with
  | early nothing same =>
      refine ⟨iff_of_true same fun h hstore id d hwritten => ?_, fun h id d hstore hwritten _ => ?_⟩
      · exact absurd (hwritten.symm.trans (nothing h hstore)) (Option.some_ne_none _)
      · exact absurd (hwritten.symm.trans (nothing h hstore)) (Option.some_ne_none _)
  | @late h id d stored writes wrote shown =>
      have honly : ∀ {h' id' d'}, e.handle? = some h' →
          svc.written e h' (svc.event entity call req w) = some (id', d') →
          (h, id, d) = (h', id', d') := by
        intro h' id' d' hstore hwritten
        obtain rfl := Option.some.inj (stored.symm.trans hstore)
        rw [Option.some.inj (writes.symm.trans hwritten)]
      constructor
      · refine wrote.same.trans ⟨fun hput h' hstore id' d' hwritten => ?_, fun hall => ?_⟩
        · cases honly hstore hwritten
          exact hput
        · exact hall _ stored _ _ writes
      · intro h' id' d' hstore hwritten hvalid
        cases honly hstore hwritten
        rw [← wrote.read hvalid]
        exact shown

/-- In memory, and without joins that could fail, a failed call leaves every document as it was. -/
theorem failed_keeps_documents_of_memory {entity : String} {req : Request} {w : World} {f : Failure}
    (hb : svc.Bare entity e h) (hmemory : h.backing = .memory)
    (hids : ∀ n, isValidId (svc.capabilities.issueId n) = true)
    (hkeys : ((h.slots w.stores).filterMap Slot.key).Nodup) {call : Call} (hcall : call.Sends)
    (hfailed : (svc.event entity call req w).answer = .error f) :
    w.stores.SameDocuments (svc.event entity call req w).after := by
  have hkeys : ∀ h', e.handle? = some h' → ((h'.slots w.stores).filterMap Slot.key).Nodup := by
    intro h' hstore
    obtain rfl := Option.some.inj (hb.stored.symm.trans hstore)
    exact hkeys
  cases hb.unhooked.fails hkeys hcall hfailed with
  | early _ same => exact same
  | late stored writes wrote shown =>
      obtain rfl := Option.some.inj (hb.stored.symm.trans stored)
      have hread := wrote.read (isValidId_of_written hids writes)
      rw [hb.shown_eq, hread, Handle.kept, hmemory] at shown
      cases shown

/-! ### A post without a year -/

/-- Posts that anyone may write, each shown with a post of the year before. -/
private def posts : Entity :=
  ⟨{ Definition.ofNames "posts" "posts" with
      permissions := some (.uniform (.one .anyone))
      attributes := NameMap.empty.insert "year" (.ofKind (.number none none))
      joins := NameMap.empty.insert "previous"
        ⟨.findOne, "posts", [("year", .string "\x7bthis.year - 1\x7d")]⟩ },
    some ⟨.memory, "posts", []⟩⟩

private def postService : Service :=
  ⟨⟨fun t _ => .ok t, fun n => String.ofList (List.replicate n 'x'), fun _ => "1001",
      Document.reread⟩, ⟨[("posts", posts)]⟩, fun _ _ => none⟩

private def noPosts : World := ⟨Stores.empty, []⟩

private def nobody : Request := ⟨none, none, 0⟩

private theorem posts_unhooked : postService.Unhooked "posts" posts where
  registered := rfl
  noHooks := fun _ => rfl
  noCode := fun _ => rfl

private theorem post_fails :
    (postService.event "posts" (.create (.object [])) nobody noPosts).answer =
      .error .notEvaluated := by
  have hfailed : Outcome.error? (postService.event "posts" (.create (.object [])) nobody
      noPosts).answer = some .notEvaluated := by decide +kernel
  exact Outcome.error?_eq_some_iff.mp hfailed

theorem failed_keeps_documents_iff_posts :
    postService.Unhooked "posts" posts ∧ (Call.create (.object [])).Sends ∧
    (postService.event "posts" (.create (.object [])) nobody noPosts).answer =
      .error .notEvaluated ∧
    (noPosts.stores.SameDocuments
        (postService.event "posts" (.create (.object [])) nobody noPosts).after ↔
      ∀ h, posts.handle? = some h → postService.Restores posts h
        (postService.event "posts" (.create (.object [])) nobody noPosts)) ∧
    ∀ h id d, posts.handle? = some h →
      postService.written posts h
        (postService.event "posts" (.create (.object [])) nobody noPosts) = some (id, d) →
      isValidId id = true →
      (h.kept postService.capabilities d >>= fun k => postService.present posts k none
        (postService.event "posts" (.create (.object [])) nobody noPosts).after) =
          .error .notEvaluated := by
  have hsends : (Call.create (.object [])).Sends := ⟨_, Or.inl rfl⟩
  have hkeys : ∀ h, posts.handle? = some h →
      ((h.slots noPosts.stores).filterMap Slot.key).Nodup := by
    rintro h ⟨⟩
    exact List.nodup_nil
  exact ⟨posts_unhooked, hsends, post_fails,
    failed_keeps_documents_iff posts_unhooked hkeys hsends post_fails⟩

/-- A creation that fails can leave a document behind. -/
theorem not_same_documents_of_failed_create :
    ¬ ∀ (svc : Service) (entity : String) (e : Entity) (h : Handle) (call : Call) (req : Request)
        (w : World) (f : Failure), svc.capabilities.codec = Document.reread →
        (∀ n, isValidId (svc.capabilities.issueId n) = true) → svc.Unhooked entity e →
        e.handle? = some h → ((h.slots w.stores).filterMap Slot.key).Nodup → call.Sends →
        (svc.event entity call req w).answer = .error f →
        w.stores.SameDocuments (svc.event entity call req w).after := by
  intro hall
  have hid : isValidId "1001" = true := by decide
  have hsame := hall postService "posts" posts ⟨.memory, "posts", []⟩ (.create (.object [])) nobody
    noPosts _ rfl (fun _ => hid) posts_unhooked rfl List.nodup_nil ⟨_, Or.inl rfl⟩ post_fails
  have hstored : ((postService.event "posts" (.create (.object [])) nobody
      noPosts).after.memoryAt "posts").length = 1 := by decide +kernel
  rw [hsame.memory] at hstored
  cases hstored

end Service

end Curator
