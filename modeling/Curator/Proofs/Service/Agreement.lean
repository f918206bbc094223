/-
What is read of a document, whichever call reads it.

A creation and an update answer with the document as it is once their last hook has run, and a get of
that document on what they leave shows the same: all of them end in `Service.shown`.  A find looks
through the documents of the collection instead.  It comes to what the gets show as long as each
document is found under the id that it has, and under no other document's.  No call changes that, if no
hook aims at an id: what is inserted takes the next id, which no text but an issued one is; what is
written over a document leaves its id alone; and a table reads back an id that it was given.
-/
import Curator.Proofs.Service.Invariant
import Curator.Proofs.Service.Joining
import Curator.Proofs.Store.Identity
import Curator.Proofs.Store.Legible

namespace Curator

open Serving (runOn runOn_bind Keeps)

/-! ### Ids in every reachable world -/

namespace Service

/-- No declared hook aims at a field that holds an id. -/
def SparesIds (svc : Service) : Prop :=
  ∀ entity e, svc.directory.get entity = .ok e → ∀ l, ∀ hook ∈ e.definition.hooksAt l,
    (Text.splitAt '.' hook.target).getLast? ≠ some idField

/-- What a service is supplied with issues ids, and a table keeps what it is given legible. -/
structure Supplied (svc : Service) (h : Handle) : Prop where
  ids : ∀ n, isValidId (svc.capabilities.issueId n) = true
  legible : h.backing = .table → svc.capabilities.Legible

variable {svc : Service} {h : Handle}

/-- A write on a collection, which may be another one, keeps documents under their ids. -/
theorem Supplied.perform (hs : svc.Supplied h) (other : Handle) {s : Stores} {x : Write}
    (hx : x.Spares) (ho : Slot.Orderly (h.slots s)) :
    Slot.Orderly (h.slots (other.perform svc.capabilities s x).2) := by
  by_cases hsame : other.SameCollection h
  · rw [hsame.slots_eq] at ho ⊢
    exact ho.perform (fun hb => hs.legible (hsame.backing.trans hb)) hs.ids hx
  · rw [Handle.slots_perform_of_not_sameCollection hsame]
    exact ho

/-- So does a hook that aims at no id. -/
theorem Supplied.hooksKeep (hs : svc.Supplied h) (hspares : svc.SparesIds) :
    svc.HooksKeep fun s => Slot.Orderly (h.slots s) := by
  intro entity e l hook he hhook model req s ho
  cases svc.hookEvent_step entity model req hook s with
  | unplanned _ _ same => exact same.symm ▸ ho
  | rests _ _ same => exact same.symm ▸ ho
  | @writes w planned _ _ stores =>
      have hkey : w.key ≠ idField := by
        rcases Hook.plan_cases planned with ⟨hnone, -⟩ | ⟨w', v, hsome, -, hplans⟩
        · cases hnone
        · obtain rfl := Option.some.inj hsome
          have hlast := hspares entity e he l hook hhook
          rintro hid
          exact hlast (hid ▸ hplans.leads.last)
      have hwrite : w.write.Spares := by
        unfold HookWrite.write
        cases w.effect with
        | set => trivial
        | increment => exact fun hmem => hkey (List.mem_singleton.mp hmem).symm
      rw [stores, HookWrite.perform_stores]
      exact hs.perform w.handle hwrite ho

/-- Every write of a service keeps documents under their ids. -/
theorem Supplied.lasting (hs : svc.Supplied h) (hspares : svc.SparesIds) :
    svc.Lasting fun s => Slot.Orderly (h.slots s) where
  inserted := by
    intro _ _ other _ _ _ d s _ _ hdraft ho
    exact hs.perform other (x := .insert d) ⟨draft_names_nodup hdraft, draft_id? hdraft⟩ ho
  updated := by
    intro _ _ other id _ _ _ fields s _ _ _ ho
    exact hs.perform other (x := .update id fields) trivial ho
  deleted := by
    intro _ _ other s _ _ id ho
    exact hs.perform other (x := .delete id) trivial ho
  hooked := hs.hooksKeep hspares

/-! ### Showing without hooks -/

/-- An entity of a service with its store whose documents are shown without hooks.  It may have joins,
and any hooks around what is written. -/
structure Unwatched (svc : Service) (entity : String) (e : Entity) (h : Handle) : Prop where
  registered : svc.directory.get entity = .ok e
  stored : e.handle? = some h
  noHooks : e.definition.hooksAt .beforeGet = [] ∧ e.definition.hooksAt .afterGet = []
  noCode : svc.codeHook? entity .beforeGet = none ∧ svc.codeHook? entity .afterGet = none

namespace Unwatched

variable {entity : String} {e : Entity} {req : Request} {w w' : World}

theorem runOn_showOne (hu : svc.Unwatched entity e h) (d : Document) (req : Request) (w : World) :
    runOn (svc.showOne entity e d req) w = (svc.present e d req.caller w.stores, w) := by
  have hbefore := runOn_runHooks_of_none hu.registered hu.noHooks.1 hu.noCode.1 d req
  have hafter := runOn_runHooks_of_none hu.registered hu.noHooks.2 hu.noCode.2 d req
  simp only [showOne, runOn_bind, hbefore, Serving.runOn_look]
  cases svc.present e d req.caller w.stores with
  | error f => rfl
  | ok shown => simp only [hafter, Serving.runOn_pure]

/-- A get shows the document of its id. -/
theorem runOn_get (hu : svc.Unwatched entity e h) (hallowed : e.ensureAllowed .get req.caller = .ok ())
    (id : String) (w : World) :
    runOn (svc.get entity id req) w = (svc.shown e id req.caller w.stores, w) := by
  simp only [Service.get, runOn_bind, Serving.runOn_ofExcept, Serving.runOn_look, hu.registered,
    hallowed, shown]
  cases e.load id w.stores with
  | error f => rfl
  | ok d => exact hu.runOn_showOne d req w

/-- Documents that are shown in turn are all shown as they are in the same world. -/
theorem showAll_eq_ok (hu : svc.Unwatched entity e h) {ds shown : List Document}
    (hshown : runOn (svc.showAll entity e req ds) w = (.ok shown, w')) :
    List.Forall₂ (fun d one => svc.present e d req.caller w.stores = .ok one) ds shown := by
  induction ds generalizing shown w' with
  | nil =>
      cases hshown
      exact .nil
  | cons d ds ih =>
      obtain ⟨one, v, hone, hshown⟩ := Serving.bind_eq_ok_iff.mp hshown
      rw [hu.runOn_showOne] at hone
      obtain ⟨hpresent, rfl⟩ := Prod.mk.inj hone
      obtain ⟨rest, v, hrest, hshown⟩ := Serving.bind_eq_ok_iff.mp hshown
      cases hshown
      exact .cons hpresent (ih hrest)

/-- A find shows the documents that match its filter. -/
theorem find_eq_ok (hu : svc.Unwatched entity e h) {query : Document} {shown : List Document}
    (hfind : runOn (svc.find entity query req) w = (.ok shown, w')) :
    ∃ filter docs, queryFilter e req.caller query = .ok filter ∧ h.documents w.stores = .ok docs ∧
      List.Forall₂ (fun d one => svc.present e d req.caller w.stores = .ok one)
        (docs.filter fun d => d.matchesFilter filter) shown := by
  rw [Service.find, hu.registered, Serving.ofExcept_ok_bind] at hfind
  obtain ⟨-, -, hfind⟩ := Serving.ofExcept_bind_eq_ok_iff.mp hfind
  obtain ⟨filter, hfilter, hfind⟩ := Serving.ofExcept_bind_eq_ok_iff.mp hfind
  rw [Entity.store_eq_ok_iff.mpr hu.stored, Serving.ofExcept_ok_bind] at hfind
  obtain ⟨matching, hmatching, hfind⟩ := Serving.look_bind_eq_ok_iff.mp hfind
  obtain ⟨docs, hdocs, rfl⟩ := Outcome.map_eq_ok_iff.mp hmatching
  exact ⟨filter, docs, hfilter, hdocs, hu.showAll_eq_ok hfind⟩

end Unwatched

/-! ### What writes answer -/

section Written

variable {entity : String} {e : Entity} {req : Request} {w w' : World} {d : Document}

/-- What is answered after a write is what is shown of its document in the end. -/
theorem showWritten_eq_ok {l : Lifecycle} {stored : Document} {id : String}
    (hshown : runOn (svc.showWritten entity e l stored id req) w = (.ok d, w')) :
    svc.shown e id req.caller w'.stores = .ok d := by
  obtain ⟨-, v, -, hshown⟩ := Serving.bind_eq_ok_iff.mp hshown
  obtain ⟨current, hload, hshown⟩ := Serving.look_bind_eq_ok_iff.mp hshown
  obtain ⟨hpresent, rfl⟩ := Prod.mk.inj hshown
  rw [shown, hload]
  exact hpresent

/-- What is inserted has the id that it brings, or the next one. -/
theorem insert_eq_ok {c : Capabilities} {s : Stores} {stored : Document}
    (hinsert : (h.insert c d s).1 = .ok stored) : stored.id? = some (Handle.idFor c d s) := by
  rcases h.insert_cases c d s with ⟨f, s', hrefused, -⟩ | ⟨s', haccepted, -⟩
  · rw [hrefused] at hinsert
    cases hinsert
  · rw [haccepted] at hinsert
    cases hinsert
    exact Document.id?_set_idField d _

/-- A creation answers with what is shown of the document of the next id. -/
theorem create_eq_ok (he : svc.directory.get entity = .ok e) {input : Json}
    (hcreate : runOn (svc.create entity input req) w = (.ok d, w')) :
    svc.shown e (svc.capabilities.issueId w.stores.issued) req.caller w'.stores = .ok d := by
  rw [create_eq he] at hcreate
  obtain ⟨draft, hdraft, hcreate⟩ := Serving.look_bind_eq_ok_iff.mp hcreate
  obtain ⟨_, v, hbefore, hcreate⟩ := Serving.bind_eq_ok_iff.mp hcreate
  -- the hooks in front leave it open which id is the next one
  have hissued : v.stores.issued = w.stores.issued := by
    have hkeeps := (HooksKeep.issued svc w.stores.issued).runHooks entity .beforeCreate draft req w rfl
    rw [hbefore] at hkeeps
    exact hkeeps
  obtain ⟨h, -, hcreate⟩ := Serving.ofExcept_bind_eq_ok_iff.mp hcreate
  obtain ⟨stored, v', hinsert, hcreate⟩ := Serving.bind_eq_ok_iff.mp hcreate
  have hid := insert_eq_ok (congrArg Prod.fst hinsert)
  rw [hid, Handle.idFor, draft_id? hdraft, Option.getD_none, hissued] at hcreate
  exact showWritten_eq_ok hcreate

/-- An update answers with what is shown of its document. -/
theorem update_eq_ok (he : svc.directory.get entity = .ok e) {id : String} {input : Json}
    (hupdate : runOn (svc.update entity id input req) w = (.ok d, w')) :
    svc.shown e id req.caller w'.stores = .ok d := by
  rw [update_eq he] at hupdate
  obtain ⟨fields, -, hupdate⟩ := Serving.look_bind_eq_ok_iff.mp hupdate
  obtain ⟨existing, -, hupdate⟩ := Serving.look_bind_eq_ok_iff.mp hupdate
  obtain ⟨-, v, -, hupdate⟩ := Serving.bind_eq_ok_iff.mp hupdate
  obtain ⟨h, -, hupdate⟩ := Serving.ofExcept_bind_eq_ok_iff.mp hupdate
  obtain ⟨found, v, -, hupdate⟩ := Serving.bind_eq_ok_iff.mp hupdate
  cases found with
  | false => cases hupdate
  | true =>
      obtain ⟨updated, -, hupdate⟩ := Serving.look_bind_eq_ok_iff.mp hupdate
      exact showWritten_eq_ok hupdate

end Written

end Service

/-! ### Documents and their ids -/

section Ids

variable {e : Entity} {h : Handle} {s : Stores} {docs : List Document}

/-- The documents of an orderly collection have the ids that they are found under. -/
theorem Slot.Orderly.map_id? (ho : Slot.Orderly (h.slots s)) (hdocs : h.documents s = .ok docs) :
    docs.map Document.id? = ((h.slots s).filterMap Slot.key).map some := by
  have hread := Handle.documents_eq_ok_iff.mp hdocs
  have hslots : ∀ x ∈ h.slots s, ∃ d, x.doc = .ok d ∧ Document.id? d = x.key := by
    intro x hx
    obtain ⟨d, -, hd⟩ := List.mem_map.mp (hread ▸ List.mem_map_of_mem (f := Slot.doc) hx)
    exact ⟨d, hd.symm, (ho.named x hx d hd.symm).2⟩
  obtain ⟨docs', hdocs', hids⟩ := Slot.exists_docs hslots
  have hsame : docs' = docs :=
    List.map_injective_iff.mpr (fun _ _ => Except.ok.inj) (hdocs'.symm.trans hread)
  rw [← hsame, hids]
  have hkeys : ∀ x ∈ h.slots s, (x.key.map some) = some x.key := by
    intro x hx
    obtain ⟨id, hkey, -⟩ := ho.valid x hx
    rw [hkey]
    rfl
  rw [List.map_filterMap, List.filterMap_congr hkeys]
  exact congrFun List.filterMap_eq_map'.symm _

/-- A document of an orderly collection is loaded by its id. -/
theorem Slot.Orderly.load_of_mem (ho : Slot.Orderly (h.slots s)) (hstored : e.handle? = some h)
    (hdocs : h.documents s = .ok docs) {d : Document} (hd : d ∈ docs) :
    ∃ id, d.id? = some id ∧ e.load id s = .ok d := by
  have hmem : Except.ok d ∈ (h.slots s).map Slot.doc :=
    Handle.documents_eq_ok_iff.mp hdocs ▸ List.mem_map_of_mem hd
  obtain ⟨x, hx, hdoc⟩ := List.mem_map.mp hmem
  obtain ⟨id, hkey, hvalid⟩ := ho.valid x hx
  refine ⟨id, (ho.named x hx d hdoc).2.trans hkey, ?_⟩
  rw [Entity.load, if_pos hvalid, Entity.store_eq_ok_iff.mpr hstored, Outcome.ok_bind,
    Handle.findById?_of_mem ho.keys hx hkey, hdoc]
  rfl

/-- What is loaded by an id is the document of the collection that has it. -/
theorem Slot.Orderly.mem_of_load (ho : Slot.Orderly (h.slots s)) (hstored : e.handle? = some h)
    (hdocs : h.documents s = .ok docs) {id : String} {d : Document} (hload : e.load id s = .ok d) :
    d ∈ docs ∧ d.id? = some id := by
  obtain ⟨before, after, hslots, -⟩ :=
    Handle.exists_slot_of_found? (Entity.found?_of_load hstored hload)
  have hmem : (⟨some id, .ok d⟩ : Slot) ∈ h.slots s :=
    hslots ▸ List.mem_append_right _ List.mem_cons_self
  refine ⟨?_, (ho.named _ hmem d rfl).2⟩
  have hdoc := List.mem_map_of_mem (f := Slot.doc) hmem
  rw [Handle.documents_eq_ok_iff.mp hdocs] at hdoc
  obtain ⟨d', hd', heq⟩ := List.mem_map.mp hdoc
  exact Except.ok.inj heq ▸ hd'

/-- Documents that are loaded by their ids are shown as these are. -/
theorem exists_ids_shown {svc : Service} {caller : Option String} {ds shown : List Document}
    (hload : ∀ d ∈ ds, ∃ id, d.id? = some id ∧ e.load id s = .ok d)
    (hshown : List.Forall₂ (fun d one => svc.present e d caller s = .ok one) ds shown) :
    ∃ ids, ds.map Document.id? = ids.map some ∧
      List.Forall₂ (fun id one => svc.shown e id caller s = .ok one) ids shown := by
  induction hshown with
  | nil => exact ⟨[], rfl, .nil⟩
  | @cons d one ds shown hone _ ih =>
      obtain ⟨⟨id, hid, hd⟩, hload⟩ := List.forall_mem_cons.mp hload
      obtain ⟨ids, hids, hshown⟩ := ih hload
      refine ⟨id :: ids, ?_, .cons ?_ hshown⟩
      · rw [List.map_cons, List.map_cons, hid, hids]
      · rw [Service.shown, hd]
        exact hone

/-- A value that an id is compared with is that id, or the comparison fails. -/
theorem matchesFilter_id_iff {d : Document} {id : String} (hid : d.id? = some id) (x : Json) :
    d.matchesFilter [(idField, x)] = true ↔ x = .string id := by
  obtain ⟨v, hv, hstring⟩ := Option.bind_eq_some_iff.mp hid
  cases v with
  | string t =>
      obtain rfl : t = id := Option.some.inj hstring
      rw [Document.matchesFilter, List.all_cons, List.all_nil, Bool.and_true, Document.value, hv]
      cases x with
      | string u =>
          simp only [Option.getD_some, Json.agrees, Json.same, beq_iff_eq, Json.string.injEq]
          exact eq_comm
      | _ => simp [Json.agrees, Json.same]
  | _ => cases hstring

end Ids

namespace Service

/-! ### Finds and gets -/

/-- A find answers for the stored documents that match its query, each once and in the order of the
store: with what a get answers for their ids. -/
structure Lists (svc : Service) (entity : String) (e : Entity) (h : Handle) (req : Request) (w : World)
    (query : Document) (ids : List String) (shown : List Document) : Prop where
  matching : ∃ filter docs, queryFilter e req.caller query = .ok filter ∧
    h.documents w.stores = .ok docs ∧
    (docs.filter fun d => d.matchesFilter filter).map Document.id? = ids.map some
  once : ids.Nodup
  answers : List.Forall₂ (fun id d => runOn (svc.get entity id req) w = (.ok d, w)) ids shown

namespace Unwatched

variable {svc : Service} {entity : String} {e : Entity} {h : Handle} {req : Request} {w w' : World}
  {shown : List Document}

theorem exists_lists (hu : svc.Unwatched entity e h) (ho : Slot.Orderly (h.slots w.stores))
    (hallowed : e.ensureAllowed .get req.caller = .ok ()) {query : Document}
    (hfind : runOn (svc.find entity query req) w = (.ok shown, w')) :
    ∃ ids, svc.Lists entity e h req w query ids shown := by
  obtain ⟨filter, docs, hfilter, hdocs, hshown⟩ := hu.find_eq_ok hfind
  obtain ⟨ids, hids, hanswers⟩ := exists_ids_shown
    (fun d hd => ho.load_of_mem hu.stored hdocs (List.mem_filter.mp hd).1) hshown
  have honce : (ids.map some).Nodup := by
    rw [← hids]
    refine List.Nodup.sublist (List.filter_sublist.map _) ?_
    rw [ho.map_id? hdocs]
    exact ho.keys.map (Option.some_injective _)
  refine ⟨ids, ⟨filter, docs, hfilter, hdocs, hids⟩, honce.of_map _, hanswers.imp ?_⟩
  intro id d hd
  rw [hu.runOn_get hallowed, hd]

/-- A find of everything lists every document once. -/
theorem exists_lists_all (hu : svc.Unwatched entity e h) (ho : Slot.Orderly (h.slots w.stores))
    (hallowed : e.ensureAllowed .get req.caller = .ok ())
    (hfind : runOn (svc.find entity [] req) w = (.ok shown, w')) :
    ∃ docs ids, h.documents w.stores = .ok docs ∧ docs.map Document.id? = ids.map some ∧ ids.Nodup ∧
      List.Forall₂ (fun id d => runOn (svc.get entity id req) w = (.ok d, w)) ids shown := by
  obtain ⟨ids, ⟨filter, docs, hfilter, hdocs, hids⟩, honce, hanswers⟩ :=
    hu.exists_lists ho hallowed hfind
  cases hfilter
  have hall : docs.filter (fun d => d.matchesFilter []) = docs := List.filter_true docs
  rw [hall] at hids
  exact ⟨docs, ids, hdocs, hids, honce, hanswers⟩

end Unwatched

theorem queryFilter_singleton {e : Entity} {caller : Option String} {name : String} {v : Json}
    {filter : Document} (h : queryFilter e caller [(name, v)] = .ok filter) :
    ∃ a x, e.attribute? name = some a ∧ a.convert v = .ok x ∧ filter = [(name, x)] := by
  rw [queryFilter] at h
  split at h
  · cases h
  · rename_i a ha
    split at h
    · split at h
      · cases h
      · rename_i x hx
        cases h
        exact ⟨a, x, ha, hx, rfl⟩
    · cases h

namespace Unwatched

variable {svc : Service} {entity : String} {e : Entity} {h : Handle} {req : Request} {w w' : World}
  {shown : List Document}

/-- A document that a get shows is among those that match its id. -/
theorem exists_matching_of_get (hu : svc.Unwatched entity e h) (ho : Slot.Orderly (h.slots w.stores))
    (hallowed : e.ensureAllowed .get req.caller = .ok ()) {docs : List Document}
    (hdocs : h.documents w.stores = .ok docs) {id : String} {d : Document}
    (hget : (runOn (svc.get entity id req) w).1 = .ok d) :
    ∃ stored, stored ∈ docs.filter fun d => d.matchesFilter [(idField, .string id)] := by
  rw [hu.runOn_get hallowed] at hget
  obtain ⟨stored, hload, -⟩ := Outcome.bind_eq_ok_iff.mp hget
  obtain ⟨hmem, hid⟩ := ho.mem_of_load hu.stored hdocs hload
  exact ⟨stored, List.mem_filter.mpr ⟨hmem, (matchesFilter_id_iff hid _).mpr rfl⟩⟩

/-- A find by the id shows what a get of the text that it is converted to shows, and nothing if there is
no such document. -/
theorem find_id_eq (hu : svc.Unwatched entity e h) (ho : Slot.Orderly (h.slots w.stores))
    (hallowed : e.ensureAllowed .get req.caller = .ok ()) {v : Json}
    (hfind : runOn (svc.find entity [(idField, v)] req) w = (.ok shown, w')) :
    ∃ a x, e.attribute? idField = some a ∧ a.convert v = .ok x ∧
      shown = (x.string?.bind fun id => (runOn (svc.get entity id req) w).1.toOption).toList := by
  obtain ⟨ids, ⟨filter, docs, hfilter, hdocs, hids⟩, honce, hanswers⟩ :=
    hu.exists_lists ho hallowed hfind
  obtain ⟨a, x, ha, hx, rfl⟩ := queryFilter_singleton hfilter
  refine ⟨a, x, ha, hx, ?_⟩
  have hmatches : ∀ id ∈ ids, x = .string id := by
    intro id hid
    obtain ⟨d, hd, hdid⟩ := List.mem_map.mp (hids ▸ List.mem_map_of_mem (f := some) hid)
    exact (matchesFilter_id_iff hdid x).mp (List.mem_filter.mp hd).2
  cases ids with
  | nil =>
      cases hanswers
      have hnone : ∀ id d, x = .string id → (runOn (svc.get entity id req) w).1 ≠ .ok d := by
        rintro id d rfl hget
        obtain ⟨stored, hmatch⟩ := hu.exists_matching_of_get ho hallowed hdocs hget
        rw [List.map_eq_nil_iff.mp hids] at hmatch
        cases hmatch
      cases x with
      | string id =>
          cases hget : (runOn (svc.get entity id req) w).1 with
          | error f => simp [Json.string?, hget, Except.toOption]
          | ok d => exact absurd hget (hnone id d rfl)
      | _ => rfl
  | cons id ids =>
      obtain rfl := hmatches id List.mem_cons_self
      have halone : ids = [] := by
        refine List.eq_nil_iff_forall_not_mem.mpr fun other hother => ?_
        obtain rfl := Json.string.inj (hmatches other (List.mem_cons_of_mem _ hother))
        exact (List.nodup_cons.mp honce).1 hother
      subst halone
      cases hanswers with
      | cons hget hrest =>
          cases hrest
          simp [Json.string?, hget, Except.toOption]

end Unwatched

/-- A get shows the id of its document to a caller who may read ids, unless a join takes the name. -/
theorem Unwatched.id?_of_get {svc : Service} {entity : String} {e : Entity} {h : Handle} {req : Request}
    {w : World} (hu : svc.Unwatched entity e h) (ho : Slot.Orderly (h.slots w.stores))
    (hallowed : e.ensureAllowed .get req.caller = .ok ()) {id : String} {d : Document}
    (hget : runOn (svc.get entity id req) w = (.ok d, w)) (hshows : e.shows req.caller idField = true)
    (hjoins : idField ∉ Dict.names e.definition.joins.entries) : d.id? = some id := by
  rw [hu.runOn_get hallowed] at hget
  obtain ⟨stored, hload, hpresent⟩ := Outcome.bind_eq_ok_iff.mp (Prod.mk.inj hget).1
  obtain ⟨before, after, hslots, -⟩ :=
    Handle.exists_slot_of_found? (Entity.found?_of_load hu.stored hload)
  have hid : stored.id? = some id :=
    (ho.named _ (hslots ▸ List.mem_append_right _ List.mem_cons_self) stored rfl).2
  rw [Document.id?, addJoins_get?_of_not_mem hpresent hjoins, Entity.visible,
    Dict.get?_filter (e.shows req.caller), if_pos hshows]
  exact hid

/-- What a caller reads of an entity in some world, by gets, by finds, and in the answers to writes. -/
structure ReadsAgree (svc : Service) (entity : String) (e : Entity) (h : Handle)
    (caller : Option String) (w : World) : Prop where
  /-- A get of the document that a creation made shows what the creation answered. -/
  created : ∀ input req d w', req.caller = caller →
    runOn (svc.create entity input req) w = (.ok d, w') → ∀ again : Request, again.caller = caller →
      runOn (svc.get entity (svc.capabilities.issueId w.stores.issued) again) w' = (.ok d, w')
  /-- A get of a document that was updated shows what the update answered. -/
  updated : ∀ id input req d w', req.caller = caller →
    runOn (svc.update entity id input req) w = (.ok d, w') → ∀ again : Request, again.caller = caller →
      runOn (svc.get entity id again) w' = (.ok d, w')
  /-- A find shows what gets of the matching documents show. -/
  found : ∀ query req shown w', req.caller = caller →
    runOn (svc.find entity query req) w = (.ok shown, w') →
      ∃ ids, svc.Lists entity e h req w query ids shown
  /-- A find of everything lists every document once. -/
  listed : ∀ req shown w', req.caller = caller →
    runOn (svc.find entity [] req) w = (.ok shown, w') →
      ∃ docs ids, h.documents w.stores = .ok docs ∧ docs.map Document.id? = ids.map some ∧ ids.Nodup ∧
        List.Forall₂ (fun id d => runOn (svc.get entity id req) w = (.ok d, w)) ids shown
  /-- A find by the id shows what a get of it shows, if that shows something. -/
  byId : ∀ v req shown w', req.caller = caller →
    runOn (svc.find entity [(idField, v)] req) w = (.ok shown, w') →
      ∃ a x, e.attribute? idField = some a ∧ a.convert v = .ok x ∧
        shown = (x.string?.bind fun id => (runOn (svc.get entity id req) w).1.toOption).toList
  /-- What a get shows is the document of the id, as far as the caller is told of ids. -/
  ownId : ∀ id req d, req.caller = caller → runOn (svc.get entity id req) w = (.ok d, w) →
    e.shows caller idField = true → idField ∉ Dict.names e.definition.joins.entries → d.id? = some id

/--
**Reads agree.**  In every world that calls on the entities of a service come to, whatever hooks run
around the writes as long as none aims at an id, a caller who may get documents of an entity reads the
same of a document in every way.
-/
theorem reads_agree {svc : Service} {entity : String} {e : Entity} {h : Handle}
    (hu : svc.Unwatched entity e h) (hs : svc.Supplied h) (hspares : svc.SparesIds) {w : World}
    (hw : svc.Reached h w) {caller : Option String}
    (hallowed : e.ensureAllowed .get caller = .ok ()) : svc.ReadsAgree entity e h caller w := by
  have ho : Slot.Orderly (h.slots w.stores) := (hs.lasting hspares).reached .nil hw
  constructor
  · rintro input req d w' rfl hcreate again hsame
    rw [hu.runOn_get (hsame ▸ hallowed), hsame, create_eq_ok hu.registered hcreate]
  · rintro id input req d w' rfl hupdate again hsame
    rw [hu.runOn_get (hsame ▸ hallowed), hsame, update_eq_ok hu.registered hupdate]
  · rintro query req shown w' rfl hfind
    exact hu.exists_lists ho hallowed hfind
  · rintro req shown w' rfl hfind
    exact hu.exists_lists_all ho hallowed hfind
  · rintro v req shown w' rfl hfind
    exact hu.find_id_eq ho hallowed hfind
  · rintro id req d rfl hget hshows hjoins
    exact hu.id?_of_get ho hallowed hget hshows hjoins

/-! ### Memos that count -/

/-- Memos in a table, each shown with all memos.  A hook counts one up as soon as it is stored. -/
private def memos : Entity :=
  ⟨{ Definition.ofNames "memos" "memos" with
      permissions := some (.uniform (.one .anyone))
      attributes := ((NameMap.empty.insert "count" (.ofKind (.number none none))).insert "id"
        (.ofKind .id)).insert "text" (.ofKind (.string none none))
      joins := NameMap.empty.insert "all" ⟨.findMany, "memos", []⟩
      hooks := fun l =>
        if l = .afterCreate then some [⟨none, .increment, "this.count", .ofNat 1⟩] else none },
    some ⟨.table, "memos", []⟩⟩

private def memoService : Service :=
  ⟨⟨fun t _ => .ok t, fun n => String.ofList (List.replicate n 'x'),
      fun n => if n = 0 then "1001" else "1002", Document.reread⟩,
    ⟨[("memos", memos)]⟩, fun _ _ => none⟩

private def memoTable : Handle := ⟨.table, "memos", []⟩

private def noMemos : World := ⟨Stores.empty, []⟩

private def jotting (text : String) : Call := .create (.object [("text", .string text)])

private def jotter : Request := ⟨none, none, 0⟩

/-- The world with one memo. -/
private def jotted : World := (runOn (memoService.serve "memos" (jotting "milk") jotter) noMemos).2

private theorem memos_unwatched : memoService.Unwatched "memos" memos memoTable where
  registered := rfl
  stored := rfl
  noHooks := ⟨rfl, rfl⟩
  noCode := ⟨rfl, rfl⟩

private theorem memos_supplied : memoService.Supplied memoTable where
  ids := by
    intro n
    show isValidId (if n = 0 then "1001" else "1002") = true
    split <;> decide
  legible := fun _ => Capabilities.legible_of_reread rfl

private theorem memos_sparesIds : memoService.SparesIds := by
  intro entity e he l hook hhook
  have hmemos : memos = e := by
    by_cases hname : "memos" = entity
    · subst hname
      exact Except.ok.inj he
    · simp [memoService, Directory.get, Dict.get?_cons, hname] at he
  subst hmemos
  have hone : hook = ⟨none, .increment, "this.count", .ofNat 1⟩ := by
    have hcases : l = .afterCreate ∨ memos.definition.hooksAt l = [] := by
      cases l
      all_goals first | exact Or.inl rfl | exact Or.inr rfl
    rcases hcases with rfl | hnone
    · exact List.mem_singleton.mp hhook
    · rw [hnone] at hhook
      cases hhook
  rw [hone]
  decide

theorem reads_agree_memos :
    memoService.Unwatched "memos" memos memoTable ∧ memoService.Reached memoTable jotted ∧
    memoService.ReadsAgree "memos" memos memoTable none jotted ∧
    ((runOn (memoService.create "memos" (.object [("text", .string "tea")]) jotter) jotted).1.toOption.map
      fun d => (d.id?, (d.get? "count").bind Json.double?)) = some (some "1002", some (Double.ofInt 1)) := by
  have hreached : memoService.Reached memoTable jotted :=
    .call (.start rfl) "memos" (jotting "milk") jotter
  exact ⟨memos_unwatched, hreached,
    reads_agree memos_unwatched memos_supplied memos_sparesIds hreached rfl, by decide +kernel⟩

end Service

end Curator
