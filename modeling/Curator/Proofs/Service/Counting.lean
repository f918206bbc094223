/-
A count that hooks keep is right after every call.

A call on the counted entity is a write to its own collection and then the run of one hook
(`Service.Counts.stores_create`, `Service.Counts.stores_delete`), whatever it is answered; and a call on
the keepers is one insertion.  `Service.Tallies` is what holds between calls.  It has to say more than
that the counts are right: that no reference leads to an id that is not there, or a keeper could be
created with documents counted that it knows nothing of; and that the keepers stand apart in their unique
fields, or a table would refuse the hook.  `Tallies.of_hook` is the step of both calls that count, and
`Tallies.of_born` the step of the one that creates a keeper.

In memory nothing more is needed.  A table keeps documents as text and compares a unique number with
what another keeper is read back with, not with what that one was written with; so two keepers can come to
hold the same.  Then the table refuses the hook, the document that it should have counted is stored
already, and the count has fallen behind.  So there the counts are right as long as the documents that
are written are read back with the fields that counting needs.
-/
import Curator.Proofs.Coercion.Projection
import Curator.Proofs.Counter
import Curator.Proofs.Service.Storing

namespace Curator

open Serving (runOn runOn_bind KeepsStores)

/-! ### What calls do to the stores -/

namespace Service

/-- A lifecycle point with one hook is the run of that hook. -/
theorem runOn_runHooks_of_one {svc : Service} {entity : String} {e : Entity} {l : Lifecycle}
    {h : Hook} (registered : svc.directory.get entity = .ok e) (hook : e.definition.hooksAt l = [h])
    (noCode : svc.codeHook? entity l = none) (d : Document) (req : Request) (w : World) :
    runOn (svc.runHooks entity l d req) w =
      ((svc.hookEvent entity d req h w.stores).answer,
        ⟨(svc.hookEvent entity d req h w.stores).after, w.calls⟩) := by
  rw [Service.runHooks, registered, Serving.ofExcept_ok_bind, hook, runDeclared, runDeclared,
    runCode, noCode]
  simp only [runOn_bind, runOn_runHook, Serving.runOn_pure]
  cases (svc.hookEvent entity d req h w.stores).answer <;> rfl

/-- What only looks at the stores after such a point leaves what the hook left. -/
theorem stores_runHooks_bind_of_one {α : Type} {svc : Service} {entity : String} {e : Entity}
    {l : Lifecycle} {h : Hook} (registered : svc.directory.get entity = .ok e)
    (hook : e.definition.hooksAt l = [h]) (noCode : svc.codeHook? entity l = none)
    {k : Unit → Serving α} (hk : ∀ u, KeepsStores (k u)) (d : Document) (req : Request) (w : World) :
    (runOn (svc.runHooks entity l d req >>= k) w).2.stores =
      (svc.hookEvent entity d req h w.stores).after := by
  rw [runOn_bind, runOn_runHooks_of_one registered hook noCode]
  cases (svc.hookEvent entity d req h w.stores).answer with
  | error f => rfl
  | ok u => exact hk u _

/-- The hook that a call on the counted entity ran, if it came to that. -/
def hookRun (svc : Service) (ct : Counter) (ev : Event) : Option HookEvent :=
  match ev.call with
  | .create input =>
    match svc.draft ct.counted.entity input ev.request ev.before with
    | .error _ => none
    | .ok d =>
      match ct.counted.handle.insert svc.capabilities d ev.before with
      | (.error _, _) => none
      | (.ok stored, s) => some (svc.hookEvent ct.counted.name stored ev.request ct.up s)
  | .delete id =>
    match doomed ct.counted.entity id ev.request ev.before with
    | .error _ => none
    | .ok d =>
      match ct.counted.handle.delete id ev.before with
      | (false, _) => none
      | (true, s) => some (svc.hookEvent ct.counted.name d ev.request ct.down s)
  | _ => none

namespace Counts

variable {svc : Service} {ct : Counter}

theorem passes (hc : svc.Counts ct) {l : Lifecycle} (hup : l ≠ .afterCreate)
    (hdown : l ≠ .afterDelete) (d : Document) (req : Request) (w : World) :
    runOn (svc.runHooks ct.counted.name l d req) w = (.ok (), w) :=
  runOn_runHooks_of_none hc.counted (hc.noHooks l hup hdown) (hc.noCode l) d req w

/-- A creation is an insertion and then the hook, whatever is answered. -/
theorem stores_create (hc : svc.Counts ct) (input : Json) (req : Request) (w : World) :
    (runOn (svc.create ct.counted.name input req) w).2.stores =
      match svc.draft ct.counted.entity input req w.stores with
      | .error _ => w.stores
      | .ok d =>
        match ct.counted.handle.insert svc.capabilities d w.stores with
        | (.error _, s) => s
        | (.ok stored, s) => (svc.hookEvent ct.counted.name stored req ct.up s).after := by
  have hpass := hc.passes (l := .beforeCreate) nofun nofun
  have hstore : ct.counted.entity.store = .ok ct.counted.handle :=
    Entity.store_eq_ok_iff.mpr hc.countedStore
  rw [create_eq hc.counted, runOn_bind, Serving.runOn_look]
  cases svc.draft ct.counted.entity input req w.stores with
  | error f => rfl
  | ok d =>
      simp only [storeDraft, runOn_bind, hpass, hstore, Serving.runOn_ofExcept,
        Serving.runOn_onStores]
      rcases ct.counted.handle.insert_cases svc.capabilities d w.stores with
        ⟨f, s, hinsert, -⟩ | ⟨s, hinsert, -⟩
      · rw [hinsert]
      · rw [hinsert]
        dsimp only
        rw [Document.id?_set_idField]
        exact stores_runHooks_bind_of_one hc.counted hc.ups (hc.noCode _)
          (fun _ => (Serving.keepsStores_look _).bind fun _ => Serving.keepsStores_look _) _ req _

/-- A deletion takes the document out and then runs the hook. -/
theorem stores_delete (hc : svc.Counts ct) (id : String) (req : Request) (w : World) :
    (runOn (svc.delete ct.counted.name id req) w).2.stores =
      match doomed ct.counted.entity id req w.stores with
      | .error _ => w.stores
      | .ok d =>
        match ct.counted.handle.delete id w.stores with
        | (false, s) => s
        | (true, s) => (svc.hookEvent ct.counted.name d req ct.down s).after := by
  have hpass := hc.passes (l := .beforeDelete) nofun nofun
  have hstore : ct.counted.entity.store = .ok ct.counted.handle :=
    Entity.store_eq_ok_iff.mpr hc.countedStore
  rw [delete_eq hc.counted, runOn_bind, Serving.runOn_look]
  cases doomed ct.counted.entity id req w.stores with
  | error f => rfl
  | ok d =>
      simp only [takeOut, runOn_bind, hpass, hstore, Serving.runOn_ofExcept,
        Serving.runOn_onStores]
      rcases ct.counted.handle.delete id w.stores with ⟨_ | _, s⟩
      · rfl
      · simp only [if_true]
        exact stores_runHooks_bind_of_one hc.counted hc.downs (hc.noCode _)
          (fun _ => Serving.keepsStores_pure _) d req _

/-- A creation of a keeper is an insertion. -/
theorem stores_create_keeper (hc : svc.Counts ct) (input : Json) (req : Request) (w : World) :
    (runOn (svc.create ct.keeper.name input req) w).2.stores =
      match svc.draft ct.keeper.entity input req w.stores with
      | .error _ => w.stores
      | .ok d => (ct.keeper.handle.insert svc.capabilities d w.stores).2 := by
  rw [hc.keeper.runOn_create, Entity.store_eq_ok_iff.mpr hc.keeperStore]
  cases svc.draft ct.keeper.entity input req w.stores with
  | error f => rfl
  | ok d =>
      dsimp only
      rcases ct.keeper.handle.insert svc.capabilities d w.stores with ⟨f | stored, s⟩
      · rfl
      · dsimp only
        cases Document.id? stored <;> rfl

theorem ne_reference_of_isManaged (hc : svc.Counts ct) {name : String} (hname : isManaged name = true) :
    name ≠ ct.reference := by
  rintro rfl
  rw [hc.referenceGiven] at hname
  cases hname

/-- A created document refers to nothing or to a keeper that is there. -/
theorem refersIn_of_draft (hc : svc.Counts ct) {input : Json} {req : Request} {s : Stores}
    {ts : Dict Document} (hs : ct.keeper.handle.Holds s ts) {d : Document}
    (hdraft : svc.draft ct.counted.entity input req s = .ok d) : ct.RefersIn ts.names d := by
  obtain ⟨a, ha, hkind, hdefault⟩ := hc.reference
  obtain ⟨kind, required, _, default, _⟩ := a
  obtain rfl : kind = .ref ct.keeper.name := hkind
  obtain rfl : default = none := hdefault
  have hother : ¬ (ct.reference = createdAtField ∨ ct.reference = updatedAtField) := by
    rintro (hname | hname)
    · exact hc.ne_reference_of_isManaged rfl hname.symm
    · exact hc.ne_reference_of_isManaged rfl hname.symm
  unfold Counter.RefersIn
  rw [draft_get? hdraft, created, if_neg hother, hc.referenceGiven, if_neg Bool.false_ne_true, ha,
    Option.bind_some, Attribute.value?, Attribute.coerce]
  cases hraw : (Dict.get? (ct.counted.entity.accepted .create req.caller input)
      ct.reference).filter fun v => !v.isNull with
  | none =>
      refine Or.inl ?_
      rw [Kind.coerce]
      cases required <;> rfl
  | some v =>
      rw [Kind.coerce]
      cases hcoerce : coerceRef (svc.surroundings req.caller false s) ct.reference ct.keeper.name v with
      | error f => exact Or.inl rfl
      | ok w =>
          obtain ⟨id, -, hvalid, hdoc, rfl⟩ := coerceRef_eq_ok_iff.mp hcoerce
          obtain ⟨e, handle, found, he, hhandle, hfound⟩ :=
            (Surroundings.hasDocument_iff hvalid).mp hdoc
          obtain rfl := Except.ok.inj (hc.keeper.registered.symm.trans he)
          rw [Entity.store_eq_ok_iff.mpr hc.keeperStore] at hhandle
          obtain rfl := Except.ok.inj hhandle
          refine Or.inr ⟨id, ?_, rfl⟩
          have hget := Except.ok.inj ((hs.findById? id).symm.trans hfound)
          exact Dict.mem_names_of_mem (Dict.mem_of_get?_eq_some hget)

end Counts

end Service

/-! ### Runs -/

namespace Service

/-- The runs of creations and deletions on the counted entity and creations of keepers, from empty
collections, with the calls made so far and the entities that they were made on. -/
inductive CountRun (svc : Service) (ct : Counter) : List (String × Event) → World → Prop
  | start {w : World} (counted : ct.counted.handle.entries w.stores = [])
      (keeper : ct.keeper.handle.entries w.stores = []) : CountRun svc ct [] w
  | creates {past : List (String × Event)} {w : World} (run : CountRun svc ct past w) (input : Json)
      (req : Request) :
      CountRun svc ct ((ct.counted.name, svc.event ct.counted.name (.create input) req w) :: past)
        (runOn (svc.serve ct.counted.name (.create input) req) w).2
  | deletes {past : List (String × Event)} {w : World} (run : CountRun svc ct past w) (id : String)
      (req : Request) :
      CountRun svc ct ((ct.counted.name, svc.event ct.counted.name (.delete id) req w) :: past)
        (runOn (svc.serve ct.counted.name (.delete id) req) w).2
  | keeps {past : List (String × Event)} {w : World} (run : CountRun svc ct past w) (input : Json)
      (req : Request) :
      CountRun svc ct ((ct.keeper.name, svc.event ct.keeper.name (.create input) req w) :: past)
        (runOn (svc.serve ct.keeper.name (.create input) req) w).2
  /-- Anything else happens, to anything but the two collections. -/
  | elsewhere {past : List (String × Event)} {w w' : World} (run : CountRun svc ct past w)
      (counted : ct.counted.handle.slots w'.stores = ct.counted.handle.slots w.stores)
      (keeper : ct.keeper.handle.slots w'.stores = ct.keeper.handle.slots w.stores) :
      CountRun svc ct past w'

/-- The keepers as they were created, in order. -/
def born (svc : Service) (ct : Counter) : List (String × Event) → Dict Document
  | [] => []
  | (name, ev) :: past =>
    born svc ct past ++
      if name = ct.keeper.name then
        (svc.written ct.keeper.entity ct.keeper.handle ev).toList
      else []

/-- Everything that a call wrote is found again with the same in the fields that counting needs. -/
structure CountsReadBack (svc : Service) (ct : Counter) (name : String) (ev : Event) : Prop where
  keeper : name = ct.keeper.name → ∀ id d,
    svc.written ct.keeper.entity ct.keeper.handle ev = some (id, d) →
      ct.keeper.handle.KeepsFields svc.capabilities ct.keeperFields d
  counted : name = ct.counted.name → ∀ id d,
    svc.written ct.counted.entity ct.counted.handle ev = some (id, d) →
      ct.counted.handle.KeepsFields svc.capabilities ct.countedFields d
  hook : name = ct.counted.name → ∀ ran, svc.hookRun ct ev = some ran →
    ran.KeepsFields svc.capabilities ct.keeperFields

end Service

namespace Counter

/-- Before and after every call the numbers of a keeper were in range. -/
def Steady (ct : Counter) (id : String) (start : Int) (past : List (String × Event)) : Prop :=
  ∀ p ∈ past, ct.InRange id start (ct.counted.handle.held p.2.before) ∧
    ct.InRange id start (ct.counted.handle.held p.2.after)

instance (ct : Counter) (id : String) (start : Int) (past : List (String × Event)) :
    Decidable (ct.Steady id start past) :=
  inferInstanceAs (Decidable (∀ p ∈ past, _ ∧ _))

end Counter

namespace Service

/-- The invariant of runs: every reference leads to a keeper, and every keeper that was in range holds
what it was created with and what the documents count that refer to it. -/
structure Tallies (svc : Service) (ct : Counter) (past : List (String × Event)) (s : Stores)
    (cs ts : Dict Document) : Prop where
  counted : ct.counted.handle.Holds s cs
  keeper : ct.keeper.handle.Holds s ts
  separate : ct.keeper.handle.Separate ts
  names : ts.names = (svc.born ct past).names
  refers : ∀ p ∈ cs, ct.RefersIn ts.names p.2
  tally : ∀ p ∈ ts, ∀ b a, (svc.born ct past).get? p.1 = some b → ct.amount? b = some a →
    ct.Steady p.1 a past →
      ct.amount? p.2 = some (a + ct.step * ct.count p.1 (cs.map (·.2)))

end Service

/-! ### What each call keeps -/

namespace Service

theorem Counts.names_ne {svc : Service} {ct : Counter} (hc : svc.Counts ct) :
    ct.counted.name ≠ ct.keeper.name := by
  intro hsame
  have hentity : ct.counted.entity = ct.keeper.entity :=
    Except.ok.inj (hc.counted.symm.trans (hsame ▸ hc.keeper.registered))
  have hhandle : ct.counted.handle = ct.keeper.handle :=
    Option.some.inj (hc.countedStore.symm.trans (hentity ▸ hc.keeperStore))
  exact hc.apart ⟨hhandle ▸ rfl, hhandle ▸ rfl⟩

theorem Counts.apart_symm {svc : Service} {ct : Counter} (hc : svc.Counts ct) :
    ¬ ct.keeper.handle.SameCollection ct.counted.handle :=
  fun hsame => hc.apart ⟨hsame.backing.symm, hsame.collection.symm⟩

namespace Tallies

variable {svc : Service} {ct : Counter} {past : List (String × Event)} {s s' : Stores}
  {cs ts : Dict Document}

theorem held_counted (ht : svc.Tallies ct past s cs ts) :
    ct.counted.handle.held s = cs.map (·.2) :=
  Handle.held_eq_of_documents ht.counted.documents

theorem of_slots (ht : svc.Tallies ct past s cs ts)
    (counted : ct.counted.handle.slots s' = ct.counted.handle.slots s)
    (keeper : ct.keeper.handle.slots s' = ct.keeper.handle.slots s) :
    svc.Tallies ct past s' cs ts :=
  { ht with
    counted := ht.counted.of_slots counted
    keeper := ht.keeper.of_slots keeper }

/-- A call that created no keeper and wrote nothing. -/
theorem quiet {p : String × Event} (ht : svc.Tallies ct past s cs ts)
    (hborn : svc.born ct (p :: past) = svc.born ct past)
    (counted : ct.counted.handle.slots s' = ct.counted.handle.slots s)
    (keeper : ct.keeper.handle.slots s' = ct.keeper.handle.slots s) :
    svc.Tallies ct (p :: past) s' cs ts :=
  { counted := ht.counted.of_slots counted
    keeper := ht.keeper.of_slots keeper
    separate := ht.separate
    names := hborn ▸ ht.names
    refers := ht.refers
    tally := fun q hq b a hb ha hsteady =>
      ht.tally q hq b a (hborn ▸ hb) ha fun ev hev => hsteady ev (List.mem_cons_of_mem p hev) }

/-- A call that created a keeper, to which nothing referred before it was there. -/
theorem of_born {p : String × Event} (ht : svc.Tallies ct past s cs ts) {id : String}
    {b k : Document} (hborn : svc.born ct (p :: past) = svc.born ct past ++ [(id, b)])
    (counted : ct.counted.handle.slots s' = ct.counted.handle.slots s)
    (keeper : ct.keeper.handle.Holds s' (ts ++ [(id, k)]))
    (separate : ct.keeper.handle.Separate (ts ++ [(id, k)])) (hfresh : id ∉ ts.names)
    (hfield : k.get? ct.field = b.get? ct.field) :
    svc.Tallies ct (p :: past) s' cs (ts ++ [(id, k)]) := by
  refine ⟨ht.counted.of_slots counted, keeper, separate, ?_, ?_, ?_⟩
  · rw [hborn, Dict.names_append, Dict.names_append, ht.names]
    rfl
  · intro q hq
    refine (ht.refers q hq).mono ?_
    rw [Dict.names_append]
    exact List.subset_append_left _ _
  · intro q hq b' a hb' ha hsteady
    rw [hborn, Dict.get?_append] at hb'
    rcases List.mem_append.mp hq with hq | hq
    · obtain ⟨old, hold⟩ := Option.ne_none_iff_exists'.mp fun hnone =>
        (Dict.get?_eq_none_iff _ _).mp hnone (ht.names ▸ Dict.mem_names_of_mem hq)
      rw [hold, Option.some_or] at hb'
      exact ht.tally q hq b' a (hold.trans hb') ha
        fun ev hev => hsteady ev (List.mem_cons_of_mem p hev)
    · obtain rfl := List.mem_singleton.mp hq
      have hzero : ct.count id (cs.map (·.2)) = 0 := by
        refine Counter.count_eq_zero (fun d hd => ?_) hfresh
        obtain ⟨r, hr, rfl⟩ := List.mem_map.mp hd
        exact ht.refers r hr
      rw [(Dict.get?_eq_none_iff _ _).mpr (ht.names ▸ hfresh), Option.none_or, Dict.get?_cons,
        if_pos rfl] at hb'
      rw [← Option.some.inj hb'] at ha
      rw [Counter.amount?_congr hfield, ha, hzero, Nat.cast_zero, mul_zero, add_zero]

theorem born_of_counted (hc : svc.Counts ct) (ev : Event) (past : List (String × Event)) :
    svc.born ct ((ct.counted.name, ev) :: past) = svc.born ct past := by
  rw [born, if_neg hc.names_ne, List.append_nil]

section Calls

variable (hc : svc.Counts ct)
  (hcodec : ct.keeper.handle.backing = .table →
    ∀ d k, svc.capabilities.codec d = .ok k → Document.Settled k)

include hc hcodec

/-- A call that wrote to the counted collection and then ran the hook with the number that the document
counts. -/
theorem of_hook {ev : Event} (ht : svc.Tallies ct past ev.before cs ts) {cs' : Dict Document}
    (hcs' : ct.counted.handle.Holds s cs')
    (hsame : ct.keeper.handle.slots s = ct.keeper.handle.slots ev.before)
    (hrefers : ∀ p ∈ cs', ct.RefersIn ts.names p.2) {model : Document}
    (href : ct.RefersIn ts.names model) {n : Int} {h : Hook} (hadds : ct.Adds n h)
    (hcount : ∀ id, ct.step * ct.count id (cs'.map (·.2)) =
      ct.step * ct.count id (cs.map (·.2)) + if ct.referred? model = some id then n else 0)
    (hbound : ∀ id, ct.referred? model = some id →
      |n| ≤ |ct.step * ct.count id (cs.map (·.2))| ∨
        |n| ≤ |ct.step * ct.count id (cs'.map (·.2))|)
    {req : Request} {ran : HookEvent}
    (hran : ran = svc.hookEvent ct.counted.name model req h s)
    (hkeeps : ran.KeepsFields svc.capabilities ct.keeperFields) (hafter : ev.after = ran.after) :
    ∃ ts', svc.Tallies ct ((ct.counted.name, ev) :: past) ev.after cs' ts' := by
  obtain ⟨hother, ts', hts', hsep', hcredits⟩ := hadds.credits hc (ht.keeper.of_slots hsame)
    ht.separate hcodec href hran hkeeps
  rw [← hafter] at hother hts'
  have hheld : ct.counted.handle.Holds ev.after cs' := hcs'.of_slots (hother _ hc.apart_symm)
  refine ⟨ts', hheld, hts', hsep', ?_, ?_, ?_⟩
  · rw [born_of_counted hc, hcredits.names, ht.names]
  · rw [hcredits.names]
    exact hrefers
  · intro p hp b a hb ha hsteady
    rw [born_of_counted hc] at hb
    obtain ⟨d, hd, hgains⟩ := hcredits.gains p hp
    obtain ⟨⟨htotal, hsum⟩, htotal', hsum'⟩ := hsteady _ List.mem_cons_self
    rw [ht.held_counted] at htotal hsum
    rw [Handle.held_eq_of_documents hheld.documents] at htotal' hsum'
    have hamount := ht.tally (p.1, d) (Dict.mem_of_get?_eq_some hd) b a hb ha
      fun q hq => hsteady q (List.mem_cons_of_mem _ hq)
    rw [hcount p.1] at htotal' hsum' ⊢
    split at hgains
    · rename_i hreferred
      rw [if_pos hreferred, ← add_assoc] at hsum' ⊢
      have hn : |n| ≤ 2 ^ 53 := by
        rcases hbound p.1 hreferred with hn | hn
        · exact hn.trans htotal
        · rw [hcount p.1] at hn
          exact hn.trans htotal'
      exact hgains _ hamount hn hsum hsum'
    · rename_i hreferred
      rw [if_neg hreferred, add_zero, hgains]
      exact hamount

theorem create {ev : Event} (ht : svc.Tallies ct past ev.before cs ts) {input : Json}
    (hcall : ev.call = .create input)
    (hafter : ev.after =
      match svc.draft ct.counted.entity input ev.request ev.before with
      | .error _ => ev.before
      | .ok d =>
        match ct.counted.handle.insert svc.capabilities d ev.before with
        | (.error _, s) => s
        | (.ok stored, s) => (svc.hookEvent ct.counted.name stored ev.request ct.up s).after)
    (hreads : svc.CountsReadBack ct ct.counted.name ev) :
    ∃ cs' ts', svc.Tallies ct ((ct.counted.name, ev) :: past) ev.after cs' ts' := by
  have hborn := born_of_counted hc ev past
  cases hdraft : svc.draft ct.counted.entity input ev.request ev.before with
  | error f =>
      rw [hdraft] at hafter
      exact ⟨cs, ts, hafter ▸ ht.quiet hborn rfl rfl⟩
  | ok d =>
      have hkeeper : ct.keeper.handle.slots
          (ct.counted.handle.insert svc.capabilities d ev.before).2 =
            ct.keeper.handle.slots ev.before :=
        Handle.slots_perform_of_not_sameCollection hc.apart svc.capabilities ev.before (.insert d)
      rw [hdraft] at hafter
      dsimp only at hafter
      rcases ht.counted.insert svc.capabilities (draft_id? hdraft) with
        ⟨f, s, hinsert, hentries⟩ | ⟨s, hinsert, hfresh, hentries⟩
      · rw [hinsert] at hafter hkeeper
        rw [show ev.after = s from hafter]
        exact ⟨cs, ts, ht.quiet hborn (Handle.slots_eq_of_entries hentries) hkeeper⟩
      · rw [show svc.capabilities.issueId ev.before.issued = svc.newId ev from rfl] at *
        rw [hinsert] at hafter hkeeper
        obtain ⟨k, -, hcs', hfields⟩ := ht.counted.appended_of_keepsFields hfresh
          (Document.id?_set_idField d _) hentries (hreads.counted rfl _ _
            (show svc.written _ _ ev = some (svc.newId ev, d.set idField (.string (svc.newId ev))) by
              simp only [written, hcall, hdraft, hinsert]))
        have hreference := hfields ct.reference List.mem_cons_self
        have href : ct.RefersIn ts.names (d.set idField (.string (svc.newId ev))) :=
          (hc.refersIn_of_draft ht.keeper hdraft).congr
            (Dict.get?_set_of_ne _ _ (hc.ne_reference_of_isManaged rfl))
        have hcount : ∀ id, ct.count id ((cs ++ [(svc.newId ev, k)]).map (·.2)) =
            ct.count id (cs.map (·.2)) +
              if ct.referred? (d.set idField (.string (svc.newId ev))) = some id then 1 else 0 := by
          intro id
          rw [List.map_append, List.map_singleton, Counter.count_append_singleton,
            Counter.referred?_congr hreference]
        refine ⟨_, of_hook hc hcodec ht hcs' hkeeper ?_ href hc.up ?_ ?_ rfl
          (hreads.hook rfl _ (by simp only [hookRun, hcall, hdraft, hinsert])) hafter⟩
        · intro p hp
          rcases List.mem_append.mp hp with hp | hp
          · exact ht.refers p hp
          · obtain rfl := List.mem_singleton.mp hp
            exact href.congr hreference
        · intro id
          rw [hcount]
          split <;> push_cast <;> ring
        · intro id hid
          refine Or.inr (Counter.abs_step_le ?_)
          rw [hcount, if_pos hid]
          exact Nat.succ_pos _

theorem delete {ev : Event} (ht : svc.Tallies ct past ev.before cs ts) {id : String}
    (hcall : ev.call = .delete id)
    (hafter : ev.after =
      match doomed ct.counted.entity id ev.request ev.before with
      | .error _ => ev.before
      | .ok d =>
        match ct.counted.handle.delete id ev.before with
        | (false, s) => s
        | (true, s) => (svc.hookEvent ct.counted.name d ev.request ct.down s).after)
    (hreads : svc.CountsReadBack ct ct.counted.name ev) :
    ∃ cs' ts', svc.Tallies ct ((ct.counted.name, ev) :: past) ev.after cs' ts' := by
  cases hdoomed : doomed ct.counted.entity id ev.request ev.before with
  | error f =>
      rw [hdoomed] at hafter
      exact ⟨cs, ts, hafter ▸ ht.quiet (born_of_counted hc ev past) rfl rfl⟩
  | ok d =>
      have hkeeper : ct.keeper.handle.slots (ct.counted.handle.delete id ev.before).2 =
          ct.keeper.handle.slots ev.before :=
        Handle.slots_perform_of_not_sameCollection hc.apart svc.capabilities ev.before (.delete id)
      obtain ⟨_, -, hload⟩ := Outcome.bind_eq_ok_iff.mp hdoomed
      obtain ⟨-, hd⟩ := Entity.get?_of_load (Entity.store_eq_ok_iff.mpr hc.countedStore) ht.counted
        hload
      have hmem := Dict.mem_of_get?_eq_some hd
      obtain ⟨s, hdelete, hentries⟩ := ht.counted.delete id
      rw [decide_eq_true (Dict.mem_names_of_mem hmem)] at hdelete
      rw [hdelete] at hkeeper
      rw [hdoomed, hdelete] at hafter
      have hcount := fun id => Counter.count_filter_add ct id ht.counted.distinct hd
      refine ⟨_, of_hook hc hcodec ht (ht.counted.removed hentries) hkeeper
        (fun p hp => ht.refers p (List.mem_filter.mp hp).1) (ht.refers _ hmem) hc.down ?_ ?_ rfl
        (hreads.hook rfl _ (by simp only [hookRun, hcall, hdoomed, hdelete])) hafter⟩
      · intro id
        rw [← hcount id]
        split <;> push_cast <;> ring
      · intro id hid
        rw [abs_neg]
        refine Or.inl (Counter.abs_step_le ?_)
        rw [← hcount id, if_pos hid]
        exact Nat.succ_pos _

theorem keep {ev : Event} (ht : svc.Tallies ct past ev.before cs ts) {input : Json}
    (hcall : ev.call = .create input)
    (hafter : ev.after =
      match svc.draft ct.keeper.entity input ev.request ev.before with
      | .error _ => ev.before
      | .ok d => (ct.keeper.handle.insert svc.capabilities d ev.before).2)
    (hreads : svc.CountsReadBack ct ct.keeper.name ev) :
    ∃ ts', svc.Tallies ct ((ct.keeper.name, ev) :: past) ev.after cs ts' := by
  have hborn : svc.born ct ((ct.keeper.name, ev) :: past) = svc.born ct past ++
      (svc.written ct.keeper.entity ct.keeper.handle ev).toList := by rw [born, if_pos rfl]
  cases hdraft : svc.draft ct.keeper.entity input ev.request ev.before with
  | error f =>
      rw [hdraft] at hafter
      have hnothing : svc.written ct.keeper.entity ct.keeper.handle ev = none := by
        simp only [written, hcall, hdraft]
      rw [hnothing, Option.toList_none, List.append_nil] at hborn
      exact ⟨ts, hafter ▸ ht.quiet hborn rfl rfl⟩
  | ok d =>
      have hcounted : ct.counted.handle.slots
          (ct.keeper.handle.insert svc.capabilities d ev.before).2 =
            ct.counted.handle.slots ev.before :=
        Handle.slots_perform_of_not_sameCollection hc.apart_symm svc.capabilities ev.before
          (.insert d)
      rw [hdraft] at hafter
      dsimp only at hafter
      rw [← hafter] at hcounted
      rcases ht.keeper.insert svc.capabilities (draft_id? hdraft) with
        ⟨f, s, hinsert, hentries⟩ | ⟨s, hinsert, hfresh, hentries⟩
      · have hnothing : svc.written ct.keeper.entity ct.keeper.handle ev = none := by
          simp only [written, hcall, hdraft, hinsert]
        rw [hnothing, Option.toList_none, List.append_nil] at hborn
        rw [hinsert] at hafter
        refine ⟨ts, ht.quiet hborn hcounted ?_⟩
        rw [hafter]
        exact Handle.slots_eq_of_entries hentries
      · rw [show svc.capabilities.issueId ev.before.issued = svc.newId ev from rfl] at *
        have hwritten : svc.written ct.keeper.entity ct.keeper.handle ev =
            some (svc.newId ev, d.set idField (.string (svc.newId ev))) := by
          simp only [written, hcall, hdraft, hinsert]
        have hid := Document.id?_set_idField d (svc.newId ev)
        have hchecked := Handle.checkUnique_of_insert (congrArg Prod.fst hinsert)
        rw [Handle.held_eq_of_documents ht.keeper.documents] at hchecked
        obtain ⟨k, hk, hholds, hfields⟩ := ht.keeper.appended_of_keepsFields hfresh hid hentries
          (hreads.keeper rfl _ _ hwritten)
        obtain ⟨hcount, hunique⟩ := List.forall_mem_cons.mp hfields
        rw [hinsert] at hafter
        rw [hwritten, Option.toList_some] at hborn
        exact ⟨_, ht.of_born hborn hcounted (hafter ▸ hholds)
          (ht.separate.appended ht.keeper.ids hfresh hid hchecked hunique
            (Handle.settled_of_kept hcodec hk)) hfresh hcount⟩

end Calls

end Tallies

/-- A run in which everything is read back keeps the invariant. -/
theorem exists_tallies {svc : Service} {ct : Counter} {past : List (String × Event)} {w : World}
    (hc : svc.Counts ct)
    (hcodec : ct.keeper.handle.backing = .table →
      ∀ d k, svc.capabilities.codec d = .ok k → Document.Settled k)
    (hr : svc.CountRun ct past w) (hreads : ∀ p ∈ past, svc.CountsReadBack ct p.1 p.2) :
    ∃ cs ts, svc.Tallies ct past w.stores cs ts := by
  induction hr with
  | start counted keeper =>
      exact ⟨[], [], ⟨counted, nofun, .nil⟩, ⟨keeper, nofun, .nil⟩, .nil, rfl, nofun, nofun⟩
  | @creates past w run input req ih =>
      obtain ⟨hread, hreads⟩ := List.forall_mem_cons.mp hreads
      obtain ⟨cs, ts, ht⟩ := ih hreads
      refine ht.create hc hcodec rfl ?_ hread
      rw [event, serve, runOn_return_singleton]
      exact hc.stores_create input req w
  | @deletes past w run id req ih =>
      obtain ⟨hread, hreads⟩ := List.forall_mem_cons.mp hreads
      obtain ⟨cs, ts, ht⟩ := ih hreads
      refine ht.delete hc hcodec rfl ?_ hread
      rw [event, serve, runOn_return_singleton]
      exact hc.stores_delete id req w
  | @keeps past w run input req ih =>
      obtain ⟨hread, hreads⟩ := List.forall_mem_cons.mp hreads
      obtain ⟨cs, ts, ht⟩ := ih hreads
      refine ⟨cs, ht.keep hc hcodec rfl ?_ hread⟩
      rw [event, serve, runOn_return_singleton]
      exact hc.stores_create_keeper input req w
  | elsewhere run counted keeper ih =>
      obtain ⟨cs, ts, ht⟩ := ih hreads
      exact ⟨cs, ts, ht.of_slots counted keeper⟩

/--
**A count that hooks keep is right after every call.**  Whatever calls were made, by whom, and how they
ended, the collection of the keepers holds those that were created, and the count of each is what it was
created with and the step once for every document that refers to it; as long as these numbers are in
range, and as long as what the calls write is read back with the fields that counting needs.
-/
theorem counts_kept {svc : Service} {ct : Counter} {past : List (String × Event)} {w : World}
    (hc : svc.Counts ct)
    (hcodec : ct.keeper.handle.backing = .table →
      ∀ d k, svc.capabilities.codec d = .ok k → Document.Settled k)
    (hr : svc.CountRun ct past w) (hreads : ∀ p ∈ past, svc.CountsReadBack ct p.1 p.2) :
    ∃ docs, ct.keeper.handle.documents w.stores = .ok docs ∧
      docs.map Document.id? = (svc.born ct past).names.map some ∧
      ∀ d ∈ docs, ∀ id b a, Document.id? d = some id → (id, b) ∈ svc.born ct past →
        ct.amount? b = some a → ct.Steady id a past →
        ct.amount? d =
          some (a + ct.step * ct.count id (ct.counted.handle.held w.stores)) := by
  obtain ⟨cs, ts, ht⟩ := exists_tallies hc hcodec hr hreads
  refine ⟨ts.map (·.2), ht.keeper.documents, ?_, ?_⟩
  · rw [← ht.names, Dict.names, List.map_map, List.map_map]
    exact List.map_congr_left fun p hp => ht.keeper.ids p hp
  · intro d hd id b a hid hb ha hsteady
    obtain ⟨p, hp, rfl⟩ := List.mem_map.mp hd
    obtain rfl : p.1 = id := Option.some.inj ((ht.keeper.ids p hp).symm.trans hid)
    have hborn := Dict.get?_of_mem (ht.names ▸ ht.keeper.distinct) hb
    rw [ht.held_counted]
    exact ht.tally p hp b a hborn ha hsteady

/-! ### Collections in memory -/

/-- The hooks of a counter write to the keepers. -/
theorem handle_of_plan {svc : Service} {ct : Counter} (hc : svc.Counts ct) {n : Int} {h : Hook}
    (hadds : ct.Adds n h) {s : Stores} {model : Document} {caller : Option String} {x : HookWrite}
    (hplan : h.plan (svc.scope s ct.counted.name model caller) = .ok (some x)) :
    x.handle = ct.keeper.handle := by
  rcases Hook.plan_cases hplan with ⟨hnone, -⟩ | ⟨x', v, hsome, -, hplans⟩
  · cases hnone
  · obtain rfl := Option.some.inj hsome
    obtain ⟨target, htarget, hhandle⟩ := hplans.stored
    obtain ⟨referring, hreferring, hkind, -⟩ := hc.reference
    have hv := hplans.target
    rw [Scope.variableAt, hadds.target] at hv
    obtain ⟨own, hown, hv⟩ := Outcome.bind_eq_ok_iff.mp hv
    obtain ⟨attr, hattr, hv⟩ := Outcome.bind_eq_ok_iff.mp hv
    obtain ⟨name, hname, hv⟩ := Outcome.bind_eq_ok_iff.mp hv
    obtain ⟨entity, -, hv⟩ := Outcome.bind_eq_ok_iff.mp hv
    obtain ⟨field, -, hv⟩ := Outcome.bind_eq_ok_iff.mp hv
    obtain ⟨value, -, hv⟩ := Outcome.bind_eq_ok_iff.mp hv
    cases hv
    cases hc.counted.symm.trans hown
    cases hreferring.symm.trans (Scope.configured_eq_ok_iff.mp hattr)
    rw [Scope.configured_eq_ok_iff, Attribute.referenced?, hkind] at hname
    cases hname
    cases hc.keeper.registered.symm.trans htarget
    exact Option.some.inj (hhandle.symm.trans hc.keeperStore)

/-- In memory everything is read back. -/
theorem countsReadBack_of_memory {svc : Service} {ct : Counter} (hc : svc.Counts ct)
    (hcounted : ct.counted.handle.backing = .memory) (hkeeper : ct.keeper.handle.backing = .memory)
    (name : String) (ev : Event) : svc.CountsReadBack ct name ev where
  keeper := fun _ _ d _ => Handle.keepsFields_of_memory hkeeper _ _ d
  counted := fun _ _ d _ => Handle.keepsFields_of_memory hcounted _ _ d
  hook := by
    intro _ ran hran x d hplanned _
    refine Handle.keepsFields_of_memory ?_ _ _ _
    unfold hookRun at hran
    split at hran
    · split at hran
      · cases hran
      · split at hran
        · cases hran
        · cases hran
          rw [handle_of_plan hc hc.up hplanned, hkeeper]
    · split at hran
      · cases hran
      · split at hran
        · cases hran
        · cases hran
          rw [handle_of_plan hc hc.down hplanned, hkeeper]
    · cases hran

/-! ### Notes on topics -/

private def topicHandle (backing : Backing) : Handle := ⟨backing, "topics", ["u"]⟩

private def noteHandle (backing : Backing) : Handle := ⟨backing, "notes", []⟩

private def openToAll : Option Permissions :=
  some ⟨some (.one .anyone), some (.one .anyone), some (.one .anyone), some (.one .anyone)⟩

/-- Topics with a unique number and a count. -/
private def topicEntity (backing : Backing) : Entity :=
  ⟨{ Definition.ofNames "topics" "topics" with
      permissions := openToAll
      attributes := (NameMap.empty.insert "n" (.ofKind (.number none none))).insert "u"
        (.ofKind (.number none none)) },
    some (topicHandle backing)⟩

private def countUp : Hook := ⟨none, .increment, "this.r.n", .ofInt 1⟩

private def countDown : Hook := ⟨none, .increment, "this.r.n", .ofInt (-1)⟩

/-- Notes, each on a topic. -/
private def noteEntity (backing : Backing) : Entity :=
  ⟨{ Definition.ofNames "notes" "notes" with
      permissions := openToAll
      attributes := NameMap.empty.insert "r" (.ofKind (.ref "topics"))
      hooks := fun l =>
        match l with
        | .afterCreate => some [countUp]
        | .afterDelete => some [countDown]
        | _ => none },
    some (noteHandle backing)⟩

private def topicService (backing : Backing) : Service :=
  ⟨⟨fun t _ => .ok t, fun n => String.ofList (List.replicate n 'x'),
      fun n => if n = 0 then "1001" else if n = 1 then "1002" else "1003", Document.reread⟩,
    ⟨[("notes", noteEntity backing), ("topics", topicEntity backing)]⟩, fun _ _ => none⟩

private def noteCounter (backing : Backing) : Counter :=
  ⟨⟨"notes", noteEntity backing, noteHandle backing⟩,
    ⟨"topics", topicEntity backing, topicHandle backing⟩, "r", "n", 1, countUp, countDown⟩

private theorem note_counts (backing : Backing) :
    (topicService backing).Counts (noteCounter backing) where
  counted := rfl
  countedStore := rfl
  keeper := ⟨rfl, fun _ => rfl, fun _ => rfl⟩
  keeperStore := rfl
  apart := fun hsame => absurd hsame.collection (by cases backing <;> decide)
  reference := ⟨_, rfl, rfl, rfl⟩
  referenceGiven := rfl
  field := ⟨_, rfl, rfl⟩
  fieldNotId := by cases backing <;> decide
  fieldNotUnique := by cases backing <;> decide
  ups := rfl
  up := ⟨rfl, rfl, by cases backing <;> decide, by cases backing <;> decide⟩
  downs := rfl
  down := ⟨rfl, rfl, by cases backing <;> decide, by cases backing <;> decide⟩
  noHooks := by
    intro l hup hdown
    cases l <;> first | rfl | exact absurd rfl hup | exact absurd rfl hdown
  noCode := fun _ => rfl

private def topicInput : Json := .object [("u", .string "3e23")]

private def noteInput : Json := .object [("r", .string "1001")]

private def topicVisitor : Request := ⟨none, none, 0⟩

private def noTopics : World := ⟨Stores.empty, []⟩

private def oneTopic (backing : Backing) : World :=
  (runOn ((topicService backing).serve "topics" (.create topicInput) topicVisitor) noTopics).2

private def twoTopics (backing : Backing) : World :=
  (runOn ((topicService backing).serve "topics" (.create topicInput) topicVisitor)
    (oneTopic backing)).2

private def noteTaken (backing : Backing) : World :=
  (runOn ((topicService backing).serve "notes" (.create noteInput) topicVisitor)
    (twoTopics backing)).2

/-- A topic is created twice, and then a note on the first. -/
private def noteEvents (backing : Backing) : List (String × Event) :=
  [("notes", (topicService backing).event "notes" (.create noteInput) topicVisitor
      (twoTopics backing)),
    ("topics", (topicService backing).event "topics" (.create topicInput) topicVisitor
      (oneTopic backing)),
    ("topics", (topicService backing).event "topics" (.create topicInput) topicVisitor noTopics)]

private theorem note_run (backing : Backing) :
    (topicService backing).CountRun (noteCounter backing) (noteEvents backing)
      (noteTaken backing) := by
  have hstart : (topicService backing).CountRun (noteCounter backing) [] noTopics := by
    refine .start ?_ ?_ <;> cases backing <;> rfl
  exact .creates (.keeps (.keeps hstart topicInput topicVisitor) topicInput topicVisitor) noteInput
    topicVisitor

theorem counts_kept_topics :
    (topicService .memory).Counts (noteCounter .memory) ∧
    (topicService .memory).CountRun (noteCounter .memory) (noteEvents .memory) (noteTaken .memory) ∧
    (∀ p ∈ noteEvents .memory, (topicService .memory).CountsReadBack (noteCounter .memory) p.1 p.2) ∧
    (noteCounter .memory).Steady "1001" 0 (noteEvents .memory) ∧
    ∃ docs, (topicHandle .memory).documents (noteTaken .memory).stores = .ok docs ∧
      docs.map Document.id? =
        ((topicService .memory).born (noteCounter .memory) (noteEvents .memory)).names.map some ∧
      ∀ d ∈ docs, ∀ id b a, Document.id? d = some id →
        (id, b) ∈ (topicService .memory).born (noteCounter .memory) (noteEvents .memory) →
        (noteCounter .memory).amount? b = some a →
        (noteCounter .memory).Steady id a (noteEvents .memory) →
        (noteCounter .memory).amount? d = some (a + 1 *
          (noteCounter .memory).count id ((noteHandle .memory).held (noteTaken .memory).stores)) := by
  have hc := note_counts .memory
  have hreads : ∀ p ∈ noteEvents .memory,
      (topicService .memory).CountsReadBack (noteCounter .memory) p.1 p.2 :=
    fun p _ => countsReadBack_of_memory hc rfl rfl p.1 p.2
  exact ⟨hc, note_run .memory, hreads, by decide +kernel,
    counts_kept hc nofun (note_run .memory) hreads⟩

/-- In a table a count can fall behind: two topics come to be equal in their unique number when it is
read back, and from then on neither can be written. -/
theorem not_counts_kept_of_reread :
    ¬ ∀ (svc : Service) (ct : Counter) (past : List (String × Event)) (w : World),
        svc.capabilities.codec = Document.reread →
        (∀ n, isValidId (svc.capabilities.issueId n) = true) → svc.Counts ct →
        svc.CountRun ct past w →
        ∀ d ∈ ct.keeper.handle.held w.stores, ∀ id b a, Document.id? d = some id →
          (id, b) ∈ svc.born ct past → ct.amount? b = some a → ct.Steady id a past →
          ct.amount? d =
            some (a + ct.step * ct.count id (ct.counted.handle.held w.stores)) := by
  intro hall
  have hids : ∀ n, isValidId ((topicService .table).capabilities.issueId n) = true := by
    intro n
    show isValidId (if n = 0 then "1001" else if n = 1 then "1002" else "1003") = true
    split
    · decide
    · split <;> decide
  have hheld : ((topicHandle .table).held (noteTaken .table).stores).map
      (fun d => (d.id?, (noteCounter .table).amount? d)) =
        [(some "1001", some 0), (some "1002", some 0)] := by decide +kernel
  have hborn : ((topicService .table).born (noteCounter .table) (noteEvents .table)).map
      (fun p => (p.1, (noteCounter .table).amount? p.2)) =
        [("1001", some 0), ("1002", some 0)] := by decide +kernel
  have hsteady : (noteCounter .table).Steady "1001" 0 (noteEvents .table) := by decide +kernel
  have hcount : (noteCounter .table).count "1001"
      ((noteHandle .table).held (noteTaken .table).stores) = 1 := by decide +kernel
  obtain ⟨d, rest, hdocs, hd, -⟩ := List.map_eq_cons_iff.mp hheld
  obtain ⟨p, others, hbirths, hp, -⟩ := List.map_eq_cons_iff.mp hborn
  obtain ⟨hid, hamount⟩ := Prod.mk.inj hd
  obtain ⟨hname, hstart⟩ := Prod.mk.inj hp
  have hkept := hall (topicService .table) (noteCounter .table) (noteEvents .table)
    (noteTaken .table) rfl hids (note_counts .table) (note_run .table) d
    (hdocs ▸ List.mem_cons_self) "1001" p.2 0 hid
    (hname ▸ hbirths ▸ List.mem_cons_self) hstart hsteady
  rw [hamount, show (noteCounter .table).counted.handle = noteHandle .table from rfl, hcount] at hkept
  exact absurd hkept (by decide)

end Service

end Curator
