/-
A count that two hooks keep, and what one run of such a hook does to it.

The documents of one entity refer to documents of another, their keepers.  A hook after each creation
adds a number to a field of the keeper, and a hook after each deletion takes it away again.

Such a hook cannot be refused.  The id that it aims at is there, because a reference is only accepted if
it is and no keeper is ever deleted; what it adds is a number; and it leaves the id and the unique fields
alone, so a table whose documents stand apart finds no collision.  What it adds is exact as long as the
numbers are in the range in which doubles are whole numbers, and `Counter.Gains` promises nothing beyond
that.
-/
import Curator.Proofs.Conversion
import Curator.Proofs.Number.Whole
import Curator.Proofs.Service.Hooks
import Curator.Proofs.Store.Entries

namespace Curator

/-- An entity by its name, with its collection. -/
structure StoredEntity where
  name : String
  entity : Entity
  handle : Handle

/-- Two hooks that count the documents of an entity on the documents that they refer to. -/
structure Counter where
  /-- The entity whose documents are counted. -/
  counted : StoredEntity
  /-- The entity that they refer to, which keeps the counts. -/
  keeper : StoredEntity
  /-- The field that refers. -/
  reference : String
  /-- The field that holds the count. -/
  field : String
  /-- What each document counts. -/
  step : Int
  /-- The hook after a creation. -/
  up : Hook
  /-- The hook after a deletion. -/
  down : Hook

namespace Counter

/-- A hook adds a whole number to the count of the document referred to. -/
structure Adds (ct : Counter) (n : Int) (h : Hook) : Prop where
  always : h.condition = none
  effect : h.effect = .increment
  target : Text.splitAt '.' h.target = ["this", ct.reference, ct.field]
  value : h.value.integer? = some n

/-- The id that a document refers to. -/
def referred? (ct : Counter) (d : Document) : Option String :=
  (d.get? ct.reference).bind Json.string?

/-- A document refers to nothing or to one of some ids. -/
def RefersIn (ct : Counter) (ids : List String) (d : Document) : Prop :=
  d.get? ct.reference = none ∨ ∃ id ∈ ids, d.get? ct.reference = some (.string id)

/-- How many documents refer to an id. -/
def count (ct : Counter) (id : String) (docs : List Document) : Nat :=
  docs.countP fun d => ct.referred? d == some id

/-- The whole number that a document holds as its count; a missing one is zero. -/
def amount? (ct : Counter) (d : Document) : Option Int :=
  match d.get? ct.field with
  | none => some 0
  | some v => v.integer?

/-- What documents count for an id is in the range of numbers that are added without rounding, with what
the count started with and without. -/
structure InRange (ct : Counter) (id : String) (start : Int) (docs : List Document) : Prop where
  total : |ct.step * ct.count id docs| ≤ 2 ^ 53
  sum : |start + ct.step * ct.count id docs| ≤ 2 ^ 53

instance (ct : Counter) (id : String) (start : Int) (docs : List Document) :
    Decidable (ct.InRange id start docs) :=
  decidable_of_iff
    (|ct.step * ct.count id docs| ≤ 2 ^ 53 ∧ |start + ct.step * ct.count id docs| ≤ 2 ^ 53)
    ⟨fun hin => ⟨hin.1, hin.2⟩, fun hin => ⟨hin.total, hin.sum⟩⟩

/-- The fields that counting needs of a document that is counted. -/
def countedFields (ct : Counter) : List String := [idField, ct.reference]

/-- The fields that counting needs of a keeper.  The unique ones are among them because a table compares
them when the count is written. -/
def keeperFields (ct : Counter) : List String := idField :: ct.field :: ct.keeper.handle.unique

/-- The write that adds a number to the count of an id. -/
def bump (ct : Counter) (id : String) (x : Double) : HookWrite :=
  ⟨ct.keeper.handle, id, .increment, ct.field, .number (Number.ofDouble x)⟩

end Counter

namespace Service

/-- A service counts as a counter says: the two entities have collections of their own, the hooks of
the counter are the only hooks of theirs, and the reference leads to the keeper. -/
structure Counts (svc : Service) (ct : Counter) : Prop where
  counted : svc.directory.get ct.counted.name = .ok ct.counted.entity
  countedStore : ct.counted.entity.handle? = some ct.counted.handle
  keeper : svc.Unhooked ct.keeper.name ct.keeper.entity
  keeperStore : ct.keeper.entity.handle? = some ct.keeper.handle
  apart : ¬ ct.counted.handle.SameCollection ct.keeper.handle
  reference : ∃ a, ct.counted.entity.attribute? ct.reference = some a ∧
    a.kind = .ref ct.keeper.name ∧ a.default = none
  /-- The reference is no field that the service fills in itself. -/
  referenceGiven : isManaged ct.reference = false
  field : ∃ a, ct.keeper.entity.attribute? ct.field = some a ∧ a.kind.IsNumber
  fieldNotId : ct.field ≠ idField
  fieldNotUnique : ct.field ∉ ct.keeper.handle.unique
  ups : ct.counted.entity.definition.hooksAt .afterCreate = [ct.up]
  up : ct.Adds ct.step ct.up
  downs : ct.counted.entity.definition.hooksAt .afterDelete = [ct.down]
  down : ct.Adds (-ct.step) ct.down
  noHooks : ∀ l, l ≠ .afterCreate → l ≠ .afterDelete →
    ct.counted.entity.definition.hooksAt l = []
  noCode : ∀ l, svc.codeHook? ct.counted.name l = none

end Service

/-! ### How many refer -/

namespace Counter

variable {ct : Counter} {id : String} {d : Document}

theorem count_append_singleton (ct : Counter) (id : String) (docs : List Document) (d : Document) :
    ct.count id (docs ++ [d]) = ct.count id docs + if ct.referred? d = some id then 1 else 0 := by
  rw [count, count, List.countP_append, List.countP_singleton]
  simp only [beq_iff_eq]

/-- Taking out the document of an id takes it out of the count. -/
theorem count_filter_add (ct : Counter) (id : String) {cs : Dict Document} (hcs : cs.names.Nodup)
    {key : String} (hd : cs.get? key = some d) :
    ct.count id ((cs.filter fun p => p.1 ≠ key).map (·.2)) +
      (if ct.referred? d = some id then 1 else 0) = ct.count id (cs.map (·.2)) := by
  induction cs with
  | nil => cases hd
  | cons p cs ih =>
      obtain ⟨hfresh, hcs⟩ := List.nodup_cons.mp hcs
      have hfresh : p.1 ∉ Dict.names cs := hfresh
      rw [Dict.get?_cons] at hd
      split at hd
      · rename_i hkey
        have hothers : cs.filter (fun q => q.1 ≠ key) = cs := by
          refine List.filter_eq_self.mpr fun q hq => decide_eq_true fun hq' => hfresh ?_
          exact (hq'.trans hkey.symm : q.1 = p.1) ▸ Dict.mem_names_of_mem hq
        rw [List.filter_cons_of_neg (by simpa using hkey), hothers, List.map_cons, count, count,
          List.countP_cons, Option.some.inj hd]
        simp only [beq_iff_eq]
      · rename_i hkey
        have hcount := ih hcs hd
        rw [List.filter_cons_of_pos (by simpa using hkey), List.map_cons, List.map_cons, count, count,
          List.countP_cons, List.countP_cons]
        rw [count, count] at hcount
        omega

theorem RefersIn.mem_of_referred? {ids : List String} (href : ct.RefersIn ids d)
    (hid : ct.referred? d = some id) : id ∈ ids := by
  unfold referred? at hid
  rcases href with hnone | ⟨other, hother, hget⟩
  · rw [hnone] at hid
    cases hid
  · rw [hget] at hid
    exact Option.some.inj hid ▸ hother

/-- Nothing refers to an id that is not there. -/
theorem count_eq_zero {ids : List String} {docs : List Document}
    (href : ∀ d ∈ docs, ct.RefersIn ids d) (hid : id ∉ ids) : ct.count id docs = 0 :=
  List.countP_eq_zero.mpr fun d hd hrefers =>
    hid ((href d hd).mem_of_referred? (beq_iff_eq.mp hrefers))

theorem referred?_congr {k : Document} (hname : k.get? ct.reference = d.get? ct.reference) :
    ct.referred? k = ct.referred? d := by
  rw [referred?, hname, referred?]

theorem amount?_congr {k : Document} (hname : k.get? ct.field = d.get? ct.field) :
    ct.amount? k = ct.amount? d := by
  rw [amount?, hname, amount?]

theorem RefersIn.congr {k : Document} {ids : List String} (href : ct.RefersIn ids d)
    (hname : k.get? ct.reference = d.get? ct.reference) : ct.RefersIn ids k := by
  unfold RefersIn
  rwa [hname]

theorem RefersIn.mono {ids more : List String} (href : ct.RefersIn ids d) (hids : ids ⊆ more) :
    ct.RefersIn more d :=
  href.imp_right fun ⟨id, hid, hget⟩ => ⟨id, hids hid, hget⟩

/-- What documents count for an id is at least what one of them counts. -/
theorem abs_step_le {docs : List Document} (hpos : 0 < ct.count id docs) :
    |ct.step| ≤ |ct.step * ct.count id docs| := by
  rw [abs_mul, Nat.abs_cast]
  exact le_mul_of_one_le_right (abs_nonneg ct.step) (by exact_mod_cast hpos)

end Counter

/-! ### What is kept of a write -/

namespace Handle

variable {c : Capabilities} {h : Handle} {s s' : Stores} {docs : Dict Document} {id : String}
  {d k : Document} {fields : List String}

private theorem id?_of_keeps (hid : Document.id? d = some id)
    (hfields : ∀ field ∈ idField :: fields, k.get? field = d.get? field) :
    Document.id? k = some id := by
  rw [Document.id?, hfields idField List.mem_cons_self, ← Document.id?, hid]

/-- A document that is added is held with the fields that it is kept with. -/
theorem Holds.appended_of_keepsFields (hs : h.Holds s docs) (hfresh : id ∉ docs.names)
    (hid : Document.id? d = some id)
    (hentries : h.entries s' = h.entries s ++ [(id, h.kept c d)])
    (hkeeps : h.KeepsFields c (idField :: fields) d) :
    ∃ k, h.kept c d = .ok k ∧ h.Holds s' (docs ++ [(id, k)]) ∧
      ∀ field ∈ fields, k.get? field = d.get? field := by
  obtain ⟨k, hk, hfields⟩ := hkeeps
  rw [hk] at hentries
  exact ⟨k, hk, hs.appended hfresh (id?_of_keeps hid hfields) hentries,
    (List.forall_mem_cons.mp hfields).2⟩

/-- So is one that is put in the place of another. -/
theorem Holds.rewritten_of_keepsFields (hs : h.Holds s docs) (hid : Document.id? d = some id)
    (hentries : h.entries s' = replaced docs id (h.kept c d))
    (hkeeps : h.KeepsFields c (idField :: fields) d) :
    ∃ k, h.kept c d = .ok k ∧
      h.Holds s' (docs.map fun p => (p.1, if p.1 = id then k else p.2)) ∧
      ∀ field ∈ fields, k.get? field = d.get? field := by
  obtain ⟨k, hk, hfields⟩ := hkeeps
  rw [hk] at hentries
  exact ⟨k, hk, hs.rewritten (id?_of_keeps hid hfields) hentries,
    (List.forall_mem_cons.mp hfields).2⟩

theorem settled_of_kept
    (hcodec : h.backing = .table → ∀ d k, c.codec d = .ok k → Document.Settled k)
    (hk : h.kept c d = .ok k) (hb : h.backing = .table) : Document.Settled k := by
  refine hcodec hb d k ?_
  rw [← hk, kept, hb]

end Handle

/-! ### The write of the hook -/

namespace Counter

variable {ct : Counter} {n : Int} {h : Hook} {s : Stores}

theorem Adds.value_eq (hadds : ct.Adds n h) : ∃ m : Number, h.value = .number m := by
  have hvalue := hadds.value
  unfold Json.integer? at hvalue
  split at hvalue
  · exact ⟨_, by assumption⟩
  · exact ⟨_, by assumption⟩
  · cases hvalue

/-- The target of the hook is the count of the document referred to. -/
theorem Adds.variableAt_target {svc : Service} (hc : svc.Counts ct) (hadds : ct.Adds n h)
    (hread : ∀ id, ∃ found, ct.keeper.handle.findById? id s = .ok found) {model : Document}
    {ids : List String} (href : ct.RefersIn ids model) (caller : Option String) :
    ∃ attr value, attr.kind.IsNumber ∧
      (svc.scope s ct.counted.name model caller).variableAt h.target =
        .ok ⟨ct.keeper.name, ct.referred? model, ct.field, attr, value⟩ := by
  obtain ⟨referring, hreferring, hkind, -⟩ := hc.reference
  obtain ⟨attr, hattr, hnumber⟩ := hc.field
  have hreferenced : referring.referenced? = some ct.keeper.name := by
    rw [Attribute.referenced?, hkind]
  have hid : ((svc.scope s ct.counted.name model caller).model.get? ct.reference).bind scalarText? =
      ct.referred? model := by
    show (model.get? ct.reference).bind scalarText? = _
    unfold referred?
    rcases href with hnone | ⟨id, -, hid⟩
    · rw [hnone]
      rfl
    · rw [hid]
      rfl
  -- What the keeper holds is looked up, but the hook does not use it.
  obtain ⟨value, hvalue⟩ : ∃ value, (svc.scope s ct.counted.name model caller).lookUp
      ct.keeper.entity (ct.referred? model) ct.field = .ok value := by
    cases ct.referred? model with
    | none => exact ⟨none, rfl⟩
    | some id =>
        obtain ⟨found, hfound⟩ := hread id
        refine ⟨found.bind fun d => d.get? ct.field, ?_⟩
        rw [Scope.lookUp, Entity.store_eq_ok_iff.mpr hc.keeperStore, Outcome.ok_bind]
        show ((ct.keeper.handle.findById? id s) >>= _) = _
        rw [hfound]
        rfl
  refine ⟨attr, value, hnumber, ?_⟩
  rw [Scope.variableAt, hadds.target]
  show (svc.directory.get ct.counted.name >>= _) = _
  rw [hc.counted, Outcome.ok_bind, hreferring]
  show (configured referring.referenced? >>= _) = _
  rw [hreferenced]
  show (svc.directory.get ct.keeper.name >>= _) = _
  rw [hc.keeper.registered, Outcome.ok_bind, hattr]
  show ((svc.scope s ct.counted.name model caller).lookUp ct.keeper.entity
    (((svc.scope s ct.counted.name model caller).model.get? ct.reference).bind scalarText?)
    ct.field >>= _) = _
  rw [hid, hvalue]
  rfl

/-- The hook comes down to adding its number, if the document refers to anything. -/
theorem Adds.plan_eq {svc : Service} (hc : svc.Counts ct) (hadds : ct.Adds n h)
    (hread : ∀ id, ∃ found, ct.keeper.handle.findById? id s = .ok found) {model : Document}
    {ids : List String} (href : ct.RefersIn ids model) (caller : Option String) :
    ∃ x, h.value.double? = some x ∧ h.plan (svc.scope s ct.counted.name model caller) =
      .ok ((ct.referred? model).map fun id => ct.bump id x) := by
  obtain ⟨m, hm⟩ := hadds.value_eq
  obtain ⟨attr, value, hnumber, hvariable⟩ := hadds.variableAt_target hc hread href caller
  have hconvert : attr.convert (.number m) = .ok (.number (Number.ofDouble m.toDouble)) := by
    obtain ⟨kind, _, _, _, _⟩ := attr
    rw [Attribute.convert_of_ne_null Json.noConfusion]
    cases kind with
    | number min max => rfl
    | _ => cases hnumber
  refine ⟨m.toDouble, by rw [hm]; rfl, ?_⟩
  rw [Hook.plan, Hook.applies, hadds.always, Outcome.ok_bind, if_pos rfl, Hook.target?, hvariable,
    Outcome.ok_bind]
  dsimp only
  cases ct.referred? model with
  | none => rfl
  | some id =>
      dsimp only
      rw [hm]
      show (attr.convert (.number m) >>= _) = _
      rw [hconvert, Outcome.ok_bind, hadds.effect]
      show (svc.directory.get ct.keeper.name >>= _) = _
      rw [hc.keeper.registered, Outcome.ok_bind, Entity.store_eq_ok_iff.mpr hc.keeperStore,
        Number.ofDouble_toDouble]
      rfl

end Counter

/-- The document that a hook wrote is kept with what it has in some fields. -/
def HookEvent.KeepsFields (c : Capabilities) (fields : List String) (ev : HookEvent) : Prop :=
  ∀ w d, ev.planned = .ok (some w) → w.handle.found? w.id ev.before = some d →
    w.handle.KeepsFields c fields (w.turn d)

/-! ### Carrying out the write -/

namespace Counter

variable {ct : Counter} {n : Int} {h : Hook} {s : Stores} {ts : Dict Document} {id : String}
  {d : Document}

theorem bump_addsNumber (ct : Counter) (id : String) (x : Double) : (ct.bump id x).AddsNumber :=
  fun _ => rfl

/-- Adding to a count is never refused. -/
theorem bump_rewrites {svc : Service} (hc : svc.Counts ct) (hs : ct.keeper.handle.Holds s ts)
    (hsep : ct.keeper.handle.Separate ts) (hd : ts.get? id = some d) (x : Double) :
    ct.keeper.handle.Rewrites svc.capabilities id d ((ct.bump id x).turn d) s
      ((ct.bump id x).perform svc.capabilities s).2 := by
  have hfound : ct.keeper.handle.found? id s = some d := (hs.found? id).trans hd
  have hmem := Dict.mem_of_get?_eq_some hd
  have hanswer : ((ct.bump id x).perform svc.capabilities s).1 = .ok true := by
    have hnumbers : ∀ e ∈ [(ct.field, Json.number (Number.ofDouble x))], e.2.double?.isSome :=
      List.forall_mem_singleton.mpr rfl
    have hincrement := Handle.increment_answer svc.capabilities ct.keeper.handle id hnumbers s
      fun hb other hother => ?_
    · rw [hs.findById? id, hd] at hincrement
      exact hincrement
    · rw [hs.findById? id, hd] at hother
      obtain rfl := Option.some.inj (Except.ok.inj hother)
      have hkept : ∀ name, name ≠ ct.field → ((Document.increment d
          [(ct.field, .number (Number.ofDouble x))]).2).get? name = d.get? name := fun name hname =>
        Document.get?_increment_of_not_mem_names d fun hfield => hname (List.mem_singleton.mp hfield)
      rw [Handle.check_of_documents hs.documents]
      refine Document.checkUnique_of_pairwise (hsep.apart hb) (List.mem_map_of_mem hmem)
        (hs.ids _ hmem) (hkept idField (Ne.symm hc.fieldNotId)) fun field hfield => ?_
      exact hkept field fun hsame => hc.fieldNotUnique (hsame ▸ hfield)
  cases HookWrite.step (ct.bump_addsNumber id x) svc.capabilities s with
  | missing hnone _ =>
      rw [show (ct.bump id x).handle.found? (ct.bump id x).id s = some d from hfound] at hnone
      cases hnone
  | refused hrefused _ =>
      rw [hanswer] at hrefused
      cases hrefused
  | @puts other found step =>
      obtain rfl := Option.some.inj (hfound.symm.trans found)
      rw [step]
      exact Handle.rewrites_put svc.capabilities hs.keys hfound _

/-- A count that stays in range is added to without rounding. -/
theorem amount?_bump {a : Int} (ha : ct.amount? d = some a) {x : Double} (hx : x.value = n)
    (hstart : |a| ≤ 2 ^ 53) (hsum : |a + n| ≤ 2 ^ 53) :
    ct.amount? ((ct.bump id x).turn d) = some (a + n) := by
  have hadded : (Number.ofDouble x).toDouble.value = n := by
    rw [Number.value_toDouble_ofDouble, hx]
  have hturn : ((ct.bump id x).turn d).get? ct.field = some (Json.ofInt (a + n)) :=
    HookWrite.get?_turn_of_amount (w := ct.bump id x) rfl rfl ha hadded hstart hsum
  rw [amount?, hturn]
  exact Json.integer?_ofInt hsum

/-- A count went up by a number, as long as the numbers are in range. -/
def Gains (ct : Counter) (n : Int) (d d' : Document) : Prop :=
  ∀ a, ct.amount? d = some a → |n| ≤ 2 ^ 53 → |a| ≤ 2 ^ 53 → |a + n| ≤ 2 ^ 53 →
    ct.amount? d' = some (a + n)

/-- The keepers after a document was counted: the one that it refers to gained, the others are as they
were. -/
structure Credits (ct : Counter) (n : Int) (referred : Option String) (ts ts' : Dict Document) :
    Prop where
  names : ts'.names = ts.names
  gains : ∀ p ∈ ts', ∃ d, ts.get? p.1 = some d ∧
    if referred = some p.1 then ct.Gains n d p.2 else p.2 = d

/-- Adding a number to the count of an id that is there. -/
theorem bump_credits {svc : Service} (hc : svc.Counts ct) (hs : ct.keeper.handle.Holds s ts)
    (hsep : ct.keeper.handle.Separate ts) (hd : ts.get? id = some d) {x : Double}
    (hx : |n| ≤ 2 ^ 53 → x.value = n)
    (hcodec : ct.keeper.handle.backing = .table →
      ∀ d k, svc.capabilities.codec d = .ok k → Document.Settled k)
    (hkeeps : ct.keeper.handle.KeepsFields svc.capabilities ct.keeperFields
      ((ct.bump id x).turn d)) :
    ∃ ts', ct.keeper.handle.Holds ((ct.bump id x).perform svc.capabilities s).2 ts' ∧
      ct.keeper.handle.Separate ts' ∧ ct.Credits n (some id) ts ts' := by
  have hid : Document.id? ((ct.bump id x).turn d) = some id := by
    rw [Document.id?, HookWrite.get?_turn_of_ne _ _ (Ne.symm hc.fieldNotId)]
    exact hs.ids _ (Dict.mem_of_get?_eq_some hd)
  obtain ⟨k, hk, hholds, hfields⟩ := hs.rewritten_of_keepsFields hid
    (hs.entries_of_rewrites (bump_rewrites hc hs hsep hd x) hid) hkeeps
  obtain ⟨hcount, hunique⟩ := List.forall_mem_cons.mp hfields
  have hkept : ∀ field ∈ ct.keeper.handle.unique, k.get? field = d.get? field := by
    intro field hfield
    rw [hunique field hfield, HookWrite.get?_turn_of_ne]
    rintro rfl
    exact hc.fieldNotUnique hfield
  refine ⟨_, hholds,
    hsep.rewritten hs.distinct hd hkept (Handle.settled_of_kept hcodec hk), ?_, ?_⟩
  · simp [Dict.names, Function.comp_def]
  · intro p hp
    obtain ⟨old, hold, rfl⟩ := List.mem_map.mp hp
    have hget := Dict.get?_of_mem hs.distinct hold
    refine ⟨old.2, hget, ?_⟩
    by_cases hsame : old.1 = id
    · obtain rfl : d = old.2 := Option.some.inj (hd.symm.trans (hsame ▸ hget))
      rw [if_pos (congrArg some hsame.symm)]
      dsimp only
      rw [if_pos hsame]
      intro a ha hn hstart hsum
      rw [amount?_congr hcount]
      exact amount?_bump ha (hx hn) hstart hsum
    · rw [if_neg fun heq => hsame (Option.some.inj heq).symm]
      exact if_neg hsame

/-- The hook adds its number to the count of the document referred to, and does nothing else. -/
theorem Adds.credits {svc : Service} (hc : svc.Counts ct) (hadds : ct.Adds n h)
    (hs : ct.keeper.handle.Holds s ts) (hsep : ct.keeper.handle.Separate ts)
    (hcodec : ct.keeper.handle.backing = .table →
      ∀ d k, svc.capabilities.codec d = .ok k → Document.Settled k)
    {model : Document} (href : ct.RefersIn ts.names model) {req : Request} {ev : HookEvent}
    (hev : ev = svc.hookEvent ct.counted.name model req h s)
    (hkeeps : ev.KeepsFields svc.capabilities ct.keeperFields) :
    (∀ other : Handle, ¬ ct.keeper.handle.SameCollection other →
      other.slots ev.after = other.slots s) ∧
    ∃ ts', ct.keeper.handle.Holds ev.after ts' ∧ ct.keeper.handle.Separate ts' ∧
      ct.Credits n (ct.referred? model) ts ts' := by
  obtain ⟨x, hx, hplan⟩ := hadds.plan_eq hc (fun id => ⟨_, hs.findById? id⟩) href req.caller
  subst hev
  rw [Service.hookEvent, Service.runOn_runHook_eq, hplan] at hkeeps ⊢
  cases hreferred : ct.referred? model with
  | none =>
      refine ⟨fun _ _ => rfl, ts, hs, hsep, rfl, fun p hp => ⟨p.2, ?_, rfl⟩⟩
      exact Dict.get?_of_mem hs.distinct hp
  | some id =>
      obtain ⟨d, hd⟩ := Option.ne_none_iff_exists'.mp fun hnone =>
        (Dict.get?_eq_none_iff ts id).mp hnone (href.mem_of_referred? hreferred)
      have hvalue : |n| ≤ 2 ^ 53 → x.value = n := by
        intro hn
        obtain ⟨y, hy, hvalue⟩ := Json.exists_double hadds.value hn
        exact Option.some.inj (hx.symm.trans hy) ▸ hvalue
      have hkept : ct.keeper.handle.KeepsFields svc.capabilities ct.keeperFields
          ((ct.bump id x).turn d) := hkeeps (ct.bump id x) d (by rw [hreferred]; rfl) ((hs.found? id).trans hd)
      refine ⟨fun other hother => ?_, bump_credits hc hs hsep hd hvalue hcodec hkept⟩
      dsimp only [Option.map_some]
      rw [HookWrite.perform_stores]
      exact Handle.slots_perform_of_not_sameCollection hother _ _ _

end Counter

end Curator
