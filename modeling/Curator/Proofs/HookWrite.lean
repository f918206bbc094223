/-
What the write of one declared hook does to the stores.

A hook writes one field of one document.  `Scope.Leads` says which: the path of its target leads to a
field of a document of a collection, and the field is the last part of the path.  The write is an update
or an increment with a single entry, so all laws of writes hold of it; and because what an increment
adds is a number by the time it is carried out, a write that is refused leaves every document as it was,
in memory too.

A write that is not refused puts one document in the place of another.  `HookWrite.performs` says this
without asking whether ids are keys; where they are, `HookWrite.rewrites` says that no other slot of any
collection is touched.
-/
import Curator.HookWrite
import Curator.Proofs.Number.Whole
import Curator.Proofs.Service.Failing
import Curator.Proofs.Store.Answers

namespace Curator

/-! ### Collections -/

/-- What is found after a replacement was there before or is the new document. -/
theorem Memory.mem_replace {id : String} {new d : Document} {docs : List Document}
    (hd : d ∈ replace id new docs) : d = new ∨ d ∈ docs := by
  induction docs with
  | nil => cases hd
  | cons first docs ih =>
      rw [replace] at hd
      split at hd
      · exact (List.mem_cons.mp hd).imp_right (List.mem_cons_of_mem first)
      · rcases List.mem_cons.mp hd with hfirst | hd
        · exact Or.inr (hfirst ▸ List.mem_cons_self)
        · exact (ih hd).imp_right (List.mem_cons_of_mem first)

namespace Handle

/-- Two handles of one collection, which may differ in the fields that have to be distinct. -/
structure SameCollection (h other : Handle) : Prop where
  backing : other.backing = h.backing
  collection : other.collection = h.collection

instance (h other : Handle) : Decidable (h.SameCollection other) :=
  decidable_of_iff (other.backing = h.backing ∧ other.collection = h.collection)
    ⟨fun hsame => ⟨hsame.1, hsame.2⟩, fun hsame => ⟨hsame.backing, hsame.collection⟩⟩

theorem SameCollection.slots_eq {h other : Handle} (hsame : h.SameCollection other) (s : Stores) :
    other.slots s = h.slots s := by
  rw [slots, slots, hsame.backing, hsame.collection]

/-- A change leaves what is kept in the other way alone. -/
theorem slots_change_of_backing_ne {α : Type} {h other : Handle} (hb : other.backing ≠ h.backing)
    (s : Stores) (inMemory : List Document → α × List Document)
    (inTable : List Row → α × List Row) :
    other.slots (h.change s inMemory inTable).2 = other.slots s := by
  cases hbacking : h.backing with
  | memory =>
      rw [change_of_memory hbacking]
      cases hother : other.backing with
      | memory => exact absurd (hother.trans hbacking.symm) hb
      | table => rw [slots_of_table hother, slots_of_table hother]
  | table =>
      rw [change_of_table hbacking]
      cases hother : other.backing with
      | memory => rw [slots_of_memory hother, slots_of_memory hother, Stores.memoryAt, Stores.memoryAt]
      | table => exact absurd (hother.trans hbacking.symm) hb

/-- A write leaves every collection but its own alone. -/
theorem slots_perform_of_not_sameCollection {h other : Handle} (hother : ¬ h.SameCollection other)
    (c : Capabilities) (s : Stores) (x : Write) :
    other.slots (h.perform c s x).2 = other.slots s := by
  by_cases hb : other.backing = h.backing
  · exact slots_perform_of_other hb (fun hcollection => hother ⟨hb, hcollection.symm⟩) c s x
  · cases x with
    | insert d =>
        obtain ⟨issued, hinsert⟩ := h.insert_eq c d s
        have hsame : other.slots s = other.slots ⟨s.memory, s.rows, issued⟩ := rfl
        rw [perform, hinsert, hsame]
        exact slots_change_of_backing_ne hb _ _ _
    | update id fields => exact slots_change_of_backing_ne hb s _ _
    | increment id deltas => exact slots_change_of_backing_ne hb s _ _
    | delete id => exact slots_change_of_backing_ne hb s _ _

/-- Writes to one collection, made on empty stores, leave ids keys of every collection. -/
theorem nodup_keys_of_events (c : Capabilities) (h : Handle) (writes : List Write) (other : Handle) :
    ((other.slots (WriteEvent.latest Stores.empty (h.events c Stores.empty writes))).filterMap
      Slot.key).Nodup := by
  have hempty : ∀ handle : Handle, handle.slots Stores.empty = [] := by
    intro handle
    unfold slots
    cases handle.backing <;> rfl
  by_cases hsame : h.SameCollection other
  · rw [hsame.slots_eq]
    exact (run_events c (hempty h) writes).keys
  · induction writes with
    | nil => exact hempty other ▸ List.nodup_nil
    | cons x earlier ih =>
        show ((other.slots (h.perform c _ x).2).filterMap Slot.key).Nodup
        rw [slots_perform_of_not_sameCollection hsame]
        exact ih

/-- Writing to the document of an id changes nothing where there is none. -/
theorem sameDocuments_of_missing {h : Handle} {id : String} {s : Stores}
    (hmissing : h.found? id s = none) (c : Capabilities) (fields deltas : Document) :
    s.SameDocuments (h.update c id fields s).2 ∧ s.SameDocuments (h.increment c id deltas s).2 := by
  cases hb : h.backing with
  | memory =>
      have hnone : Memory.findById id (s.memoryAt h.collection) = none :=
        (findById_of_found? hb).symm.trans hmissing
      constructor
      · rw [Handle.update, sameDocuments_change_of_memory hb, Memory.update, hnone]
      · rw [Handle.increment, sameDocuments_change_of_memory hb, Memory.increment, hnone]
  | table =>
      have hnone : ∀ d, Table.findById h.collection id s.rows ≠ .ok (some d) := by
        intro d hd
        rw [findById_eq_ok_iff hb, hmissing] at hd
        cases hd
      constructor
      · rw [Handle.update, sameDocuments_change_of_table hb]
        exact Table.modify_of_missing _ _ _ _ hnone
      · rw [Handle.increment, sameDocuments_change_of_table hb]
        exact Table.modify_of_missing _ _ _ _ hnone

/-! ### A document in the place of another -/

/-- The stores with a document in the place of the one of an id. -/
def put (c : Capabilities) (h : Handle) (id : String) (new : Document) (s : Stores) : Stores :=
  match h.backing with
  | .memory =>
    ⟨s.memory.set h.collection (Memory.replace id new (s.memoryAt h.collection)), s.rows, s.issued⟩
  | .table =>
    ⟨s.memory, s.rows.map fun r =>
      if Table.isAt h.collection id r then { r with doc := c.codec new } else r, s.issued⟩

variable {c : Capabilities} {h : Handle} {id : String} {s : Stores} {d : Document}

theorem rewrites_put (c : Capabilities) (hkeys : ((h.slots s).filterMap Slot.key).Nodup)
    (hfound : h.found? id s = some d) (new : Document) :
    h.Rewrites c id d new s (h.put c id new s) := by
  unfold put
  cases hb : h.backing with
  | memory => exact rewrites_of_memory hb c hkeys hfound new
  | table => exact rewrites_of_table hb c hkeys hfound new

/-- An update of a document that is there is refused and changes nothing, or puts the new one in its
place. -/
theorem update_puts (c : Capabilities) (hfound : h.found? id s = some d) (fields : Document) :
    (∃ f, (h.update c id fields s).1 = .error f) ∨
    h.update c id fields s = (.ok true, h.put c id (Document.update d fields) s) := by
  rw [Handle.update, put]
  cases hb : h.backing with
  | memory =>
      rw [change_of_memory hb]
      rcases Memory.update_cases h.unique fields ((findById_of_found? hb).symm.trans hfound) with
        ⟨f, hrefused⟩ | ⟨hok, -⟩
      · exact Or.inl ⟨f, congrArg Prod.fst hrefused⟩
      · rw [hok]
        exact Or.inr rfl
  | table =>
      rw [change_of_table hb, Table.update]
      rcases Table.modify_cases c.codec h.collection h.unique
          (fun d => .ok (Document.update d fields)) ((findById_eq_ok_iff hb).mpr hfound) with
        ⟨f, hrefused⟩ | ⟨new, hnew, -, hok⟩
      · exact Or.inl ⟨f, congrArg Prod.fst hrefused⟩
      · cases hnew
        rw [hok]
        exact Or.inr rfl

/-- So does an increment by numbers. -/
theorem increment_puts (c : Capabilities) (hfound : h.found? id s = some d) {deltas : Document}
    (hdeltas : ∀ e ∈ deltas, e.2.double?.isSome) :
    (h.backing = .table ∧ ∃ f, (h.increment c id deltas s).1 = .error f) ∨
    h.increment c id deltas s = (.ok true, h.put c id (Document.increment d deltas).2 s) := by
  have hsum : Document.increment d deltas = (.ok (), (Document.increment d deltas).2) :=
    Prod.ext (Document.increment_of_numbers d hdeltas) rfl
  rw [Handle.increment, put]
  cases hb : h.backing with
  | memory =>
      rw [change_of_memory hb, Memory.increment, (findById_of_found? hb).symm.trans hfound]
      dsimp only
      rw [hsum]
      exact Or.inr rfl
  | table =>
      rw [change_of_table hb, Table.increment]
      rcases Table.modify_cases c.codec h.collection h.unique _
          ((findById_eq_ok_iff hb).mpr hfound) with ⟨f, hrefused⟩ | ⟨new, hnew, -, hok⟩
      · exact Or.inl ⟨rfl, f, congrArg Prod.fst hrefused⟩
      · rw [hsum] at hnew
        cases hnew
        rw [hok]
        exact Or.inr rfl

/-- After a document was put, a slot is an old one or holds it as it is kept. -/
theorem mem_slots_put {new : Document} {x : Slot} (hx : x ∈ h.slots (h.put c id new s)) :
    x ∈ h.slots s ∨ x.doc = h.kept c new := by
  unfold put kept at *
  cases hb : h.backing with
  | memory =>
      simp only [hb, slots_of_memory hb, Stores.memoryAt_set] at hx ⊢
      obtain ⟨d, hd, rfl⟩ := List.mem_map.mp hx
      rcases Memory.mem_replace hd with rfl | hd
      · exact Or.inr rfl
      · exact Or.inl (List.mem_map_of_mem hd)
  | table =>
      simp only [hb, slots_of_table hb] at hx ⊢
      obtain ⟨r, hr, rfl⟩ := List.mem_map.mp hx
      obtain ⟨hrow, hcollection⟩ := List.mem_filter.mp hr
      obtain ⟨old, hold, rfl⟩ := List.mem_map.mp hrow
      split
      · exact Or.inr rfl
      · rename_i hat
        rw [if_neg hat] at hcollection
        exact Or.inl (List.mem_map_of_mem (List.mem_filter.mpr ⟨hold, hcollection⟩))

/-- The document that was put is held as it is kept. -/
theorem exists_slot_put (c : Capabilities) (hfound : h.found? id s = some d) (new : Document) :
    ∃ x ∈ h.slots (h.put c id new s), x.doc = h.kept c new := by
  unfold put kept
  obtain ⟨before, after, hslots, hbefore⟩ := exists_slot_of_found? hfound
  cases hb : h.backing with
  | memory =>
      rw [slots_of_memory hb] at hslots
      obtain ⟨docs, rest, hdocs, rfl, hrest⟩ := List.map_eq_append_iff.mp hslots
      obtain ⟨old, docs', rfl, hold, rfl⟩ := List.map_eq_cons_iff.mp hrest
      have hreplace := Memory.replace_append (Document.hasId_iff.mpr (Slot.mk.inj hold).1) new docs'
        fun x hx hhas => hbefore _ (List.mem_map_of_mem hx) (Document.hasId_iff.mp hhas)
      simp only [slots_of_memory hb, Stores.memoryAt_set, hdocs, hreplace]
      exact ⟨⟨new.id?, .ok new⟩,
        List.mem_map_of_mem (f := fun d : Document => Slot.mk d.id? (.ok d))
          (List.mem_append_right _ List.mem_cons_self), rfl⟩
  | table =>
      have hmem : (⟨some id, .ok d⟩ : Slot) ∈ h.slots s :=
        hslots ▸ List.mem_append_right _ List.mem_cons_self
      rw [slots_of_table hb] at hmem
      obtain ⟨r, hr, hslot⟩ := List.mem_map.mp hmem
      obtain ⟨hrow, hcollection⟩ := List.mem_filter.mp hr
      have hat : Table.isAt h.collection id r = true := by
        rw [Table.isAt, hcollection, Option.some.inj (Slot.mk.inj hslot).1, beq_self_eq_true,
          Bool.true_and]
      have hnew := List.mem_map_of_mem (f := fun r =>
        if Table.isAt h.collection id r then { r with doc := c.codec new } else r) hrow
      rw [if_pos hat] at hnew
      simp only [slots_of_table hb]
      exact ⟨_, List.mem_map_of_mem (List.mem_filter.mpr ⟨hnew, hcollection⟩), rfl⟩

end Handle

/-! ### Where a target leads -/

/-- A path leads to a field of a document of a collection, whether the document is there or not. -/
structure Scope.Leads (s : Scope) (path : String) (h : Handle) (id key : String) : Prop where
  resolves : ∃ v e, s.variableAt path = .ok v ∧ v.id = some id ∧ v.key = key ∧
    s.directory.get v.entity = .ok e ∧ e.handle? = some h
  /-- The field is the last part of the path. -/
  last : (Text.splitAt '.' path).getLast? = some key

namespace Scope

variable {s : Scope} {path : String}

theorem userVariable_key {key : String} {v : Variable} (hv : s.userVariable key = .ok v) :
    v.key = key := by
  unfold userVariable at hv
  dsimp only at hv
  split at hv
  · cases hv
    rfl
  · obtain ⟨users, -, hv⟩ := Outcome.bind_eq_ok_iff.mp hv
    obtain ⟨attr, -, hv⟩ := Outcome.bind_eq_ok_iff.mp hv
    obtain ⟨value, -, hv⟩ := Outcome.bind_eq_ok_iff.mp hv
    cases hv
    rfl

theorem ownVariable_key {key : String} {v : Variable} (hv : s.ownVariable key = .ok v) :
    v.key = key := by
  obtain ⟨e, -, hv⟩ := Outcome.bind_eq_ok_iff.mp hv
  obtain ⟨attr, -, hv⟩ := Outcome.bind_eq_ok_iff.mp hv
  cases hv
  rfl

theorem referencedVariable_key {reference key : String} {v : Variable}
    (hv : s.referencedVariable reference key = .ok v) : v.key = key := by
  obtain ⟨e, -, hv⟩ := Outcome.bind_eq_ok_iff.mp hv
  obtain ⟨referring, -, hv⟩ := Outcome.bind_eq_ok_iff.mp hv
  obtain ⟨targetName, -, hv⟩ := Outcome.bind_eq_ok_iff.mp hv
  obtain ⟨target, -, hv⟩ := Outcome.bind_eq_ok_iff.mp hv
  obtain ⟨attr, -, hv⟩ := Outcome.bind_eq_ok_iff.mp hv
  obtain ⟨value, -, hv⟩ := Outcome.bind_eq_ok_iff.mp hv
  cases hv
  rfl

/-- The field of a variable is the last part of its path. -/
theorem getLast?_of_variableAt {v : Variable} (hv : s.variableAt path = .ok v) :
    (Text.splitAt '.' path).getLast? = some v.key := by
  unfold variableAt at hv
  split at hv
  · rename_i key hpath
    rw [hpath, userVariable_key hv]
    rfl
  · rename_i key hpath
    rw [hpath, ownVariable_key hv]
    rfl
  · rename_i reference key hpath
    rw [hpath, referencedVariable_key hv]
    rfl
  · cases hv

theorem configured_eq_ok_iff {α : Type} {found : Option α} {a : α} :
    configured found = .ok a ↔ found = some a := by
  cases found with
  | none => exact iff_of_false nofun nofun
  | some b => simp [configured]

/-- The attribute of a variable is the one that its field is declared with.  Only the ids of callers need
no declaration. -/
theorem attribute?_of_variableAt {v : Variable} (hv : s.variableAt path = .ok v) {e : Entity}
    (he : s.directory.get v.entity = .ok e) :
    e.attribute? v.key = some v.attr ∨ (v.key = idField ∧ e.attribute? idField = none) := by
  unfold variableAt at hv
  split at hv
  · rename_i key _
    unfold userVariable at hv
    dsimp only at hv
    split at hv
    · rename_i hkey
      cases hv
      cases hid : e.attribute? idField with
      | none => exact Or.inr ⟨hkey, rfl⟩
      | some a =>
          refine Or.inl ?_
          simp only [he, hkey, hid, Except.toOption, Option.bind_some, Option.getD_some]
    · obtain ⟨users, husers, hv⟩ := Outcome.bind_eq_ok_iff.mp hv
      obtain ⟨attr, hattr, hv⟩ := Outcome.bind_eq_ok_iff.mp hv
      obtain ⟨value, -, hv⟩ := Outcome.bind_eq_ok_iff.mp hv
      cases hv
      rw [configured_eq_ok_iff, Outcome.toOption_eq_some_iff, he] at husers
      cases husers
      exact Or.inl (configured_eq_ok_iff.mp hattr)
  · obtain ⟨own, hown, hv⟩ := Outcome.bind_eq_ok_iff.mp hv
    obtain ⟨attr, hattr, hv⟩ := Outcome.bind_eq_ok_iff.mp hv
    cases hv
    cases hown.symm.trans he
    exact Or.inl (configured_eq_ok_iff.mp hattr)
  · obtain ⟨own, -, hv⟩ := Outcome.bind_eq_ok_iff.mp hv
    obtain ⟨referring, -, hv⟩ := Outcome.bind_eq_ok_iff.mp hv
    obtain ⟨targetName, -, hv⟩ := Outcome.bind_eq_ok_iff.mp hv
    obtain ⟨target, htarget, hv⟩ := Outcome.bind_eq_ok_iff.mp hv
    obtain ⟨attr, hattr, hv⟩ := Outcome.bind_eq_ok_iff.mp hv
    obtain ⟨value, -, hv⟩ := Outcome.bind_eq_ok_iff.mp hv
    cases hv
    cases htarget.symm.trans he
    exact Or.inl (configured_eq_ok_iff.mp hattr)
  · cases hv

/-- A path leads to one place. -/
theorem Leads.unique {h h' : Handle} {id id' key key' : String} (hl : s.Leads path h id key)
    (hl' : s.Leads path h' id' key') : h' = h ∧ id' = id ∧ key' = key := by
  obtain ⟨⟨v, e, hv, hid, hkey, he, hh⟩, -⟩ := hl
  obtain ⟨⟨v', e', hv', hid', hkey', he', hh'⟩, -⟩ := hl'
  obtain rfl := Except.ok.inj (hv.symm.trans hv')
  obtain rfl := Except.ok.inj (he.symm.trans he')
  exact ⟨Option.some.inj (hh'.symm.trans hh), Option.some.inj (hid'.symm.trans hid),
    hkey'.symm.trans hkey⟩

end Scope

/-! ### What a hook comes down to -/

/-- How a hook comes to a write: its value is converted to the form of the field that its target
leads to. -/
structure Hook.Plans (s : Scope) (h : Hook) (w : HookWrite) (v : Variable) : Prop where
  target : s.variableAt h.target = .ok v
  id : v.id = some w.id
  key : v.key = w.key
  effect : w.effect = h.effect
  operand : ∃ resolved converted, s.resolve h.value = .ok resolved ∧
    v.attr.convert resolved = .ok converted ∧ h.effect.operand converted = .ok w.value
  stored : ∃ e, s.directory.get v.entity = .ok e ∧ e.handle? = some w.handle

/-- Why a hook has nothing to write: its condition does not hold, or its target has no id. -/
def Hook.Rests (s : Scope) (h : Hook) : Prop :=
  h.applies s = .ok false ∨ ∃ v, s.variableAt h.target = .ok v ∧ v.id = none

theorem Entity.store_eq_ok_iff {e : Entity} {h : Handle} : e.store = .ok h ↔ e.handle? = some h := by
  unfold Entity.store
  split
  · rename_i h' hh
    rw [hh, Except.ok.injEq, Option.some.injEq]
  · rename_i hh
    rw [hh]
    exact iff_of_false nofun nofun

namespace Hook

variable {s : Scope} {h : Hook}

theorem target?_cases {planned : Option HookWrite} (hplan : h.target? s = .ok planned) :
    (planned = none ∧ ∃ v, s.variableAt h.target = .ok v ∧ v.id = none) ∨
    ∃ w v, planned = some w ∧ h.Plans s w v := by
  obtain ⟨v, hv, hplan⟩ := Outcome.bind_eq_ok_iff.mp hplan
  split at hplan
  · rename_i hid
    exact Or.inl ⟨(Except.ok.inj hplan).symm, v, hv, hid⟩
  · rename_i id hid
    obtain ⟨resolved, hresolved, hplan⟩ := Outcome.bind_eq_ok_iff.mp hplan
    obtain ⟨converted, hconverted, hplan⟩ := Outcome.bind_eq_ok_iff.mp hplan
    obtain ⟨operand, hoperand, hplan⟩ := Outcome.bind_eq_ok_iff.mp hplan
    obtain ⟨e, he, hplan⟩ := Outcome.bind_eq_ok_iff.mp hplan
    obtain ⟨handle, hhandle, hplan⟩ := Outcome.bind_eq_ok_iff.mp hplan
    exact Or.inr ⟨⟨handle, id, h.effect, v.key, operand⟩, v, (Except.ok.inj hplan).symm,
      ⟨hv, hid, rfl, rfl, ⟨resolved, converted, hresolved, hconverted, hoperand⟩,
        e, he, Entity.store_eq_ok_iff.mp hhandle⟩⟩

/-- A hook that can be planned rests or comes to one write. -/
theorem plan_cases {planned : Option HookWrite} (hplan : h.plan s = .ok planned) :
    (planned = none ∧ h.Rests s) ∨
    ∃ w v, planned = some w ∧ h.applies s = .ok true ∧ h.Plans s w v := by
  obtain ⟨applies, happlies, hplan⟩ := Outcome.bind_eq_ok_iff.mp hplan
  split at hplan
  · rename_i htrue
    rw [htrue] at happlies
    rcases target?_cases hplan with ⟨hnone, hrests⟩ | ⟨w, v, hw, hplans⟩
    · exact Or.inl ⟨hnone, Or.inr hrests⟩
    · exact Or.inr ⟨w, v, hw, happlies, hplans⟩
  · rename_i hfalse
    rw [Bool.eq_false_iff.mpr hfalse] at happlies
    exact Or.inl ⟨(Except.ok.inj hplan).symm, Or.inl happlies⟩

theorem Plans.leads {w : HookWrite} {v : Variable} (hp : h.Plans s w v) :
    s.Leads h.target w.handle w.id w.key := by
  obtain ⟨e, he, hh⟩ := hp.stored
  refine ⟨⟨v, e, hp.target, hp.id, hp.key, he, hh⟩, ?_⟩
  rw [Scope.getLast?_of_variableAt hp.target, hp.key]

theorem Plans.not_rests {w : HookWrite} {v : Variable} (hp : h.Plans s w v)
    (happlies : h.applies s = .ok true) : ¬ h.Rests s := by
  rintro (hfalse | ⟨v', hv', hnone⟩)
  · rw [happlies] at hfalse
    cases hfalse
  · obtain rfl := Except.ok.inj (hp.target.symm.trans hv')
    rw [hp.id] at hnone
    cases hnone

/-- What an increment adds is a number. -/
theorem Plans.double? {w : HookWrite} {v : Variable} (hp : h.Plans s w v)
    (hincrement : w.effect = .increment) : w.value.double?.isSome := by
  obtain ⟨resolved, converted, -, -, hoperand⟩ := hp.operand
  rw [← hp.effect, hincrement, Effect.operand] at hoperand
  split at hoperand
  · rw [← Except.ok.inj hoperand]
    rfl
  · cases hoperand

end Hook

/-! ### Carrying out the write -/

/-- The whole number that a field holds; a missing one is counted from zero. -/
def Document.amount? (d : Document) (field : String) : Option Int :=
  match d.get? field with
  | none => some 0
  | some v => v.integer?

namespace HookWrite

/-- The write to a store that it is. -/
def write (w : HookWrite) : Write :=
  match w.effect with
  | .set => .update w.id [(w.key, w.value)]
  | .increment => .increment w.id [(w.key, w.value)]

/-- What it makes of a document. -/
def turn (w : HookWrite) (d : Document) : Document :=
  match w.effect with
  | .set => Document.update d [(w.key, w.value)]
  | .increment => (Document.increment d [(w.key, w.value)]).2

/-- A write that adds numbers only. -/
def AddsNumber (w : HookWrite) : Prop := w.effect = .increment → w.value.double?.isSome

theorem perform_stores (c : Capabilities) (w : HookWrite) (s : Stores) :
    (w.perform c s).2 = (w.handle.perform c s w.write).2 := by
  unfold perform write
  cases w.effect <;> rfl

@[simp] theorem perform_issued (c : Capabilities) (w : HookWrite) (s : Stores) :
    (w.perform c s).2.issued = s.issued := by
  rw [perform_stores, Handle.perform_issued]
  unfold write
  cases w.effect <;> rfl

theorem nodup_names (w : HookWrite) : (Dict.names [(w.key, w.value)]).Nodup :=
  List.pairwise_singleton _ w.key

/-- The fields that a hook does not aim at are left as they are. -/
theorem get?_turn_of_ne (w : HookWrite) (d : Document) {name : String} (hname : name ≠ w.key) :
    (w.turn d).get? name = d.get? name := by
  unfold turn
  cases w.effect with
  | set =>
      show (Document.update d [(w.key, w.value)]).get? name = d.get? name
      rw [Document.get?_update d w.nodup_names, Dict.get?_cons, if_neg (Ne.symm hname)]
      split
      · rfl
      · rfl
  | increment =>
      refine Document.get?_increment_of_not_mem_names d fun hmem => hname ?_
      exact List.mem_singleton.mp hmem

/-- A field that is set has the value, unless it is the id. -/
theorem get?_turn_of_set {w : HookWrite} (heffect : w.effect = .set) (d : Document) :
    (w.turn d).get? w.key = if w.key = idField then d.get? w.key else some w.value := by
  rw [turn, heffect]
  dsimp only
  rw [Document.get?_update d w.nodup_names, Dict.get?_cons, if_pos rfl, Option.some_or]

/-- A field that is incremented has the sum, counted from zero where it has no number. -/
theorem get?_turn_of_increment {w : HookWrite} (heffect : w.effect = .increment) {x : Double}
    (hx : w.value.double? = some x) (d : Document) :
    (w.turn d).get? w.key =
      some (Json.ofDouble?
        ((((d.get? w.key).bind Json.double?).getD (Double.zero false)).add? x)) := by
  rw [turn, heffect]
  refine Document.get?_increment d w.nodup_names (fun e he => ?_) ?_ hx
  · rw [List.mem_singleton.mp he, hx]
    rfl
  · rw [Dict.get?_cons, if_pos rfl]

/-- A whole number that is added to one goes up to 2 ^ 53 without rounding. -/
theorem get?_turn_of_amount {w : HookWrite} (heffect : w.effect = .increment) {x : Double}
    (hx : w.value.double? = some x) {d : Document} {m n : Int} (hm : d.amount? w.key = some m)
    (hn : x.value = n) (hstart : |m| ≤ 2 ^ 53) (hsum : |m + n| ≤ 2 ^ 53) :
    (w.turn d).get? w.key = some (Json.ofInt (m + n)) := by
  have hcurrent : (((d.get? w.key).bind Json.double?).getD (Double.zero false)).value = m := by
    unfold Document.amount? at hm
    cases hget : d.get? w.key with
    | none =>
        rw [hget] at hm
        rw [← Option.some.inj hm]
        exact Double.value_zero false
    | some v =>
        rw [hget] at hm
        obtain ⟨y, hy, hvalue⟩ := Json.exists_double hm hstart
        rw [Option.bind_some, hy, Option.getD_some, hvalue]
  rw [get?_turn_of_increment heffect hx, Json.ofDouble?_add hcurrent hn hsum]

theorem id?_turn (w : HookWrite) (d : Document) :
    (w.turn d).id? = d.id? ∨ (w.turn d).id? = none := by
  unfold turn
  cases w.effect with
  | set => exact Or.inl (Document.id?_update d _)
  | increment =>
      dsimp only
      rw [Document.id?_increment]
      split
      · exact Or.inr rfl
      · exact Or.inl rfl

/-- The document is found where it was, or nowhere if its id was added to. -/
theorem slot_key_turn (c : Capabilities) {w : HookWrite} {s : Stores} {d : Document}
    (hmem : (⟨some w.id, .ok d⟩ : Slot) ∈ w.handle.slots s) :
    (w.handle.slot c w.id (w.turn d)).key = some w.id ∨
      (w.handle.slot c w.id (w.turn d)).key = none := by
  rcases w.id?_turn d with hid | hid
  · exact Or.inl (Handle.slot_key_of_id?_eq c hmem hid)
  · unfold Handle.slot
    cases w.handle.backing with
    | memory => exact Or.inr hid
    | table => exact Or.inl rfl

/-- How a write is carried out: there is no document for it, or it is refused, or it puts what it
makes of the document in its place. -/
inductive Step (c : Capabilities) (w : HookWrite) (s : Stores) : Prop
  | missing (none : w.handle.found? w.id s = none) (same : s.SameDocuments (w.perform c s).2)
  | refused {f : Failure} (answer : (w.perform c s).1 = .error f)
      (same : s.SameDocuments (w.perform c s).2)
  | puts {d : Document} (found : w.handle.found? w.id s = some d)
      (step : w.perform c s = (.ok true, w.handle.put c w.id (w.turn d) s))

theorem step {w : HookWrite} (hadds : w.AddsNumber) (c : Capabilities) (s : Stores) : Step c w s := by
  have hstores := w.perform_stores c s
  cases hfound : w.handle.found? w.id s with
  | none =>
      have hsame := Handle.sameDocuments_of_missing hfound c [(w.key, w.value)] [(w.key, w.value)]
      refine .missing hfound ?_
      unfold perform
      cases w.effect with
      | set => exact hsame.1
      | increment => exact hsame.2
  | some d =>
      unfold AddsNumber at hadds
      have hputs : (∃ f, (w.perform c s).1 = .error f ∧ s.SameDocuments (w.perform c s).2) ∨
          w.perform c s = (.ok true, w.handle.put c w.id (w.turn d) s) := by
        unfold perform turn
        cases heffect : w.effect with
        | set =>
            rcases Handle.update_puts c hfound [(w.key, w.value)] with ⟨f, hrefused⟩ | hputs
            · exact Or.inl ⟨f, hrefused, Handle.update_keeps_documents hrefused⟩
            · exact Or.inr hputs
        | increment =>
            have hdeltas : ∀ e ∈ [(w.key, w.value)], e.2.double?.isSome := by
              intro e he
              rw [List.mem_singleton.mp he]
              exact hadds heffect
            rcases Handle.increment_puts c hfound hdeltas with ⟨hb, f, hrefused⟩ | hputs
            · exact Or.inl ⟨f, hrefused, Handle.increment_keeps_documents_of_table hb hrefused⟩
            · exact Or.inr hputs
      rcases hputs with ⟨f, hrefused, hsame⟩ | hputs
      · exact .refused hrefused hsame
      · exact .puts hfound hputs

/-- Ids stay keys of every collection. -/
theorem nodup_keys {w : HookWrite} (hadds : w.AddsNumber) (c : Capabilities) {s : Stores}
    (hkeys : ∀ h : Handle, ((h.slots s).filterMap Slot.key).Nodup) (h : Handle) :
    ((h.slots (w.perform c s).2).filterMap Slot.key).Nodup := by
  by_cases hsame : w.handle.SameCollection h
  · rw [hsame.slots_eq]
    cases w.step hadds c s with
    | missing _ same => exact same.slots_eq w.handle ▸ hkeys w.handle
    | refused _ same => exact same.slots_eq w.handle ▸ hkeys w.handle
    | @puts d found step =>
        have hrewrites := Handle.rewrites_put c (hkeys w.handle) found (w.turn d)
        have hkey := w.slot_key_turn c hrewrites.mem_slots
        obtain ⟨before, after, hslots, hslots', -⟩ := hrewrites
        rw [step, hslots']
        have hbefore := hkeys w.handle
        rw [hslots] at hbefore
        exact hbefore.sublist (Handle.keys_sublist_of_rewritten rfl hkey)
  · rw [perform_stores, Handle.slots_perform_of_not_sameCollection hsame]
    exact hkeys h

end HookWrite

end Curator
