/-
Collections whose documents come back with their ids.

A document that was inserted has distinct names and its id among them, and neither an update nor an
increment changes that.  So what a table keeps of it is legible: all its names come back, with the words
and strings among its values.  What is known of words and strings in written documents is therefore
known of all documents of a collection, whichever store they are in.

That the id comes back with a document is one of these things.  As long as no increment adds to an id,
a collection stays one in which each document is found under its own (`Slot.Orderly`).
-/
import Curator.Proofs.Json.ReadBack
import Curator.Proofs.Store.Writes
import Curator.Store.Identifier

namespace Curator

/-- Names do not repeat in a document, and one of them is the id's. -/
structure Document.Named (d : Document) : Prop where
  distinct : d.names.Nodup
  id : idField ∈ d.names

namespace Document

namespace Named

variable {d : Document}

theorem update (hd : d.Named) (fields : Document) : Named (Document.update d fields) := by
  refine ⟨Dict.nodup_names_merge hd.distinct, ?_⟩
  by_contra hnone
  have hlost := (Dict.get?_eq_none_iff _ _).mpr hnone
  have hkept : idField ∉ Dict.names (fields.filter fun e => e.1 != idField) := by simp [Dict.names]
  rw [Document.update, Dict.get?_merge_of_not_mem_names _ hkept, Dict.get?_eq_none_iff] at hlost
  exact hlost hd.id

theorem increment (hd : d.Named) (deltas : Document) : Named (Document.increment d deltas).2 := by
  induction deltas generalizing d with
  | nil => exact hd
  | cons e deltas ih =>
      rw [Document.increment]
      split
      · exact hd
      · exact ih ⟨Dict.nodup_names_set hd.distinct _ _, Dict.mem_names_set.mpr (.inr hd.id)⟩

end Named

theorem named_set_idField {d : Document} (hd : d.names.Nodup) (id : String) :
    Named (d.set idField (.string id)) :=
  ⟨Dict.nodup_names_set hd _ _, Dict.mem_names_set.mpr (.inl rfl)⟩

end Document

namespace Handle

variable {c : Capabilities} {h : Handle}

/-- What is kept of a document has its names, and its values where these are words and strings. -/
theorem named_of_kept (hc : h.backing = .table → c.Legible) {d k : Document} (hd : d.Named)
    (hk : h.kept c d = .ok k) :
    k.Named ∧ ∀ name, (d.value name).isPlain = true → k.value name = d.value name := by
  have hfields : k.names = d.names ∧
      ∀ name v, d.get? name = some v → v.isPlain = true → k.get? name = some v := by
    cases hb : h.backing with
    | memory =>
        rw [kept, hb] at hk
        cases hk
        exact ⟨rfl, fun _ _ hv _ => hv⟩
    | table =>
        rw [kept, hb] at hk
        exact hc hb hd.distinct hd.id hk
  obtain ⟨hnames, hvalues⟩ := hfields
  refine ⟨⟨hnames ▸ hd.distinct, hnames ▸ hd.id⟩, fun name hplain => ?_⟩
  rw [Document.value, Document.value]
  cases hv : d.get? name with
  | some v =>
      rw [Document.value, hv] at hplain
      rw [hvalues name v hv hplain]
  | none =>
      rw [Dict.get?_eq_none_iff, ← hnames, ← Dict.get?_eq_none_iff] at hv
      rw [hv]

/-- What holds of all documents holds of them after a write that left one of which it holds. -/
theorem forall_held_of_writeStep {P : Document → Prop} {ev : WriteEvent}
    (hstep : WriteStep c h ev) (hbefore : ∀ d ∈ h.held ev.before, P d)
    (hleft : ∀ id d k, Leaves c h ev id d → h.kept c d = .ok k → P k) :
    ∀ d ∈ h.held ev.after, P d := by
  have hslots : ∀ x ∈ h.slots ev.before, ∀ d, x.doc = .ok d → P d := fun x hx d hd =>
    hbefore d (List.mem_filterMap.mpr ⟨x, hx, Outcome.toOption_eq_some_iff.mpr hd⟩)
  intro d hd
  obtain ⟨x, hx, hdoc⟩ := List.mem_filterMap.mp hd
  rw [Outcome.toOption_eq_some_iff] at hdoc
  cases hstep with
  | quiet _ same _ _ => exact hslots x (same ▸ hx) d hdoc
  | @leaves id d' _ left =>
      rcases left.mem_after hx with rfl | hx
      · exact hleft id d' d left ((slot_doc c h id d').symm.trans hdoc)
      · exact hslots x hx d hdoc
  | deletes _ slots =>
      rw [slots] at hx
      exact hslots x (List.mem_filter.mp hx).1 d hdoc

/-- A write leaves a document with distinct names and an id. -/
theorem Leaves.named {ev : WriteEvent} {id : String} {d : Document} (hleft : Leaves c h ev id d)
    (hheld : ∀ d ∈ h.held ev.before, Document.Named d)
    (hbrought : ∀ d, ev.write = .insert d → d.names.Nodup) : d.Named := by
  cases hleft with
  | @inserted brought write _ sets _ _ _ =>
      rw [sets]
      exact Document.named_set_idField (hbrought brought write) id
  | @rewritten old turns rewrites _ =>
      have hold : Document.Named old :=
        hheld old (List.mem_filterMap.mpr ⟨_, rewrites.mem_slots, rfl⟩)
      rcases turns with ⟨fields, -, rfl⟩ | ⟨deltas, -, rfl⟩
      · exact hold.update fields
      · exact hold.increment deltas

end Handle

/-! ### Documents under their ids -/

/-- Every place is found by an id that no other one has, and a document that can be read is one of that
id. -/
structure Slot.Orderly (slots : List Slot) : Prop where
  keys : (slots.filterMap Slot.key).Nodup
  valid : ∀ x ∈ slots, ∃ id, x.key = some id ∧ isValidId id = true
  named : ∀ x ∈ slots, ∀ d, x.doc = .ok d → d.Named ∧ d.id? = x.key

/-- A write that brings no id, and adds to none. -/
def Write.Spares : Write → Prop
  | .insert d => d.names.Nodup ∧ d.id? = none
  | .update _ _ => True
  | .increment _ deltas => idField ∉ deltas.names
  | .delete _ => True

namespace Slot.Orderly

variable {c : Capabilities} {h : Handle} {s : Stores}

theorem nil : Slot.Orderly [] := ⟨.nil, nofun, nofun⟩

theorem filed (ho : Slot.Orderly (h.slots s)) : h.Filed s :=
  ⟨ho.keys, fun x hx d hd => (ho.named x hx d hd).2⟩

theorem forall_held (ho : Slot.Orderly (h.slots s)) : ∀ d ∈ h.held s, Document.Named d := by
  intro d hd
  obtain ⟨x, hx, hdoc⟩ := List.mem_filterMap.mp hd
  exact (ho.named x hx d (Outcome.toOption_eq_some_iff.mp hdoc)).1

/-- A document is kept with its id. -/
theorem named_of_kept (hc : h.backing = .table → c.Legible) {d k : Document} (hd : d.Named)
    {id : String} (hid : d.id? = some id) (hk : h.kept c d = .ok k) : k.Named ∧ k.id? = some id := by
  obtain ⟨hnamed, hplain⟩ := Handle.named_of_kept hc hd hk
  obtain ⟨v, hv, hstring⟩ := Option.bind_eq_some_iff.mp hid
  cases v with
  | string t =>
      obtain rfl : t = id := Option.some.inj hstring
      have hvalue := hplain idField (by rw [Document.value, hv]; rfl)
      rw [Document.value, Document.value, hv] at hvalue
      refine ⟨hnamed, ?_⟩
      cases hk : k.get? idField with
      | none =>
          rw [hk] at hvalue
          cases hvalue
      | some w =>
          rw [hk] at hvalue
          rw [Document.id?, hk, show w = .string t from hvalue]
          rfl
  | _ => cases hstring

/-- The id that a document is left under is a valid one, and its own. -/
theorem id?_left (ho : Slot.Orderly (h.slots s)) (hids : ∀ n, isValidId (c.issueId n) = true)
    {x : Write} (hx : x.Spares) {id : String} {d : Document}
    (hwritten : h.written (h.writeEvent c s x) = some (id, d))
    (hleft : Handle.Leaves c h (h.writeEvent c s x) id d) :
    d.id? = some id ∧ isValidId id = true := by
  have hspares : h.Spares idField (h.writeEvent c s x) := by
    refine Handle.spares_of_not_mem fun id' deltas hincrement => ?_
    obtain rfl : x = .increment id' deltas := hincrement
    exact hx
  have hfiled : h.Filed (h.writeEvent c s x).before := ho.filed
  have hid : d.id? = some id := by
    rcases hfiled.id?_left hwritten hleft with ⟨-, hid⟩ | ⟨hadds, -⟩
    · exact hid
    · exact absurd hspares hadds
  refine ⟨hid, ?_⟩
  cases hleft with
  | @inserted brought write answer _ _ _ _ =>
      obtain rfl : x = .insert brought := write
      rcases h.insert_cases c brought s with ⟨f, s', hinsert, -⟩ | ⟨s', hinsert, -⟩
      · rw [Handle.writeEvent, Handle.perform, hinsert] at answer
        cases answer
      · rw [Handle.writeEvent, Handle.perform, hinsert] at answer
        cases answer
        rw [Document.id?_set_idField, Handle.idFor, hx.2] at hid
        exact Option.some.inj hid ▸ hids s.issued
  | rewritten _ rewrites _ =>
      obtain ⟨id', hkey, hvalid⟩ := ho.valid _ rewrites.mem_slots
      exact Option.some.inj hkey ▸ hvalid

/-- Writes that bring no ids keep documents under theirs. -/
theorem perform (ho : Slot.Orderly (h.slots s)) (hc : h.backing = .table → c.Legible)
    (hids : ∀ n, isValidId (c.issueId n) = true) {x : Write} (hx : x.Spares) :
    Slot.Orderly (h.slots (h.perform c s x).2) := by
  have hafter : (h.perform c s x).2 = (h.writeEvent c s x).after := rfl
  have hfiled : h.Filed (h.writeEvent c s x).before := ho.filed
  rw [hafter]
  cases ho.filed.writeStep c x with
  | quiet _ same _ _ => exact same.symm ▸ ho
  | @leaves id d writes left =>
      obtain ⟨hid, hvalid⟩ := ho.id?_left hids hx writes left
      have hnamed : d.Named := by
        refine left.named ho.forall_held ?_
        rintro brought rfl
        exact hx.1
      refine ⟨hfiled.keys_left writes left, ?_, ?_⟩
      · intro y hy
        rcases left.mem_after hy with rfl | hy
        · exact ⟨id, Handle.slot_key c hid, hvalid⟩
        · exact ho.valid y hy
      · intro y hy k hk
        rcases left.mem_after hy with rfl | hy
        · rw [Handle.slot_doc] at hk
          rw [Handle.slot_key c hid]
          exact named_of_kept hc hnamed hid hk
        · exact ho.named y hy k hk
  | deletes _ slots =>
      rw [slots]
      exact ⟨ho.keys.sublist (List.filter_sublist.filterMap _),
        fun y hy => ho.valid y (List.mem_filter.mp hy).1,
        fun y hy => ho.named y (List.mem_filter.mp hy).1⟩

end Slot.Orderly

end Curator
