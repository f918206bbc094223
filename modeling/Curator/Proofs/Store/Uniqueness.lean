/-
Unique fields hold distinct values, over any run of writes.

Two documents are apart when they hold no equal values in a unique field, and a collection is distinct
when its documents are pairwise apart.  A write leaves one document at most, so whether the collection
stays distinct rests on that one: `Handle.Clear` says that what the write left reads back apart from the
documents of other ids.  A run is distinct throughout exactly when every write was clear.

The stores see to that by a check, but the check has two gaps.  It is made on the document as it is
written, so in a table it says nothing about a value that reads back as another.  And an increment in
memory does not make it.  Everywhere else the check passes only clear writes.
-/
import Curator.Proofs.Json.Equality
import Curator.Proofs.Store.Writes
import Mathlib.Data.List.Pairwise

namespace Curator

namespace Document

/-- Two documents hold no equal values in a unique field. -/
def Apart (unique : List String) (d other : Document) : Prop :=
  ∀ field ∈ unique, collides d other field = false ∧ collides other d field = false

instance (unique : List String) (d other : Document) : Decidable (Apart unique d other) :=
  inferInstanceAs (Decidable (∀ field ∈ unique, _))

theorem Apart.symm {unique : List String} {d other : Document} (h : Apart unique d other) :
    Apart unique other d :=
  fun field hfield => (h field hfield).symm

instance (unique : List String) : Std.Symm (Apart unique) := ⟨fun _ _ h => h.symm⟩

/-- Only the unique fields tell whether two documents are apart. -/
theorem Apart.of_get? {unique : List String} {d k other : Document} (h : Apart unique d other)
    (hk : ∀ field ∈ unique, k.get? field = d.get? field) : Apart unique k other := by
  intro field hfield
  have hboth := h field hfield
  unfold collides at hboth ⊢
  rwa [hk field hfield]

theorem sameId_eq_false {d other : Document} {id : String} (hd : d.id? = some id)
    (hother : other.id? ≠ some id) : sameId other d = false := by
  obtain ⟨v, hv, hid⟩ := Option.bind_eq_some_iff.mp hd
  obtain rfl : v = .string id := by
    cases v with
    | string s => exact congrArg Json.string (Option.some.inj hid)
    | _ => cases hid
  unfold sameId
  rw [hv]
  cases hw : other.get? idField with
  | none => rfl
  | some w =>
      cases w with
      | string s =>
          have hne : s ≠ id := by
            rintro rfl
            exact hother (by rw [id?, hw]; rfl)
          exact beq_eq_false_iff_ne.mpr hne
      | _ => rfl

/-- What passes the check collides with no document of another id. -/
theorem collides_eq_false_of_checkUnique {unique : List String} {d : Document} {id : String}
    {others : List Document} (hchecked : checkUnique unique d others = .ok ())
    (hid : d.id? = some id) :
    ∀ other ∈ others, other.id? ≠ some id → ∀ field ∈ unique, collides d other field = false := by
  intro other hother hne field hfield
  unfold checkUnique at hchecked
  split at hchecked
  · cases hchecked
  · rename_i hnone
    have hfree := List.findSome?_eq_none_iff.mp hnone other hother
    rw [sameId_eq_false hid hne, if_neg Bool.false_ne_true] at hfree
    exact Bool.eq_false_iff.mpr (List.find?_eq_none.mp hfree field hfield)

end Document

/-- A write that brings no repeated names. -/
def Write.Settled : Write → Prop
  | .insert d => d.Settled
  | .update _ fields => fields.Settled
  | _ => True

namespace Handle

/-- The documents of a collection are pairwise apart. -/
def Distinct (h : Handle) (s : Stores) : Prop :=
  (h.held s).Pairwise (Document.Apart h.unique)

instance (h : Handle) (s : Stores) : Decidable (h.Distinct s) :=
  inferInstanceAs (Decidable (List.Pairwise _ _))

/-- What a write left in the collection reads back apart from all documents of other ids. -/
def Clear (c : Capabilities) (h : Handle) (ev : WriteEvent) : Prop :=
  ∀ id d k, h.written ev = some (id, d) → h.kept c d = .ok k →
    ∀ other ∈ h.held ev.before, other.id? ≠ some id → Document.Apart h.unique k other

/-- What a write left in the collection reads back in a relation to all documents of other ids. -/
def LeavesRelated (R : Document → Document → Prop) (c : Capabilities) (h : Handle)
    (ev : WriteEvent) : Prop :=
  ∀ id d k, h.written ev = some (id, d) → h.kept c d = .ok k →
    ∀ other ∈ h.held ev.before, other.id? ≠ some id → R k other

/-- What a write left in the collection reads back with the unique fields that it was written with. -/
def KeepsUnique (c : Capabilities) (h : Handle) (ev : WriteEvent) : Prop :=
  ∀ id d k, h.written ev = some (id, d) → h.kept c d = .ok k →
    ∀ field ∈ h.unique, k.get? field = d.get? field

theorem keepsUnique_of_memory {h : Handle} (hb : h.backing = .memory) (c : Capabilities)
    (ev : WriteEvent) : h.KeepsUnique c ev := by
  intro id d k _ hk field _
  rw [kept, hb] at hk
  cases hk
  rfl

/-! ### What a write leaves to be read -/

theorem mem_held_of_mem_slots {h : Handle} {s : Stores} {key : Option String} {d : Document}
    (hmem : (⟨key, .ok d⟩ : Slot) ∈ h.slots s) : d ∈ h.held s :=
  List.mem_filterMap.mpr ⟨_, hmem, rfl⟩

/-- Among the documents of other slots none has the id of a slot. -/
theorem filter_held_of_keys {part : List Slot} {id : String}
    (hids : ∀ x ∈ part, ∀ d, x.doc = .ok d → d.id? = x.key) (hkeys : ∀ x ∈ part, x.key ≠ some id) :
    (part.filterMap fun x => x.doc.toOption).filter (fun d => d.id? ≠ some id) =
      part.filterMap fun x => x.doc.toOption := by
  refine List.filter_eq_self.mpr fun d hd => ?_
  obtain ⟨x, hx, hdoc⟩ := List.mem_filterMap.mp hd
  rw [decide_eq_true_iff, hids x hx d (Outcome.toOption_eq_some_iff.mp hdoc)]
  exact hkeys x hx

/-- The documents after one was left: that one, if it can be read, beside those of other ids. -/
theorem held_perm_of_left {c : Capabilities} {h : Handle} {ev : WriteEvent} (hf : h.Filed ev.before)
    {id : String} {d : Document} (hleft : Leaves c h ev id d) :
    (h.held ev.after).Perm ((h.kept c d).toOption.toList ++
      (h.held ev.before).filter fun other => other.id? ≠ some id) := by
  have hnew : ∀ others : List Slot,
      (h.slot c id d :: others).filterMap (fun x => x.doc.toOption) =
        (h.kept c d).toOption.toList ++ others.filterMap fun x => x.doc.toOption := by
    intro others
    rw [List.filterMap_cons, slot_doc]
    cases h.kept c d <;> rfl
  cases hleft with
  | inserted _ _ _ fresh _ slots =>
      rw [held, held, slots, List.filterMap_append, filter_held_of_keys hf.ids fresh, hnew,
        List.filterMap_nil, List.append_nil]
      exact List.perm_append_comm
  | @rewritten old _ rewrites _ =>
      have hold : Document.id? old = some id := hf.ids _ rewrites.mem_slots old rfl
      obtain ⟨before, after, hbefore, hafter, hother⟩ := rewrites
      have hids : ∀ x ∈ before ++ after, ∀ d, x.doc = .ok d → Document.id? d = x.key := by
        intro x hx
        refine hf.ids x ?_
        rw [hbefore]
        exact List.perm_middle.mem_iff.mpr (List.mem_cons_of_mem _ hx)
      have hcons : (Slot.mk (some id) (.ok old) :: after).filterMap (fun x => x.doc.toOption) =
          old :: after.filterMap fun x => x.doc.toOption := List.filterMap_cons_some rfl
      have hkept := filter_held_of_keys hids hother
      rw [List.filterMap_append, List.filter_append] at hkept
      have hothers : (h.held ev.before).filter (fun other => other.id? ≠ some id) =
          (before ++ after).filterMap fun x => x.doc.toOption := by
        rw [held, hbefore, List.filterMap_append, hcons, List.filter_append,
          List.filter_cons_of_neg (by simp [hold]), hkept, List.filterMap_append]
      rw [held, hafter, hothers, ← hnew]
      exact List.perm_middle.filterMap _

/-- The documents after a write: some of those before, or besides what was left. -/
theorem held_of_writeStep {c : Capabilities} {h : Handle} {ev : WriteEvent}
    (hf : h.Filed ev.before) (hstep : WriteStep c h ev) :
    (h.written ev = none ∧ (h.held ev.after).Sublist (h.held ev.before)) ∨
    ∃ id d, h.written ev = some (id, d) ∧
      (h.held ev.after).Perm ((h.kept c d).toOption.toList ++
        (h.held ev.before).filter fun other => other.id? ≠ some id) := by
  cases hstep with
  | quiet nothing same _ _ =>
      refine Or.inl ⟨nothing, ?_⟩
      rw [held, held, same]
  | @leaves id d writes left => exact Or.inr ⟨id, d, writes, held_perm_of_left hf left⟩
  | deletes write slots =>
      refine Or.inl ⟨by simp only [written, write], ?_⟩
      rw [held, held, slots]
      exact List.filter_sublist.filterMap _

/-- A write that looks for collisions found none. -/
theorem Leaves.checkUnique {c : Capabilities} {h : Handle} {ev : WriteEvent} {id : String}
    {d : Document} (hleft : Leaves c h ev id d) (hchecks : h.Checks ev) :
    Document.checkUnique h.unique d (h.held ev.before) = .ok () := by
  cases hleft with
  | inserted _ _ _ _ checked _ => exact checked
  | rewritten _ _ checked => exact checked hchecks

/-- What a write leaves is settled when what it brings is. -/
theorem Leaves.settled {c : Capabilities} {h : Handle} {ev : WriteEvent} {id : String}
    {d : Document} (hleft : Leaves c h ev id d)
    (hheld : ∀ d ∈ h.held ev.before, Document.Settled d) (hbrought : ev.write.Settled) :
    Document.Settled d := by
  cases hleft with
  | inserted write _ sets _ _ _ =>
      rw [write] at hbrought
      rw [sets]
      exact Document.Settled.set hbrought idField (.string id)
  | @rewritten old turns rewrites _ =>
      have hold : Document.Settled old := hheld old (mem_held_of_mem_slots rewrites.mem_slots)
      rcases turns with ⟨fields, hw, rfl⟩ | ⟨deltas, hw, rfl⟩
      · rw [hw] at hbrought
        exact hold.update hbrought
      · exact hold.increment deltas

/-! ### When a write keeps a collection distinct -/

section Step

variable {c : Capabilities} {h : Handle} {ev : WriteEvent}

/-- Documents that are pairwise related stay so under a write exactly when what it left reads back
related to the others. -/
theorem pairwise_iff_of_writeStep {R : Document → Document → Prop}
    (hsymm : ∀ {d other}, R d other → R other d) (hf : h.Filed ev.before) (hstep : WriteStep c h ev)
    (hd : (h.held ev.before).Pairwise R) :
    (h.held ev.after).Pairwise R ↔ h.LeavesRelated R c ev := by
  rcases held_of_writeStep hf hstep with ⟨hnothing, hless⟩ | ⟨id, d, hwritten, hperm⟩
  · refine iff_of_true (hd.sublist hless) ?_
    intro id d k hwritten
    rw [hnothing] at hwritten
    cases hwritten
  · have hothers : ((h.held ev.before).filter fun other => other.id? ≠ some id).Pairwise R :=
      hd.sublist List.filter_sublist
    rw [hperm.pairwise_iff hsymm]
    cases hk : h.kept c d with
    | error f =>
        refine iff_of_true hothers ?_
        intro id' d' k hwritten' hk'
        rw [hwritten] at hwritten'
        cases hwritten'
        rw [hk] at hk'
        cases hk'
    | ok k =>
        have hcons : (Except.ok k : Except Failure Document).toOption.toList ++
            (h.held ev.before).filter (fun other => other.id? ≠ some id) =
            k :: (h.held ev.before).filter fun other => other.id? ≠ some id := rfl
        rw [hcons, List.pairwise_cons]
        constructor
        · rintro ⟨hrelated, -⟩ id' d' k' hwritten' hk' other hother hne
          rw [hwritten] at hwritten'
          cases hwritten'
          rw [hk] at hk'
          cases hk'
          exact hrelated other (List.mem_filter.mpr ⟨hother, decide_eq_true hne⟩)
        · intro hleaves
          refine ⟨fun other hother => ?_, hothers⟩
          obtain ⟨hmem, hne⟩ := List.mem_filter.mp hother
          exact hleaves id d k hwritten hk other hmem (of_decide_eq_true hne)

/-- A distinct collection stays so under a write exactly when the write is clear. -/
theorem distinct_iff_clear_of_writeStep (hf : h.Filed ev.before) (hstep : WriteStep c h ev)
    (hd : h.Distinct ev.before) : h.Distinct ev.after ↔ h.Clear c ev :=
  pairwise_iff_of_writeStep Document.Apart.symm hf hstep hd

/-- What a write that looks for collisions left collides with no document of another id. -/
theorem collides_eq_false_of_checks (hf : h.Filed ev.before) (hstep : WriteStep c h ev)
    (hchecks : h.Checks ev) (hspares : h.Spares idField ev) {id : String} {d : Document}
    (hwritten : h.written ev = some (id, d)) {other : Document} (hother : other ∈ h.held ev.before)
    (hne : other.id? ≠ some id) {field : String} (hfield : field ∈ h.unique) :
    Document.collides d other field = false := by
  have hleft := hstep.left hwritten
  rcases hf.id?_left hwritten hleft with ⟨-, hid⟩ | ⟨hadds, -⟩
  · exact Document.collides_eq_false_of_checkUnique (hleft.checkUnique hchecks) hid other hother hne
      field hfield
  · exact absurd hspares hadds

/-- A write that looks for collisions is clear if what it left reads back with the unique fields that
it was written with. -/
theorem clear_of_checks (hf : h.Filed ev.before) (hstep : WriteStep c h ev) (hchecks : h.Checks ev)
    (hspares : h.Spares idField ev) (hkeeps : h.KeepsUnique c ev)
    (hheld : ∀ d ∈ h.held ev.before, Document.Settled d) (hbrought : ev.write.Settled) :
    h.Clear c ev := by
  intro id d k hwritten hk other hother hne
  have hd : Document.Settled d := (hstep.left hwritten).settled hheld hbrought
  refine Document.Apart.of_get? ?_ (hkeeps id d k hwritten hk)
  intro field hfield
  have hcollides := collides_eq_false_of_checks hf hstep hchecks hspares hwritten hother hne hfield
  exact ⟨hcollides, Document.collides_comm hd (hheld other hother) field ▸ hcollides⟩

/-- An increment that adds to no unique field leaves a distinct collection distinct, whether it looks
for collisions or not. -/
theorem clear_of_spares (hf : h.Filed ev.before) (hstep : WriteStep c h ev)
    (hd : h.Distinct ev.before) {id : String} {deltas : Document}
    (hincrement : ev.write = .increment id deltas) (hspares : ∀ field ∈ h.unique, h.Spares field ev)
    (hkeeps : h.KeepsUnique c ev) : h.Clear c ev := by
  intro id' d k hwritten hk other hother hne
  cases hstep.left hwritten with
  | inserted write _ _ _ _ _ =>
      rw [hincrement] at write
      cases write
  | @rewritten old turns rewrites _ =>
      have hold : Document.id? old = some id' := hf.ids _ rewrites.mem_slots old rfl
      have hapart : Document.Apart h.unique old other := by
        refine List.Pairwise.forall hd (mem_held_of_mem_slots rewrites.mem_slots) hother ?_
        rintro rfl
        exact hne hold
      refine hapart.of_get? fun field hfield => ?_
      rw [hkeeps id' d k hwritten hk field hfield]
      rcases turns with ⟨fields, hw, -⟩ | ⟨deltas', hw, rfl⟩
      · rw [hincrement] at hw
        cases hw
      · exact Document.get?_increment_of_not_mem old
          (hspares field hfield id' deltas' hw (by rw [hwritten]; rfl))

end Step

/-! ### Runs -/

namespace Run

variable {c : Capabilities} {h : Handle} {past : List WriteEvent} {s : Stores}

/-- Documents that are pairwise related after every write are so now. -/
theorem pairwise_of_forall {R : Document → Document → Prop} (hr : Run c h past s)
    (hall : ∀ ev ∈ past, (h.held ev.after).Pairwise R) : (h.held s).Pairwise R := by
  induction hr with
  | start empty =>
      rw [held, empty]
      exact .nil
  | write run x _ => exact hall _ List.mem_cons_self
  | elsewhere run same ih =>
      rw [held, same]
      exact ih hall

theorem pairwise_iff {R : Document → Document → Prop} (hsymm : ∀ {d other}, R d other → R other d)
    (hr : Run c h past s)
    (hids : h.backing = .table → ∀ ev ∈ past, h.KeepsId c ev ∧ h.Spares idField ev) :
    (∀ ev ∈ past, (h.held ev.after).Pairwise R) ↔ ∀ ev ∈ past, h.LeavesRelated R c ev := by
  induction hr with
  | start _ => exact iff_of_true nofun nofun
  | @write past s run x ih =>
      have hpastIds := fun hb ev hev => hids hb ev (List.mem_cons_of_mem _ hev)
      have hf : h.Filed (h.writeEvent c s x).before := run.filed hpastIds
      rw [List.forall_mem_cons, List.forall_mem_cons, ← ih hpastIds]
      refine and_congr_left fun hpast => ?_
      exact pairwise_iff_of_writeStep hsymm hf (hf.writeStep c x) (run.pairwise_of_forall hpast)
  | elsewhere run same ih => exact ih hids

/-- A collection that is distinct after every write is distinct now. -/
theorem distinct_of_forall (hr : Run c h past s) (hall : ∀ ev ∈ past, h.Distinct ev.after) :
    h.Distinct s :=
  hr.pairwise_of_forall hall

theorem distinct_iff_clear (hr : Run c h past s)
    (hids : h.backing = .table → ∀ ev ∈ past, h.KeepsId c ev ∧ h.Spares idField ev) :
    (∀ ev ∈ past, h.Distinct ev.after) ↔ ∀ ev ∈ past, h.Clear c ev :=
  hr.pairwise_iff Document.Apart.symm hids

/-- The documents of a collection are settled if all that was written and all that is read back is. -/
theorem held_settled (hr : Run c h past s)
    (hids : h.backing = .table → ∀ ev ∈ past, h.KeepsId c ev ∧ h.Spares idField ev)
    (hcodec : h.backing = .table → ∀ d k, c.codec d = .ok k → Document.Settled k)
    (hbrought : ∀ ev ∈ past, ev.write.Settled) : ∀ d ∈ h.held s, Document.Settled d := by
  induction hr with
  | start empty =>
      intro d hd
      rw [held, empty] at hd
      cases hd
  | @write past s run x ih =>
      have hpastIds := fun hb ev hev => hids hb ev (List.mem_cons_of_mem _ hev)
      have hf : h.Filed (h.writeEvent c s x).before := run.filed hpastIds
      obtain ⟨hx, hpast⟩ := List.forall_mem_cons.mp hbrought
      have hbefore : ∀ d ∈ h.held (h.writeEvent c s x).before, Document.Settled d :=
        ih hpastIds hpast
      have hstep := hf.writeStep c x
      rcases held_of_writeStep hf hstep with ⟨-, hless⟩ | ⟨id, d, hwritten, hperm⟩
      · exact fun d hd => hbefore d (hless.subset hd)
      · intro k hk
        rcases List.mem_append.mp (hperm.mem_iff.mp hk) with hk | hk
        · have hkept : h.kept c d = .ok k :=
            Outcome.toOption_eq_some_iff.mp (Option.mem_toList.mp hk)
          cases hb : h.backing with
          | memory =>
              rw [kept, hb] at hkept
              cases hkept
              exact (hstep.left hwritten).settled hbefore hx
          | table =>
              rw [kept, hb] at hkept
              exact hcodec hb d k hkept
        · exact hbefore k (List.mem_filter.mp hk).1
  | elsewhere run same ih =>
      rw [held, same]
      exact ih hids hbrought

/-- In a run, every write that looks for collisions is clear if it reads back with the unique fields
that it was written with. -/
theorem clear_of_checks (hr : Run c h past s)
    (hids : h.backing = .table → ∀ ev ∈ past, h.KeepsId c ev ∧ h.Spares idField ev)
    (hcodec : h.backing = .table → ∀ d k, c.codec d = .ok k → Document.Settled k)
    (hbrought : ∀ ev ∈ past, ev.write.Settled) {ev : WriteEvent} (hev : ev ∈ past)
    (hchecks : h.Checks ev) (hspares : h.Spares idField ev) (hkeeps : h.KeepsUnique c ev) :
    h.Clear c ev := by
  obtain ⟨newer, rest, rfl⟩ := List.append_of_mem hev
  obtain ⟨s', x, run, rfl⟩ := hr.of_suffix (List.suffix_append newer _)
  have hrest : ∀ {ev}, ev ∈ rest → ev ∈ newer ++ h.writeEvent c s' x :: rest :=
    fun hev => List.mem_append_right _ (List.mem_cons_of_mem _ hev)
  have hf : h.Filed (h.writeEvent c s' x).before :=
    run.filed fun hb ev hev => hids hb ev (hrest hev)
  have hheld := run.held_settled (fun hb ev hev => hids hb ev (hrest hev)) hcodec
    fun ev hev => hbrought ev (hrest hev)
  exact Handle.clear_of_checks hf (hf.writeStep c x) hchecks hspares hkeeps hheld (hbrought _ hev)

end Run

/-! ### Collections in memory -/

section Memory

variable {c : Capabilities} {h : Handle} {past : List WriteEvent} {s : Stores}

theorem Run.clear_of_not_increment (hb : h.backing = .memory) (hr : Run c h past s)
    (hbrought : ∀ ev ∈ past, ev.write.Settled) {ev : WriteEvent} (hev : ev ∈ past)
    (hother : ∀ id deltas, ev.write ≠ .increment id deltas) : h.Clear c ev := by
  have hnot : h.backing ≠ .table := by
    rw [hb]
    nofun
  exact hr.clear_of_checks (fun htable => absurd htable hnot) (fun htable => absurd htable hnot)
    hbrought hev (.inr hother) (fun id deltas hincrement => absurd hincrement (hother id deltas))
    (keepsUnique_of_memory hb c ev)

/-- A run in memory in which increments spare the unique fields keeps the collection distinct. -/
theorem Run.distinct_of_spares (hb : h.backing = .memory) (hr : Run c h past s)
    (hbrought : ∀ ev ∈ past, ev.write.Settled)
    (hspares : ∀ ev ∈ past, ∀ field ∈ h.unique, h.Spares field ev) :
    ∀ ev ∈ past, h.Distinct ev.after := by
  have hnot : h.backing ≠ .table := by
    rw [hb]
    nofun
  induction hr with
  | start _ => nofun
  | @write past s run x ih =>
      have hpast := ih (fun ev hev => hbrought ev (List.mem_cons_of_mem _ hev))
        fun ev hev => hspares ev (List.mem_cons_of_mem _ hev)
      have hd : h.Distinct (h.writeEvent c s x).before := run.distinct_of_forall hpast
      have hf : h.Filed (h.writeEvent c s x).before := run.filed fun htable => absurd htable hnot
      refine List.forall_mem_cons.mpr ⟨?_, hpast⟩
      refine (distinct_iff_clear_of_writeStep hf (hf.writeStep c x) hd).mpr ?_
      by_cases hincrement : ∃ id deltas, (h.writeEvent c s x).write = .increment id deltas
      · obtain ⟨id, deltas, hincrement⟩ := hincrement
        exact clear_of_spares hf (hf.writeStep c x) hd hincrement
          (hspares _ List.mem_cons_self) (keepsUnique_of_memory hb c _)
      · refine Run.clear_of_not_increment hb (run.write x) hbrought List.mem_cons_self ?_
        exact fun id deltas hwrite => hincrement ⟨id, deltas, hwrite⟩
  | elsewhere run same ih => exact ih hbrought hspares

/-- **A collection in memory is distinct after every write of a run exactly when every increment was
clear.**  Insertions and updates always are; and where increments add to no unique field, so are
they. -/
theorem distinct_iff_increments_clear (hb : h.backing = .memory) (hr : Run c h past s)
    (hbrought : ∀ ev ∈ past, ev.write.Settled) :
    ((h.Distinct s ∧ ∀ ev ∈ past, h.Distinct ev.after) ↔
      ∀ ev ∈ past, ∀ id deltas, ev.write = .increment id deltas → h.Clear c ev) ∧
    ((∀ ev ∈ past, ∀ field ∈ h.unique, h.Spares field ev) →
      h.Distinct s ∧ ∀ ev ∈ past, h.Distinct ev.after) := by
  have hclear := hr.distinct_iff_clear fun htable => by rw [hb] at htable; cases htable
  refine ⟨⟨fun hall => ?_, fun hincrements => ?_⟩, fun hspares => ?_⟩
  · exact fun ev hev _ _ _ => hclear.mp hall.2 ev hev
  · have hall : ∀ ev ∈ past, h.Distinct ev.after := by
      refine hclear.mpr fun ev hev => ?_
      by_cases hincrement : ∃ id deltas, ev.write = .increment id deltas
      · obtain ⟨id, deltas, hincrement⟩ := hincrement
        exact hincrements ev hev id deltas hincrement
      · exact Run.clear_of_not_increment hb hr hbrought hev
          fun id deltas hwrite => hincrement ⟨id, deltas, hwrite⟩
    exact ⟨hr.distinct_of_forall hall, hall⟩
  · have hall := Run.distinct_of_spares hb hr hbrought hspares
    exact ⟨hr.distinct_of_forall hall, hall⟩

end Memory

private def numbering : Capabilities :=
  ⟨fun t _ => .ok t, fun n => String.ofList (List.replicate n 'x'),
    fun n => if n = 0 then "1001" else "1002", Document.reread⟩

private def tallies (backing : Backing) : Handle := ⟨backing, "tallies", ["n"]⟩

private def tally (n : Number) : Document := [("n", .number n)]

private def one : Number := .whole ⟨1, by decide, by decide⟩

private def two : Number := .whole ⟨2, by decide, by decide⟩

private def five : Number := .whole ⟨5, by decide, by decide⟩

private theorem tally_settled (n : Number) : (tally n).Settled :=
  .object (List.pairwise_singleton _ _) (List.forall_mem_singleton.mpr (.number n))

/-- One and five, and one more added to the one. -/
private def oneAndFive : List Write :=
  [.increment "1001" (tally one), .insert (tally five), .insert (tally one)]

/-- One and two, and one more added to the one. -/
private def oneAndTwo : List Write :=
  [.increment "1001" (tally one), .insert (tally two), .insert (tally one)]

private def talliesAfter (backing : Backing) (writes : List Write) : List WriteEvent :=
  (tallies backing).events numbering Stores.empty writes

private theorem run_tallies (backing : Backing) (writes : List Write) :
    Run numbering (tallies backing) (talliesAfter backing writes)
      (WriteEvent.latest Stores.empty (talliesAfter backing writes)) :=
  run_events numbering (by cases backing <;> rfl) writes

theorem distinct_iff_increments_clear_tallies :
    (tallies .memory).backing = .memory ∧
    Run numbering (tallies .memory) (talliesAfter .memory oneAndFive)
      (WriteEvent.latest Stores.empty (talliesAfter .memory oneAndFive)) ∧
    (∀ ev ∈ talliesAfter .memory oneAndFive, ev.write.Settled) ∧
    ∀ ev ∈ talliesAfter .memory oneAndFive, ∀ id deltas, ev.write = .increment id deltas →
      (tallies .memory).Clear numbering ev := by
  have hbrought : ∀ x ∈ oneAndFive, x.Settled := by simp [oneAndFive, Write.Settled, tally_settled]
  have hsettled := forall_mem_events hbrought numbering (tallies .memory) Stores.empty
  refine ⟨rfl, run_tallies _ _, hsettled, ?_⟩
  exact (distinct_iff_increments_clear rfl (run_tallies .memory oneAndFive) hsettled).1.mp
    ⟨by decide +kernel, by decide +kernel⟩

/-- An increment in memory makes two documents equal in a unique field. -/
theorem not_distinct_of_increment :
    ¬ ∀ (c : Capabilities) (h : Handle) (past : List WriteEvent) (s : Stores),
        h.backing = .memory → Run c h past s → (∀ ev ∈ past, ev.write.Settled) →
        h.Distinct s := by
  intro hall
  have hbrought : ∀ x ∈ oneAndTwo, x.Settled := by simp [oneAndTwo, Write.Settled, tally_settled]
  have hdistinct := hall _ _ _ _ rfl (run_tallies .memory oneAndTwo)
    (forall_mem_events hbrought _ _ _)
  exact absurd hdistinct (by decide +kernel)

/-! ### Collections in a table -/

/-- **A table is distinct after every write of a run exactly when every write was clear.**  Increments
that add to ids apart, that can only fail where a unique field reads back as another value than the one
that was checked. -/
theorem distinct_iff_clear_of_table {c : Capabilities} {h : Handle} {past : List WriteEvent}
    {s : Stores} (hb : h.backing = .table) (hr : Run c h past s)
    (hbrought : ∀ ev ∈ past, ev.write.Settled)
    (hcodec : ∀ d k, c.codec d = .ok k → Document.Settled k)
    (hdeltas : ∀ ev ∈ past, ∀ id deltas, ev.write = .increment id deltas →
      idField ∉ Dict.names deltas)
    (hids : ∀ ev ∈ past, h.KeepsId c ev) :
    ((h.Distinct s ∧ ∀ ev ∈ past, h.Distinct ev.after) ↔ ∀ ev ∈ past, h.Clear c ev) ∧
    ∀ ev ∈ past, h.KeepsUnique c ev → h.Clear c ev := by
  have hspares : ∀ ev ∈ past, h.Spares idField ev := fun ev hev => spares_of_not_mem (hdeltas ev hev)
  have hkeys : h.backing = .table → ∀ ev ∈ past, h.KeepsId c ev ∧ h.Spares idField ev :=
    fun _ ev hev => ⟨hids ev hev, hspares ev hev⟩
  have hclear := hr.distinct_iff_clear hkeys
  constructor
  · constructor
    · exact fun hall => hclear.mp hall.2
    · intro hwrites
      have hall := hclear.mpr hwrites
      exact ⟨hr.distinct_of_forall hall, hall⟩
  · intro ev hev hkeeps
    exact hr.clear_of_checks hkeys (fun _ => hcodec) hbrought hev (.inl hb) (hspares ev hev) hkeeps

theorem distinct_iff_clear_of_table_tallies :
    (tallies .table).backing = .table ∧
    Run numbering (tallies .table) (talliesAfter .table oneAndFive)
      (WriteEvent.latest Stores.empty (talliesAfter .table oneAndFive)) ∧
    (∀ ev ∈ talliesAfter .table oneAndFive, ev.write.Settled) ∧
    (∀ d k, numbering.codec d = .ok k → Document.Settled k) ∧
    (∀ ev ∈ talliesAfter .table oneAndFive, ∀ id deltas, ev.write = .increment id deltas →
      idField ∉ Dict.names deltas) ∧
    (∀ ev ∈ talliesAfter .table oneAndFive, (tallies .table).KeepsId numbering ev) ∧
    ∀ ev ∈ talliesAfter .table oneAndFive, (tallies .table).Clear numbering ev := by
  have hbrought : ∀ x ∈ oneAndFive, x.Settled := by simp [oneAndFive, Write.Settled, tally_settled]
  have hsettled := forall_mem_events hbrought numbering (tallies .table) Stores.empty
  have hdeltas : ∀ x ∈ oneAndFive, ∀ id deltas, x = .increment id deltas →
      idField ∉ Dict.names deltas := by simp [oneAndFive, tally, idField]
  have hspare := forall_mem_events hdeltas numbering (tallies .table) Stores.empty
  have hcodec : ∀ d k, numbering.codec d = .ok k → Document.Settled k :=
    fun _ _ => Document.settled_of_reread
  have hkeeps : ∀ ev ∈ talliesAfter .table oneAndFive, (tallies .table).KeepsId numbering ev := by
    decide +kernel
  refine ⟨rfl, run_tallies _ _, hsettled, hcodec, hspare, hkeeps, ?_⟩
  exact (distinct_iff_clear_of_table rfl (run_tallies .table oneAndFive) hsettled hcodec hspare
    hkeeps).1.mp ⟨by decide +kernel, by decide +kernel⟩

/-- The double nearest to 1.5 * 10 ^ 23.  Twice that is written as a text that reads back as its
neighbour. -/
private def halfSteep : Number := .real ⟨false, 8940696716308594, 24, by decide⟩

/-- The same number twice, each doubled before the other is there to collide with. -/
private def twiceDoubled : List Write :=
  [.increment "1002" (tally halfSteep), .insert (tally halfSteep),
    .increment "1001" (tally halfSteep), .insert (tally halfSteep)]

/-- In a table two documents come to be equal in a unique field when what was checked is not what is
read back. -/
theorem not_distinct_of_reread :
    ¬ ∀ (c : Capabilities) (h : Handle) (past : List WriteEvent) (s : Stores),
        h.backing = .table → c.codec = Document.reread → Run c h past s →
        (∀ ev ∈ past, ev.write.Settled) →
        (∀ ev ∈ past, ∀ id deltas, ev.write = .increment id deltas →
          idField ∉ Dict.names deltas) →
        (∀ ev ∈ past, h.KeepsId c ev) → h.Distinct s := by
  intro hall
  have hbrought : ∀ x ∈ twiceDoubled, x.Settled := by
    simp [twiceDoubled, Write.Settled, tally_settled]
  have hdeltas : ∀ x ∈ twiceDoubled, ∀ id deltas, x = .increment id deltas →
      idField ∉ Dict.names deltas := by simp [twiceDoubled, tally, idField]
  have hdistinct := hall _ _ _ _ rfl rfl (run_tallies .table twiceDoubled)
    (forall_mem_events hbrought _ _ _) (forall_mem_events hdeltas _ _ _) (by decide +kernel)
  exact absurd hdistinct (by decide +kernel)

end Handle

end Curator
