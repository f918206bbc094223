/-
What unique indexes keep apart.

A definition may declare indexes over any number of fields, but its store learns of unique fields
only: `Definition.mem_uniqueFields` says which indexes make a field one.  Those of several fields do
not, so no two documents agree in the fields of a unique index as long as one of them is a unique
field, and otherwise nothing hinders them.

No call increments a field, so every write that a call makes is checked, on either store.
-/
import Curator.Proofs.Directory
import Curator.Proofs.Service.Storing
import Curator.Proofs.Store.Uniqueness
import Curator.Startup

namespace Curator

open Serving (runOn)

namespace Document

/-- Two documents hold equal values in all of some fields, none of them null. -/
def Duplicates (fields : List String) (d other : Document) : Prop :=
  ∀ field ∈ fields, collides d other field = true ∧ collides other d field = true

instance (fields : List String) (d other : Document) : Decidable (Duplicates fields d other) :=
  inferInstanceAs (Decidable (∀ field ∈ fields, _))

theorem Duplicates.symm {fields : List String} {d other : Document}
    (h : Duplicates fields d other) : Duplicates fields other d :=
  fun field hfield => (h field hfield).symm

/-- Between documents without repeated names one direction says it all. -/
theorem duplicates_iff_of_settled {d other : Document} (hd : Settled d) (hother : Settled other)
    (fields : List String) :
    Duplicates fields d other ↔ ∀ field ∈ fields, collides d other field = true := by
  refine forall₂_congr fun field _ => ?_
  rw [collides_comm hother hd field, and_self_iff]

end Document

namespace Definition

theorem mem_foldl_add {field : String} {fs fields : List String} :
    field ∈ fs.foldl (fun fields f => if fields.contains f then fields else fields ++ [f]) fields ↔
      field ∈ fields ∨ field ∈ fs := by
  induction fs generalizing fields with
  | nil => simp
  | cons f fs ih =>
      rw [List.foldl_cons, ih, List.mem_cons, ← or_assoc]
      refine or_congr_left ?_
      split
      · next hf =>
        rw [List.contains_iff_mem] at hf
        refine ⟨Or.inl, ?_⟩
        rintro (h | rfl)
        · exact h
        · exact hf
      · rw [List.mem_append, List.mem_singleton]

theorem indexedField?_eq_some_iff {i : Index} {field : String} :
    indexedField? i = some field ↔ i.unique = true ∧ i.fields = [field] := by
  unfold indexedField?
  split
  · next f hunique hfields => simp [hunique, hfields]
  · next hno =>
    refine ⟨nofun, fun ⟨hunique, hfields⟩ => ?_⟩
    exact absurd hfields (hno field hunique)

/-- **The unique fields are those of the unique attributes, and those that a unique index lists
alone.** -/
theorem mem_uniqueFields {d : Definition} {field : String} :
    field ∈ d.uniqueFields ↔
      (∃ e ∈ d.attributes.entries, e.2.unique = true ∧ e.1 = field) ∨
      ∃ i ∈ d.indexes, i.unique = true ∧ i.fields = [field] := by
  rw [uniqueFields, mem_foldl_add]
  refine or_congr ?_ ?_
  · simp only [List.mem_map, List.mem_filter, and_assoc]
  · simp only [List.mem_filterMap, indexedField?_eq_some_iff]

end Definition

namespace Directory

theorem get_registerAll {handleFor : Definition → Option Handle} {ds : List Definition}
    {dir dir' : Directory} (h : registerAll handleFor ds dir = .ok dir') {d : Definition}
    (hd : d ∈ ds ∨ dir.get d.name = .ok ⟨d.complete, handleFor d⟩)
    (honly : ∀ other ∈ ds, other.name = d.name → other = d) :
    dir'.get d.name = .ok ⟨d.complete, handleFor d⟩ := by
  induction ds generalizing dir with
  | nil =>
      cases h
      exact hd.resolve_left List.not_mem_nil
  | cons first ds ih =>
      rw [registerAll] at h
      split at h
      · cases h
      · next e dir₁ hfirst =>
        obtain ⟨hhead, hrest⟩ := List.forall_mem_cons.mp honly
        refine ih h ?_ hrest
        have hget := get_register (congrArg Prod.fst hfirst) d.name
        rw [hfirst] at hget
        by_cases hname : first.name = d.name
        · rw [if_pos hname.symm, hhead hname] at hget
          exact Or.inr hget
        · rw [if_neg (Ne.symm hname)] at hget
          refine hd.imp (fun hmem => ?_) hget.trans
          rcases List.mem_cons.mp hmem with rfl | hmem
          · exact absurd rfl hname
          · exact hmem

end Directory

/-- At startup every definition whose name is not used again is registered, with a store that knows
its unique fields. -/
theorem Startup.get_directory {backing : Backing} {ds : List Definition} {dir : Directory}
    (h : Startup.directory backing ds = .ok dir) {d : Definition} (hd : d ∈ ds)
    (honly : ∀ other ∈ ds, other.name = d.name → other = d) :
    dir.get d.name = .ok ⟨d.complete, some (Startup.handle backing d)⟩ := by
  unfold Startup.directory Directory.build at h
  split at h
  · cases h
  · next hall =>
    split at h
    · cases h
      exact Directory.get_registerAll hall (Or.inl hd) honly
    · cases h

/-- An index of several fields makes no difference to a store. -/
theorem Startup.handle_filter_indexes (backing : Backing) (d : Definition) :
    Startup.handle backing { d with indexes := d.indexes.filter fun i => i.fields.length = 1 } =
      Startup.handle backing d := by
  have hindexed : (d.indexes.filter fun i => i.fields.length = 1).filterMap
      Definition.indexedField? = d.indexes.filterMap Definition.indexedField? := by
    rw [List.filterMap_filter]
    refine List.filterMap_congr fun i _ => ?_
    by_cases hone : i.fields.length = 1
    · rw [if_pos (decide_eq_true hone)]
    · rw [if_neg (by simpa using hone)]
      refine (Option.eq_none_iff_forall_ne_some.mpr fun field hindexed => hone ?_).symm
      rw [(Definition.indexedField?_eq_some_iff.mp hindexed).2, List.length_singleton]
  cases backing with
  | memory => simp only [Startup.handle, Definition.uniqueFields, hindexed]
  | table => simp only [Startup.handle, Definition.uniqueFields, hindexed]

@[simp] theorem Startup.handle_unique (backing : Backing) (d : Definition) :
    (Startup.handle backing d).unique = d.uniqueFields := by
  cases backing <;> rfl

@[simp] theorem Startup.handle_backing (backing : Backing) (d : Definition) :
    (Startup.handle backing d).backing = backing := by
  cases backing <;> rfl

namespace Handle

variable {c : Capabilities} {h : Handle} {fields : List String} {field : String}

/-- A write that looks for collisions leaves no duplicate over fields of which one is unique. -/
theorem leavesRelated_of_checks {ev : WriteEvent} (hf : h.Filed ev.before)
    (hstep : WriteStep c h ev) (hchecks : h.Checks ev) (hspares : h.Spares idField ev)
    (hkeeps : h.KeepsUnique c ev) (hfield : field ∈ fields) (hunique : field ∈ h.unique) :
    h.LeavesRelated (fun d other => ¬ Document.Duplicates fields d other) c ev := by
  intro id d k hwritten hk other hother hne hduplicates
  have hfree := collides_eq_false_of_checks hf hstep hchecks hspares hwritten hother hne hunique
  have hcollides := (hduplicates field hfield).1
  unfold Document.collides at hfree hcollides
  rw [hkeeps id d k hwritten hk field hunique, hfree] at hcollides
  cases hcollides

/-- No run of inserts, updates and deletes leaves duplicates over fields of which one is unique. -/
theorem Run.not_duplicates {past : List WriteEvent} {s : Stores} (hr : Run c h past s)
    (hwrites : ∀ ev ∈ past, ∀ id deltas, ev.write ≠ .increment id deltas)
    (hreads : h.backing = .table → ∀ ev ∈ past, h.KeepsId c ev ∧ h.KeepsUnique c ev)
    (hfield : field ∈ fields) (hunique : field ∈ h.unique) :
    (h.held s).Pairwise fun d other => ¬ Document.Duplicates fields d other := by
  have hspares : ∀ ev ∈ past, h.Spares idField ev := fun ev hev id deltas hincrement =>
    absurd hincrement (hwrites ev hev id deltas)
  have hids : h.backing = .table → ∀ ev ∈ past, h.KeepsId c ev ∧ h.Spares idField ev :=
    fun hb ev hev => ⟨(hreads hb ev hev).1, hspares ev hev⟩
  have hkeeps : ∀ ev ∈ past, h.KeepsUnique c ev := fun ev hev => by
    cases hb : h.backing with
    | memory => exact keepsUnique_of_memory hb c ev
    | table => exact (hreads hb ev hev).2
  refine hr.pairwise_of_forall ((hr.pairwise_iff (mt Document.Duplicates.symm) hids).mpr ?_)
  intro ev hev
  obtain ⟨hf, hstep⟩ := hr.forall_filed hids ev hev
  exact leavesRelated_of_checks hf hstep (Or.inr (hwrites ev hev)) (hspares ev hev)
    (hkeeps ev hev) hfield hunique

end Handle

namespace Service

/-- **No two documents agree in all fields of a unique index**, whatever calls were made on its
entity, if the index lists one field or one of its fields is unique for another reason.  In a table
what the calls wrote has to read back with its id and its unique fields. -/
theorem unique_index_kept {svc : Service} {d : Definition} {backing : Backing} {past : List Event}
    {w : World} {i : Index}
    (registered : svc.directory.get d.name = .ok ⟨d.complete, some (Startup.handle backing d)⟩)
    (noHooks : ∀ l, d.hooksAt l = [])
    (hr : svc.Run d.name (Startup.handle backing d) past w)
    (hi : i ∈ d.indexes) (hunique : i.unique = true)
    (hfields : i.fields.length = 1 ∨ ∃ field ∈ i.fields, field ∈ d.uniqueFields)
    (hreads : backing = .table → ∀ ev ∈ svc.writes d.name
        ⟨d.complete, some (Startup.handle backing d)⟩ (Startup.handle backing d) past,
      (Startup.handle backing d).KeepsId svc.capabilities ev ∧
      (Startup.handle backing d).KeepsUnique svc.capabilities ev) :
    ((Startup.handle backing d).held w.stores).Pairwise fun a b =>
      ¬ Document.Duplicates i.fields a b := by
  have hkept : ∃ field ∈ i.fields, field ∈ d.uniqueFields := by
    refine hfields.elim (fun hone => ?_) id
    obtain ⟨field, hsingle⟩ := List.length_eq_one_iff.mp hone
    refine ⟨field, hsingle ▸ List.mem_singleton_self field, ?_⟩
    exact Definition.mem_uniqueFields.mpr (Or.inr ⟨i, hi, hunique, hsingle⟩)
  obtain ⟨field, hfield, hdistinct⟩ := hkept
  have hh : svc.Hookless d.name ⟨d.complete, some (Startup.handle backing d)⟩
      (Startup.handle backing d) := ⟨registered, rfl, noHooks⟩
  refine (hr.runs_writes hh).not_duplicates (fun ev hev => not_increment_of_mem_writes hev) ?_ hfield
    (by rwa [Startup.handle_unique])
  rwa [Startup.handle_backing]

/-! ### An index of two fields -/

/-- Seats, of which no two may have the same row and number, nor the same badge. -/
private def seats : Definition :=
  { Definition.ofNames "seats" "seats" with
    permissions := some ⟨none, some (.one .anyone), none, none⟩
    attributes := ((NameMap.empty.insert "row" (.ofKind (.number none none))).insert "seat"
      (.ofKind (.number none none))).insert "badge" (.ofKind (.string none none))
    indexes := [⟨["row", "seat"], true⟩, ⟨["badge"], true⟩] }

private def seatHandle : Handle := Startup.handle .memory seats

private def seatService : Service :=
  ⟨⟨fun t _ => .ok t, fun n => String.ofList (List.replicate n 'x'),
      fun n => if n = 0 then "1001" else if n = 1 then "1002" else "1003", Document.reread⟩,
    ⟨[("seats", ⟨seats.complete, some seatHandle⟩)]⟩, fun _ _ => none⟩

private def noSeats : World := ⟨Stores.empty, []⟩

private def visitor : Request := ⟨none, none, 0⟩

private def sitDown (badge : String) : Call :=
  .create (.object [("row", .ofInt 1), ("seat", .ofInt 2), ("badge", .string badge)])

private def afterSitting (badge : String) (w : World) : World :=
  (runOn (seatService.serve "seats" (sitDown badge) visitor) w).2

private def oneSeated : World := afterSitting "red" noSeats

private def bothSeated : World := afterSitting "blue" oneSeated

/-- What is left after somebody else has come with the first badge. -/
private def oneRefused : World := afterSitting "red" bothSeated

private def seatEvents : List Event :=
  [seatService.event "seats" (sitDown "red") visitor bothSeated,
    seatService.event "seats" (sitDown "blue") visitor oneSeated,
    seatService.event "seats" (sitDown "red") visitor noSeats]

private theorem seat_directory : Startup.directory .memory [seats] = .ok seatService.directory := by
  have hall : Directory.registerAll (fun d => some (Startup.handle .memory d)) [seats] .empty =
      .ok seatService.directory := rfl
  have hnone : seatService.directory.problems = [] := List.mergeSort_nil
  unfold Startup.directory Directory.build
  rw [hall]
  dsimp only
  rw [hnone]

private theorem seat_run : seatService.Run "seats" seatHandle seatEvents oneRefused :=
  .call (.call (.call (.start rfl) (sitDown "red") visitor) (sitDown "blue") visitor)
    (sitDown "red") visitor

theorem unique_index_kept_seats :
    Startup.directory .memory [seats] = .ok seatService.directory ∧
    seatService.Run seats.name (Startup.handle .memory seats) seatEvents oneRefused ∧
    (((Startup.handle .memory seats).held oneRefused.stores).map fun d =>
      (d.value "badge").string?) = [some "red", some "blue"] ∧
    ((Startup.handle .memory seats).held oneRefused.stores).Pairwise fun a b =>
      ¬ Document.Duplicates ["badge"] a b := by
  refine ⟨seat_directory, seat_run, by decide +kernel, ?_⟩
  refine unique_index_kept (i := ⟨["badge"], true⟩) ?_ (fun _ => rfl) seat_run
    (List.mem_cons_of_mem _ List.mem_cons_self) rfl (Or.inl rfl) (fun htable => by cases htable)
  refine Startup.get_directory seat_directory List.mem_cons_self fun other hother _ => ?_
  exact List.mem_singleton.mp hother

/-- A unique index of two fields keeps no two documents apart. -/
theorem not_unique_index_kept :
    ¬ ∀ (svc : Service) (d : Definition) (backing : Backing) (past : List Event) (w : World)
        (i : Index),
        svc.directory.get d.name = .ok ⟨d.complete, some (Startup.handle backing d)⟩ →
        (∀ l, d.hooksAt l = []) → svc.Run d.name (Startup.handle backing d) past w →
        i ∈ d.indexes → i.unique = true → i.fields ≠ [] →
        ((Startup.handle backing d).held w.stores).Pairwise fun a b =>
          ¬ Document.Duplicates i.fields a b := by
  intro hall
  have hpairwise := hall seatService seats .memory seatEvents oneRefused ⟨["row", "seat"], true⟩ rfl
    (fun _ => rfl) seat_run List.mem_cons_self rfl (List.cons_ne_nil _ _)
  have hseated : ¬ ((Startup.handle .memory seats).held oneRefused.stores).Pairwise fun a b =>
      ¬ Document.Duplicates ["row", "seat"] a b := by decide +kernel
  exact hseated hpairwise

end Service

end Curator
