/-
What the calls on a collection are answered with, and what they leave alone.

As long as all documents of a collection can be read, the answers are laws of its slots, the same for
both stores but for the order in which an insertion asks for its id and its unique fields.  A write
leaves the other collections as they are, and only an insertion without an id takes one from the
supply.

A table looks for collisions at every write, in all that the document holds.  As long as its documents
stand apart (`Handle.Separate`), it refuses no write that leaves the unique fields alone.
-/
import Curator.Proofs.Store.Uniqueness

namespace Curator

/-! ### Checks that pass -/

namespace Document

theorem checkUnique_nil (d : Document) (others : List Document) :
    checkUnique [] d others = .ok () := by
  have hnone : collision? [] d others = none := by
    refine List.findSome?_eq_none_iff.mpr fun other _ => ?_
    rw [List.find?_nil, ite_self]
  rw [checkUnique, hnone]

/-- A refusal by the check names a unique field in which there is a collision. -/
theorem collides_of_checkUnique {unique : List String} {d : Document} {others : List Document}
    {f : Failure} (hrefused : checkUnique unique d others = .error f) :
    ∃ field ∈ unique, f = .alreadyExists field ∧ ∃ other ∈ others, collides d other field = true := by
  unfold checkUnique at hrefused
  split at hrefused
  · rename_i field hfield
    obtain ⟨other, hother, hfound⟩ := List.exists_of_findSome?_eq_some hfield
    split at hfound
    · cases hfound
    · exact ⟨field, List.mem_of_find?_eq_some hfound, (Except.error.inj hrefused).symm, other,
        hother, List.find?_some hfound⟩
  · cases hrefused

/-- A document passes the check among documents that are apart if it took the place of one of them and
has its id and its unique fields. -/
theorem checkUnique_of_pairwise {unique : List String} {docs : List Document}
    (hdocs : docs.Pairwise (Apart unique)) {d new : Document} (hd : d ∈ docs) {id : String}
    (hid : d.id? = some id) (hnew : new.get? idField = d.get? idField)
    (hkept : ∀ field ∈ unique, new.get? field = d.get? field) :
    checkUnique unique new docs = .ok () := by
  have hnone : collision? unique new docs = none := by
    refine List.findSome?_eq_none_iff.mpr fun other hother => ?_
    by_cases hsame : other = d
    · have hown : sameId other new = true := by
        obtain ⟨v, hv, hstring⟩ := Option.bind_eq_some_iff.mp hid
        cases v with
        | string s => simp [sameId, hsame, hnew, hv, Json.same]
        | _ => cases hstring
      rw [if_pos hown]
    · have hapart : Apart unique new other :=
        (List.Pairwise.forall hdocs hd hother (Ne.symm hsame)).of_get? hkept
      have hfree : unique.find? (collides new other) = none :=
        List.find?_eq_none.mpr fun field hfield => by
          rw [(hapart field hfield).1]
          exact Bool.false_ne_true
      rw [hfree, ite_self]
  rw [checkUnique, hnone]

/-- An increment by numbers succeeds. -/
theorem increment_of_numbers (d : Document) {deltas : Document}
    (hdeltas : ∀ e ∈ deltas, e.2.double?.isSome) : (increment d deltas).1 = .ok () := by
  induction deltas generalizing d with
  | nil => rfl
  | cons e deltas ih =>
      obtain ⟨he, hdeltas⟩ := List.forall_mem_cons.mp hdeltas
      obtain ⟨x, hx⟩ := Option.isSome_iff_exists.mp he
      simp only [increment, hx]
      exact ih _ hdeltas

end Document

/-! ### Other collections -/

namespace Table

variable (codec : Document → Except Failure Document) {collection other : String}
  (unique : List String) (id : String) (rows : List Row)

theorem filter_insert_of_ne (hne : collection ≠ other) (d : Document) :
    ((insert codec collection unique id d rows).2.filter fun r => r.collection == other) =
      rows.filter fun r => r.collection == other := by
  rcases insert_cases codec collection unique id d rows with ⟨f, hinsert⟩ | ⟨hinsert, -, -⟩
  · rw [hinsert]
  · rw [hinsert, List.filter_append, List.filter_cons_of_neg (by simpa using hne), List.filter_nil,
      List.append_nil]

theorem filter_modify_of_ne (hne : collection ≠ other) (change : Document → Except Failure Document) :
    ((modify codec collection unique id change rows).2.filter fun r => r.collection == other) =
      rows.filter fun r => r.collection == other := by
  by_cases hfound : ∃ d, findById collection id rows = .ok (some d)
  · obtain ⟨d, hfound⟩ := hfound
    rcases modify_cases codec collection unique change hfound with ⟨f, hmodify⟩ | ⟨new, -, -, hmodify⟩
    · rw [hmodify]
    · rw [hmodify, List.filter_map]
      have hsame : (fun r : Row => r.collection == other) ∘
          (fun r => if isAt collection id r then { r with doc := codec new } else r) =
          fun r => r.collection == other := by
        funext r
        by_cases hat : isAt collection id r <;> simp [hat]
      rw [hsame]
      refine (List.map_congr_left fun r hr => if_neg ?_).trans (List.map_id _)
      have hcollection := beq_iff_eq.mp (List.mem_filter.mp hr).2
      simp [isAt, hcollection, Ne.symm hne]
  · rw [modify_of_missing codec collection unique change fun d hd => hfound ⟨d, hd⟩]

theorem filter_delete_of_ne (hne : collection ≠ other) :
    ((delete collection id rows).2.filter fun r => r.collection == other) =
      rows.filter fun r => r.collection == other := by
  rw [delete, List.filter_filter]
  refine List.filter_congr fun r _ => ?_
  by_cases hcollection : r.collection = other
  · simp [isAt, hcollection, Ne.symm hne]
  · simp [hcollection]

end Table

namespace Handle

section Other

variable {h other : Handle} (hb : other.backing = h.backing) (hne : h.collection ≠ other.collection)

include hb hne

theorem slots_change_of_other {α : Type} {inMemory : List Document → α × List Document}
    {inTable : List Row → α × List Row} (s : Stores)
    (hrows : ((inTable s.rows).2.filter fun r => r.collection == other.collection) =
      s.rows.filter fun r => r.collection == other.collection) :
    other.slots (h.change s inMemory inTable).2 = other.slots s := by
  cases hbacking : h.backing with
  | memory =>
      rw [hbacking] at hb
      rw [change_of_memory hbacking, slots_of_memory hb, slots_of_memory hb, Stores.memoryAt,
        Dict.get?_set_of_ne _ _ hne, Stores.memoryAt]
  | table =>
      rw [hbacking] at hb
      rw [change_of_table hbacking, slots_of_table hb, slots_of_table hb, hrows]

/-- A write leaves the other collections alone. -/
theorem slots_perform_of_other (c : Capabilities) (s : Stores) (x : Write) :
    other.slots (h.perform c s x).2 = other.slots s := by
  cases x with
  | insert d =>
      obtain ⟨issued, hinsert⟩ := h.insert_eq c d s
      have hsame : other.slots s = other.slots ⟨s.memory, s.rows, issued⟩ := rfl
      rw [perform, hinsert, hsame]
      exact slots_change_of_other hb hne _ (Table.filter_insert_of_ne _ _ _ _ hne d)
  | update id fields =>
      exact slots_change_of_other hb hne s (Table.filter_modify_of_ne _ _ _ _ hne _)
  | increment id deltas =>
      exact slots_change_of_other hb hne s (Table.filter_modify_of_ne _ _ _ _ hne _)
  | delete id => exact slots_change_of_other hb hne s (Table.filter_delete_of_ne _ _ hne)

end Other

/-! ### What calls are answered with -/

variable {h : Handle} {s : Stores} {docs : List Document}

/-- Where all documents can be read, so can the one of an id. -/
theorem findById?_of_documents (hdocs : h.documents s = .ok docs) (id : String) :
    h.findById? id s = .ok (h.found? id s) := by
  rw [found?, findById?_eq_slot]
  cases hx : (h.slots s).find? fun x => x.key == some id with
  | none => rfl
  | some x =>
      have hread : x.doc ∈ docs.map .ok :=
        documents_eq_ok_iff.mp hdocs ▸ List.mem_map_of_mem (List.mem_of_find?_eq_some hx)
      obtain ⟨d, -, hd⟩ := List.mem_map.mp hread
      dsimp only
      rw [← hd]
      rfl

/-- The check for collisions, as the store makes it. -/
def check (h : Handle) (d : Document) (s : Stores) : Except Failure Unit :=
  match h.backing with
  | .memory => Document.checkUnique h.unique d (s.memoryAt h.collection)
  | .table => Table.checkUnique h.collection h.unique d s.rows

theorem check_of_documents (hdocs : h.documents s = .ok docs) (d : Document) :
    h.check d s = Document.checkUnique h.unique d docs := by
  unfold documents at hdocs
  unfold check
  cases hb : h.backing with
  | memory =>
      simp only [hb] at hdocs
      simp only [Except.ok.inj hdocs]
  | table =>
      simp only [hb] at hdocs
      simp only [Table.checkUnique, hdocs]
      split
      · rename_i hnone
        rw [List.isEmpty_iff.mp hnone, Document.checkUnique_nil]
      · rfl

/-- Where no field must be distinct, nothing collides, whether the documents can be read or not. -/
theorem check_of_unique_nil (hunique : h.unique = []) (d : Document) (s : Stores) :
    h.check d s = .ok () := by
  unfold check
  cases h.backing with
  | memory =>
      dsimp only
      rw [hunique, Document.checkUnique_nil]
  | table =>
      dsimp only
      rw [hunique]
      rfl

theorem insert_answer_of_memory (hb : h.backing = .memory) (c : Capabilities) (d : Document)
    (s : Stores) :
    (h.insert c d s).1 =
      if (h.slots s).any fun x => x.key == some (idFor c d s) then .error (.alreadyExists idField)
      else (Document.checkUnique h.unique (d.set idField (.string (idFor c d s)))
        (s.memoryAt h.collection)).map fun _ => d.set idField (.string (idFor c d s)) := by
  obtain ⟨issued, hinsert⟩ := h.insert_eq c d s
  have hany : ((h.slots s).any fun x => x.key == some (idFor c d s)) =
      (s.memoryAt h.collection).any (Document.hasId (idFor c d s)) := by
    rw [slots_of_memory hb, List.any_map]
    rfl
  rw [hinsert, change_of_memory hb, hany, Memory.insert]
  have hsame : Stores.memoryAt ⟨s.memory, s.rows, issued⟩ h.collection =
      s.memoryAt h.collection := rfl
  rw [hsame]
  split
  · rfl
  · dsimp only
    cases Document.checkUnique h.unique (d.set idField (.string (idFor c d s)))
      (s.memoryAt h.collection) <;> rfl

theorem insert_answer_of_table (hb : h.backing = .table) (hdocs : h.documents s = .ok docs)
    (c : Capabilities) (d : Document) :
    (h.insert c d s).1 =
      match Document.checkUnique h.unique (d.set idField (.string (idFor c d s))) docs with
      | .error f => .error f
      | .ok _ =>
        if (h.slots s).any fun x => x.key == some (idFor c d s) then .error (.alreadyExists idField)
        else .ok (d.set idField (.string (idFor c d s))) := by
  obtain ⟨issued, hinsert⟩ := h.insert_eq c d s
  have hany : ((h.slots s).any fun x => x.key == some (idFor c d s)) =
      s.rows.any (Table.isAt h.collection (idFor c d s)) := by
    rw [slots_of_table hb, List.any_map, List.any_filter]
    rfl
  have hcheck := check_of_documents hdocs (d.set idField (.string (idFor c d s)))
  simp only [check, hb] at hcheck
  rw [hinsert, change_of_table hb, hany, Table.insert]
  dsimp only
  rw [hcheck]
  cases Document.checkUnique h.unique (d.set idField (.string (idFor c d s))) docs with
  | error f => rfl
  | ok _ =>
      dsimp only
      split <;> rfl

theorem update_answer (c : Capabilities) (h : Handle) (id : String) (fields : Document) (s : Stores) :
    (h.update c id fields s).1 =
      match h.findById? id s with
      | .error f => .error f
      | .ok none => .ok false
      | .ok (some d) => (h.check (Document.update d fields) s).map fun _ => true := by
  rw [Handle.update]
  cases hb : h.backing with
  | memory =>
      simp only [change_of_memory hb, findById?, check, hb, Memory.update]
      cases Memory.findById id (s.memoryAt h.collection) with
      | none => rfl
      | some d =>
          dsimp only
          cases Document.checkUnique h.unique (Document.update d fields)
            (s.memoryAt h.collection) <;> rfl
  | table =>
      simp only [change_of_table hb, findById?, check, hb, Table.update, Table.modify]
      cases Table.findById h.collection id s.rows with
      | error f => rfl
      | ok found =>
          cases found with
          | none => rfl
          | some d =>
              dsimp only
              cases Table.checkUnique h.collection h.unique (Document.update d fields) s.rows <;> rfl

/-- An increment by numbers is only refused where a table finds a collision. -/
theorem increment_answer (c : Capabilities) (h : Handle) (id : String) {deltas : Document}
    (hdeltas : ∀ e ∈ deltas, e.2.double?.isSome) (s : Stores)
    (hpasses : h.backing = .table → ∀ d, h.findById? id s = .ok (some d) →
      h.check (Document.increment d deltas).2 s = .ok ()) :
    (h.increment c id deltas s).1 = (h.findById? id s).map Option.isSome := by
  have hok : ∀ d, Document.increment d deltas = (.ok (), (Document.increment d deltas).2) :=
    fun d => Prod.ext (Document.increment_of_numbers d hdeltas) rfl
  rw [Handle.increment]
  cases hb : h.backing with
  | memory =>
      simp only [change_of_memory hb, findById?, hb, Memory.increment]
      cases Memory.findById id (s.memoryAt h.collection) with
      | none => rfl
      | some d =>
          dsimp only
          rw [hok d]
          rfl
  | table =>
      have hpasses := hpasses hb
      simp only [findById?, check, hb] at hpasses
      simp only [change_of_table hb, findById?, hb, Table.increment, Table.modify]
      cases hfound : Table.findById h.collection id s.rows with
      | error f => rfl
      | ok found =>
          cases found with
          | none => rfl
          | some d =>
              dsimp only
              rw [hok d]
              dsimp only
              rw [hpasses d hfound]
              rfl

theorem insert_slots_of_error {c : Capabilities} {d : Document} {f : Failure}
    (hrefused : (h.insert c d s).1 = .error f) : h.slots (h.insert c d s).2 = h.slots s := by
  rcases h.insert_cases c d s with ⟨_, s', hinsert, hsame⟩ | ⟨s', hinsert, -⟩
  · rw [hinsert]
    exact hsame
  · rw [hinsert] at hrefused
    cases hrefused

/-- What is inserted has passed the check for collisions. -/
theorem checkUnique_of_insert {c : Capabilities} {d stored : Document}
    (hok : (h.insert c d s).1 = .ok stored) :
    Document.checkUnique h.unique stored (h.held s) = .ok () := by
  rcases h.insert_cases c d s with ⟨_, s', hinsert, -⟩ | ⟨s', hinsert, -, hchecked, -⟩
  · rw [hinsert] at hok
    cases hok
  · rw [hinsert] at hok
    cases hok
    exact hchecked

theorem insert_slots_of_ok {c : Capabilities} {d stored : Document}
    (hok : (h.insert c d s).1 = .ok stored) :
    h.slots (h.insert c d s).2 =
      h.slots s ++ [h.slot c (idFor c d s) (d.set idField (.string (idFor c d s)))] := by
  rcases h.insert_cases c d s with ⟨_, s', hinsert, -⟩ | ⟨s', hinsert, -, -, hadded⟩
  · rw [hinsert] at hok
    cases hok
  · rw [hinsert]
    exact hadded

theorem change_issued {α : Type} (h : Handle) (s : Stores)
    (inMemory : List Document → α × List Document) (inTable : List Row → α × List Row) :
    (h.change s inMemory inTable).2.issued = s.issued := by
  unfold change
  cases h.backing <;> rfl

theorem insert_issued (c : Capabilities) (h : Handle) (d : Document) (s : Stores) :
    (h.insert c d s).2.issued = if d.id?.isSome then s.issued else s.issued + 1 := by
  rw [insert]
  cases d.id? with
  | none => exact change_issued ..
  | some id => exact change_issued ..

theorem perform_issued (c : Capabilities) (h : Handle) (s : Stores) (x : Write) :
    (h.perform c s x).2.issued =
      match x with
      | .insert d => if d.id?.isSome then s.issued else s.issued + 1
      | _ => s.issued := by
  cases x with
  | insert d => exact insert_issued c h d s
  | update id fields => exact change_issued ..
  | increment id deltas => exact change_issued ..
  | delete id => exact change_issued ..

/-! ### What is kept -/

/-- A document is kept with what it has in some fields. -/
def KeepsFields (c : Capabilities) (h : Handle) (fields : List String) (d : Document) : Prop :=
  ∃ k, h.kept c d = .ok k ∧ ∀ field ∈ fields, k.get? field = d.get? field

theorem keepsFields_of_memory {h : Handle} (hb : h.backing = .memory) (c : Capabilities)
    (fields : List String) (d : Document) : h.KeepsFields c fields d :=
  ⟨d, by rw [kept, hb], fun _ _ => rfl⟩

/-- The documents of a table are apart in its unique fields and have no repeated names, so that it
refuses no write that leaves the unique fields alone.  In memory none is refused anyway. -/
structure Separate (h : Handle) (docs : Dict Document) : Prop where
  apart : h.backing = .table → (docs.map (·.2)).Pairwise (Document.Apart h.unique)
  settled : h.backing = .table → ∀ p ∈ docs, Document.Settled p.2

namespace Separate

variable {h : Handle} {docs : Dict Document} {id : String} {d k : Document}

theorem nil : h.Separate [] := ⟨fun _ => .nil, fun _ => List.forall_mem_nil _⟩

/-- A document that passed the check of the table stands apart from those that were there. -/
theorem appended (hsep : h.Separate docs) (hids : ∀ p ∈ docs, Document.id? p.2 = some p.1)
    (hfresh : id ∉ docs.names) (hid : Document.id? d = some id)
    (hchecked : Document.checkUnique h.unique d (docs.map (·.2)) = .ok ())
    (hfields : ∀ field ∈ h.unique, k.get? field = d.get? field)
    (hsettled : h.backing = .table → Document.Settled k) : h.Separate (docs ++ [(id, k)]) := by
  refine ⟨fun hb => ?_, fun hb => ?_⟩
  · rw [List.map_append, List.pairwise_append]
    refine ⟨hsep.apart hb, List.pairwise_singleton _ _, ?_⟩
    rintro other hother new hnew
    rw [show new = k from List.mem_singleton.mp hnew]
    obtain ⟨p, hp, rfl⟩ := List.mem_map.mp hother
    have hne : Document.id? p.2 ≠ some id := by
      rw [hids p hp]
      exact fun hsame => hfresh (Option.some.inj hsame ▸ Dict.mem_names_of_mem hp)
    refine Document.Apart.symm fun field hfield => ?_
    have hfree := Document.collides_eq_false_of_checkUnique hchecked hid _ hother hne field hfield
    have hcollides : Document.collides k p.2 field = false := by
      unfold Document.collides at hfree ⊢
      rwa [hfields field hfield]
    exact ⟨hcollides,
      Document.collides_comm (hsettled hb) (hsep.settled hb p hp) field ▸ hcollides⟩
  · intro p hp
    rcases List.mem_append.mp hp with hp | hp
    · exact hsep.settled hb p hp
    · obtain rfl := List.mem_singleton.mp hp
      exact hsettled hb

/-- A document with the unique fields of the one in its place stands as far apart as that. -/
theorem rewritten (hsep : h.Separate docs) (hnames : docs.names.Nodup) (hd : docs.get? id = some d)
    (hfields : ∀ field ∈ h.unique, k.get? field = d.get? field)
    (hsettled : h.backing = .table → Document.Settled k) :
    h.Separate (docs.map fun p => (p.1, if p.1 = id then k else p.2)) := by
  have hunique : ∀ p ∈ docs, ∀ field ∈ h.unique,
      (if p.1 = id then k else p.2).get? field = p.2.get? field := by
    intro p hp field hfield
    split
    · rename_i hpid
      obtain rfl : d = p.2 := Option.some.inj (hd.symm.trans (hpid ▸ Dict.get?_of_mem hnames hp))
      exact hfields field hfield
    · rfl
  refine ⟨fun hb => ?_, fun hb => ?_⟩
  · have hapart := List.pairwise_map.mp (hsep.apart hb)
    rw [List.map_map, List.pairwise_map]
    refine hapart.imp_of_mem fun {p q} hp hq hpq => ?_
    exact ((hpq.of_get? (hunique p hp)).symm.of_get? (hunique q hq)).symm
  · intro p hp
    obtain ⟨old, hold, rfl⟩ := List.mem_map.mp hp
    dsimp only
    split
    · exact hsettled hb
    · exact hsep.settled hb old hold

end Separate

end Handle

end Curator
