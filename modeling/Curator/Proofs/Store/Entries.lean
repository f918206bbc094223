/-
The entries of a collection whose documents can all be read.

`Handle.Holds` says that each document of a collection has the id that it is found under, and that no
id is taken twice, so that the collection is a list of entries with distinct names.  Under it every
operation has one law for both stores: what it answers, and how the entries after it come from those
before.
-/
import Curator.Proofs.Store.Slots
import Curator.Store.Identifier

namespace Curator

theorem ne_empty_of_isValidId {id : String} (hid : isValidId id = true) : id ≠ "" := by
  rintro rfl
  exact absurd hid (by decide)

namespace Handle

/-! ### The entries of a collection -/

/-- Under each id the document, or the failure to read it. -/
def entries (h : Handle) (s : Stores) : Dict (Except Failure Document) :=
  match h.backing with
  | .memory => (s.memoryAt h.collection).map fun d => (d.id?.getD "", .ok d)
  | .table => (s.rows.filter fun r => r.collection == h.collection).map fun r => (r.id, r.doc)

theorem entries_eq (h : Handle) (s : Stores) :
    h.entries s = (h.slots s).map fun x => (x.key.getD "", x.doc) := by
  unfold entries slots
  cases h.backing with
  | memory => rw [List.map_map]; rfl
  | table => rw [List.map_map]; rfl

/-- A slot can be told from its entry. -/
theorem slots_eq (h : Handle) (s : Stores) :
    h.slots s = (h.entries s).map fun p =>
      match h.backing with
      | .memory => ⟨p.2.toOption.bind Document.id?, p.2⟩
      | .table => ⟨some p.1, p.2⟩ := by
  unfold entries slots
  cases h.backing with
  | memory => rw [List.map_map]; rfl
  | table => rw [List.map_map]; rfl

theorem slots_eq_of_entries {h : Handle} {s s' : Stores} (same : h.entries s' = h.entries s) :
    h.slots s' = h.slots s := by
  rw [slots_eq, slots_eq, same]

/-- Whether the document of an id is found, and can be read, is told by the entry of the id. -/
theorem findById?_eq {h : Handle} {id : String} (hid : id ≠ "") (s : Stores) :
    h.findById? id s =
      match (h.entries s).get? id with
      | none => .ok none
      | some r => r.map some := by
  have hkey : ∀ x : Slot, (x.key.getD "" == id) = (x.key == some id) := by
    intro x
    cases hx : x.key with
    | none => simpa using Ne.symm hid
    | some other => simp
  have hget : (h.entries s).get? id =
      ((h.slots s).find? fun x => x.key == some id).map (·.doc) := by
    simp only [entries_eq, Dict.get?, List.find?_map, Option.map_map, Function.comp_def, hkey]
  rw [hget, findById?_eq_slot]
  cases (h.slots s).find? fun x => x.key == some id with
  | none => rfl
  | some x => rfl

/-- A collection holds some documents, each under its own id. -/
structure Holds (h : Handle) (s : Stores) (docs : Dict Document) : Prop where
  entries : h.entries s = docs.mapValues .ok
  /-- Every document has the id of its entry. -/
  ids : ∀ p ∈ docs, Document.id? p.2 = some p.1
  /-- No id is taken twice. -/
  distinct : docs.names.Nodup

/-- The entries of some documents of which one is written anew: what is kept of it under its id, the
others as before. -/
def replaced (docs : Dict Document) (id : String) (kept : Except Failure Document) :
    Dict (Except Failure Document) :=
  docs.map fun p => (p.1, if p.1 = id then kept else .ok p.2)

theorem get?_replaced {docs : Dict Document} {id : String} {d : Document}
    (hd : docs.get? id = some d) (kept : Except Failure Document) :
    (replaced docs id kept).get? id = some kept := by
  induction docs with
  | nil => cases hd
  | cons p docs ih =>
      rw [Dict.get?_cons] at hd
      rw [replaced, List.map_cons, Dict.get?_cons]
      split
      · rfl
      · rename_i hne
        rw [if_neg hne] at hd
        exact ih hd

theorem replaced_ok (docs : Dict Document) (id : String) (k : Document) :
    replaced docs id (.ok k) =
      Dict.mapValues .ok (docs.map fun p => (p.1, if p.1 = id then k else p.2)) := by
  rw [replaced, Dict.mapValues, List.map_map]
  refine List.map_congr_left fun p _ => ?_
  by_cases hp : p.1 = id <;> simp [hp]

theorem map_doc_slots (h : Handle) (s : Stores) :
    (h.slots s).map (·.doc) = (h.entries s).map (·.2) := by
  rw [entries_eq, List.map_map]
  rfl

/-- The documents read after one was added. -/
theorem documents_of_appended {h : Handle} {s : Stores} {docs : Dict Document} {id : String}
    {kept : Except Failure Document} {all : List Document}
    (hentries : h.entries s = docs.mapValues .ok ++ [(id, kept)]) (hall : h.documents s = .ok all) :
    ∃ k, kept = .ok k ∧ all = docs.map (·.2) ++ [k] := by
  rw [documents_eq_ok_iff, map_doc_slots, hentries, List.map_append] at hall
  obtain ⟨old, new, rfl, hold, hnew⟩ := List.map_eq_append_iff.mp hall.symm
  obtain ⟨k, rfl, hkept⟩ := List.map_eq_singleton_iff.mp hnew
  refine ⟨k, hkept.symm, ?_⟩
  rw [Dict.mapValues, List.map_map] at hold
  have hsame : old.map (Except.ok (ε := Failure)) = (docs.map (·.2)).map .ok := by
    rw [hold, List.map_map]
    rfl
  rw [(List.map_inj_right fun a b => Except.ok.inj).mp hsame]

/-- The documents read after one was written anew. -/
theorem documents_of_replaced {h : Handle} {s : Stores} {docs : Dict Document} {id : String}
    {d : Document} {kept : Except Failure Document} {all : List Document}
    (hd : docs.get? id = some d) (hentries : h.entries s = replaced docs id kept)
    (hall : h.documents s = .ok all) :
    ∃ k, kept = .ok k ∧ all = docs.map fun p => if p.1 = id then k else p.2 := by
  rw [documents_eq_ok_iff, map_doc_slots, hentries] at hall
  obtain ⟨k, -, rfl⟩ : ∃ k ∈ all, .ok k = kept := by
    rw [← List.mem_map, ← hall]
    exact List.mem_map_of_mem (Dict.mem_of_get?_eq_some (get?_replaced hd _))
  refine ⟨k, rfl, ?_⟩
  rw [replaced_ok, Dict.mapValues, List.map_map] at hall
  refine (List.map_inj_right fun a b => Except.ok.inj).mp (hall.symm.trans ?_)
  rw [List.map_map, List.map_map]
  rfl

namespace Holds

variable {h : Handle} {s : Stores} {docs : Dict Document}

/-- Each document is found under its own id, in memory and in a table. -/
theorem slots (hs : h.Holds s docs) :
    h.slots s = docs.map fun p => ⟨some p.1, .ok p.2⟩ := by
  have hentries := hs.entries
  cases hb : h.backing with
  | memory =>
      have hmem : s.memoryAt h.collection = docs.map (·.2) := by
        have hread : (h.slots s).map (·.doc) = (docs.map (·.2)).map .ok := by
          rw [map_doc_slots, hentries, Dict.mapValues, List.map_map, List.map_map]
          rfl
        have hdocs := documents_eq_ok_iff.mpr hread
        rw [Handle.documents, hb] at hdocs
        exact Except.ok.inj hdocs
      rw [slots_of_memory hb, hmem, List.map_map]
      refine List.map_congr_left fun p hp => ?_
      rw [Function.comp_apply, hs.ids p hp]
  | table =>
      have hrows : h.slots s = (h.entries s).map fun e => ⟨some e.1, e.2⟩ := by
        rw [slots_of_table hb, Handle.entries, hb, List.map_map]
        rfl
      rw [hrows, hentries, Dict.mapValues, List.map_map]
      rfl

theorem keys (hs : h.Holds s docs) : ((h.slots s).filterMap Slot.key).Nodup := by
  have hnames : (h.slots s).filterMap Slot.key = docs.names := by
    rw [hs.slots, List.filterMap_map, Dict.names, ← List.filterMap_eq_map]
    rfl
  rw [hnames]
  exact hs.distinct

theorem documents (hs : h.Holds s docs) : h.documents s = .ok (docs.map (·.2)) := by
  rw [documents_eq_ok_iff, hs.slots, List.map_map, List.map_map]
  rfl

theorem findById? (hs : h.Holds s docs) (id : String) :
    h.findById? id s = .ok (docs.get? id) := by
  have hkey : ((fun x : Slot => x.key == some id) ∘ fun p : String × Document =>
      ⟨some p.1, .ok p.2⟩) = fun p => p.1 == id := by
    funext p
    rw [Function.comp_apply, Option.some_beq_some]
  rw [findById?_eq_slot, hs.slots, List.find?_map, hkey, Dict.get?]
  cases docs.find? fun p => p.1 == id with
  | none => rfl
  | some p => rfl

theorem found? (hs : h.Holds s docs) (id : String) : h.found? id s = docs.get? id := by
  rw [Handle.found?, hs.findById? id]
  rfl

theorem find (hs : h.Holds s docs) (filter : Document) :
    h.find filter s = .ok ((docs.map (·.2)).filter fun d => d.matchesFilter filter) := by
  rw [Handle.find, hs.documents]
  rfl

/-! ### Writing -/

/-- A slot that is rewritten is the entry of its id written anew. -/
theorem entries_of_rewrites {c : Capabilities} {id : String} {d new : Document} {s' : Stores}
    (hs : h.Holds s docs) (hrewrites : h.Rewrites c id d new s s') (hid : new.id? = some id) :
    h.entries s' = replaced docs id (h.kept c new) := by
  rw [entries_eq, hrewrites.slots_eq, hs.slots, List.map_map, List.map_map, replaced]
  refine List.map_congr_left fun p _ => ?_
  by_cases hpid : p.1 = id
  · simp [hpid, slot_key c hid]
  · simp [hpid]

/-- A document without an id is refused and changes no entry, or what is kept of it is added under
the next id issued. -/
theorem insert (hs : h.Holds s docs) (c : Capabilities) {d : Document} (hd : d.id? = none) :
    (∃ f s', h.insert c d s = (.error f, s') ∧ h.entries s' = h.entries s) ∨
    (∃ s', h.insert c d s = (.ok (d.set idField (.string (c.issueId s.issued))), s') ∧
      c.issueId s.issued ∉ docs.names ∧
      h.entries s' = h.entries s ++
        [(c.issueId s.issued, h.kept c (d.set idField (.string (c.issueId s.issued))))]) := by
  have hid : idFor c d s = c.issueId s.issued := by rw [idFor, hd, Option.getD_none]
  rw [← hid]
  rcases h.insert_cases c d s with ⟨f, s', hinsert, hsame⟩ | ⟨s', hinsert, hfresh, -, hadded⟩
  · exact Or.inl ⟨f, s', hinsert, by rw [entries_eq, entries_eq, hsame]⟩
  · refine Or.inr ⟨s', hinsert, ?_, ?_⟩
    · intro hmem
      obtain ⟨p, hp, hpid⟩ := List.mem_map.mp hmem
      refine hfresh ⟨some p.1, .ok p.2⟩ ?_ (congrArg some hpid)
      rw [hs.slots]
      exact List.mem_map_of_mem hp
    · rw [entries_eq, entries_eq, hadded, List.map_append, List.map_singleton, slot_doc,
        slot_key c (Document.id?_set_idField d _), Option.getD_some]

/-- Writing over a document is refused and changes no entry, or leaves what is kept of the updated
document under its id. -/
theorem update (hs : h.Holds s docs) (c : Capabilities) {id : String} {d : Document}
    (fields : Document) (hd : docs.get? id = some d) :
    (∃ f s', h.update c id fields s = (.error f, s') ∧ h.entries s' = h.entries s) ∨
    (∃ s', h.update c id fields s = (.ok true, s') ∧
      h.entries s' = replaced docs id (h.kept c (Document.update d fields))) := by
  rcases h.update_cases c hs.keys ((hs.found? id).trans hd) fields with
    ⟨f, s', hupdate, hsame⟩ | ⟨s', hupdate, -, hrewrites⟩
  · exact Or.inl ⟨f, s', hupdate, by rw [entries_eq, entries_eq, hsame]⟩
  · refine Or.inr ⟨s', hupdate, hs.entries_of_rewrites hrewrites ?_⟩
    rw [Document.id?_update, hs.ids _ (Dict.mem_of_get?_eq_some hd)]

/-- A deletion takes out the entry of an id, and says whether there was one. -/
theorem delete (hs : h.Holds s docs) (id : String) :
    ∃ s', h.delete id s = (decide (id ∈ docs.names), s') ∧
      h.entries s' = Dict.mapValues .ok (docs.filter fun p => p.1 ≠ id) := by
  obtain ⟨s', hdelete, hafter⟩ := h.delete_eq id s
  refine ⟨s', ?_, ?_⟩
  · have hmem : ((h.slots s).any fun x => x.key == some id) = decide (id ∈ docs.names) := by
      rw [hs.slots, Bool.eq_iff_iff, decide_eq_true_iff]
      simp [Dict.names]
    rw [hdelete, hmem]
  · rw [entries_eq, hafter, hs.slots, List.filter_map, List.map_map, Dict.mapValues]
    congr 1
    refine List.filter_congr fun p _ => ?_
    simp [Bool.beq_eq_decide_eq]

/-! ### What is held after it -/

variable {s' : Stores} {id : String} {k : Document}

theorem of_entries (hs : h.Holds s docs) (same : h.entries s' = h.entries s) : h.Holds s' docs :=
  ⟨same.trans hs.entries, hs.ids, hs.distinct⟩

theorem of_slots (hs : h.Holds s docs) (same : h.slots s' = h.slots s) : h.Holds s' docs :=
  hs.of_entries (by rw [entries_eq, entries_eq, same])

/-- One document more, under an id that was free. -/
theorem appended (hs : h.Holds s docs) (hfresh : id ∉ docs.names) (hid : Document.id? k = some id)
    (hentries : h.entries s' = h.entries s ++ [(id, .ok k)]) :
    h.Holds s' (docs ++ [(id, k)]) := by
  refine ⟨?_, ?_, ?_⟩
  · rw [hentries, hs.entries, Dict.mapValues, Dict.mapValues, List.map_append]
    rfl
  · intro p hp
    rcases List.mem_append.mp hp with hp | hp
    · exact hs.ids p hp
    · obtain rfl := List.mem_singleton.mp hp
      exact hid
  · rw [Dict.names_append]
    refine List.nodup_append.mpr ⟨hs.distinct, by simp, ?_⟩
    rintro a ha b hb rfl
    obtain rfl := List.mem_singleton.mp hb
    exact hfresh ha

/-- Another document under an id. -/
theorem rewritten (hs : h.Holds s docs) (hid : Document.id? k = some id)
    (hentries : h.entries s' = replaced docs id (.ok k)) :
    h.Holds s' (docs.map fun p => (p.1, if p.1 = id then k else p.2)) := by
  refine ⟨hentries.trans (replaced_ok docs id k), ?_, ?_⟩
  · intro p hp
    obtain ⟨old, hold, rfl⟩ := List.mem_map.mp hp
    by_cases heq : old.1 = id
    · simpa [heq] using hid
    · simpa [heq] using hs.ids old hold
  · simpa [Dict.names, Function.comp_def] using hs.distinct

/-- No document under an id. -/
theorem removed (hs : h.Holds s docs)
    (hentries : h.entries s' = Dict.mapValues .ok (docs.filter fun p => p.1 ≠ id)) :
    h.Holds s' (docs.filter fun p => p.1 ≠ id) :=
  ⟨hentries, fun p hp => hs.ids p (List.mem_filter.mp hp).1,
    hs.distinct.sublist (List.filter_sublist.map _)⟩

end Holds

end Handle

end Curator
