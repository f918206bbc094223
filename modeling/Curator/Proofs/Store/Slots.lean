/-
One view of the two stores.

Whether the documents of an entity are in memory or in rows, a collection is a list of slots in the
order of insertion.  A slot has the id that its document is found under, and the document or the failure
to read it.  In memory the id is the one that the document holds, and there may be none; in a table it
is the one of the row, whatever the document says.  `Handle.slot` is what becomes of a written document,
and the only difference that is left: every operation has one law for both stores that says what it
answers and how the slots after it come from those before.
-/
import Curator.Proofs.Serving
import Curator.Proofs.Store.Document
import Curator.Store.Handle

namespace Curator

namespace Stores

@[simp] theorem memoryAt_set (memory : Dict (List Document)) (rows : List Row) (issued : Nat)
    (collection : String) (docs : List Document) :
    memoryAt ⟨memory.set collection docs, rows, issued⟩ collection = docs := by
  simp [memoryAt]

end Stores

/-- Taking out what satisfies a test makes a list shorter when something does. -/
theorem length_filter_not_bne {α : Type} (p : α → Bool) (l : List α) :
    ((l.filter fun a => !p a).length != l.length) = l.any p := by
  rw [Bool.eq_iff_iff, bne_iff_ne, Ne, List.length_filter_eq_length_iff]
  simp

/-! ### What the stores do, case by case -/

namespace Memory

theorem insert_cases (unique : List String) (id : String) (d : Document) (docs : List Document) :
    (∃ f, insert unique id d docs = (.error f, docs)) ∨
    (insert unique id d docs =
        (.ok (d.set idField (.string id)), docs ++ [d.set idField (.string id)]) ∧
      (∀ x ∈ docs, ¬ Document.hasId id x) ∧
      Document.checkUnique unique (d.set idField (.string id)) docs = .ok ()) := by
  unfold insert
  split
  · exact Or.inl ⟨_, rfl⟩
  · rename_i hfresh
    dsimp only
    split
    · exact Or.inl ⟨_, rfl⟩
    · rename_i hchecked
      exact Or.inr ⟨rfl, fun x hx hid => hfresh (List.any_eq_true.mpr ⟨x, hx, hid⟩), hchecked⟩

theorem update_cases (unique : List String) {id : String} (fields : Document)
    {docs : List Document} {d : Document} (hfound : findById id docs = some d) :
    (∃ f, update unique id fields docs = (.error f, docs)) ∨
    (update unique id fields docs = (.ok true, replace id (Document.update d fields) docs) ∧
      Document.checkUnique unique (Document.update d fields) docs = .ok ()) := by
  unfold update
  rw [hfound]
  dsimp only
  split
  · exact Or.inl ⟨_, rfl⟩
  · rename_i hchecked
    exact Or.inr ⟨rfl, hchecked⟩

/-- The first document of an id is replaced, and no other one. -/
theorem replace_append {id : String} {old : Document} (hold : Document.hasId id old = true)
    (new : Document) (after : List Document) {before : List Document}
    (hbefore : ∀ d ∈ before, ¬ Document.hasId id d) :
    replace id new (before ++ old :: after) = before ++ new :: after := by
  induction before with
  | nil => rw [List.nil_append, List.nil_append, replace, if_pos hold]
  | cons d before ih =>
      obtain ⟨hd, hbefore⟩ := List.forall_mem_cons.mp hbefore
      rw [List.cons_append, replace, if_neg hd, ih hbefore, List.cons_append]

end Memory

namespace Table

variable (codec : Document → Except Failure Document) (collection : String) (unique : List String)

theorem insert_cases (id : String) (d : Document) (rows : List Row) :
    (∃ f, insert codec collection unique id d rows = (.error f, rows)) ∨
    (insert codec collection unique id d rows =
        (.ok (d.set idField (.string id)),
          rows ++ [⟨collection, id, codec (d.set idField (.string id))⟩]) ∧
      (∀ r ∈ rows, ¬ isAt collection id r) ∧
      checkUnique collection unique (d.set idField (.string id)) rows = .ok ()) := by
  unfold insert
  dsimp only
  split
  · exact Or.inl ⟨_, rfl⟩
  · rename_i hchecked
    split
    · exact Or.inl ⟨_, rfl⟩
    · rename_i hfresh
      exact Or.inr ⟨rfl, fun r hr hat => hfresh (List.any_eq_true.mpr ⟨r, hr, hat⟩), hchecked⟩

theorem modify_cases {id : String} (change : Document → Except Failure Document)
    {rows : List Row} {d : Document} (hfound : findById collection id rows = .ok (some d)) :
    (∃ f, modify codec collection unique id change rows = (.error f, rows)) ∨
    (∃ new, change d = .ok new ∧ checkUnique collection unique new rows = .ok () ∧
      modify codec collection unique id change rows = (.ok true, rows.map fun r =>
        if isAt collection id r then { r with doc := codec new } else r)) := by
  unfold modify
  rw [hfound]
  dsimp only
  split
  · exact Or.inl ⟨_, rfl⟩
  · rename_i new hnew
    split
    · exact Or.inl ⟨_, rfl⟩
    · rename_i hchecked
      exact Or.inr ⟨new, hnew, hchecked, rfl⟩

/-- Nothing is changed where no document is found. -/
theorem modify_of_missing {id : String} (change : Document → Except Failure Document)
    {rows : List Row} (hmissing : ∀ d, findById collection id rows ≠ .ok (some d)) :
    (modify codec collection unique id change rows).2 = rows := by
  unfold modify
  split
  · rfl
  · rfl
  · rename_i d hfound
    exact absurd hfound (hmissing d)

end Table

/-! ### Slots -/

/-- The place of one document in a collection. -/
structure Slot where
  /-- The id that the document is found under. -/
  key : Option String
  /-- The document, or the failure to read it. -/
  doc : Except Failure Document

theorem Slot.key_ne_of_nodup {before after : List Slot} {x : Slot} {id : String}
    (hkeys : ((before ++ x :: after).filterMap Slot.key).Nodup) (hx : x.key = some id) :
    ∀ y ∈ before ++ after, y.key ≠ some id := by
  have hfront : (before ++ x :: after).Perm (x :: (before ++ after)) := List.perm_middle
  have hmiddle := hfront.filterMap Slot.key
  rw [List.filterMap_cons_some hx] at hmiddle
  have hfresh := (List.nodup_cons.mp (hmiddle.nodup_iff.mp hkeys)).1
  exact fun y hy hid => hfresh (List.mem_filterMap.mpr ⟨y, hy, hid⟩)

theorem Slot.eq_of_key {slots : List Slot} (hkeys : (slots.filterMap Slot.key).Nodup) {x y : Slot}
    (hx : x ∈ slots) (hy : y ∈ slots) {id : String} (hkey : x.key = some id)
    (hkey' : y.key = some id) : y = x := by
  obtain ⟨before, after, rfl⟩ := List.append_of_mem hx
  rcases List.mem_cons.mp (List.perm_middle.mem_iff.mp hy) with heq | hother
  · exact heq
  · exact absurd hkey' (key_ne_of_nodup hkeys hkey y hother)

/-- Among slots of which one has an id, that one is rewritten. -/
theorem Slot.map_rewrite {before after : List Slot} {x : Slot} {id : String}
    (hx : x.key = some id) (hother : ∀ y ∈ before ++ after, y.key ≠ some id) (new : Slot) :
    (before ++ x :: after).map (fun y => if y.key = some id then new else y) =
      before ++ new :: after := by
  have hsame : ∀ {part : List Slot}, (∀ y ∈ part, y.key ≠ some id) →
      part.map (fun y => if y.key = some id then new else y) = part := by
    intro part hpart
    exact (List.map_congr_left fun y hy => if_neg (hpart y hy)).trans (List.map_id part)
  rw [List.map_append, List.map_cons, if_pos hx,
    hsame fun y hy => hother y (List.mem_append_left _ hy),
    hsame fun y hy => hother y (List.mem_append_right _ hy)]

namespace Handle

/-- The slots of a collection, in the order of insertion. -/
def slots (h : Handle) (s : Stores) : List Slot :=
  match h.backing with
  | .memory => (s.memoryAt h.collection).map fun d => ⟨d.id?, .ok d⟩
  | .table => (s.rows.filter fun r => r.collection == h.collection).map fun r => ⟨some r.id, r.doc⟩

/-- What a written document is kept as. -/
def kept (c : Capabilities) (h : Handle) (d : Document) : Except Failure Document :=
  match h.backing with
  | .memory => .ok d
  | .table => c.codec d

/-- The slot of a document that was written under an id. -/
def slot (c : Capabilities) (h : Handle) (id : String) (d : Document) : Slot :=
  match h.backing with
  | .memory => ⟨d.id?, .ok d⟩
  | .table => ⟨some id, c.codec d⟩

/-- The documents of a collection that can be read. -/
def held (h : Handle) (s : Stores) : List Document :=
  (h.slots s).filterMap fun x => x.doc.toOption

/-- The document of an id, if it is there and can be read. -/
def found? (h : Handle) (id : String) (s : Stores) : Option Document :=
  (h.findById? id s).toOption.join

theorem slots_of_memory {h : Handle} (hb : h.backing = .memory) (s : Stores) :
    h.slots s = (s.memoryAt h.collection).map fun d => ⟨d.id?, .ok d⟩ := by
  simp only [slots, hb]

theorem slots_of_table {h : Handle} (hb : h.backing = .table) (s : Stores) :
    h.slots s =
      (s.rows.filter fun r => r.collection == h.collection).map fun r => ⟨some r.id, r.doc⟩ := by
  simp only [slots, hb]

theorem held_of_memory {h : Handle} (hb : h.backing = .memory) (s : Stores) :
    h.held s = s.memoryAt h.collection := by
  rw [held, slots_of_memory hb, List.filterMap_map]
  exact List.filterMap_some

@[simp] theorem slot_doc (c : Capabilities) (h : Handle) (id : String) (d : Document) :
    (h.slot c id d).doc = h.kept c d := by
  unfold slot kept
  cases h.backing <;> rfl

/-- A document with the id that it is written under is found under it. -/
theorem slot_key {h : Handle} {id : String} {d : Document} (c : Capabilities)
    (hid : d.id? = some id) : (h.slot c id d).key = some id := by
  unfold slot
  cases h.backing with
  | memory => exact hid
  | table => rfl

/-- A document that is written over another and leaves the id alone is found where that one was. -/
theorem slot_key_of_id?_eq {h : Handle} {id : String} {s : Stores} {d new : Document}
    (c : Capabilities) (hmem : (⟨some id, .ok d⟩ : Slot) ∈ h.slots s) (hid : new.id? = d.id?) :
    (h.slot c id new).key = some id := by
  cases hb : h.backing with
  | memory =>
      rw [slots_of_memory hb] at hmem
      obtain ⟨d', -, heq⟩ := List.mem_map.mp hmem
      obtain ⟨hkey, hd⟩ := Slot.mk.inj heq
      obtain rfl := Except.ok.inj hd
      exact slot_key c (hid.trans hkey)
  | table => simp only [slot, hb]

/-! ### Reading -/

theorem mapM_id_eq_ok_iff {results : List (Except Failure Document)} {docs : List Document} :
    results.mapM id = .ok docs ↔ results = docs.map .ok := by
  induction results generalizing docs with
  | nil => cases docs <;> simp [pure, Except.pure]
  | cons r results ih =>
      rw [List.mapM_cons, Outcome.bind_eq_ok_iff]
      constructor
      · rintro ⟨d, hr, hdo⟩
        obtain ⟨rest, hrest, hdocs⟩ := Outcome.bind_eq_ok_iff.mp hdo
        cases hdocs
        rw [ih.mp hrest, List.map_cons, ← hr]
        rfl
      · intro h
        cases docs with
        | nil => cases h
        | cons d docs =>
            obtain ⟨rfl, hrest⟩ := List.cons.inj h
            exact ⟨d, rfl, by rw [ih.mpr hrest]; rfl⟩

/-- The documents of a collection are read slot by slot. -/
theorem documents_eq_mapM (h : Handle) (s : Stores) :
    h.documents s = ((h.slots s).map (·.doc)).mapM id := by
  unfold documents slots
  cases h.backing with
  | memory =>
      have hread : ((s.memoryAt h.collection).map (Except.ok (ε := Failure))).mapM id =
          .ok (s.memoryAt h.collection) := mapM_id_eq_ok_iff.mpr rfl
      simp [Function.comp_def, ← hread]
  | table => simp [Table.documents, List.mapM_map, Function.comp_def]

/-- The documents of a collection can be read when every one of them can. -/
theorem documents_eq_ok_iff {h : Handle} {s : Stores} {docs : List Document} :
    h.documents s = .ok docs ↔ (h.slots s).map (·.doc) = docs.map .ok := by
  rw [documents_eq_mapM, mapM_id_eq_ok_iff]

theorem held_eq_of_documents {h : Handle} {s : Stores} {docs : List Document}
    (hdocs : h.documents s = .ok docs) : h.held s = docs := by
  have hread : h.held s = ((h.slots s).map (·.doc)).filterMap Except.toOption := by
    rw [List.filterMap_map]
    rfl
  rw [hread, documents_eq_ok_iff.mp hdocs, List.filterMap_map]
  exact List.filterMap_some

theorem findById?_eq_slot (h : Handle) (id : String) (s : Stores) :
    h.findById? id s =
      match (h.slots s).find? fun x => x.key == some id with
      | none => .ok none
      | some x => x.doc.map some := by
  cases hb : h.backing with
  | memory =>
      have hfind : (h.slots s).find? (fun x => x.key == some id) =
          ((s.memoryAt h.collection).find? (Document.hasId id)).map
            fun d => Slot.mk d.id? (.ok d) := by
        rw [slots_of_memory hb, List.find?_map]
        rfl
      rw [hfind]
      simp only [findById?, hb, Memory.findById]
      cases (s.memoryAt h.collection).find? (Document.hasId id) with
      | none => rfl
      | some d => rfl
  | table =>
      have hfind : (h.slots s).find? (fun x => x.key == some id) =
          (s.rows.find? (Table.isAt h.collection id)).map fun r => Slot.mk (some r.id) r.doc := by
        rw [slots_of_table hb, List.find?_map, List.find?_filter]
        congr 2
        funext r
        rw [Bool.decide_and, Bool.decide_eq_true, Bool.decide_eq_true]
        rfl
      rw [hfind]
      simp only [findById?, hb, Table.findById]
      cases s.rows.find? (Table.isAt h.collection id) with
      | none => rfl
      | some r => rfl

/-- The first slot of an id is the one that is found. -/
theorem findById?_of_append {h : Handle} {id : String} {s : Stores} {before after : List Slot}
    {x : Slot} (hslots : h.slots s = before ++ x :: after)
    (hbefore : ∀ y ∈ before, y.key ≠ some id) (hkey : x.key = some id) :
    h.findById? id s = x.doc.map some := by
  have hnone : before.find? (fun y => y.key == some id) = none :=
    List.find?_eq_none.mpr fun y hy => by simpa using hbefore y hy
  rw [findById?_eq_slot, hslots, List.find?_append, hnone, List.find?_cons_of_pos (by simp [hkey])]
  rfl

/-- Where no id is taken twice, each slot is what is found under its id. -/
theorem findById?_of_mem {h : Handle} {id : String} {s : Stores} {x : Slot}
    (hkeys : ((h.slots s).filterMap Slot.key).Nodup) (hx : x ∈ h.slots s) (hkey : x.key = some id) :
    h.findById? id s = x.doc.map some := by
  obtain ⟨before, after, hslots⟩ := List.append_of_mem hx
  have hother := Slot.key_ne_of_nodup (hslots ▸ hkeys) hkey
  exact findById?_of_append hslots (fun y hy => hother y (List.mem_append_left _ hy)) hkey

/-- A document is found in the first slot of its id. -/
theorem exists_slot_of_found? {h : Handle} {id : String} {s : Stores} {d : Document}
    (hfound : h.found? id s = some d) :
    ∃ before after, h.slots s = before ++ ⟨some id, .ok d⟩ :: after ∧
      ∀ x ∈ before, x.key ≠ some id := by
  rw [found?, findById?_eq_slot] at hfound
  split at hfound
  · cases hfound
  · rename_i x hx
    obtain ⟨hkey, before, after, hslots, hbefore⟩ := List.find?_eq_some_iff_append.mp hx
    obtain ⟨key, doc⟩ := x
    obtain rfl : doc = .ok d := by
      cases doc with
      | error f => cases hfound
      | ok found => rw [Option.some.inj hfound]
    obtain rfl := beq_iff_eq.mp hkey
    exact ⟨before, after, hslots, fun x hx hid => by simpa [hid] using hbefore x hx⟩

theorem findById_of_found? {h : Handle} (hb : h.backing = .memory) {id : String} {s : Stores} :
    h.found? id s = Memory.findById id (s.memoryAt h.collection) := by
  simp only [found?, findById?, hb]
  rfl

theorem findById_eq_ok_iff {h : Handle} (hb : h.backing = .table) {id : String} {s : Stores}
    {d : Document} :
    Table.findById h.collection id s.rows = .ok (some d) ↔ h.found? id s = some d := by
  simp only [found?, findById?, hb]
  cases Table.findById h.collection id s.rows with
  | error f => exact iff_of_false nofun nofun
  | ok found =>
      cases found with
      | none => exact iff_of_false nofun nofun
      | some other => simp [Except.toOption]

/-- What a table lets pass collides with none of the documents that can be read. -/
theorem checkUnique_of_table {h : Handle} (hb : h.backing = .table) {s : Stores} {d : Document}
    (hchecked : Table.checkUnique h.collection h.unique d s.rows = .ok ()) :
    Document.checkUnique h.unique d (h.held s) = .ok () := by
  unfold Table.checkUnique at hchecked
  split at hchecked
  · rename_i hnone
    rw [List.isEmpty_iff.mp hnone, Document.checkUnique, Document.collision?,
      List.findSome?_eq_none_iff.mpr]
    intro other _
    rw [List.find?_nil, ite_self]
  · split at hchecked
    · cases hchecked
    · rename_i others hothers
      have hdocs : h.documents s = .ok others := by
        simp only [documents, hb, hothers]
      rw [held_eq_of_documents hdocs]
      exact hchecked

/-! ### Writing -/

section Change

variable {h : Handle} {α : Type} {inMemory : List Document → α × List Document}
  {inTable : List Row → α × List Row}

theorem change_of_memory (hb : h.backing = .memory) (s : Stores) :
    h.change s inMemory inTable =
      ((inMemory (s.memoryAt h.collection)).1,
        ⟨s.memory.set h.collection (inMemory (s.memoryAt h.collection)).2, s.rows, s.issued⟩) := by
  simp only [change, hb]

theorem change_of_table (hb : h.backing = .table) (s : Stores) :
    h.change s inMemory inTable =
      ((inTable s.rows).1, ⟨s.memory, (inTable s.rows).2, s.issued⟩) := by
  simp only [change, hb]

/-- What changes no documents changes no slots. -/
theorem slots_change_of_same {s : Stores}
    (hmemory : h.backing = .memory →
      (inMemory (s.memoryAt h.collection)).2 = s.memoryAt h.collection)
    (htable : h.backing = .table → (inTable s.rows).2 = s.rows) :
    h.slots (h.change s inMemory inTable).2 = h.slots s := by
  cases hb : h.backing with
  | memory =>
      rw [change_of_memory hb, slots_of_memory hb, slots_of_memory hb, Stores.memoryAt_set,
        hmemory hb]
  | table => rw [change_of_table hb, slots_of_table hb, slots_of_table hb, htable hb]

end Change

/-- The id that a document is inserted under: its own, or else the next one issued. -/
def idFor (c : Capabilities) (d : Document) (s : Stores) : String :=
  d.id?.getD (c.issueId s.issued)

theorem insert_eq (c : Capabilities) (h : Handle) (d : Document) (s : Stores) :
    ∃ issued, h.insert c d s =
      h.change ⟨s.memory, s.rows, issued⟩ (Memory.insert h.unique (idFor c d s) d)
        (Table.insert c.codec h.collection h.unique (idFor c d s) d) := by
  cases hd : d.id? with
  | none => exact ⟨s.issued + 1, by simp only [insert, idFor, hd, Option.getD_none]⟩
  | some id => exact ⟨s.issued, by simp only [insert, idFor, hd, Option.getD_some]⟩

/-- An insertion is refused and changes nothing, or adds a slot for an id that had none. -/
theorem insert_cases (c : Capabilities) (h : Handle) (d : Document) (s : Stores) :
    (∃ f s', h.insert c d s = (.error f, s') ∧ h.slots s' = h.slots s) ∨
    (∃ s', h.insert c d s = (.ok (d.set idField (.string (idFor c d s))), s') ∧
      (∀ x ∈ h.slots s, x.key ≠ some (idFor c d s)) ∧
      Document.checkUnique h.unique (d.set idField (.string (idFor c d s))) (h.held s) = .ok () ∧
      h.slots s' =
        h.slots s ++ [h.slot c (idFor c d s) (d.set idField (.string (idFor c d s)))]) := by
  obtain ⟨issued, hinsert⟩ := h.insert_eq c d s
  rw [hinsert]
  generalize idFor c d s = id
  cases hb : h.backing with
  | memory =>
      have hmem : Stores.memoryAt ⟨s.memory, s.rows, issued⟩ h.collection =
          s.memoryAt h.collection := rfl
      rw [change_of_memory hb, hmem, slots_of_memory hb s, held_of_memory hb]
      rcases Memory.insert_cases h.unique id d (s.memoryAt h.collection) with
        ⟨f, hf⟩ | ⟨hok, hfresh, hchecked⟩
      · rw [hf]
        exact Or.inl ⟨f, _, rfl, by rw [slots_of_memory hb, Stores.memoryAt_set]⟩
      · rw [hok]
        refine Or.inr ⟨_, rfl, ?_, hchecked, ?_⟩
        · intro x hx
          obtain ⟨other, hother, rfl⟩ := List.mem_map.mp hx
          exact fun hid => hfresh other hother (Document.hasId_iff.mpr hid)
        · rw [slots_of_memory hb, Stores.memoryAt_set, List.map_append, List.map_singleton, slot, hb]
  | table =>
      rw [change_of_table hb, slots_of_table hb s]
      rcases Table.insert_cases c.codec h.collection h.unique id d s.rows with
        ⟨f, hf⟩ | ⟨hok, hfresh, hchecked⟩
      · rw [hf]
        exact Or.inl ⟨f, _, rfl, slots_of_table hb _⟩
      · rw [hok]
        refine Or.inr ⟨_, rfl, ?_, checkUnique_of_table hb hchecked, ?_⟩
        · intro x hx hid
          obtain ⟨r, hr, rfl⟩ := List.mem_map.mp hx
          obtain ⟨hrow, hcoll⟩ := List.mem_filter.mp hr
          have hat : Table.isAt h.collection id r = true := by
            rw [Table.isAt, hcoll, Option.some.inj hid, beq_self_eq_true, Bool.true_and]
          exact hfresh r hrow hat
        · simp [slots_of_table hb, slot, hb]

/-- The slot of an id gets another document. -/
def Rewrites (c : Capabilities) (h : Handle) (id : String) (old new : Document) (s s' : Stores) :
    Prop :=
  ∃ before after, h.slots s = before ++ ⟨some id, .ok old⟩ :: after ∧
    h.slots s' = before ++ h.slot c id new :: after ∧ ∀ x ∈ before ++ after, x.key ≠ some id

theorem Rewrites.slots_eq {c : Capabilities} {h : Handle} {id : String} {old new : Document}
    {s s' : Stores} (hr : h.Rewrites c id old new s s') :
    h.slots s' = (h.slots s).map fun x => if x.key = some id then h.slot c id new else x := by
  obtain ⟨before, after, hs, hs', hother⟩ := hr
  rw [hs, hs', Slot.map_rewrite rfl hother]

theorem Rewrites.mem_slots {c : Capabilities} {h : Handle} {id : String} {old new : Document}
    {s s' : Stores} (hr : h.Rewrites c id old new s s') :
    (⟨some id, .ok old⟩ : Slot) ∈ h.slots s := by
  obtain ⟨before, after, hs, -, -⟩ := hr
  rw [hs]
  exact List.mem_append_right _ List.mem_cons_self

theorem Rewrites.mem_after {c : Capabilities} {h : Handle} {id : String} {old new : Document}
    {s s' : Stores} (hr : h.Rewrites c id old new s s') {x : Slot} (hx : x ∈ h.slots s') :
    x = h.slot c id new ∨ x ∈ h.slots s := by
  obtain ⟨before, after, hs, hs', -⟩ := hr
  rw [hs'] at hx
  rcases List.mem_cons.mp (List.perm_middle.mem_iff.mp hx) with hx | hx
  · exact Or.inl hx
  · refine Or.inr ?_
    rw [hs]
    exact List.perm_middle.mem_iff.mpr (List.mem_cons_of_mem _ hx)

section Rewriting

variable {h : Handle} {id : String} {s : Stores} {d : Document}

theorem rewrites_of_memory (hb : h.backing = .memory) (c : Capabilities)
    (hkeys : ((h.slots s).filterMap Slot.key).Nodup) (hfound : h.found? id s = some d)
    (new : Document) :
    h.Rewrites c id d new s
      ⟨s.memory.set h.collection (Memory.replace id new (s.memoryAt h.collection)),
        s.rows, s.issued⟩ := by
  obtain ⟨before, after, hslots, hbefore⟩ := exists_slot_of_found? hfound
  rw [hslots] at hkeys
  refine ⟨before, after, hslots, ?_, Slot.key_ne_of_nodup hkeys rfl⟩
  rw [slots_of_memory hb] at hslots
  obtain ⟨docs, rest, hdocs, rfl, hrest⟩ := List.map_eq_append_iff.mp hslots
  obtain ⟨old, docs', rfl, hold, rfl⟩ := List.map_eq_cons_iff.mp hrest
  obtain ⟨hid, -⟩ := Slot.mk.inj hold
  have hreplace := Memory.replace_append (Document.hasId_iff.mpr hid) new docs' fun x hx hhas =>
    hbefore _ (List.mem_map_of_mem hx) (Document.hasId_iff.mp hhas)
  rw [slots_of_memory hb, Stores.memoryAt_set, hdocs, hreplace, List.map_append, List.map_cons,
    slot, hb]

theorem rewrites_of_table (hb : h.backing = .table) (c : Capabilities)
    (hkeys : ((h.slots s).filterMap Slot.key).Nodup) (hfound : h.found? id s = some d)
    (new : Document) :
    h.Rewrites c id d new s
      ⟨s.memory, s.rows.map fun r =>
        if Table.isAt h.collection id r then { r with doc := c.codec new } else r, s.issued⟩ := by
  obtain ⟨before, after, hslots, -⟩ := exists_slot_of_found? hfound
  have hother := Slot.key_ne_of_nodup (hslots ▸ hkeys) rfl
  refine ⟨before, after, hslots, ?_, hother⟩
  have hcoll : ((fun r : Row => r.collection == h.collection) ∘ fun r =>
      if Table.isAt h.collection id r then { r with doc := c.codec new } else r) =
      fun r => r.collection == h.collection := by
    funext r
    by_cases hat : Table.isAt h.collection id r <;> simp [hat]
  have hmap : h.slots ⟨s.memory, s.rows.map fun r =>
      if Table.isAt h.collection id r then { r with doc := c.codec new } else r, s.issued⟩ =
      (h.slots s).map fun x => if x.key = some id then h.slot c id new else x := by
    rw [slots_of_table hb, slots_of_table hb, List.filter_map, hcoll, List.map_map, List.map_map]
    refine List.map_congr_left fun r hr => ?_
    have hcoll := (List.mem_filter.mp hr).2
    by_cases hrid : r.id = id
    · simp [Table.isAt, hrid, beq_iff_eq.mp hcoll, slot, hb]
    · simp [Table.isAt, hrid]
  rw [hmap, hslots, Slot.map_rewrite rfl hother]

/-- Writing over a document is refused and changes nothing, or rewrites its slot. -/
theorem update_cases (c : Capabilities) (hkeys : ((h.slots s).filterMap Slot.key).Nodup)
    (hfound : h.found? id s = some d) (fields : Document) :
    (∃ f s', h.update c id fields s = (.error f, s') ∧ h.slots s' = h.slots s) ∨
    (∃ s', h.update c id fields s = (.ok true, s') ∧
      Document.checkUnique h.unique (Document.update d fields) (h.held s) = .ok () ∧
      h.Rewrites c id d (Document.update d fields) s s') := by
  rw [Handle.update]
  cases hb : h.backing with
  | memory =>
      rw [change_of_memory hb, held_of_memory hb]
      rcases Memory.update_cases h.unique fields ((findById_of_found? hb).symm.trans hfound) with
        ⟨f, hf⟩ | ⟨hok, hchecked⟩
      · rw [hf]
        exact Or.inl ⟨f, _, rfl, by rw [slots_of_memory hb, slots_of_memory hb, Stores.memoryAt_set]⟩
      · rw [hok]
        exact Or.inr ⟨_, rfl, hchecked, rewrites_of_memory hb c hkeys hfound _⟩
  | table =>
      rw [change_of_table hb, Table.update]
      rcases Table.modify_cases c.codec h.collection h.unique
          (fun d => .ok (Document.update d fields)) ((findById_eq_ok_iff hb).mpr hfound) with
        ⟨f, hf⟩ | ⟨new, hnew, hchecked, hok⟩
      · rw [hf]
        exact Or.inl ⟨f, _, rfl, rfl⟩
      · cases hnew
        rw [hok]
        exact Or.inr ⟨_, rfl, checkUnique_of_table hb hchecked, rewrites_of_table hb c hkeys hfound _⟩

/-- An increment in memory rewrites the slot, with the sums before the failure if there is one. -/
theorem increment_of_memory (hb : h.backing = .memory) (c : Capabilities)
    (hkeys : ((h.slots s).filterMap Slot.key).Nodup) (hfound : h.found? id s = some d)
    (deltas : Document) :
    ∃ s', h.increment c id deltas s = ((Document.increment d deltas).1.map fun _ => true, s') ∧
      h.Rewrites c id d (Document.increment d deltas).2 s s' := by
  rw [Handle.increment, change_of_memory hb, Memory.increment,
    (findById_of_found? hb).symm.trans hfound]
  exact ⟨_, rfl, rewrites_of_memory hb c hkeys hfound _⟩

/-- An increment in a table is refused and changes nothing, or rewrites the slot. -/
theorem increment_of_table (hb : h.backing = .table) (c : Capabilities)
    (hkeys : ((h.slots s).filterMap Slot.key).Nodup) (hfound : h.found? id s = some d)
    (deltas : Document) :
    (∃ f s', h.increment c id deltas s = (.error f, s') ∧ h.slots s' = h.slots s) ∨
    (∃ s', h.increment c id deltas s = (.ok true, s') ∧
      Document.checkUnique h.unique (Document.increment d deltas).2 (h.held s) = .ok () ∧
      h.Rewrites c id d (Document.increment d deltas).2 s s') := by
  rw [Handle.increment, change_of_table hb, Table.increment]
  rcases Table.modify_cases c.codec h.collection h.unique _ ((findById_eq_ok_iff hb).mpr hfound) with
    ⟨f, hf⟩ | ⟨new, hnew, hchecked, hok⟩
  · rw [hf]
    exact Or.inl ⟨f, _, rfl, rfl⟩
  · have hsums : (Document.increment d deltas).2 = new := by
      rcases hsum : Document.increment d deltas with ⟨f | _, sums⟩
      · rw [hsum] at hnew
        cases hnew
      · rw [hsum] at hnew
        cases hnew
        rfl
    rw [hok, hsums]
    exact Or.inr ⟨_, rfl, checkUnique_of_table hb hchecked, rewrites_of_table hb c hkeys hfound _⟩

/-- Nothing is written where no document is found. -/
theorem slots_of_missing (c : Capabilities) (hmissing : h.found? id s = none)
    (fields deltas : Document) :
    h.slots (h.update c id fields s).2 = h.slots s ∧
      h.slots (h.increment c id deltas s).2 = h.slots s := by
  have hmemory : h.backing = .memory → Memory.findById id (s.memoryAt h.collection) = none :=
    fun hb => (findById_of_found? hb).symm.trans hmissing
  have htable : h.backing = .table →
      ∀ d, Table.findById h.collection id s.rows ≠ .ok (some d) := by
    intro hb d hd
    rw [findById_eq_ok_iff hb, hmissing] at hd
    cases hd
  constructor
  · refine slots_change_of_same (fun hb => ?_) fun hb => ?_
    · rw [Memory.update, hmemory hb]
    · exact Table.modify_of_missing _ _ _ _ (htable hb)
  · refine slots_change_of_same (fun hb => ?_) fun hb => ?_
    · rw [Memory.increment, hmemory hb]
    · exact Table.modify_of_missing _ _ _ _ (htable hb)

end Rewriting

/-- A deletion takes out the slots of an id, and says whether there were any. -/
theorem delete_eq (h : Handle) (id : String) (s : Stores) :
    ∃ s', h.delete id s = ((h.slots s).any fun x => x.key == some id, s') ∧
      h.slots s' = (h.slots s).filter fun x => !(x.key == some id) := by
  rw [Handle.delete]
  cases hb : h.backing with
  | memory =>
      rw [change_of_memory hb, Memory.delete, slots_of_memory hb]
      refine ⟨_, Prod.ext ?_ rfl, ?_⟩
      · rw [length_filter_not_bne, List.any_map]
        rfl
      · rw [slots_of_memory hb, Stores.memoryAt_set, List.filter_map]
        rfl
  | table =>
      rw [change_of_table hb, Table.delete, slots_of_table hb]
      refine ⟨_, Prod.ext ?_ rfl, ?_⟩
      · rw [length_filter_not_bne, List.any_map, List.any_filter]
        rfl
      · rw [slots_of_table hb, List.filter_map, List.filter_filter, List.filter_filter]
        congr 1
        refine List.filter_congr fun r _ => ?_
        dsimp only [Function.comp_apply]
        cases hcoll : r.collection == h.collection <;> simp [Table.isAt, hcoll]

end Handle

end Curator
