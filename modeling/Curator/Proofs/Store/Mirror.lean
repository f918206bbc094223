/-
One table answers as collections in memory do.

The two stores look documents up differently, check in a different order and keep their documents in
different places.  Seen as slots they are the same: `Handle.Mirrors` says that the rows of a collection
and its documents in memory are the same slots, and that the documents in memory were left there by a
run in which no increment adds to an id or a unique field.  From that run it follows that ids are keys
and that the documents are pairwise apart, so that the check which only a table makes on an increment
always passes.

What is left to compare are the answers.  They are laws of the slots for both stores, except that an
insertion asks for its id and for its unique fields in the opposite order.
-/
import Mathlib.Data.List.Induction
import Mathlib.Data.List.Nodup
import Curator.Proofs.Store.Answers

namespace Curator

/-- The calls on a collection, those that write and those that read. -/
inductive StoreCall where
  | write (x : Write)
  | find (filter : Document)
  | findOne (filter : Document)
  | findById (id : String)

/-- What a call that succeeds is answered with. -/
inductive StoreAnswer where
  | written (answer : WriteAnswer)
  | documents (docs : List Document)
  | document (found : Option Document)

/-- A call that brings no repeated names, and adds just numbers and to no field that must be
distinct. -/
def StoreCall.Admissible (unique : List String) : StoreCall → Prop
  | .write x => x.Settled ∧ ∀ id deltas, x = .increment id deltas →
      ∀ e ∈ deltas, e.2.double?.isSome ∧ e.1 ≠ idField ∧ e.1 ∉ unique
  | _ => True

namespace Handle

/-! ### A collection kept in both ways -/

/-- The same collection, kept in a given way. -/
def backed (b : Backing) (h : Handle) : Handle := { h with backing := b }

@[simp] theorem backed_collection (b : Backing) (h : Handle) :
    (h.backed b).collection = h.collection := rfl

@[simp] theorem backed_unique (b : Backing) (h : Handle) : (h.backed b).unique = h.unique := rfl

/-- A document that is inserted collides with the documents in memory both in its id and in a unique
field. -/
def CollidesTwice (c : Capabilities) (h : Handle) (m : Stores) (d : Document) (field : String) :
    Prop :=
  (∃ other ∈ m.memoryAt h.collection, other.id? = some (idFor c d m)) ∧ field ∈ h.unique ∧
    ∃ other ∈ m.memoryAt h.collection,
      Document.collides (d.set idField (.string (idFor c d m))) other field = true

/-- The documents of a collection in memory are the rows of its table, slot by slot. -/
structure Mirrors (c : Capabilities) (h : Handle) (m t : Stores) : Prop where
  /-- The documents were left by settled writes that add to no unique field. -/
  run : ∃ past, Run c (h.backed .memory) past m ∧ ∀ ev ∈ past, ev.write.Settled ∧
    ∀ field ∈ h.unique, (h.backed .memory).Spares field ev
  slots : (h.backed .table).slots t = (h.backed .memory).slots m

namespace Mirrors

variable {c : Capabilities} {h : Handle} {m t : Stores}

theorem filed (hm : Mirrors c h m t) : (h.backed .memory).Filed m := by
  obtain ⟨past, hrun, -⟩ := hm.run
  exact hrun.filed nofun

theorem keys (hm : Mirrors c h m t) : (((h.backed .table).slots t).filterMap Slot.key).Nodup :=
  hm.slots ▸ hm.filed.keys

theorem documents (hm : Mirrors c h m t) :
    (h.backed .table).documents t = .ok (m.memoryAt h.collection) := by
  have hmemory : (h.backed .memory).documents m = .ok (m.memoryAt h.collection) := rfl
  rw [documents_eq_ok_iff, hm.slots]
  exact documents_eq_ok_iff.mp hmemory

theorem findById? (hm : Mirrors c h m t) (id : String) :
    (h.backed .table).findById? id t = (h.backed .memory).findById? id m := by
  rw [findById?_eq_slot, findById?_eq_slot, hm.slots]

theorem found? (hm : Mirrors c h m t) (id : String) :
    (h.backed .table).found? id t = (h.backed .memory).found? id m := by
  rw [Handle.found?, Handle.found?, hm.findById?]

theorem pairwise (hm : Mirrors c h m t) :
    (m.memoryAt h.collection).Pairwise (Document.Apart h.unique) := by
  obtain ⟨past, hrun, hpast⟩ := hm.run
  have hdistinct : (h.backed .memory).Distinct m := hrun.distinct_of_forall
    (Run.distinct_of_spares rfl hrun (fun ev hev => (hpast ev hev).1) fun ev hev => (hpast ev hev).2)
  rwa [Distinct, held_of_memory rfl] at hdistinct

/-- A write on another collection changes nothing here. -/
theorem other (hm : Mirrors c h m t) {h' : Handle} (hne : h'.collection ≠ h.collection)
    (x : Write) :
    Mirrors c h ((h'.backed .memory).perform c m x).2 ((h'.backed .table).perform c t x).2 := by
  have hbacking : ∀ b, (h.backed b).backing = (h'.backed b).backing := fun _ => rfl
  have hmemory := slots_perform_of_other (hbacking .memory) hne c m x
  have htable := slots_perform_of_other (hbacking .table) hne c t x
  obtain ⟨past, hrun, hpast⟩ := hm.run
  refine ⟨⟨past, hrun.elsewhere hmemory, hpast⟩, ?_⟩
  rw [hmemory, htable, hm.slots]

/-- An admissible write after which the slots are the same is mirrored. -/
theorem write (hm : Mirrors c h m t) {x : Write} (hx : StoreCall.Admissible h.unique (.write x))
    {t' : Stores}
    (hslots : (h.backed .table).slots t' =
      (h.backed .memory).slots ((h.backed .memory).perform c m x).2) :
    Mirrors c h ((h.backed .memory).perform c m x).2 t' := by
  obtain ⟨past, hrun, hpast⟩ := hm.run
  refine ⟨⟨_, hrun.write x, List.forall_mem_cons.mpr ⟨⟨hx.1, fun field hfield => ?_⟩, hpast⟩⟩, hslots⟩
  refine spares_of_not_mem fun id deltas hincrement hmem => ?_
  obtain ⟨e, he, rfl⟩ := List.mem_map.mp hmem
  exact (hx.2 id deltas hincrement e he).2.2 hfield

end Mirrors

/-- A document that has its id and reads back as itself is kept in the same slot in both ways. -/
theorem slot_backed {c : Capabilities} {h : Handle} {id : String} {d : Document}
    (hid : d.id? = some id) (hread : c.codec d = .ok d) :
    (h.backed .table).slot c id d = (h.backed .memory).slot c id d := by
  simp only [slot, backed, hid, hread]

/-! ### Writes on both -/

namespace Mirrors

variable {c : Capabilities} {h : Handle} {m t : Stores}

/-- What the slots of a collection tell of the documents that it keeps in memory. -/
theorem mem_memoryAt {key : Option String} {d : Document}
    (hmem : (⟨key, .ok d⟩ : Slot) ∈ (h.backed .memory).slots m) : d ∈ m.memoryAt h.collection := by
  have hheld := mem_held_of_mem_slots hmem
  rwa [held_of_memory rfl] at hheld

theorem mem_memoryAt_of_slot (c : Capabilities) (id : String) {d : Document}
    (hmem : (h.backed .memory).slot c id d ∈ (h.backed .memory).slots m) :
    d ∈ m.memoryAt h.collection :=
  mem_memoryAt hmem

/-- An insertion is answered alike, or refused for its id in memory and for a field in the table. -/
theorem insert_answers (hm : Mirrors c h m t) (hissued : t.issued = m.issued) (d : Document) :
    ((h.backed .table).insert c d t).1 = ((h.backed .memory).insert c d m).1 ∨
      ∃ field, ((h.backed .memory).insert c d m).1 = .error (.alreadyExists idField) ∧
        ((h.backed .table).insert c d t).1 = .error (.alreadyExists field) ∧
        h.CollidesTwice c m d field := by
  have hid : idFor c d t = idFor c d m := by rw [idFor, idFor, hissued]
  have hmemory := insert_answer_of_memory (h := h.backed .memory) rfl c d m
  have htable := insert_answer_of_table rfl hm.documents c d
  rw [backed_unique, backed_collection] at hmemory
  rw [hid, hm.slots, backed_unique] at htable
  cases hcheck : Document.checkUnique h.unique (d.set idField (.string (idFor c d m)))
      (m.memoryAt h.collection) with
  | ok _ =>
      refine Or.inl ?_
      rw [htable, hmemory, hcheck]
      rfl
  | error f =>
      rw [hcheck] at hmemory htable
      split at hmemory
      · rename_i hany
        obtain ⟨field, hfield, rfl, other, hother, hcollides⟩ :=
          Document.collides_of_checkUnique hcheck
        obtain ⟨x, hx, hkey⟩ := List.any_eq_true.mp hany
        obtain ⟨taken, htaken, rfl⟩ := List.mem_map.mp hx
        exact Or.inr ⟨field, hmemory, htable, ⟨taken, htaken, beq_iff_eq.mp hkey⟩, hfield, other,
          hother, hcollides⟩
      · exact Or.inl (htable.trans hmemory.symm)

/-- An insertion adds the same slot in both or is refused by both. -/
theorem insert_slots (hm : Mirrors c h m t) (hissued : t.issued = m.issued) (d : Document)
    (hread : ∀ k ∈ ((h.backed .memory).insert c d m).2.memoryAt h.collection, c.codec k = .ok k) :
    (h.backed .table).slots ((h.backed .table).insert c d t).2 =
      (h.backed .memory).slots ((h.backed .memory).insert c d m).2 := by
  rcases hm.insert_answers hissued d with hsame | ⟨field, hmemory, htable, -⟩
  · cases hanswer : ((h.backed .memory).insert c d m).1 with
    | error e =>
        rw [insert_slots_of_error hanswer, insert_slots_of_error (hsame.trans hanswer), hm.slots]
    | ok stored =>
        have hid : idFor c d t = idFor c d m := by rw [idFor, idFor, hissued]
        have hown : Document.id? (d.set idField (.string (idFor c d m))) = some (idFor c d m) :=
          Document.id?_set_idField d _
        have hadded := insert_slots_of_ok hanswer
        have hnew : d.set idField (.string (idFor c d m)) ∈
            ((h.backed .memory).insert c d m).2.memoryAt h.collection := by
          refine mem_memoryAt_of_slot c (idFor c d m) ?_
          rw [hadded]
          exact List.mem_append_right _ List.mem_cons_self
        rw [hadded, insert_slots_of_ok (hsame.trans hanswer), hid, hm.slots,
          slot_backed hown (hread _ hnew)]
  · rw [insert_slots_of_error hmemory, insert_slots_of_error htable, hm.slots]

/-- A document that is written anew is kept in the same slot in both. -/
theorem slots_of_rewrites (hm : Mirrors c h m t) {id : String} {d new : Document} {m' t' : Stores}
    (hmemory : (h.backed .memory).Rewrites c id d new m m')
    (htable : (h.backed .table).Rewrites c id d new t t') (hid : new.id? = some id)
    (hread : ∀ k ∈ m'.memoryAt h.collection, c.codec k = .ok k) :
    (h.backed .table).slots t' = (h.backed .memory).slots m' := by
  have hnew : new ∈ m'.memoryAt h.collection := by
    obtain ⟨before, after, -, hafter, -⟩ := hmemory
    refine mem_memoryAt_of_slot c id ?_
    rw [hafter]
    exact List.mem_append_right _ List.mem_cons_self
  rw [hmemory.slots_eq, htable.slots_eq, hm.slots, slot_backed hid (hread new hnew)]

theorem id?_of_found? (hm : Mirrors c h m t) {id : String} {d : Document}
    (hfound : (h.backed .memory).found? id m = some d) :
    d.id? = some id ∧ d ∈ m.memoryAt h.collection := by
  obtain ⟨before, after, hslots, -⟩ := exists_slot_of_found? hfound
  have hmem : (⟨some id, .ok d⟩ : Slot) ∈ (h.backed .memory).slots m := by
    rw [hslots]
    exact List.mem_append_right _ List.mem_cons_self
  exact ⟨hm.filed.ids _ hmem d rfl, mem_memoryAt hmem⟩

theorem update (hm : Mirrors c h m t) (id : String) (fields : Document)
    (hread : ∀ k ∈ ((h.backed .memory).update c id fields m).2.memoryAt h.collection,
      c.codec k = .ok k) :
    (h.backed .table).slots ((h.backed .table).update c id fields t).2 =
        (h.backed .memory).slots ((h.backed .memory).update c id fields m).2 ∧
      ((h.backed .table).update c id fields t).1 = ((h.backed .memory).update c id fields m).1 := by
  have hdocs : (h.backed .memory).documents m = .ok (m.memoryAt h.collection) := rfl
  have hsame : ((h.backed .table).update c id fields t).1 =
      ((h.backed .memory).update c id fields m).1 := by
    simp only [update_answer, hm.findById?, check_of_documents hdocs,
      check_of_documents hm.documents, backed_unique]
  refine ⟨?_, hsame⟩
  cases hfound : (h.backed .memory).found? id m with
  | none =>
      rw [(slots_of_missing c hfound fields []).1,
        (slots_of_missing c ((hm.found? id).trans hfound) fields []).1, hm.slots]
  | some d =>
      have hid : Document.id? (Document.update d fields) = some id := by
        rw [Document.id?_update, (hm.id?_of_found? hfound).1]
      rcases update_cases c hm.filed.keys hfound fields with
        ⟨e, m', hmemory, hkept⟩ | ⟨m', hmemory, -, hrewrites⟩
      · rcases update_cases c hm.keys ((hm.found? id).trans hfound) fields with
          ⟨_, t', htable, hkept'⟩ | ⟨t', htable, -, -⟩
        · rw [hmemory, htable]
          exact (hkept'.trans hm.slots).trans hkept.symm
        · rw [hmemory, htable] at hsame
          cases hsame
      · rcases update_cases c hm.keys ((hm.found? id).trans hfound) fields with
          ⟨_, t', htable, -⟩ | ⟨t', htable, -, hrewrites'⟩
        · rw [hmemory, htable] at hsame
          cases hsame
        · rw [hmemory] at hread ⊢
          rw [htable]
          exact hm.slots_of_rewrites hrewrites hrewrites' hid hread

/-- The check that a table makes on an increment passes. -/
theorem checkUnique_increment (hm : Mirrors c h m t) {id : String} {d : Document}
    (hfound : (h.backed .memory).found? id m = some d) {deltas : Document}
    (hdeltas : ∀ e ∈ deltas, e.1 ≠ idField ∧ e.1 ∉ h.unique) :
    Document.checkUnique h.unique (Document.increment d deltas).2 (m.memoryAt h.collection) =
      .ok () := by
  have hspared : ∀ field, (∀ e ∈ deltas, e.1 ≠ field) →
      (Document.increment d deltas).2.get? field = d.get? field := by
    intro field hne
    refine Document.get?_increment_of_not_mem_names d fun hmem => ?_
    obtain ⟨e, he, hname⟩ := List.mem_map.mp hmem
    exact hne e he hname
  obtain ⟨hid, hmem⟩ := hm.id?_of_found? hfound
  refine Document.checkUnique_of_pairwise hm.pairwise hmem hid ?_ ?_
  · exact hspared idField fun e he => (hdeltas e he).1
  · intro field hfield
    refine hspared field fun e he heq => (hdeltas e he).2 ?_
    rw [heq]
    exact hfield

theorem increment (hm : Mirrors c h m t) (id : String) {deltas : Document}
    (hdeltas : ∀ e ∈ deltas, e.2.double?.isSome ∧ e.1 ≠ idField ∧ e.1 ∉ h.unique)
    (hread : ∀ k ∈ ((h.backed .memory).increment c id deltas m).2.memoryAt h.collection,
      c.codec k = .ok k) :
    (h.backed .table).slots ((h.backed .table).increment c id deltas t).2 =
        (h.backed .memory).slots ((h.backed .memory).increment c id deltas m).2 ∧
      ((h.backed .table).increment c id deltas t).1 =
        ((h.backed .memory).increment c id deltas m).1 := by
  have hnumbers : ∀ e ∈ deltas, e.2.double?.isSome := fun e he => (hdeltas e he).1
  have hmemory := increment_answer c (h.backed .memory) id hnumbers m nofun
  have htable : ((h.backed .table).increment c id deltas t).1 =
      ((h.backed .table).findById? id t).map Option.isSome := by
    refine increment_answer c (h.backed .table) id hnumbers t fun _ d hfound => ?_
    have hfound' : (h.backed .memory).found? id m = some d := by
      rw [Handle.found?, ← hm.findById?, hfound]
      rfl
    rw [check_of_documents hm.documents]
    exact hm.checkUnique_increment hfound' fun e he => (hdeltas e he).2
  refine ⟨?_, by rw [hmemory, htable, hm.findById?]⟩
  cases hfound : (h.backed .memory).found? id m with
  | none =>
      rw [(slots_of_missing c hfound [] deltas).2,
        (slots_of_missing c ((hm.found? id).trans hfound) [] deltas).2, hm.slots]
  | some d =>
      have hid : Document.id? (Document.increment d deltas).2 = some id := by
        rw [Document.id?_increment, if_neg, (hm.id?_of_found? hfound).1]
        intro hmem
        obtain ⟨e, he, hname⟩ := List.mem_map.mp (Document.names_added_subset deltas hmem)
        exact (hdeltas e he).2.1 hname
      obtain ⟨m', hinMemory, hrewrites⟩ :=
        increment_of_memory (h := h.backed .memory) rfl c hm.filed.keys hfound deltas
      rcases increment_of_table (h := h.backed .table) rfl c hm.keys
          ((hm.found? id).trans hfound) deltas with
        ⟨_, t', hinTable, -⟩ | ⟨t', hinTable, -, hrewrites'⟩
      · rw [hinTable, findById?_of_documents hm.documents] at htable
        cases htable
      · rw [hinMemory] at hread ⊢
        rw [hinTable]
        exact hm.slots_of_rewrites hrewrites hrewrites' hid hread

theorem delete (hm : Mirrors c h m t) (id : String) :
    (h.backed .table).slots ((h.backed .table).delete id t).2 =
        (h.backed .memory).slots ((h.backed .memory).delete id m).2 ∧
      ((h.backed .table).delete id t).1 = ((h.backed .memory).delete id m).1 := by
  obtain ⟨m', hmemory, hslots⟩ := (h.backed .memory).delete_eq id m
  obtain ⟨t', htable, hslots'⟩ := (h.backed .table).delete_eq id t
  rw [hmemory, htable]
  constructor
  · rw [hslots, hslots', hm.slots]
  · rw [hm.slots]

end Mirrors

/-! ### Calls on any of several collections -/

/-- What a call is answered with, and the stores after it. -/
def answer (c : Capabilities) (h : Handle) (s : Stores) :
    StoreCall → Except Failure StoreAnswer × Stores
  | .write x => ((h.perform c s x).1.map .written, (h.perform c s x).2)
  | .find filter => ((h.find filter s).map .documents, s)
  | .findOne filter => ((h.findOne? filter s).map .document, s)
  | .findById id => ((h.findById? id s).map .document, s)

/-- The stores after calls that are made in turn, on collections that are all kept in one way. -/
def afterCalls (c : Capabilities) (b : Backing) (s : Stores) (calls : List (Handle × StoreCall)) :
    Stores :=
  calls.foldl (fun s x => ((x.1.backed b).answer c s x.2).2) s

theorem afterCalls_concat (c : Capabilities) (b : Backing) (s : Stores)
    (calls : List (Handle × StoreCall)) (h : Handle) (call : StoreCall) :
    afterCalls c b s (calls ++ [(h, call)]) =
      ((h.backed b).answer c (afterCalls c b s calls) call).2 := by
  rw [afterCalls, List.foldl_append]
  rfl

/-- Both ways of keeping a collection answer a call alike.  Only an insertion that collides twice is
refused for its id in memory and for a unique field in the table. -/
def SameAnswer (c : Capabilities) (h : Handle) (m t : Stores) (call : StoreCall) : Prop :=
  ((h.backed .table).answer c t call).1 = ((h.backed .memory).answer c m call).1 ∨
    ∃ d field, call = .write (.insert d) ∧
      ((h.backed .memory).answer c m call).1 = .error (.alreadyExists idField) ∧
      ((h.backed .table).answer c t call).1 = .error (.alreadyExists field) ∧
      h.CollidesTwice c m d field

section Calls

variable {c : Capabilities} {h : Handle} {m t : Stores}

/-- A write is answered alike, and leaves the same slots. -/
theorem Mirrors.perform (hm : Mirrors c h m t) (hissued : t.issued = m.issued) {x : Write}
    (hx : StoreCall.Admissible h.unique (.write x))
    (hread : ∀ k ∈ ((h.backed .memory).perform c m x).2.memoryAt h.collection, c.codec k = .ok k) :
    SameAnswer c h m t (.write x) ∧
      (h.backed .table).slots ((h.backed .table).perform c t x).2 =
        (h.backed .memory).slots ((h.backed .memory).perform c m x).2 := by
  cases x with
  | insert d =>
      refine ⟨?_, hm.insert_slots hissued d hread⟩
      rcases hm.insert_answers hissued d with hsame | ⟨field, hmemory, htable, htwice⟩
      · exact Or.inl (congrArg (fun r => (r.map WriteAnswer.stored).map StoreAnswer.written) hsame)
      · refine Or.inr ⟨d, field, rfl, ?_, ?_, htwice⟩
        · simp only [answer, Handle.perform, hmemory, Except.map]
        · simp only [answer, Handle.perform, htable, Except.map]
  | update id fields =>
      obtain ⟨hslots, hsame⟩ := hm.update id fields hread
      exact ⟨.inl (congrArg (fun r => (r.map WriteAnswer.found).map StoreAnswer.written) hsame),
        hslots⟩
  | increment id deltas =>
      obtain ⟨hslots, hsame⟩ := hm.increment id (hx.2 id deltas rfl) hread
      exact ⟨.inl (congrArg (fun r => (r.map WriteAnswer.found).map StoreAnswer.written) hsame),
        hslots⟩
  | delete id =>
      obtain ⟨hslots, hsame⟩ := hm.delete id
      exact ⟨.inl (congrArg (fun b => Except.ok (StoreAnswer.written (.found b))) hsame), hslots⟩

/-- A call is answered alike, and what it leaves is still mirrored. -/
theorem Mirrors.call (hm : Mirrors c h m t) (hissued : t.issued = m.issued) {call : StoreCall}
    (hcall : call.Admissible h.unique)
    (hread : ∀ k ∈ ((h.backed .memory).answer c m call).2.memoryAt h.collection, c.codec k = .ok k) :
    SameAnswer c h m t call ∧
      Mirrors c h ((h.backed .memory).answer c m call).2 ((h.backed .table).answer c t call).2 := by
  have hdocs : (h.backed .memory).documents m = .ok (m.memoryAt h.collection) := rfl
  cases call with
  | write x =>
      obtain ⟨hsame, hslots⟩ := hm.perform hissued hcall hread
      exact ⟨hsame, hm.write hcall hslots⟩
  | find filter =>
      refine ⟨.inl ?_, hm⟩
      simp only [answer, find, hm.documents, hdocs]
  | findOne filter =>
      refine ⟨.inl ?_, hm⟩
      simp only [answer, findOne?, hm.documents, hdocs]
  | findById id =>
      refine ⟨.inl ?_, hm⟩
      simp only [answer, hm.findById?]

/-- A call on another collection changes nothing here. -/
theorem Mirrors.call_other (hm : Mirrors c h m t) {h' : Handle}
    (hne : h'.collection ≠ h.collection) (call : StoreCall) :
    Mirrors c h ((h'.backed .memory).answer c m call).2 ((h'.backed .table).answer c t call).2 := by
  cases call with
  | write x => exact hm.other hne x
  | find filter => exact hm
  | findOne filter => exact hm
  | findById id => exact hm

/-- As many ids are issued by a call in both ways of keeping the collection. -/
theorem answer_issued (h : Handle) (hissued : t.issued = m.issued) (call : StoreCall) :
    ((h.backed .table).answer c t call).2.issued = ((h.backed .memory).answer c m call).2.issued := by
  cases call with
  | write x => simp only [answer, perform_issued, hissued]
  | find filter => exact hissued
  | findOne filter => exact hissued
  | findById id => exact hissued

end Calls

/-- Several collections are mirrored, and as many ids were issued for the ones as for the others. -/
structure AllMirror (c : Capabilities) (hs : List Handle) (m t : Stores) : Prop where
  issued : t.issued = m.issued
  each : ∀ h ∈ hs, Mirrors c h m t

section Runs

variable {c : Capabilities} {hs : List Handle} {m t : Stores}

theorem AllMirror.of_empty (hissued : t.issued = m.issued)
    (hempty : ∀ h ∈ hs, (h.backed .memory).slots m = [] ∧ (h.backed .table).slots t = []) :
    AllMirror c hs m t where
  issued := hissued
  each h hh := ⟨⟨[], .start (hempty h hh).1, nofun⟩, (hempty h hh).2.trans (hempty h hh).1.symm⟩

theorem AllMirror.call (hm : AllMirror c hs m t) (hnames : (hs.map Handle.collection).Nodup)
    {h : Handle} (hh : h ∈ hs) {call : StoreCall} (hcall : call.Admissible h.unique)
    (hread : ∀ k ∈ ((h.backed .memory).answer c m call).2.memoryAt h.collection, c.codec k = .ok k) :
    SameAnswer c h m t call ∧
      AllMirror c hs ((h.backed .memory).answer c m call).2 ((h.backed .table).answer c t call).2 := by
  obtain ⟨hsame, hkept⟩ := (hm.each h hh).call hm.issued hcall hread
  refine ⟨hsame, answer_issued h hm.issued call, fun other hother => ?_⟩
  by_cases hcollection : h.collection = other.collection
  · obtain rfl := List.inj_on_of_nodup_map hnames hh hother hcollection
    exact hkept
  · exact (hm.each other hother).call_other hcollection call

/-- Calls that are answered one after the other leave the collections mirrored. -/
theorem AllMirror.afterCalls (hm : AllMirror c hs m t) (hnames : (hs.map Handle.collection).Nodup)
    {calls : List (Handle × StoreCall)}
    (hcalls : ∀ x ∈ calls, x.1 ∈ hs ∧ x.2.Admissible x.1.unique)
    (hread : ∀ done, done <+: calls → ∀ h ∈ hs,
      ∀ k ∈ (afterCalls c .memory m done).memoryAt h.collection, c.codec k = .ok k) :
    AllMirror c hs (afterCalls c .memory m calls) (afterCalls c .table t calls) := by
  -- on the last call, as the readings of all earlier states are assumed
  induction calls using List.reverseRecOn with
  | nil => exact hm
  | append_singleton calls x ih =>
      obtain ⟨hbefore, hlast⟩ := List.forall_mem_append.mp hcalls
      obtain ⟨hh, hcall⟩ := List.forall_mem_singleton.mp hlast
      have hmirror := ih hbefore fun done hdone =>
        hread done (hdone.trans (List.prefix_append _ _))
      have hlater := hread _ (List.prefix_refl _) x.1 hh
      rw [afterCalls_concat] at hlater ⊢
      rw [afterCalls_concat]
      exact (hmirror.call hnames hh hcall hlater).2

end Runs

/-- **Collections in one table answer as collections in memory.**  Calls are made in any order on any
of the collections, starting without documents.  Wherever documents read back from text as
themselves, each call is answered alike, and afterwards every collection holds the same documents in
the same order.

The ids of both are drawn from one supply.  As the same calls draw ids in both, this also covers
collections with supplies of their own. -/
theorem table_mirrors_memory {c : Capabilities} {hs : List Handle} {m t : Stores}
    {calls : List (Handle × StoreCall)} (hnames : (hs.map Handle.collection).Nodup)
    (hissued : t.issued = m.issued)
    (hempty : ∀ h ∈ hs, (h.backed .memory).slots m = [] ∧ (h.backed .table).slots t = [])
    (hcalls : ∀ x ∈ calls, x.1 ∈ hs ∧ x.2.Admissible x.1.unique)
    (hread : ∀ done, done <+: calls → ∀ h ∈ hs,
      ∀ k ∈ (afterCalls c .memory m done).memoryAt h.collection, c.codec k = .ok k) :
    ∀ done h call rest, calls = done ++ (h, call) :: rest →
      SameAnswer c h (afterCalls c .memory m done) (afterCalls c .table t done) call ∧
      ∀ other ∈ hs,
        (other.backed .table).documents (afterCalls c .table t (done ++ [(h, call)])) =
          (other.backed .memory).documents (afterCalls c .memory m (done ++ [(h, call)])) := by
  rintro done h call rest rfl
  have hstart : AllMirror c hs m t := .of_empty hissued hempty
  have hdone : done <+: done ++ (h, call) :: rest := List.prefix_append _ _
  have hone : done ++ [(h, call)] <+: done ++ (h, call) :: rest :=
    ⟨rest, by rw [List.append_assoc, List.singleton_append]⟩
  have hbefore := hstart.afterCalls hnames (fun x hx => hcalls x (hdone.subset hx))
    fun part hpart => hread part (hpart.trans hdone)
  obtain ⟨hh, hcall⟩ := hcalls (h, call) (List.mem_append_right _ List.mem_cons_self)
  have hlater := hread _ hone h hh
  rw [afterCalls_concat] at hlater
  obtain ⟨hsame, hafter⟩ := hbefore.call hnames hh hcall hlater
  refine ⟨hsame, fun other hother => ?_⟩
  rw [afterCalls_concat, afterCalls_concat]
  exact (hafter.each other hother).documents

private def twoSupplies : Capabilities :=
  ⟨fun t _ => .ok t, fun n => String.ofList (List.replicate n 'x'),
    fun n => if n = 0 then "1001" else "1002", .ok⟩

private def people : Handle := ⟨.table, "people", ["email"]⟩

private def places : Handle := ⟨.table, "places", []⟩

private def anyone : Document := [("email", .string "a")]

private def somewhere : Document := [("n", .ofNat 1)]

/-- A person and a place come, and the place is counted twice. -/
private def personAndPlace : List (Handle × StoreCall) :=
  [(people, .write (.insert anyone)), (places, .write (.insert somewhere)),
    (places, .write (.increment "1002" somewhere))]

/-- The person comes again, under the same id. -/
private def again : StoreCall := .write (.insert (anyone.set idField (.string "1001")))

private theorem admissible_people :
    ∀ x ∈ personAndPlace ++ [(people, again)],
      x.1 ∈ [people, places] ∧ x.2.Admissible x.1.unique := by
  have hanyone : Document.Settled anyone :=
    .object (List.pairwise_singleton _ _) (List.forall_mem_singleton.mpr (.string "a"))
  have hagain : Document.Settled (anyone.set idField (.string "1001")) := hanyone.set _ (.string _)
  have hsomewhere : Document.Settled somewhere :=
    .object (List.pairwise_singleton _ _) (List.forall_mem_singleton.mpr (.number _))
  refine List.forall_mem_cons.mpr ⟨⟨by simp, hanyone, nofun⟩, List.forall_mem_cons.mpr
    ⟨⟨by simp, hsomewhere, nofun⟩, List.forall_mem_cons.mpr ⟨⟨by simp, trivial, ?_⟩,
      List.forall_mem_singleton.mpr ⟨by simp, hagain, nofun⟩⟩⟩⟩
  rintro _ _ ⟨⟩
  exact List.forall_mem_singleton.mpr ⟨rfl, by decide, by decide⟩

theorem table_mirrors_memory_people :
    ([people, places].map Handle.collection).Nodup ∧
    (∀ h ∈ [people, places], (h.backed .memory).slots Stores.empty = [] ∧
      (h.backed .table).slots Stores.empty = []) ∧
    (∀ x ∈ personAndPlace ++ [(people, again)],
      x.1 ∈ [people, places] ∧ x.2.Admissible x.1.unique) ∧
    SameAnswer twoSupplies people (afterCalls twoSupplies .memory Stores.empty personAndPlace)
      (afterCalls twoSupplies .table Stores.empty personAndPlace) again := by
  have hnames : ([people, places].map Handle.collection).Nodup := by decide
  have hempty : ∀ h ∈ [people, places], (h.backed .memory).slots Stores.empty = [] ∧
      (h.backed .table).slots Stores.empty = [] := fun _ _ => ⟨rfl, rfl⟩
  refine ⟨hnames, hempty, admissible_people, ?_⟩
  exact (table_mirrors_memory hnames rfl hempty admissible_people (fun _ _ _ _ _ _ => rfl)
    personAndPlace people again [] rfl).1

end Handle

end Curator
