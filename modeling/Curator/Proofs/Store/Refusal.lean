/-
What a refused write leaves behind.

A write that fails has to leave every document as it was.  Insertions and updates see to that by making
the new document first and storing it last, and a table stores nothing before a change has come to its
end.  An increment in memory adds to the stored document itself, one delta after the other: where it
comes to a delta that is no number it fails, and the sums before that delta remain.

`Handle.keeps_documents_iff_of_refused` says that this is the only gap, and when it shows: exactly when
the deltas in front of the refused one change anything.
-/
import Curator.Proofs.Store.Writes

namespace Curator

/-- Every document is as it was, in memory and in rows.  An id may have been used up. -/
structure Stores.SameDocuments (s s' : Stores) : Prop where
  memory : ∀ collection, s'.memoryAt collection = s.memoryAt collection
  rows : s'.rows = s.rows

namespace Document

/-- An increment comes to the sums of the deltas in front of the first that is no number. -/
theorem increment_added (d deltas : Document) :
    (increment d deltas).2 = (increment d (added deltas)).2 := by
  induction deltas generalizing d with
  | nil => rfl
  | cons e deltas ih =>
      obtain ⟨name, delta⟩ := e
      cases hx : delta.double? with
      | none =>
          rw [added_cons_of_no_number hx]
          simp only [increment, hx]
      | some x =>
          rw [added_cons_of_number hx]
          simp only [increment, hx]
          exact ih _

end Document

/-! ### Refusals of the two stores -/

namespace Memory

theorem insert_of_error {unique : List String} {id : String} {d : Document} {docs : List Document}
    {f : Failure} (hrefused : (insert unique id d docs).1 = .error f) :
    (insert unique id d docs).2 = docs := by
  rcases insert_cases unique id d docs with ⟨_, hinsert⟩ | ⟨hinsert, -, -⟩
  · rw [hinsert]
  · rw [hinsert] at hrefused
    cases hrefused

theorem update_of_error {unique : List String} {id : String} {fields : Document}
    {docs : List Document} {f : Failure} (hrefused : (update unique id fields docs).1 = .error f) :
    (update unique id fields docs).2 = docs := by
  cases hfound : findById id docs with
  | none => rw [update, hfound]
  | some d =>
      rcases update_cases unique fields hfound with ⟨_, hupdate⟩ | ⟨hupdate, -⟩
      · rw [hupdate]
      · rw [hupdate] at hrefused
        cases hrefused

/-- Putting a document in the place of another changes nothing only if it is the same one. -/
theorem replace_eq_self_iff {id : String} {d : Document} {docs : List Document}
    (hfound : findById id docs = some d) (new : Document) : replace id new docs = docs ↔ new = d := by
  induction docs with
  | nil => cases hfound
  | cons first docs ih =>
      rw [findById, List.find?_cons] at hfound
      rw [replace]
      split at hfound
      · rename_i hhas
        obtain rfl := Option.some.inj hfound
        rw [if_pos hhas, List.cons_eq_cons, and_iff_left rfl]
      · rename_i hhas
        rw [if_neg (by rw [hhas]; exact Bool.false_ne_true), List.cons_inj_right]
        exact ih hfound

end Memory

namespace Table

variable {codec : Document → Except Failure Document} {collection : String} {unique : List String}
  {id : String} {rows : List Row} {f : Failure}

theorem insert_of_error {d : Document}
    (hrefused : (insert codec collection unique id d rows).1 = .error f) :
    (insert codec collection unique id d rows).2 = rows := by
  rcases insert_cases codec collection unique id d rows with ⟨_, hinsert⟩ | ⟨hinsert, -, -⟩
  · rw [hinsert]
  · rw [hinsert] at hrefused
    cases hrefused

theorem modify_of_error {change : Document → Except Failure Document}
    (hrefused : (modify codec collection unique id change rows).1 = .error f) :
    (modify codec collection unique id change rows).2 = rows := by
  by_cases hfound : ∃ d, findById collection id rows = .ok (some d)
  · obtain ⟨d, hfound⟩ := hfound
    rcases modify_cases codec collection unique change hfound with
      ⟨_, hmodify⟩ | ⟨_, -, -, hmodify⟩
    · rw [hmodify]
    · rw [hmodify] at hrefused
      cases hrefused
  · exact modify_of_missing codec collection unique change fun d hd => hfound ⟨d, hd⟩

end Table

namespace Handle

/-! ### Refusals of a collection -/

section Change

variable {h : Handle} {α : Type} {inMemory : List Document → α × List Document}
  {inTable : List Row → α × List Row}

theorem sameDocuments_change_of_memory (hb : h.backing = .memory) (s : Stores) :
    s.SameDocuments (h.change s inMemory inTable).2 ↔
      (inMemory (s.memoryAt h.collection)).2 = s.memoryAt h.collection := by
  rw [change_of_memory hb]
  constructor
  · intro hsame
    have hmemory := hsame.memory h.collection
    rwa [Stores.memoryAt_set] at hmemory
  · intro hdocs
    refine ⟨fun collection => ?_, rfl⟩
    by_cases hcollection : h.collection = collection
    · rw [← hcollection, Stores.memoryAt_set, hdocs]
    · rw [Stores.memoryAt, Dict.get?_set_of_ne _ _ hcollection, Stores.memoryAt]

theorem sameDocuments_change_of_table (hb : h.backing = .table) (s : Stores) :
    s.SameDocuments (h.change s inMemory inTable).2 ↔ (inTable s.rows).2 = s.rows := by
  rw [change_of_table hb]
  exact ⟨fun hsame => hsame.rows, fun hrows => ⟨fun _ => rfl, hrows⟩⟩

end Change

variable {c : Capabilities} {h : Handle} {s : Stores} {f : Failure}

theorem insert_keeps_documents {d : Document} (hrefused : (h.insert c d s).1 = .error f) :
    s.SameDocuments (h.insert c d s).2 := by
  obtain ⟨issued, hinsert⟩ := h.insert_eq c d s
  rw [hinsert] at hrefused ⊢
  have hsame : Stores.SameDocuments ⟨s.memory, s.rows, issued⟩
      (h.change ⟨s.memory, s.rows, issued⟩ (Memory.insert h.unique (idFor c d s) d)
        (Table.insert c.codec h.collection h.unique (idFor c d s) d)).2 := by
    cases hb : h.backing with
    | memory =>
        rw [change_of_memory hb] at hrefused
        exact (sameDocuments_change_of_memory hb _).mpr (Memory.insert_of_error hrefused)
    | table =>
        rw [change_of_table hb] at hrefused
        exact (sameDocuments_change_of_table hb _).mpr (Table.insert_of_error hrefused)
  exact ⟨hsame.memory, hsame.rows⟩

theorem update_keeps_documents {id : String} {fields : Document}
    (hrefused : (h.update c id fields s).1 = .error f) :
    s.SameDocuments (h.update c id fields s).2 := by
  rw [Handle.update] at hrefused ⊢
  cases hb : h.backing with
  | memory =>
      rw [change_of_memory hb] at hrefused
      exact (sameDocuments_change_of_memory hb s).mpr (Memory.update_of_error hrefused)
  | table =>
      rw [change_of_table hb] at hrefused
      exact (sameDocuments_change_of_table hb s).mpr (Table.modify_of_error hrefused)

theorem increment_keeps_documents_of_table (hb : h.backing = .table) {id : String}
    {deltas : Document} (hrefused : (h.increment c id deltas s).1 = .error f) :
    s.SameDocuments (h.increment c id deltas s).2 := by
  rw [Handle.increment] at hrefused ⊢
  rw [change_of_table hb] at hrefused
  exact (sameDocuments_change_of_table hb s).mpr (Table.modify_of_error hrefused)

/-- An increment in memory keeps the documents as they were if its sums change nothing. -/
theorem increment_keeps_documents_iff (hb : h.backing = .memory) {id : String} {deltas : Document} :
    s.SameDocuments (h.increment c id deltas s).2 ↔
      ∀ d, h.found? id s = some d → (Document.increment d (Document.added deltas)).2 = d := by
  rw [Handle.increment, sameDocuments_change_of_memory hb, Memory.increment,
    findById_of_found? hb]
  cases hfound : Memory.findById id (s.memoryAt h.collection) with
  | none =>
      refine iff_of_true rfl ?_
      intro d hd
      cases hd
  | some d =>
      refine (Memory.replace_eq_self_iff hfound _).trans ?_
      rw [Document.increment_added]
      constructor
      · rintro hsame _ ⟨⟩
        exact hsame
      · intro hall
        exact hall d rfl

/-- **A refused write leaves every document as it was, but for an increment in memory.**  That one does
exactly when the deltas in front of the refused one change nothing. -/
theorem keeps_documents_iff_of_refused {x : Write} (hrefused : (h.perform c s x).1 = .error f) :
    s.SameDocuments (h.perform c s x).2 ↔
      ∀ id deltas d, x = .increment id deltas → h.backing = .memory → h.found? id s = some d →
        (Document.increment d (Document.added deltas)).2 = d := by
  cases x with
  | insert d =>
      exact iff_of_true (insert_keeps_documents (Outcome.map_eq_error_iff.mp hrefused)) nofun
  | update id fields =>
      exact iff_of_true (update_keeps_documents (Outcome.map_eq_error_iff.mp hrefused)) nofun
  | delete id => cases hrefused
  | increment id deltas =>
      cases hb : h.backing with
      | memory =>
          refine (increment_keeps_documents_iff hb).trans ⟨?_, ?_⟩
          · rintro hkept _ _ d ⟨⟩ - hfound
            exact hkept d hfound
          · exact fun hall d hfound => hall id deltas d rfl rfl hfound
      | table =>
          exact iff_of_true
            (increment_keeps_documents_of_table hb (Outcome.map_eq_error_iff.mp hrefused)) nofun

/-! ### An increment that fails half way -/

private def gaugeSupplies : Capabilities :=
  ⟨fun t _ => .ok t, fun n => String.ofList (List.replicate n 'x'), fun _ => "1001",
    Document.reread⟩

private def gauges : Handle := ⟨.memory, "gauges", []⟩

/-- A gauge that shows one. -/
private def oneGauge : List WriteEvent :=
  gauges.events gaugeSupplies Stores.empty [.insert [("n", .ofNat 1)]]

private def gaugeStores : Stores := WriteEvent.latest Stores.empty oneGauge

/-- One more, and one to a label, which is no number. -/
private def oneAndLabel : Document := [("n", .ofNat 1), ("label", .string "up")]

private def labelRefused : Failure := ⟨.badRequest, "label increment must be a number"⟩

theorem keeps_documents_iff_of_refused_gauges :
    (gauges.perform gaugeSupplies gaugeStores (.increment "1001" oneAndLabel.reverse)).1 =
      .error labelRefused ∧
    gaugeStores.SameDocuments
      (gauges.perform gaugeSupplies gaugeStores (.increment "1001" oneAndLabel.reverse)).2 := by
  have hrefused : (gauges.perform gaugeSupplies gaugeStores
      (.increment "1001" oneAndLabel.reverse)).1 = .error labelRefused := rfl
  refine ⟨hrefused, (keeps_documents_iff_of_refused hrefused).mpr ?_⟩
  rintro _ _ d ⟨⟩ - -
  rfl

/-- A refused increment leaves the sums before the delta that was refused. -/
theorem not_same_documents_of_increment :
    ¬ ∀ (c : Capabilities) (h : Handle) (past : List WriteEvent) (s : Stores) (x : Write)
        (f : Failure), Run c h past s → (h.perform c s x).1 = .error f →
        s.SameDocuments (h.perform c s x).2 := by
  intro hall
  have hfails : (gauges.perform gaugeSupplies gaugeStores (.increment "1001" oneAndLabel)).1.isOk =
      false := by decide +kernel
  obtain ⟨f, hrefused⟩ : ∃ f, (gauges.perform gaugeSupplies gaugeStores
      (.increment "1001" oneAndLabel)).1 = .error f := by
    cases hanswer : (gauges.perform gaugeSupplies gaugeStores (.increment "1001" oneAndLabel)).1 with
    | error f => exact ⟨f, rfl⟩
    | ok answer =>
        rw [hanswer] at hfails
        cases hfails
  have hrun : Run gaugeSupplies gauges oneGauge gaugeStores := run_events gaugeSupplies rfl _
  have hsame := hall gaugeSupplies gauges oneGauge gaugeStores _ _ hrun hrefused
  have hshown : ((gauges.perform gaugeSupplies gaugeStores
      (.increment "1001" oneAndLabel)).2.memoryAt "gauges").map (fun d => (d.value "n").double?) ≠
      (gaugeStores.memoryAt "gauges").map fun d => (d.value "n").double? := by decide +kernel
  exact hshown (congrArg (List.map fun d => (d.value "n").double?) (hsame.memory "gauges"))

end Handle

end Curator
