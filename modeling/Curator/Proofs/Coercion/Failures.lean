/-
What lists and maps make of the failures inside of them.

A map is coerced entry by entry.  Failures that the client caused are put together, and any other one is
the outcome by itself.  `Attribute.entryFailures` lists what fails without a word about how far the loop
gets: one failure for each failing entry, in the order of the entries.  `Attribute.map_reports` reads the
outcome of the whole map off this list.

A list is coerced up to its first failing item.  `FailsFirst` says which one that is, and the list fails as
this item does, behind its own label.
-/
import Curator.Proofs.Coercion.Entries

namespace Curator

/-! ### The entries of a map -/

section Loop

variable {coerce : String × Json → Except Failure (String × Json)} {e : String × Json}
  {entries rest : List (String × Json)}

/-- The failures of the entries that fail, in the order of the entries. -/
def failuresOf (coerce : String × Json → Except Failure (String × Json))
    (entries : List (String × Json)) : List Failure :=
  entries.filterMap fun e => Outcome.error? (coerce e)

theorem failuresOf_cons_of_ok {c : String × Json} (he : coerce e = .ok c) :
    failuresOf coerce (e :: rest) = failuresOf coerce rest := by
  rw [failuresOf, List.filterMap_cons, he]
  rfl

theorem failuresOf_cons_of_error {f : Failure} (he : coerce e = .error f) :
    failuresOf coerce (e :: rest) = f :: failuresOf coerce rest := by
  rw [failuresOf, List.filterMap_cons, he]
  rfl

/-- The first failure that the client did not cause ends the loop, whatever was met before it. -/
theorem coerceEntries_of_fatal {f : Failure}
    (hf : (failuresOf coerce entries).find? (fun f => !f.isClientError) = some f) (done : Document)
    (failures : List Failure) : coerceEntries coerce done failures entries = .error f := by
  induction entries generalizing done failures with
  | nil => cases hf
  | cons e rest ih =>
      rw [coerceEntries]
      cases he : coerce e with
      | ok c =>
          rw [failuresOf_cons_of_ok he] at hf
          exact ih hf _ _
      | error g =>
          rw [failuresOf_cons_of_error he, List.find?_cons] at hf
          dsimp only
          cases hg : g.isClientError with
          | true =>
              rw [hg] at hf
              exact ih hf _ _
          | false =>
              rw [hg] at hf
              obtain rfl := Option.some.inj hf
              rfl

theorem exists_find?_of_not_client {failures : List Failure}
    (hfatal : ¬ ∀ f ∈ failures, f.isClientError = true) :
    ∃ f, failures.find? (fun f => !f.isClientError) = some f := by
  rw [← Option.isSome_iff_exists, List.find?_isSome]
  simpa using hfatal

/-- Without such a failure the loop meets every failure there is. -/
theorem coerceEntries_of_client
    (hclient : ∀ f ∈ failuresOf coerce entries, f.isClientError = true) (done : Document)
    (failures : List Failure) :
    ∃ done', coerceEntries coerce done failures entries =
      .ok (done', failures ++ failuresOf coerce entries) := by
  induction entries generalizing done failures with
  | nil => exact ⟨done, by rw [failuresOf, List.filterMap_nil, List.append_nil]; rfl⟩
  | cons e rest ih =>
      rw [coerceEntries]
      cases he : coerce e with
      | ok c =>
          rw [failuresOf_cons_of_ok he] at hclient ⊢
          exact ih hclient _ _
      | error g =>
          rw [failuresOf_cons_of_error he] at hclient ⊢
          obtain ⟨hg, hrest⟩ := List.forall_mem_cons.mp hclient
          obtain ⟨done', hdone⟩ := ih hrest done (failures ++ [g])
          refine ⟨done', ?_⟩
          dsimp only
          rw [if_pos hg, hdone, List.append_assoc, List.singleton_append]

/-- So the loop ends early on no other failure. -/
theorem isClientError_of_coerceEntries {done : Document} {failures : List Failure} {f : Failure}
    (h : coerceEntries coerce done failures entries = .error f) : f.isClientError = false := by
  by_cases hall : ∀ g ∈ failuresOf coerce entries, g.isClientError = true
  · obtain ⟨done', hdone⟩ := coerceEntries_of_client hall done failures
    cases hdone.symm.trans h
  · obtain ⟨g, hg⟩ := exists_find?_of_not_client hall
    cases (coerceEntries_of_fatal hg done failures).symm.trans h
    simpa using List.find?_some hg

end Loop

section Maps

variable {s : Surroundings} {data : Document} {key value : Attribute}

/-- The failure of an entry, if it fails: that of its name, or else that of its value. -/
def Attribute.entryFailure? (key value : Attribute) (s : Surroundings) (data : Document)
    (e : String × Json) : Option Failure :=
  (Outcome.error? (key.coerce s data e.1 (some (.string e.1)))).or
    (Outcome.error? (value.coerce s data e.1 (some e.2)))

/-- The failures of the entries that fail, in the order of the entries. -/
def Attribute.entryFailures (key value : Attribute) (s : Surroundings) (data : Document)
    (entries : List (String × Json)) : List Failure :=
  entries.filterMap (key.entryFailure? value s data)

theorem error?_coerceEntry (e : String × Json) :
    Outcome.error? (key.coerceEntry value s data e) = key.entryFailure? value s data e := by
  rw [Attribute.coerceEntry, coerceEntry, Attribute.entryFailure?]
  cases key.coerce s data e.1 (some (.string e.1)) with
  | error f => rfl
  | ok name => cases value.coerce s data e.1 (some e.2) <;> rfl

theorem entryFailures_eq (entries : List (String × Json)) :
    key.entryFailures value s data entries = failuresOf (key.coerceEntry value s data) entries :=
  List.filterMap_congr fun e _ => (error?_coerceEntry e).symm

/-- What a map comes to is what the loop over its entries comes to. -/
theorem Attribute.coerce_map_eq {a : Attribute} (ha : a.kind = .map key value) (label : String)
    (entries : List (String × Json)) :
    a.coerce s data label (some (.object entries)) =
      match coerceEntries (key.coerceEntry value s data) [] [] entries with
      | .ok outcome => mapOutcome label outcome
      | .error f => .error f := by
  rw [a.coerce_some rfl, ha, Kind.coerce]
  rfl

/--
**A map reports every entry that fails, and each one once.**  If none fails, it is coerced.  If a failure is
not the client's, the first one of them is the outcome as it is.  Otherwise there is one failure, whose
message has a part for each failing entry, in the order of the entries: the label and the message of the
entry.  It says that something was not found if all of them do, and else that the request was bad.
-/
theorem Attribute.map_reports {a : Attribute} (ha : a.kind = .map key value) (s : Surroundings)
    (data : Document) (label : String) (entries : List (String × Json)) :
    (key.entryFailures value s data entries = [] ↔
      ∃ fields, a.coerce s data label (some (.object entries)) = .ok (some (.object fields))) ∧
    (∀ f, (key.entryFailures value s data entries).find? (fun f => !f.isClientError) = some f →
      a.coerce s data label (some (.object entries)) = .error f) ∧
    (key.entryFailures value s data entries ≠ [] →
      (∀ f ∈ key.entryFailures value s data entries, f.isClientError = true) →
      ∃ g, a.coerce s data label (some (.object entries)) = .error g ∧
        g.message = Text.join ", "
          ((key.entryFailures value s data entries).map fun f => label ++ " " ++ f.message) ∧
        (g.kind = .notFound ∨ g.kind = .badRequest) ∧
        (g.kind = .notFound ↔ ∀ f ∈ key.entryFailures value s data entries, f.kind = .notFound)) := by
  rw [coerce_map_eq ha, entryFailures_eq]
  generalize hfailures : failuresOf (key.coerceEntry value s data) entries = failures
  have hclient : (∀ f ∈ failures, f.isClientError = true) →
      ∃ done, coerceEntries (key.coerceEntry value s data) [] [] entries = .ok (done, failures) := by
    rw [← hfailures]
    exact fun hall => coerceEntries_of_client hall [] []
  have hfatal : ∀ f, failures.find? (fun f => !f.isClientError) = some f →
      coerceEntries (key.coerceEntry value s data) [] [] entries = .error f := by
    rw [← hfailures]
    exact fun f hf => coerceEntries_of_fatal hf [] []
  refine ⟨⟨fun hnone => ?_, fun ⟨fields, hok⟩ => ?_⟩, fun f hf => ?_, fun hsome hall => ?_⟩
  · obtain ⟨done, hdone⟩ := hclient (hnone ▸ List.forall_mem_nil _)
    rw [hdone, hnone]
    exact ⟨done, rfl⟩
  · by_cases hall : ∀ f ∈ failures, f.isClientError = true
    · obtain ⟨done, hdone⟩ := hclient hall
      rw [hdone] at hok
      cases failures with
      | nil => rfl
      | cons g rest => cases hok
    · obtain ⟨f, hf⟩ := exists_find?_of_not_client hall
      rw [hfatal f hf] at hok
      cases hok
  · rw [hfatal f hf]
  · obtain ⟨done, hdone⟩ := hclient hall
    rw [hdone]
    cases failures with
    | nil => exact absurd rfl hsome
    | cons g rest =>
        refine ⟨_, rfl, rfl, ?_, ?_⟩
        · dsimp only [Failure.together]
          split
          · exact Or.inl rfl
          · exact Or.inr rfl
        · dsimp only [Failure.together]
          split
          · rename_i hfound
            exact iff_of_true rfl (by simpa using hfound)
          · rename_i hfound
            exact iff_of_false nofun (by simpa using hfound)

end Maps

private def topicDirectory : Directory :=
  ⟨[("topics", ⟨Definition.ofNames "topics" "topics", some ⟨.memory, "topics", []⟩⟩)]⟩

private def linkSurroundings : Surroundings where
  capabilities :=
    ⟨fun t _ => .ok t, fun n => String.ofList (List.replicate n 'x'), fun _ => "7", Document.reread⟩
  directory := topicDirectory
  stores := .empty
  caller := none
  ignoreDefaults := false

/-- The topics that a book and a film are about. -/
private def links : Attribute :=
  .ofKind (.map (.ofKind (.enum ["book", "film"])) (.ofKind (.ref "topics")))

private def sentLinks : Document :=
  [("book", .string "1001"), ("song", .string "1001"), ("film", .bool true)]

private def linkFailures : List Failure :=
  [⟨.notFound, "book not found"⟩, ⟨.badRequest, "song must be one of: book, film"⟩,
    ⟨.badRequest, "film is not a valid ID"⟩]

/-- A topic that does not exist, a name that is not allowed and a value that is no id. -/
theorem Attribute.map_reports_links :
    ∃ g, links.coerce linkSurroundings [] "links" (some (.object sentLinks)) = .error g ∧
      g.message = "links book not found, links song must be one of: book, film, " ++
        "links film is not a valid ID" ∧ g.kind ≠ .notFound := by
  have hfailures : (Attribute.ofKind (.enum ["book", "film"])).entryFailures (.ofKind (.ref "topics"))
      linkSurroundings [] sentLinks = linkFailures := rfl
  obtain ⟨-, -, htogether⟩ := map_reports (a := links) rfl linkSurroundings [] "links" sentLinks
  rw [hfailures] at htogether
  obtain ⟨g, hg, hmessage, -, hfound⟩ := htogether (List.cons_ne_nil _ _) (by decide)
  refine ⟨g, hg, hmessage, fun hkind => ?_⟩
  have hbad := hfound.mp hkind ⟨.badRequest, "film is not a valid ID"⟩ (by decide)
  cases hbad

/-! ### The first item that fails -/

/-- The label of the item at an index. -/
def indexLabel (i : Nat) : String := "index " ++ toString i

/-- The item at an index fails, and none before it does. -/
structure FailsFirst (coerce : Nat → Json → Coerced) (items : List Json) (i : Nat) (f : Failure) :
    Prop where
  fails : ∃ v, items[i]? = some v ∧ coerce i v = .error f
  before : ∀ j < i, ∀ v, items[j]? = some v → ∃ w, coerce j v = .ok w

section Items

variable {coerce : Nat → Json → Coerced} {x : Json} {rest : List Json} {f : Failure}

theorem failsFirst_zero_iff : FailsFirst coerce (x :: rest) 0 f ↔ coerce 0 x = .error f := by
  constructor
  · rintro ⟨⟨v, hv, hf⟩, -⟩
    cases hv
    exact hf
  · exact fun hf => ⟨⟨x, rfl, hf⟩, fun j hj => absurd hj (Nat.not_lt_zero j)⟩

theorem failsFirst_succ_iff {i : Nat} : FailsFirst coerce (x :: rest) (i + 1) f ↔
    (∃ w, coerce 0 x = .ok w) ∧ FailsFirst (fun j => coerce (j + 1)) rest i f := by
  constructor
  · rintro ⟨hfails, hbefore⟩
    exact ⟨hbefore 0 (Nat.succ_pos i) x rfl, hfails,
      fun j hj v hv => hbefore (j + 1) (Nat.succ_lt_succ hj) v hv⟩
  · rintro ⟨hx, hfails, hbefore⟩
    refine ⟨hfails, fun j hj v hv => ?_⟩
    cases j with
    | zero =>
        cases hv
        exact hx
    | succ j => exact hbefore j (Nat.lt_of_succ_lt_succ hj) v hv

/-- The items from index `k` on are coerced up to the first that fails. -/
theorem coerceItems_eq_error_iff {coerce : String → Json → Coerced} {k : Nat} {items : List Json} :
    coerceItems coerce k items = .error f ↔
      ∃ i, FailsFirst (fun j => coerce (indexLabel (k + j))) items i f := by
  induction items generalizing k with
  | nil =>
      refine iff_of_false nofun ?_
      rintro ⟨i, ⟨v, hv, -⟩, -⟩
      cases hv
  | cons x rest ih =>
      have hshift : (fun j => coerce (indexLabel (k + (j + 1)))) =
          fun j => coerce (indexLabel (k + 1 + j)) := by
        funext j
        rw [Nat.add_right_comm, Nat.add_assoc]
      rw [coerceItems, ← indexLabel]
      cases hx : coerce (indexLabel k) x with
      | error g =>
          dsimp only
          constructor
          · rintro ⟨⟩
            exact ⟨0, failsFirst_zero_iff.mpr hx⟩
          · rintro ⟨i, hi⟩
            cases i with
            | zero =>
                cases hx.symm.trans (failsFirst_zero_iff.mp hi)
                rfl
            | succ i =>
                obtain ⟨⟨w, hw⟩, -⟩ := failsFirst_succ_iff.mp hi
                cases hx.symm.trans hw
      | ok w =>
          dsimp only
          rw [Outcome.map_eq_error_iff, ih, ← hshift]
          constructor
          · rintro ⟨i, hi⟩
            exact ⟨i + 1, failsFirst_succ_iff.mpr ⟨⟨w, hx⟩, hi⟩⟩
          · rintro ⟨i, hi⟩
            cases i with
            | zero => cases hx.symm.trans (failsFirst_zero_iff.mp hi)
            | succ i => exact ⟨i, (failsFirst_succ_iff.mp hi).2⟩

/-- If an item fails, one of them is the first. -/
theorem exists_failsFirst {items : List Json} {i : Nat} {v : Json} (hv : items[i]? = some v)
    (hf : coerce i v = .error f) : ∃ j g, FailsFirst coerce items j g := by
  induction i using Nat.strong_induction_on generalizing v f with
  | _ i ih =>
      by_cases hbefore : ∀ j < i, ∀ u, items[j]? = some u → ∃ w, coerce j u = .ok w
      · exact ⟨i, f, ⟨v, hv, hf⟩, hbefore⟩
      · push Not at hbefore
        obtain ⟨j, hj, u, hu, hfails⟩ := hbefore
        cases hju : coerce j u with
        | ok w => exact absurd hju (hfails w)
        | error g => exact ih j hj hu hju

end Items

/-! ### Lists inside of lists -/

section Lists

variable {s : Surroundings} {data : Document} {a item : Attribute} {maxItems : Option Nat}
  {items : List Json}

/-- What becomes of an item at an index. -/
def Attribute.coerceItem (item : Attribute) (s : Surroundings) (data : Document) (i : Nat) (v : Json) :
    Coerced :=
  item.coerce s data (indexLabel i) (some v)

/-- A list of a length that is allowed fails as its first failing item does, behind its own label. -/
theorem Attribute.coerce_list_eq_error_iff (ha : a.kind = .list item maxItems)
    (hfits : ∀ n ∈ maxItems, items.length ≤ n) (label : String) {f : Failure} :
    a.coerce s data label (some (.array items)) = .error f ↔
      ∃ i g, FailsFirst (item.coerceItem s data) items i g ∧ f = g.within (label ++ " ") := by
  have hitem : (fun j => (fun l x => item.coerce s data l (some x)) (indexLabel (0 + j))) =
      item.coerceItem s data := by
    funext j
    rw [Nat.zero_add]
    rfl
  have hfew : (maxItems.filter fun n => n < items.length) = none := by
    rw [Option.filter_eq_none_iff]
    intro n hn
    simpa using hfits n hn
  rw [a.coerce_some rfl, ha, Kind.coerce, hfew]
  dsimp only
  cases hitems : coerceItems (fun l x => item.coerce s data l (some x)) 0 items with
  | ok vs =>
      refine iff_of_false nofun ?_
      rintro ⟨i, g, hfirst, -⟩
      rw [← hitem] at hfirst
      rw [coerceItems_eq_error_iff.mpr ⟨i, hfirst⟩] at hitems
      cases hitems
  | error g =>
      dsimp only
      constructor
      · rintro ⟨⟩
        obtain ⟨i, hfirst⟩ := coerceItems_eq_error_iff.mp hitems
        exact ⟨i, g, hitem ▸ hfirst, rfl⟩
      · rintro ⟨i, g', hfirst, rfl⟩
        rw [← hitem] at hfirst
        rw [coerceItems_eq_error_iff.mpr ⟨i, hfirst⟩] at hitems
        cases hitems
        rfl

end Lists

end Curator
