/-
What a join finds when a value of its query comes to null.

A template comes to null if its path leads to no value: the document at hand has no reference, the caller
has no identity, or the document that is referred to has no such field.  The query then asks for null, and
for a filter a field that is missing counts as null.  So the join is not left empty by it: it finds the
documents that have no value in that field and agree with the rest of the query.

`Joined.ofMatches` brings the two types of joins together: what is found is what matches, cut down to the
first document for the one type.
-/
import Curator.Proofs.Service.Joining

namespace Curator

theorem Json.agrees_null (v : Json) : v.agrees .null = v.isNull := by
  cases v with
  | _ => rfl

theorem Document.matchesFilter_append (d filter more : Document) :
    d.matchesFilter (filter ++ more) = (d.matchesFilter filter && d.matchesFilter more) :=
  List.all_append

/-- Asking for null keeps the documents that have no value in the field. -/
theorem Document.matchesFilter_null (d : Document) (name : String) :
    d.matchesFilter [(name, .null)] = (d.value name).isNull := by
  simp [matchesFilter, Json.agrees_null]

namespace Joined

/-- What a join shows of the documents that match. -/
def ofMatches : JoinType → List Document → Joined
  | .findOne, ds => one ds.head?
  | .findMany, ds => many ds

/-- The find of a join that nothing matches. -/
def nothing (t : JoinType) : Joined := ofMatches t []

example : (nothing .findOne).toJson = .null := rfl

example : (nothing .findMany).toJson = .array [] := rfl

theorem ofMatches_eq_nothing_iff {t : JoinType} {ds : List Document} :
    ofMatches t ds = nothing t ↔ ds = [] := by
  cases t with
  | findOne => simp [nothing, ofMatches]
  | findMany => simp [nothing, ofMatches]

theorem mem_of_mem_documents {t : JoinType} {ds : List Document} {d : Document}
    (h : d ∈ (ofMatches t ds).documents) : d ∈ ds := by
  cases t with
  | findOne => exact List.mem_of_mem_head? (by simpa [ofMatches, documents] using h)
  | findMany => exact h

end Joined

namespace Join

theorem select_eq_ok_iff {t : JoinType} {h : Handle} {filter : Document} {stores : Stores}
    {found : Joined} :
    select t h filter stores = .ok found ↔ ∃ docs, h.documents stores = .ok docs ∧
      found = .ofMatches t (docs.filter fun d => d.matchesFilter filter) := by
  cases t with
  | findOne =>
      simp only [select, Handle.findOne?, Outcome.map_eq_ok_iff, Joined.ofMatches, List.head?_filter]
      constructor
      · rintro ⟨first, ⟨docs, hdocs, rfl⟩, rfl⟩
        exact ⟨docs, hdocs, rfl⟩
      · rintro ⟨docs, hdocs, rfl⟩
        exact ⟨_, ⟨docs, hdocs, rfl⟩, rfl⟩
  | findMany =>
      simp only [select, Handle.find, Outcome.map_eq_ok_iff, Joined.ofMatches]
      constructor
      · rintro ⟨all, ⟨docs, hdocs, rfl⟩, rfl⟩
        exact ⟨docs, hdocs, rfl⟩
      · rintro ⟨docs, hdocs, rfl⟩
        exact ⟨_, ⟨docs, hdocs, rfl⟩, rfl⟩

/-- A join that succeeds shows the documents that match what its query comes to. -/
theorem find_eq_ok_iff {dir : Directory} {stores : Stores} {j : Join} {model : Document}
    {caller : Option String} {found : Joined} :
    j.find dir stores model caller = .ok found ↔ ∃ filter e h docs,
      Join.filter ⟨dir, stores, j.entity, model, caller⟩ j.query = .ok filter ∧
      dir.get j.entity = .ok e ∧ e.store = .ok h ∧ h.documents stores = .ok docs ∧
      found = .ofMatches j.type (docs.filter fun d => d.matchesFilter filter) := by
  unfold find
  simp only [Outcome.bind_eq_ok_iff, select_eq_ok_iff]
  constructor
  · rintro ⟨filter, hfilter, e, he, h, hstore, docs, hdocs, hfound⟩
    exact ⟨filter, e, h, docs, hfilter, he, hstore, hdocs, hfound⟩
  · rintro ⟨filter, e, h, docs, hfilter, he, hstore, hdocs, hfound⟩
    exact ⟨filter, hfilter, e, he, h, hstore, docs, hdocs, hfound⟩

/-- A query comes to a filter if each of its parts does. -/
theorem filter_append_eq_ok_iff {s : Scope} {query more : List (String × Json)} {f : Document} :
    Join.filter s (query ++ more) = .ok f ↔ ∃ front back,
      Join.filter s query = .ok front ∧ Join.filter s more = .ok back ∧ f = front ++ back := by
  induction query generalizing f with
  | nil => simp [Join.filter, eq_comm]
  | cons entry query ih =>
      obtain ⟨name, v⟩ := entry
      simp only [List.cons_append, Join.filter]
      cases s.resolve v with
      | error e => simp
      | ok w =>
          simp only [Outcome.map_eq_ok_iff, ih]
          constructor
          · rintro ⟨_, ⟨front, back, hfront, hback, rfl⟩, rfl⟩
            exact ⟨(name, w) :: front, back, ⟨front, hfront, rfl⟩, hback, rfl⟩
          · rintro ⟨_, back, ⟨front, hfront, rfl⟩, hback, rfl⟩
            exact ⟨front ++ back, ⟨front, back, hfront, hback, rfl⟩, rfl⟩

/-- With a null in it, a query comes to what the rest of it comes to and the null. -/
theorem exists_filter_of_null {s : Scope} {before after : Document} {name t : String}
    {filter : Document} (hnull : s.template t = .ok .null)
    (hfilter : Join.filter s (before ++ (name, .string t) :: after) = .ok filter) :
    ∃ others, Join.filter s (before ++ after) = .ok others ∧
      ∀ d : Document, d.matchesFilter filter = (d.matchesFilter others && (d.value name).isNull) := by
  obtain ⟨front, rest, hfront, hrest, rfl⟩ := filter_append_eq_ok_iff.mp hfilter
  rw [Join.filter, Scope.resolve, hnull] at hrest
  obtain ⟨back, hback, rfl⟩ := Outcome.map_eq_ok_iff.mp hrest
  refine ⟨front ++ back, filter_append_eq_ok_iff.mpr ⟨front, back, hfront, hback, rfl⟩, ?_⟩
  intro d
  have hsplit : d.matchesFilter ((name, .null) :: back) =
      (d.matchesFilter [(name, .null)] && d.matchesFilter back) :=
    d.matchesFilter_append [(name, .null)] back
  rw [Document.matchesFilter_append, hsplit, Document.matchesFilter_null,
    Document.matchesFilter_append, Bool.and_assoc, Bool.and_comm (d.value name).isNull]

/--
**A query with a null finds the documents without a value.**  Where a template of the query comes to null
and the join succeeds, all that is found are documents that agree with the rest of the query and have no
value in the field.  So nothing is found exactly if every document that agrees with the rest has one.
-/
theorem unresolved_finds_nothing_iff {dir : Directory} {stores : Stores} {j : Join} {model : Document}
    {caller : Option String} {before after : Document} {name t : String} {found : Joined}
    (hquery : j.query = before ++ (name, .string t) :: after)
    (hnull : Scope.template ⟨dir, stores, j.entity, model, caller⟩ t = .ok .null)
    (hfind : j.find dir stores model caller = .ok found) :
    ∃ e h docs others, dir.get j.entity = .ok e ∧ e.store = .ok h ∧ h.documents stores = .ok docs ∧
      Join.filter ⟨dir, stores, j.entity, model, caller⟩ (before ++ after) = .ok others ∧
      (∀ d ∈ found.documents,
        d ∈ docs ∧ d.matchesFilter others = true ∧ (d.value name).isNull = true) ∧
      (found = .nothing j.type ↔
        ∀ d ∈ docs, d.matchesFilter others = true → (d.value name).isNull = false) := by
  obtain ⟨filter, e, h, docs, hfilter, he, hstore, hdocs, rfl⟩ := find_eq_ok_iff.mp hfind
  rw [hquery] at hfilter
  obtain ⟨others, hothers, hmatches⟩ := exists_filter_of_null hnull hfilter
  refine ⟨e, h, docs, others, he, hstore, hdocs, hothers, ?_, ?_⟩
  · intro d hd
    obtain ⟨hmem, hmatch⟩ := List.mem_filter.mp (Joined.mem_of_mem_documents hd)
    rw [hmatches, Bool.and_eq_true] at hmatch
    exact ⟨hmem, hmatch⟩
  · rw [Joined.ofMatches_eq_nothing_iff, List.filter_eq_nil_iff]
    constructor
    · intro hnone d hmem hagrees
      have hmiss := hnone d hmem
      rw [hmatches, hagrees, Bool.true_and] at hmiss
      exact Bool.eq_false_iff.mpr hmiss
    · intro hvalues d hmem hmatch
      rw [hmatches, Bool.and_eq_true] at hmatch
      have hvalue := hvalues d hmem hmatch.1
      rw [hmatch.2] at hvalue
      cases hvalue

/-! ### Items that refer to items -/

private def chainedItems : Entity :=
  ⟨{ Definition.ofNames "items" "items" with
      attributes := (NameMap.empty.insert "name" (.ofKind (.string none none))).insert "ref"
        (.ofKind (.ref "items")) },
    some ⟨.memory, "items", []⟩⟩

private def chainedDirectory : Directory := ⟨[("items", chainedItems)]⟩

/-- Looks for the item with the name of the one that is referred to. -/
private def namesake : Join := ⟨.findOne, "items", [("name", .string "{this.ref.name}")]⟩

/-- An item without a reference. -/
private def loose : Document := [("name", .string "x")]

/-- One item in memory. -/
private def oneItem (d : Document) : Stores := ⟨[("items", [d])], [], 1⟩

private def named : Document := [("name", .string "a"), ("id", .string "1")]

private def nameless : Document := [("id", .string "1")]

private theorem eq_null_of_isNull {v : Json} (h : v.isNull = true) : v = .null := by
  cases v with
  | null => rfl
  | _ => cases h

/-- Without a reference there is no name to look for. -/
private theorem namesake_null (stores : Stores)
    (h : (Scope.template ⟨chainedDirectory, stores, "items", loose, none⟩
      "{this.ref.name}").toOption.map Json.isNull = some true) :
    Scope.template ⟨chainedDirectory, stores, "items", loose, none⟩ "{this.ref.name}" =
      .ok .null := by
  obtain ⟨v, hv, hnull⟩ := Option.map_eq_some_iff.mp h
  rw [Outcome.toOption_eq_some_iff.mp hv, eq_null_of_isNull hnull]

/-- Where all items have names, an item without a reference is joined to none of them. -/
theorem unresolved_finds_nothing_iff_named :
    Scope.template ⟨chainedDirectory, oneItem named, "items", loose, none⟩ "{this.ref.name}" =
      .ok .null ∧
    namesake.find chainedDirectory (oneItem named) loose none = .ok (.nothing .findOne) := by
  have hnull := namesake_null (oneItem named) (by decide +kernel)
  have hsucceeds : (namesake.find chainedDirectory (oneItem named) loose none).toOption.isSome =
      true := by decide +kernel
  obtain ⟨found, hfound⟩ := Option.isSome_iff_exists.mp hsucceeds
  have hfind := Outcome.toOption_eq_some_iff.mp hfound
  obtain ⟨e, h, docs, others, he, hstore, hdocs, -, -, hiff⟩ :=
    @unresolved_finds_nothing_iff chainedDirectory _ namesake loose none [] [] "name" _ found rfl
      hnull hfind
  cases he
  cases hstore
  cases hdocs
  have hvalues : ∀ d ∈ [named], d.matchesFilter others = true → (d.value "name").isNull = false := by
    intro d hd _
    rw [List.mem_singleton.mp hd]
    rfl
  exact ⟨hnull, hfind.trans (congrArg Except.ok (hiff.mpr hvalues))⟩

/-- An item that merely lacks a name is found when there is no name to look for. -/
theorem not_finds_nothing_of_unresolved :
    ¬ ∀ (dir : Directory) (stores : Stores) (j : Join) (model : Document) (caller : Option String)
        (name t : String) (found : Joined), (name, .string t) ∈ j.query →
        Scope.template ⟨dir, stores, j.entity, model, caller⟩ t = .ok .null →
        j.find dir stores model caller = .ok found → found = .nothing j.type := by
  intro hall
  have hnull := namesake_null (oneItem nameless) (by decide +kernel)
  have hone : (namesake.find chainedDirectory (oneItem nameless) loose none).toOption.map
      (fun found => found.documents.length) = some 1 := by decide +kernel
  obtain ⟨found, hfound, hlength⟩ := Option.map_eq_some_iff.mp hone
  have hnothing := hall chainedDirectory _ namesake loose none "name" "{this.ref.name}" found
    List.mem_cons_self hnull (Outcome.toOption_eq_some_iff.mp hfound)
  rw [hnothing] at hlength
  cases hlength

end Join

end Curator
