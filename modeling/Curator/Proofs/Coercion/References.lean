/-
Where references lead, at every depth.

A coercion asks the directory for nothing but the entities that references lead to, and a reference can
stand inside lists and maps as well as on its own.  `Attribute.refs` are all of them.  Once those are
registered, no failure of a coercion can be laid to an entity that is not: whatever else is registered,
the coercion comes to the same.

When a directory is built, the references that stand on their own and the joins are checked, and nothing
is looked for inside of lists and maps.  So a directory that was built is closed under references
exactly if those inside lead somewhere too.
-/
import Curator.Proofs.Coercion.Projection
import Curator.Proofs.Directory

namespace Curator

/-! ### The references of an attribute -/

mutual

/-- The entities that values of a kind refer to, at every depth. -/
def Kind.refs : Kind → List String
  | .boolean => []
  | .email => []
  | .enum _ => []
  | .number _ _ => []
  | .string _ _ => []
  | .ref target => [target]
  | .list item _ => item.refs
  | .map key value => key.refs ++ value.refs
  | .id => []
  | .slug _ _ _ => []
  | .user => []

/-- The entities that values of an attribute refer to, at every depth. -/
def Attribute.refs : Attribute → List String
  | ⟨kind, _, _, _, _⟩ => kind.refs

end

/-- The references inside lists and maps. -/
def Kind.innerRefs : Kind → List String
  | .ref _ => []
  | k => k.refs

theorem Attribute.refs_eq (a : Attribute) : a.refs = a.kind.refs := by
  cases a
  rfl

/-- A reference stands on its own or inside a list or a map. -/
theorem Kind.mem_refs_iff {k : Kind} {target : String} :
    target ∈ k.refs ↔ k = .ref target ∨ target ∈ k.innerRefs := by
  cases k with
  | ref other => simp [Kind.refs, innerRefs, eq_comm]
  | _ => simp [innerRefs]

/-! ### What a coercion asks the directory -/

section Directories

variable {s : Surroundings} {dir : Directory} {data : Document}

theorem coerceRef_directory {target : String} (hsame : s.directory.get target = dir.get target)
    (label : String) (v : Json) :
    coerceRef s label target v = coerceRef { s with directory := dir } label target v := by
  rw [coerceRef, coerceRef, hsame]

mutual

/-- Directories that agree on the references of a kind coerce its values alike. -/
theorem Kind.coerce_directory :
    ∀ {k : Kind}, (∀ target ∈ k.refs, s.directory.get target = dir.get target) →
      ∀ label absent raw,
        k.coerce s data label absent raw = k.coerce { s with directory := dir } data label absent raw
  | .boolean, _, _, _, raw => by cases raw <;> rfl
  | .email, _, _, _, raw => by cases raw <;> rfl
  | .enum _, _, _, _, raw => by cases raw <;> rfl
  | .number _ _, _, _, _, _ => rfl
  | .string _ _, _, _, _, raw => by cases raw <;> rfl
  | .id, _, _, _, _ => rfl
  | .user, _, _, _, _ => rfl
  | .slug _ _ _, _, _, _, _ => rfl
  | .ref _, _, _, _, none => rfl
  | .ref target, hsame, label, _, some v =>
      coerceRef_directory (hsame target List.mem_cons_self) label v
  | .list _ _, _, _, _, none => rfl
  | .list item _, hsame, _, _, some v => by
      have hitem : (fun l x => item.coerce s data l (some x)) =
          fun l x => item.coerce { s with directory := dir } data l (some x) := by
        funext l x
        exact Attribute.coerce_directory hsame l (some x)
      cases v with
      | array items => rw [Kind.coerce, Kind.coerce, hitem]
      | _ => rfl
  | .map _ _, _, _, _, none => rfl
  | .map key value, hsame, _, _, some v => by
      have hkey : (fun l x => key.coerce s data l (some x)) =
          fun l x => key.coerce { s with directory := dir } data l (some x) := by
        funext l x
        exact Attribute.coerce_directory
          (fun target htarget => hsame target (List.mem_append_left _ htarget)) l (some x)
      have hvalue : (fun l x => value.coerce s data l (some x)) =
          fun l x => value.coerce { s with directory := dir } data l (some x) := by
        funext l x
        exact Attribute.coerce_directory
          (fun target htarget => hsame target (List.mem_append_right _ htarget)) l (some x)
      cases v with
      | object entries => rw [Kind.coerce, Kind.coerce, hkey, hvalue]
      | _ => rfl

/-- Directories that agree on the references of an attribute coerce its values alike. -/
theorem Attribute.coerce_directory :
    ∀ {a : Attribute}, (∀ target ∈ a.refs, s.directory.get target = dir.get target) →
      ∀ label raw,
        a.coerce s data label raw = a.coerce { s with directory := dir } data label raw
  | ⟨_, _, _, _, _⟩, hsame, _, _ => Kind.coerce_directory hsame _ _ _

end

end Directories

/-! ### Closed directories -/

namespace Directory

/-- Every reference at any depth and every join leads to an entity that is registered. -/
structure Closed (dir : Directory) : Prop where
  refs : ∀ {name e}, dir.get name = .ok e → ∀ entry ∈ e.definition.attributes.entries,
    ∀ target ∈ entry.2.refs, dir.contains target = true
  joins : ∀ {name e}, dir.get name = .ok e → ∀ entry ∈ e.definition.joins.entries,
    dir.contains entry.2.entity = true

/-- What is registered in a directory is registered in another, and that may be more. -/
def Extends (dir dir' : Directory) : Prop := ∀ name e, dir.get name = .ok e → dir'.get name = .ok e

/-- Where the references of an attribute are registered, coercion to it comes to the same in every
directory that extends this one. -/
theorem Extends.coerce_eq {dir dir' : Directory} (hextends : dir.Extends dir') {a : Attribute}
    (hrefs : ∀ target ∈ a.refs, dir.contains target = true) {s : Surroundings}
    (hdir : s.directory = dir) (data : Document) (label : String) (raw : Option Json) :
    a.coerce s data label raw = a.coerce { s with directory := dir' } data label raw := by
  refine Attribute.coerce_directory (fun target htarget => ?_) label raw
  obtain ⟨e, he⟩ := contains_iff.mp (hrefs target htarget)
  rw [hdir, he, hextends target e he]

/-! ### What is checked when a directory is built -/

/-- Without problems the references that stand on their own lead somewhere, and so do the joins. -/
theorem leads_of_no_problems {dir : Directory} (hnone : dir.problems = []) {name : String} {e : Entity}
    (he : dir.get name = .ok e) :
    (∀ entry ∈ e.definition.attributes.entries, ∀ target, entry.2.kind = .ref target →
      dir.contains target = true) ∧
    ∀ entry ∈ e.definition.joins.entries, dir.contains entry.2.entity = true := by
  have hdangling : dir.danglingRefs e ++ dir.danglingJoins e = [] := by
    rw [problems, ← List.length_eq_zero_iff, List.length_mergeSort, List.length_eq_zero_iff] at hnone
    have hall := List.flatMap_eq_nil_iff.mp hnone
    exact hall (name, e) (Dict.mem_of_get?_eq_some (get_eq_ok_iff.mp he))
  obtain ⟨hrefs, hjoins⟩ := List.append_eq_nil_iff.mp hdangling
  constructor
  · intro entry hentry target hkind
    have hlead := List.filterMap_eq_nil_iff.mp hrefs entry hentry
    dsimp only at hlead
    rw [hkind] at hlead
    dsimp only at hlead
    split at hlead
    · assumption
    · cases hlead
  · intro entry hentry
    have hlead := List.filterMap_eq_nil_iff.mp hjoins entry hentry
    dsimp only at hlead
    split at hlead
    · assumption
    · cases hlead

/-- A directory is built from definitions that can all be registered and leave no problems. -/
theorem build_eq_ok_iff {handleFor : Definition → Option Handle} {ds : List Definition}
    {dir : Directory} :
    build handleFor ds = .ok dir ↔ registerAll handleFor ds empty = .ok dir ∧ dir.problems = [] := by
  unfold build
  cases registerAll handleFor ds empty with
  | error f => exact iff_of_false nofun nofun
  | ok other =>
      dsimp only
      split
      · rename_i hnone
        constructor
        · intro h
          cases h
          exact ⟨rfl, hnone⟩
        · exact fun h => h.1
      · rename_i hsome
        refine iff_of_false nofun ?_
        rintro ⟨⟨⟩, hnone⟩
        exact hsome hnone

/--
**A directory that was built is closed under references as far as it was looked into.**  It is closed
exactly if the references inside lists and maps lead to registered entities.  And where all references of
an attribute do, no coercion to it depends on what else is registered.
-/
theorem build_closed_iff {handleFor : Definition → Option Handle} {ds : List Definition}
    {dir : Directory} (hbuild : build handleFor ds = .ok dir) :
    (dir.Closed ↔ ∀ name e, dir.get name = .ok e → ∀ entry ∈ e.definition.attributes.entries,
      ∀ target ∈ entry.2.kind.innerRefs, dir.contains target = true) ∧
    ∀ name e, dir.get name = .ok e → ∀ entry ∈ e.definition.attributes.entries,
      (∀ target ∈ entry.2.refs, dir.contains target = true) →
      ∀ (s : Surroundings) (dir' : Directory) (data : Document) (label : String) (raw : Option Json),
        s.directory = dir → dir.Extends dir' →
        entry.2.coerce s data label raw =
          entry.2.coerce { s with directory := dir' } data label raw := by
  obtain ⟨-, hnone⟩ := build_eq_ok_iff.mp hbuild
  refine ⟨⟨fun hclosed name e he entry hentry target htarget => ?_, fun hinner => ⟨?_, ?_⟩⟩, ?_⟩
  · refine hclosed.refs he entry hentry target ?_
    rw [Attribute.refs_eq]
    exact Kind.mem_refs_iff.mpr (Or.inr htarget)
  · intro name e he entry hentry target htarget
    rw [Attribute.refs_eq] at htarget
    rcases Kind.mem_refs_iff.mp htarget with hkind | htarget
    · exact (leads_of_no_problems hnone he).1 entry hentry target hkind
    · exact hinner name e he entry hentry target htarget
  · intro name e he
    exact (leads_of_no_problems hnone he).2
  · intro name e _ entry _ hrefs s dir' data label raw hdir hextends
    exact hextends.coerce_eq hrefs hdir data label raw

/-! ### A list of references -/

/-- Posts with tags that are documents of an entity. -/
private def taggedPosts (target : String) : Definition :=
  { Definition.ofNames "posts" "posts" with
    attributes := NameMap.empty.insert "tags" (.ofKind (.list (.ofKind (.ref target)) none)) }

private def inMemory (d : Definition) : Option Handle := some ⟨.memory, d.name, []⟩

private def taggedDirectory (target : String) : Directory :=
  ⟨[("posts", ⟨(taggedPosts target).complete, inMemory (taggedPosts target)⟩)]⟩

theorem build_closed_iff_posts :
    build inMemory [taggedPosts "posts"] = .ok (taggedDirectory "posts") ∧
    ((taggedDirectory "posts").Closed ↔ ∀ name e, (taggedDirectory "posts").get name = .ok e →
      ∀ entry ∈ e.definition.attributes.entries, ∀ target ∈ entry.2.kind.innerRefs,
        (taggedDirectory "posts").contains target = true) ∧
    ∀ name e, (taggedDirectory "posts").get name = .ok e →
      ∀ entry ∈ e.definition.attributes.entries,
      (∀ target ∈ entry.2.refs, (taggedDirectory "posts").contains target = true) →
      ∀ (s : Surroundings) (dir' : Directory) (data : Document) (label : String) (raw : Option Json),
        s.directory = taggedDirectory "posts" → (taggedDirectory "posts").Extends dir' →
        entry.2.coerce s data label raw =
          entry.2.coerce { s with directory := dir' } data label raw :=
  have hbuild : build inMemory [taggedPosts "posts"] = .ok (taggedDirectory "posts") :=
    build_eq_ok_iff.mpr ⟨rfl, List.mergeSort_nil⟩
  ⟨hbuild, build_closed_iff hbuild⟩

/-- A directory can be built although a list refers to an entity that is not registered. -/
theorem not_closed_of_build :
    ¬ ∀ (handleFor : Definition → Option Handle) (ds : List Definition) (dir : Directory),
        build handleFor ds = .ok dir → dir.Closed := by
  intro hall
  have hclosed := hall inMemory [taggedPosts "ghosts"] (taggedDirectory "ghosts")
    (build_eq_ok_iff.mpr ⟨rfl, List.mergeSort_nil⟩)
  have htags : ("tags", Attribute.ofKind (.list (.ofKind (.ref "ghosts")) none)) ∈
      (taggedPosts "ghosts").complete.attributes.entries := Dict.mem_of_get?_eq_some rfl
  have hposts : (taggedDirectory "ghosts").get "posts" =
      .ok ⟨(taggedPosts "ghosts").complete, inMemory (taggedPosts "ghosts")⟩ := rfl
  have hghosts := hclosed.refs hposts _ htags "ghosts" List.mem_cons_self
  have hunknown : (taggedDirectory "ghosts").contains "ghosts" = false := by decide
  rw [hunknown] at hghosts
  cases hghosts

end Directory

end Curator
