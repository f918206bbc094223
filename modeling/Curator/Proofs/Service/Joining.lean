/-
What the joins of a shown document give away.

A shown document is the visible part of a stored one with the finds of its entity's joins set over
it, each cut down to what the joined entity shows the caller field by field.  `addJoins_spec` says so
of one document, and `Service.Shows` collects the documents that reading an entity answers with.

The cut goes by the permissions of the fields alone.  The rule that the joined entity has as a whole
is never asked, so a field without permissions of its own appears even to callers whom that rule keeps
from reading the entity directly.  `joined_fields_readable_iff` draws the line: the fields that appear
are all ones that the caller may read exactly when the entity's rule allows the caller, or when no
field appears at all.
-/
import Curator.Proofs.Serving
import Curator.Service.Operations

namespace Curator

namespace Json

/-- The documents in the value of a join. -/
def documents : Json → List Document
  | .object d => [d]
  | .array items => items.filterMap fun v =>
      match v with
      | .object d => some d
      | _ => none
  | _ => []

end Json

namespace Joined

/-- The joined documents. -/
def documents : Joined → List Document
  | one d => d.toList
  | many ds => ds

theorem documents_map (f : Document → Document) (found : Joined) :
    (found.map f).documents = found.documents.map f := by
  cases found with
  | one d => cases d <;> rfl
  | many ds => rfl

@[simp] theorem documents_toJson (found : Joined) : found.toJson.documents = found.documents := by
  cases found with
  | one d => cases d <;> rfl
  | many ds =>
      simp only [toJson, Json.documents, documents, List.filterMap_map]
      exact List.filterMap_some

end Joined

/-- The fields that appear in the documents joined under a name. -/
def joinedFields (shown : Document) (name : String) : List String :=
  match shown.get? name with
  | some v => v.documents.flatMap Dict.names
  | none => []

namespace Entity

/-- A caller may read a field: the entity as a whole may be read, and so may the field if it has
permissions of its own. -/
def MayRead (e : Entity) (caller : Option String) (field : String) : Prop :=
  allowed e.definition.permissions .get caller = true ∧
    ∀ a p, e.attribute? field = some a → a.permissions = some p → p.allows .get caller = true

/-- Of the fields that an entity shows, the caller may read those of an entity it may read. -/
theorem mayRead_iff_of_shows {e : Entity} {caller : Option String} {field : String}
    (h : e.shows caller field = true) :
    e.MayRead caller field ↔ allowed e.definition.permissions .get caller = true := by
  constructor
  · exact fun hr => hr.1
  · intro hall
    refine ⟨hall, fun a p ha hp => ?_⟩
    simpa [shows, ha, fieldAllowed, hp] using h

theorem shows_of_mem_names_visible {e : Entity} {caller : Option String} {d : Document}
    {field : String} (h : field ∈ Dict.names (e.visible caller d)) :
    e.shows caller field = true := by
  obtain ⟨entry, hentry, rfl⟩ := List.mem_map.mp h
  exact (List.mem_filter.mp hentry).2

end Entity

namespace Service

/-! ### The joins of one document -/

theorem addJoins_get?_of_not_mem {svc : Service} {stores : Stores} {model : Document}
    {caller : Option String} {name : String} :
    ∀ {joins : List (String × Join)} {base shown : Document},
      svc.addJoins stores model caller joins base = .ok shown → name ∉ Dict.names joins →
      shown.get? name = base.get? name := by
  intro joins
  induction joins with
  | nil =>
      intro base shown h _
      cases h
      rfl
  | cons nj rest ih =>
      intro base shown h hname
      simp only [Dict.names, List.map_cons, List.mem_cons, not_or] at hname
      rw [addJoins] at h
      split at h
      · cases h
      · split at h
        · cases h
        · rw [ih h hname.2, Dict.get?_set_of_ne _ _ (Ne.symm hname.1)]

/-- Under the name of a join stands what the joined entity shows of the documents it finds. -/
theorem addJoins_spec {svc : Service} {stores : Stores} {model : Document}
    {caller : Option String} :
    ∀ {joins : List (String × Join)} {base shown : Document},
      joins.Pairwise (fun a b => a.1 ≠ b.1) →
      svc.addJoins stores model caller joins base = .ok shown →
      ∀ nj ∈ joins, ∃ found target, nj.2.find svc.directory stores model caller = .ok found ∧
        svc.directory.get nj.2.entity = .ok target ∧
        shown.get? nj.1 = some (found.map (target.visible caller)).toJson := by
  intro joins
  induction joins with
  | nil =>
      intro base shown _ _ nj hnj
      cases hnj
  | cons head rest ih =>
      intro base shown hpair h nj hnj
      obtain ⟨hhead, hrest⟩ := List.pairwise_cons.mp hpair
      rw [addJoins] at h
      split at h
      · cases h
      · rename_i found hfound
        split at h
        · cases h
        · rename_i target htarget
          rcases List.mem_cons.mp hnj with rfl | hmem
          · -- No later join has the name, so its value stays.
            have hlater : nj.1 ∉ Dict.names rest := by
              intro hc
              obtain ⟨other, hother, heq⟩ := List.mem_map.mp hc
              exact hhead other hother heq.symm
            refine ⟨found, target, hfound, htarget, ?_⟩
            rw [addJoins_get?_of_not_mem h hlater, Dict.get?_set_self]
          · exact ih hrest h nj hmem

theorem present_join {svc : Service} {e : Entity} {d shown : Document} {caller : Option String}
    {stores : Stores} (h : svc.present e d caller stores = .ok shown) :
    ∀ nj ∈ e.definition.joins.entries, ∃ target, svc.directory.get nj.2.entity = .ok target ∧
      ∀ field ∈ joinedFields shown nj.1, target.shows caller field = true := by
  intro nj hnj
  have hdistinct : e.definition.joins.entries.Pairwise fun a b => a.1 ≠ b.1 :=
    e.definition.joins.sorted.imp fun hlt => Std.ne_of_lt hlt
  obtain ⟨found, target, -, htarget, hshown⟩ := addJoins_spec hdistinct h nj hnj
  refine ⟨target, htarget, fun field hfield => ?_⟩
  simp only [joinedFields, hshown, Joined.documents_toJson, Joined.documents_map] at hfield
  obtain ⟨shownDoc, hdoc, hname⟩ := List.mem_flatMap.mp hfield
  obtain ⟨stored, -, rfl⟩ := List.mem_map.mp hdoc
  exact Entity.shows_of_mem_names_visible hname

/-! ### Reading an entity -/

/-- A document is the answer of `get`, or one of the answers of `find`. -/
inductive Shows (svc : Service) (entity : String) (req : Request) (w : World)
    (shown : Document) : Prop
  | get (id : String) {w' : World}
      (h : Serving.runOn (svc.get entity id req) w = (.ok shown, w')) : Shows svc entity req w shown
  | find (query : Document) {docs : List Document} {w' : World}
      (h : Serving.runOn (svc.find entity query req) w = (.ok docs, w'))
      (hmem : shown ∈ docs) : Shows svc entity req w shown

theorem showOne_presents {svc : Service} {entity : String} {e : Entity} {d shown : Document}
    {req : Request} {w w' : World}
    (h : Serving.runOn (svc.showOne entity e d req) w = (.ok shown, w')) :
    ∃ stores, svc.present e d req.caller stores = .ok shown := by
  rw [showOne] at h
  obtain ⟨_, v, _, h⟩ := Serving.bind_eq_ok_iff.mp h
  obtain ⟨presented, _, hlook, h⟩ := Serving.bind_eq_ok_iff.mp h
  obtain ⟨_, _, _, h⟩ := Serving.bind_eq_ok_iff.mp h
  simp only [Serving.runOn_look, Serving.runOn_pure, Prod.mk.injEq, Except.ok.injEq] at hlook h
  exact ⟨v.stores, by rw [hlook.1, h.1]⟩

theorem showAll_presents {svc : Service} {entity : String} {e : Entity} {req : Request} :
    ∀ {ds shown : List Document} {w w' : World},
      Serving.runOn (svc.showAll entity e req ds) w = (.ok shown, w') →
      ∀ s ∈ shown, ∃ d stores, svc.present e d req.caller stores = .ok s := by
  intro ds
  induction ds with
  | nil =>
      intro shown w w' h s hs
      simp only [showAll, Serving.runOn_pure, Prod.mk.injEq, Except.ok.injEq] at h
      rw [← h.1] at hs
      cases hs
  | cons d ds ih =>
      intro shown w w' h s hs
      rw [showAll] at h
      obtain ⟨first, v, hfirst, h⟩ := Serving.bind_eq_ok_iff.mp h
      obtain ⟨rest, v', hrest, h⟩ := Serving.bind_eq_ok_iff.mp h
      simp only [Serving.runOn_pure, Prod.mk.injEq, Except.ok.injEq] at h
      rw [← h.1] at hs
      rcases List.mem_cons.mp hs with rfl | hs
      · exact ⟨d, showOne_presents hfirst⟩
      · exact ih hrest s hs

theorem Shows.presents {svc : Service} {entity : String} {e : Entity} {req : Request} {w : World}
    {shown : Document} (h : svc.Shows entity req w shown) (he : svc.directory.get entity = .ok e) :
    ∃ d stores, svc.present e d req.caller stores = .ok shown := by
  cases h with
  | get id h =>
      rw [Service.get, he, Serving.ofExcept_ok_bind] at h
      obtain ⟨_, _, _, h⟩ := Serving.bind_eq_ok_iff.mp h
      obtain ⟨d, _, _, h⟩ := Serving.bind_eq_ok_iff.mp h
      exact ⟨d, showOne_presents h⟩
  | find query h hmem =>
      rw [Service.find, he, Serving.ofExcept_ok_bind] at h
      obtain ⟨_, _, _, h⟩ := Serving.bind_eq_ok_iff.mp h
      obtain ⟨_, _, _, h⟩ := Serving.bind_eq_ok_iff.mp h
      obtain ⟨_, _, _, h⟩ := Serving.bind_eq_ok_iff.mp h
      obtain ⟨_, _, _, h⟩ := Serving.bind_eq_ok_iff.mp h
      exact showAll_presents h shown hmem

/--
**Which joined fields appear, and when the caller may read them.**  Every field that appears is a
declared one whose own permissions do not forbid it.  Since the rule of the joined entity is not
asked, the caller may read all of them exactly when that rule allows it, or when none appears.
-/
theorem joined_fields_readable_iff {svc : Service} {entity : String} {e : Entity} {req : Request}
    {w : World} {shown : Document} (he : svc.directory.get entity = .ok e)
    (h : svc.Shows entity req w shown) :
    ∀ nj ∈ e.definition.joins.entries, ∃ target, svc.directory.get nj.2.entity = .ok target ∧
      (∀ field ∈ joinedFields shown nj.1, target.shows req.caller field = true) ∧
      ((∀ field ∈ joinedFields shown nj.1, target.MayRead req.caller field) ↔
        allowed target.definition.permissions .get req.caller = true ∨
          joinedFields shown nj.1 = []) := by
  intro nj hnj
  obtain ⟨d, stores, hpresent⟩ := h.presents he
  obtain ⟨target, htarget, hshows⟩ := present_join hpresent nj hnj
  refine ⟨target, htarget, hshows, ?_⟩
  constructor
  · intro hread
    cases hfields : joinedFields shown nj.1 with
    | nil => exact Or.inr rfl
    | cons field rest =>
        have hmem : field ∈ joinedFields shown nj.1 := by simp [hfields]
        exact Or.inl (hread field hmem).1
  · rintro (hall | hnone) field hfield
    · exact (Entity.mayRead_iff_of_shows (hshows field hfield)).mpr hall
    · rw [hnone] at hfield
      cases hfield

/-! ### An entity that nobody may read, shown through a join -/

/-- Notes that nobody may read, with a text that has no permissions of its own. -/
private def closedNotes : Entity :=
  ⟨{ Definition.ofNames "notes" "notes" with
      permissions := some ⟨some (.one .nobody), none, none, none⟩
      attributes := NameMap.empty.insert "text" (.ofKind (.string none none)) },
    some ⟨.memory, "notes", []⟩⟩

/-- Posts that anyone may read, each joined to a note. -/
private def joinedPosts : Entity :=
  ⟨{ Definition.ofNames "posts" "posts" with
      permissions := some ⟨some (.one .anyone), none, none, none⟩
      joins := NameMap.empty.insert "note" ⟨.findOne, "notes", []⟩ },
    some ⟨.memory, "posts", []⟩⟩

private def noteService : Service :=
  ⟨⟨fun t _ => .ok t, fun n => String.ofList (List.replicate n 'x'), toString, .ok⟩,
    ⟨[("notes", closedNotes), ("posts", joinedPosts)]⟩, fun _ _ => none⟩

private def oneNote : World :=
  ⟨⟨[("notes", [[("text", .string "hidden"), ("id", .string "1")]]),
      ("posts", [[("id", .string "2")]])], [], 2⟩, []⟩

private def anonymous : Request := ⟨none, none, 0⟩

private theorem noteService_shows :
    noteService.Shows "posts" anonymous oneNote [("note", .object [("text", .string "hidden")])] :=
  @Shows.get _ _ _ _ _ "2" oneNote rfl

theorem joined_fields_readable_iff_note :
    noteService.directory.get "posts" = .ok joinedPosts ∧
    noteService.Shows "posts" anonymous oneNote [("note", .object [("text", .string "hidden")])] ∧
    ∀ nj ∈ joinedPosts.definition.joins.entries, ∃ target,
      noteService.directory.get nj.2.entity = .ok target ∧
      (∀ field ∈ joinedFields [("note", .object [("text", .string "hidden")])] nj.1,
        target.shows none field = true) ∧
      ((∀ field ∈ joinedFields [("note", .object [("text", .string "hidden")])] nj.1,
          target.MayRead none field) ↔
        allowed target.definition.permissions .get none = true ∨
          joinedFields [("note", .object [("text", .string "hidden")])] nj.1 = []) :=
  ⟨rfl, noteService_shows, @joined_fields_readable_iff _ _ _ anonymous _ _ rfl noteService_shows⟩

/-- Fields of a joined document do appear to callers who may not read its entity. -/
theorem joined_field_of_closed_entity :
    ¬ ∀ (svc : Service) (entity : String) (e : Entity) (req : Request) (w : World)
        (shown : Document), svc.directory.get entity = .ok e → svc.Shows entity req w shown →
        ∀ nj ∈ e.definition.joins.entries, ∀ target, svc.directory.get nj.2.entity = .ok target →
          ∀ field ∈ joinedFields shown nj.1, target.MayRead req.caller field := by
  intro h
  have hread := h noteService "posts" joinedPosts anonymous oneNote _ rfl noteService_shows
    ("note", ⟨.findOne, "notes", []⟩)
    (by simp [joinedPosts, NameMap.insert, NameMap.place, NameMap.empty])
    closedNotes rfl "text" (by simp [joinedFields, Dict.get?, Json.documents, Dict.names])
  exact absurd hread.1 (by decide)

end Service

end Curator
