/-
What registering a definition does to a directory and to the definition.

A definition is registered under its name and under no other, so whatever else is looked up is answered as
before, and a definition that is refused leaves the directory as it was.  `Definition.Completes` says what
may become of the definition itself: what it declares stays, and of the managed fields those get attributes
that have none, which follow the entity's rule for reading and let nobody write.  Each field is filled in
only where nothing is declared, and the singular is derived from the name, which stays.  So a completed
definition has nothing left to complete (`Definition.complete_complete`).
-/
import Curator.Directory
import Curator.Proofs.Dict

namespace Curator

namespace NameMap

variable {α : Type}

/-- A new entry is found where there was none. -/
theorem get?_insertNew (m : NameMap α) (name other : String) (a : α) :
    (m.insertNew name a).get? other =
      (m.get? other).or (if other = name then some a else none) := by
  have hhas : Dict.has m.entries name = (m.get? name).isSome := Dict.has_eq_isSome_get? _ name
  unfold insertNew
  rw [hhas]
  by_cases hname : other = name
  · rw [hname]
    cases hfound : m.get? name with
    | none => simp
    | some b => simp [hfound]
  · have hne : name ≠ other := fun h => hname h.symm
    cases hfound : m.get? name with
    | none => simp [get?_insert_of_ne m a hne, hname]
    | some b => simp [hname]

theorem insertNew_of_get? {m : NameMap α} {name : String} {b : α} (h : m.get? name = some b)
    (a : α) : m.insertNew name a = m := by
  have hhas : Dict.has m.entries name = (m.get? name).isSome := Dict.has_eq_isSome_get? _ name
  rw [h] at hhas
  rw [insertNew, hhas]
  rfl

end NameMap

/-! ### Completed definitions -/

theorem isManaged_iff {field : String} :
    isManaged field = true ↔
      field = idField ∨ field = createdAtField ∨ field = updatedAtField := by
  simp [isManaged, or_assoc]

/-- The kind of values that a managed field has unless it is declared. -/
def managedKind (field : String) : Kind := if field = idField then .id else .number none none

namespace Definition

/-- What a definition says is kept, and nothing is added to it but attributes for the managed fields that
have none: readable as the entity is, and writable by nobody. -/
structure Completes (d completed : Definition) : Prop where
  name : completed.name = d.name
  collection : completed.collection = d.collection
  permissions : completed.permissions = d.permissions
  joins : completed.joins = d.joins
  indexes : completed.indexes = d.indexes
  hooks : completed.hooks = d.hooks
  declared : ∀ field a, d.attributes.get? field = some a → completed.attributes.get? field = some a
  fields : ∀ field, (completed.attributes.get? field).isSome = true ↔
    (d.attributes.get? field).isSome = true ∨ isManaged field = true
  added : ∀ field a, d.attributes.get? field = none → completed.attributes.get? field = some a →
    a.kind = managedKind field ∧ ∃ p, a.permissions = some p ∧ ∀ caller,
      p.allows .create caller = false ∧ p.allows .update caller = false ∧
        p.allows .get caller = allowed d.permissions .get caller

/-- A completed definition describes what was declared, and the managed fields that were not. -/
theorem get?_complete (d : Definition) (field : String) :
    d.complete.attributes.get? field = (d.attributes.get? field).or
      (if isManaged field = true then some (d.managedAttribute (managedKind field)) else none) := by
  have hid : idField ≠ createdAtField ∧ idField ≠ updatedAtField := by decide
  have htimes : createdAtField ≠ updatedAtField := by decide
  unfold complete
  simp only [NameMap.get?_insertNew, Option.or_assoc, isManaged_iff, managedKind]
  congr 1
  by_cases hfield : field = idField
  · simp [hfield]
  · by_cases hcreated : field = createdAtField
    · simp [hcreated, hid.1.symm]
    · simp [hfield, hcreated]

/-- Nobody writes a managed field, and whoever may read the entity reads it. -/
theorem managedPermissions_allows (d : Definition) (caller : Option String) :
    d.managedPermissions.allows .create caller = false ∧
    d.managedPermissions.allows .update caller = false ∧
    d.managedPermissions.allows .get caller = allowed d.permissions .get caller := by
  refine ⟨rfl, rfl, ?_⟩
  cases hp : d.permissions with
  | none => simp [managedPermissions, Permissions.allows, Permissions.rule?, allowed, hp]
  | some p => simp [managedPermissions, Permissions.allows, Permissions.rule?, allowed, hp]

theorem completes_complete (d : Definition) : d.Completes d.complete where
  name := rfl
  collection := rfl
  permissions := rfl
  joins := rfl
  indexes := rfl
  hooks := rfl
  declared := by
    intro field a h
    rw [get?_complete, h]
    rfl
  fields := by
    intro field
    rw [get?_complete]
    by_cases hmanaged : isManaged field = true
    · simp [hmanaged]
    · simp [hmanaged]
  added := by
    intro field a hnone hadded
    rw [get?_complete, hnone, Option.none_or] at hadded
    by_cases hmanaged : isManaged field = true
    · rw [if_pos hmanaged] at hadded
      cases hadded
      exact ⟨rfl, d.managedPermissions, rfl, d.managedPermissions_allows⟩
    · rw [if_neg hmanaged] at hadded
      cases hadded

/-- A completed definition is complete. -/
theorem complete_complete (d : Definition) : d.complete.complete = d.complete := by
  have hfield : ∀ field, isManaged field = true → ∃ a, d.complete.attributes.get? field = some a :=
    fun field h => Option.isSome_iff_exists.mp ((d.completes_complete.fields field).mpr (Or.inr h))
  obtain ⟨a, ha⟩ := hfield idField (by decide)
  obtain ⟨b, hb⟩ := hfield createdAtField (by decide)
  obtain ⟨c, hc⟩ := hfield updatedAtField (by decide)
  have hkey : (if d.complete.apiKey.isEmpty then idField else d.complete.apiKey) =
      d.complete.apiKey := by
    by_cases hempty : d.apiKey.isEmpty = true
    · have hdefault : d.complete.apiKey = idField := if_pos hempty
      rw [hdefault]
      rfl
    · have hown : d.complete.apiKey = d.apiKey := if_neg hempty
      rw [hown, if_neg hempty]
  show ({ d.complete with
    singular := d.complete.deriveSingular
    apiKey := if d.complete.apiKey.isEmpty then idField else d.complete.apiKey
    attributes := _ } : Definition) = d.complete
  rw [NameMap.insertNew_of_get? ha, NameMap.insertNew_of_get? hb, NameMap.insertNew_of_get? hc, hkey]
  rfl

end Definition

namespace Directory

/-! ### Looking up -/

theorem get_eq_ok_iff {dir : Directory} {name : String} {e : Entity} :
    dir.get name = .ok e ↔ dir.entities.get? name = some e := by
  unfold get
  cases dir.entities.get? name with
  | none => exact iff_of_false nofun nofun
  | some other => simp

theorem contains_iff {dir : Directory} {name : String} :
    dir.contains name = true ↔ ∃ e, dir.get name = .ok e := by
  rw [contains, Dict.has_eq_isSome_get?, Option.isSome_iff_exists]
  simp only [get_eq_ok_iff]

/-- Two directories answer the same when a name is looked up. -/
structure AgreeAt (dir dir' : Directory) (name : String) : Prop where
  get : dir'.get name = dir.get name
  contains : dir'.contains name = dir.contains name

theorem agreeAt_of_get {dir dir' : Directory} {name : String} (h : dir'.get name = dir.get name) :
    dir.AgreeAt dir' name where
  get := h
  contains := by rw [Bool.eq_iff_iff, contains_iff, contains_iff, h]

/-! ### Registering -/

/-- A definition with a name and a collection is registered under its name. -/
theorem register_of_named {dir : Directory} {d : Definition} (hname : isBlankText d.name = false)
    (hcollection : isBlankText d.collection = false) (handle? : Option Handle) :
    dir.register d handle? =
      (.ok ⟨d.complete, handle?⟩, ⟨dir.entities.set d.name ⟨d.complete, handle?⟩⟩) := by
  unfold register
  simp only [hname, hcollection, Bool.false_eq_true, if_false]
  rfl

/-- Only a definition without a name or a collection is refused, and it leaves the directory alone. -/
theorem register_of_not_named (dir : Directory) {d : Definition}
    (h : ¬ (isBlankText d.name = false ∧ isBlankText d.collection = false))
    (handle? : Option Handle) :
    (∃ f, (dir.register d handle?).1 = .error f) ∧ (dir.register d handle?).2 = dir := by
  unfold register
  by_cases hname : isBlankText d.name = true
  · rw [if_pos hname]
    exact ⟨⟨_, rfl⟩, rfl⟩
  · have hcollection : isBlankText d.collection = true :=
      Bool.not_eq_false _ ▸ fun hnone => h ⟨Bool.eq_false_iff.mpr hname, hnone⟩
    rw [if_neg hname, if_pos hcollection]
    exact ⟨⟨_, rfl⟩, rfl⟩

theorem register_eq_ok_iff {dir : Directory} {d : Definition} {handle? : Option Handle}
    {e : Entity} :
    (dir.register d handle?).1 = .ok e ↔
      (isBlankText d.name = false ∧ isBlankText d.collection = false) ∧
        e = ⟨d.complete, handle?⟩ := by
  by_cases hnamed : isBlankText d.name = false ∧ isBlankText d.collection = false
  · rw [register_of_named hnamed.1 hnamed.2]
    simp [hnamed, eq_comm]
  · obtain ⟨⟨f, hf⟩, -⟩ := register_of_not_named dir hnamed handle?
    rw [hf]
    exact iff_of_false nofun fun h => hnamed h.1

theorem get_register {dir : Directory} {d : Definition} {handle? : Option Handle} {e : Entity}
    (h : (dir.register d handle?).1 = .ok e) (name : String) :
    (dir.register d handle?).2.get name =
      if name = d.name then .ok ⟨d.complete, handle?⟩ else dir.get name := by
  obtain ⟨⟨hnamed, hcollection⟩, -⟩ := register_eq_ok_iff.mp h
  rw [register_of_named hnamed hcollection]
  by_cases hname : name = d.name
  · rw [if_pos hname, hname, get, Dict.get?_set_self]
  · rw [if_neg hname, get, Dict.get?_set_of_ne _ _ (Ne.symm hname), get]

/--
**A definition is registered under its name alone, and completed once and for all.**  It is refused if its
name or its collection is blank, and then the directory is left as it was, with all that is looked up in
it.  Otherwise its name leads to the completed definition with the store that was given, and every other
name is looked up as before.  The completed definition can be registered in any directory, with any store,
and comes out as it is.
-/
theorem register_completes (dir : Directory) (d : Definition) (handle? : Option Handle) :
    ((∃ e, (dir.register d handle?).1 = .ok e) ↔
      isBlankText d.name = false ∧ isBlankText d.collection = false) ∧
    (∀ f, (dir.register d handle?).1 = .error f →
      (dir.register d handle?).2 = dir ∧
      ∀ name, dir.AgreeAt (dir.register d handle?).2 name) ∧
    ∀ e, (dir.register d handle?).1 = .ok e →
      (∀ name, name ≠ d.name → dir.AgreeAt (dir.register d handle?).2 name) ∧
      (dir.register d handle?).2.get d.name = .ok e ∧ e.handle? = handle? ∧
      d.Completes e.definition ∧
      ∀ (other : Directory) (another? : Option Handle),
        (other.register e.definition another?).1 = .ok ⟨e.definition, another?⟩ := by
  refine ⟨⟨?_, ?_⟩, ?_, ?_⟩
  · rintro ⟨e, h⟩
    exact (register_eq_ok_iff.mp h).1
  · intro hnamed
    exact ⟨_, register_eq_ok_iff.mpr ⟨hnamed, rfl⟩⟩
  · intro f h
    have hrefused : ¬ (isBlankText d.name = false ∧ isBlankText d.collection = false) := by
      intro hnamed
      rw [register_of_named hnamed.1 hnamed.2] at h
      cases h
    obtain ⟨-, hsame⟩ := register_of_not_named dir hrefused handle?
    rw [hsame]
    exact ⟨rfl, fun name => agreeAt_of_get rfl⟩
  · intro e h
    obtain ⟨hnamed, rfl⟩ := register_eq_ok_iff.mp h
    have hget := get_register h
    refine ⟨?_, ?_, rfl, d.completes_complete, ?_⟩
    · intro name hname
      exact agreeAt_of_get ((hget name).trans (if_neg hname))
    · exact (hget d.name).trans (if_pos rfl)
    · intro other another?
      refine register_eq_ok_iff.mpr ⟨hnamed, ?_⟩
      rw [d.complete_complete]

/-- Staff that users may read, with an id of another kind than it would be given. -/
private def staff : Definition :=
  { Definition.ofNames "staff" "staff" with
    permissions := some (.uniform (.one .user))
    attributes := NameMap.empty.insert "id" (.ofKind (.string none none)) }

theorem register_completes_staff :
    ((∃ f, (empty.register (.ofNames "staff" " ") none).1 = .error f) ∧
      (empty.register (.ofNames "staff" " ") none).2 = empty) ∧
    ∃ e, (empty.register staff none).1 = .ok e ∧ (empty.register staff none).2.get "staff" = .ok e ∧
      staff.Completes e.definition ∧
      e.attribute? "id" = some (.ofKind (.string none none)) ∧
      ∀ a, e.attribute? "createdAt" = some a → ∃ p, a.permissions = some p ∧
        p.allows .get (some "7") = true ∧ p.allows .get none = false := by
  have hrefused : ∃ f, (empty.register (.ofNames "staff" " ") none).1 = .error f :=
    (register_of_not_named empty (by decide) none).1
  obtain ⟨f, hf⟩ := hrefused
  obtain ⟨-, hsame, -⟩ := register_completes empty (.ofNames "staff" " ") none
  obtain ⟨hregisters, -, hcompletes⟩ := register_completes empty staff none
  obtain ⟨e, h⟩ := hregisters.mpr (by decide)
  obtain ⟨-, hget, -, hstaff, -⟩ := hcompletes e h
  refine ⟨⟨⟨f, hf⟩, (hsame f hf).1⟩, e, h, hget, hstaff, hstaff.declared "id" _ rfl, ?_⟩
  intro a ha
  obtain ⟨-, p, hp, hallows⟩ := hstaff.added "createdAt" a rfl ha
  exact ⟨p, hp, (hallows (some "7")).2.2, (hallows none).2.2⟩

end Directory

end Curator
