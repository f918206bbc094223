/-
The directory of entities.

Registering a definition completes it: the fields that the service manages get attributes if none are
declared, the singular name is derived, and the key field defaults to the id.  An entity registered
again replaces the former one.  Whether references and joins lead to registered entities is checked
once all are registered.
-/
import Curator.Schema.Definition
import Curator.Store.Handle
import Curator.Text.Singular
import Curator.Text.Words

namespace Curator

/-- The field that holds the time of a document's creation. -/
def createdAtField : String := "createdAt"

/-- The field that holds the time of a document's last change. -/
def updatedAtField : String := "updatedAt"

/-- Whether the service itself writes a field. -/
def isManaged (name : String) : Bool :=
  name == idField || name == createdAtField || name == updatedAtField

/-- A registered entity, with a store if it has one. -/
structure Entity where
  definition : Definition
  handle? : Option Handle

namespace Entity

def name (e : Entity) : String := e.definition.name

/-- The store, which any reading or writing needs. -/
def store (e : Entity) : Except Failure Handle :=
  match e.handle? with
  | some h => .ok h
  | none => .error (.noStore e.name)

/-- The attribute of a field. -/
def attribute? (e : Entity) (field : String) : Option Attribute := e.definition.attributes.get? field

end Entity

namespace Definition

/-- Permissions of managed fields: readable as the entity is, writable by nobody. -/
def managedPermissions (d : Definition) : Permissions :=
  ⟨d.permissions.bind (·.get), some (.one .system), some (.one .system), none⟩

/-- An attribute of a managed field. -/
def managedAttribute (d : Definition) (kind : Kind) : Attribute :=
  { Attribute.ofKind kind with permissions := some d.managedPermissions }

/-- The singular of the entity's name; a name that is singular already is marked as one item. -/
def deriveSingular (d : Definition) : String :=
  match Text.singular? d.name with
  | some s => s
  | none => d.name ++ "Item"

/-- The definition with everything filled in that may be left out. -/
def complete (d : Definition) : Definition :=
  { d with
    singular := d.deriveSingular
    apiKey := if d.apiKey.isEmpty then idField else d.apiKey
    attributes :=
      ((d.attributes.insertNew idField (d.managedAttribute .id)).insertNew createdAtField
        (d.managedAttribute (.number none none))).insertNew updatedAtField
          (d.managedAttribute (.number none none)) }

end Definition

/-- The registered entities by name. -/
structure Directory where
  entities : Dict Entity

namespace Directory

/-- The directory without entities. -/
def empty : Directory := ⟨[]⟩

/-- Whether a text has no characters but blanks. -/
def isBlankText (s : String) : Bool := (Text.trimChars s.toList).isEmpty

/-- Registers a definition with a store if it has one: the completed entity, or why it is refused, and
the directory afterwards. -/
def register (dir : Directory) (d : Definition) (handle? : Option Handle) :
    Except Failure Entity × Directory :=
  if isBlankText d.name then (.error ⟨.configuration, "entityName is required"⟩, dir)
  else if isBlankText d.collection then
    (.error ⟨.configuration, "collectionName is required for " ++ d.name⟩, dir)
  else
    let e : Entity := ⟨d.complete, handle?⟩
    (.ok e, ⟨dir.entities.set e.name e⟩)

/-- The entity of a name. -/
def get (dir : Directory) (name : String) : Except Failure Entity :=
  match dir.entities.get? name with
  | some e => .ok e
  | none => .error (.unknownEntity name)

/-- Whether there is an entity of a name. -/
def contains (dir : Directory) (name : String) : Bool := dir.entities.has name

/-- The references of one entity that lead nowhere. -/
def danglingRefs (dir : Directory) (e : Entity) : List String :=
  e.definition.attributes.entries.filterMap fun (field, a) =>
    match a.kind with
    | .ref target =>
      if dir.contains target then none
      else
        some ("Entity " ++ e.name ++ " has ref '" ++ field ++ "' pointing to undefined entity " ++
          target)
    | _ => none

/-- The joins of one entity that lead nowhere. -/
def danglingJoins (dir : Directory) (e : Entity) : List String :=
  e.definition.joins.entries.filterMap fun (field, j) =>
    if dir.contains j.entity then none
    else
      some ("Entity " ++ e.name ++ " has join '" ++ field ++ "' pointing to undefined entity " ++
        j.entity)

/-- Everything that leads to an entity that is not registered, in the order of the texts. -/
def problems (dir : Directory) : List String :=
  (dir.entities.flatMap fun (_, e) => dir.danglingRefs e ++ dir.danglingJoins e).mergeSort
    fun a b => decide (a ≤ b)

/-- Registers definitions in turn, each with the store that `handleFor` gives it; the first that is
refused ends it. -/
def registerAll (handleFor : Definition → Option Handle) :
    List Definition → Directory → Except Failure Directory
  | [], dir => .ok dir
  | d :: ds, dir =>
    match dir.register d (handleFor d) with
    | (.error e, _) => .error e
    | (.ok _, dir) => registerAll handleFor ds dir

/-- The directory of some definitions, all of whose references and joins lead somewhere. -/
def build (handleFor : Definition → Option Handle) (ds : List Definition) :
    Except Failure Directory :=
  match registerAll handleFor ds empty with
  | .error e => .error e
  | .ok dir =>
    match dir.problems with
    | [] => .ok dir
    | ps => .error ⟨.configuration, Text.join "; " ps⟩

end Directory

end Curator
