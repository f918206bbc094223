/-
The written form of entity definitions, and of the hooks, joins and indexes in them.

Conditions, hooks and queries hold values of any kind; as in attributes, `meaning` says what these
stand for.
-/
import Curator.Schema.AttributeForm
import Curator.Schema.Definition

namespace Curator

namespace Condition

/-- What is wanted of a condition. -/
def outline : Outline := Record.outline ["left", "right", "comparator"]

def readWith? (meaning : Json → Option Json) (v : Json) : Option Condition := do
  let r ← Record.ofJson? v
  guard (r.fits 3)
  let left ← r.required 0 "left" meaning
  let right ← r.required 1 "right" meaning
  let comparator ← r.required 2 "comparator" (Vocabulary.read? Comparator.all Comparator.word)
  return ⟨left, right, comparator⟩

def toJson (c : Condition) : Json :=
  .object [("left", c.left), ("right", c.right), ("comparator", .string c.comparator.word)]

end Condition

namespace Hook

/-- What is wanted of a hook: all of its fields, since its effect may need any of them. -/
def outline : Outline := .record true [("condition", Condition.outline)]

def readWith? (meaning : Json → Option Json) : Json → Option Hook
  | .object fields => do
    let r := Record.named fields
    let condition ← r.optional 0 "condition" (Condition.readWith? meaning)
    let effect ← r.required 0 "action" (Vocabulary.selector? Effect.all Effect.word)
    let target ← r.required 0 "target" Json.string?
    let value ← r.required 0 "value" meaning
    return ⟨condition, effect, target, value⟩
  | _ => none

def toJson (h : Hook) : Json :=
  .object (Dict.ofOption "condition" (h.condition.map Condition.toJson) ++
    [("action", .string h.effect.word), ("target", .string h.target), ("value", h.value)])

end Hook

namespace Join

/-- What is wanted of a join. -/
def outline : Outline := Record.outline ["type", "entity", "query"]

/-- A query is an object of any values. -/
def readQuery (meaning : Json → Option Json) : Json → Option Document
  | .object fields =>
    (fields.mapM fun e => (meaning e.2).map fun v => (e.1, v)).map Dict.ofList
  | _ => none

def readWith? (meaning : Json → Option Json) (v : Json) : Option Join := do
  let r ← Record.ofJson? v
  guard (r.fits 3)
  let type ← r.required 0 "type" (Vocabulary.read? JoinType.all JoinType.word)
  let entity ← r.required 1 "entity" Json.string?
  let query ← r.orElse 2 "query" [] (readQuery meaning)
  return ⟨type, entity, query⟩

/-- The join that a value writes. -/
def read? (v : Json) : Option Join := readWith? some v

def toJson (j : Join) : Json :=
  .object [("type", .string j.type.word), ("entity", .string j.entity), ("query", .object j.query)]

end Join

namespace Index

/-- What is wanted of an index. -/
def outline : Outline := Record.outline ["fields", "unique"]

def read? (v : Json) : Option Index := do
  let r ← Record.ofJson? v
  guard (r.fits 2)
  let fields ← r.required 0 "fields" Json.strings?
  let unique ← r.orElse 1 "unique" false Json.bool?
  return ⟨fields, unique⟩

def toJson (i : Index) : Json :=
  .object [("fields", .array (i.fields.map .string)), ("unique", .bool i.unique)]

end Index

namespace Definition

/-- Entries of an object whose values are all read the same way. -/
def readEntries {α : Type} (read : Json → Option α) : Json → Option (NameMap α)
  | .object fields =>
    (fields.mapM fun e => (read e.2).map fun a => (e.1, a)).map NameMap.ofList
  | _ => none

/-- A list whose items are all read the same way. -/
def readList {α : Type} (read : Json → Option α) : Json → Option (List α)
  | .array items => items.mapM read
  | _ => none

/-- The hooks of one lifecycle point. -/
def readHookEntry (meaning : Json → Option Json) (e : String × Json) :
    Option (Lifecycle × List Hook) := do
  let l ← Vocabulary.find? Lifecycle.all Lifecycle.word e.1
  let hooks ← readList (Hook.readWith? meaning) e.2
  return (l, hooks)

/-- The hooks of all lifecycle points; of a repeated point the last. -/
def readHooks (meaning : Json → Option Json) : Json → Option (Lifecycle → Option (List Hook))
  | .object fields =>
    (fields.mapM (readHookEntry meaning)).map fun entries l =>
      (entries.reverse.find? fun e => e.1 == l).map (·.2)
  | _ => none

/-- What is wanted of a definition. -/
def outline : Outline :=
  .record false
    [("entityName", .full), ("collectionName", .full), ("entitySingularName", .full),
      ("apiKey", .full), ("permissions", Permissions.outline),
      ("attributes", .values Attribute.outline), ("joinAttributes", .values Join.outline),
      ("indexes", .items Index.outline), ("hooks", .values (.items Hook.outline))]

/-- The definition that a form writes. -/
def readWith? (meaning : Json → Option Json) (v : Json) : Option Definition := do
  let r ← Record.ofJson? v
  guard (r.fits 9)
  let name ← r.required 0 "entityName" Json.string?
  let collection ← r.required 1 "collectionName" Json.string?
  let singular ← r.orElse 2 "entitySingularName" "" Json.string?
  let apiKey ← r.orElse 3 "apiKey" "" Json.string?
  let permissions ← r.optional 4 "permissions" Permissions.read?
  let attributes ← r.orElse 5 "attributes" .empty (readEntries (Attribute.readWith? meaning))
  let joins ← r.orElse 6 "joinAttributes" .empty (readEntries (Join.readWith? meaning))
  let indexes ← r.orElse 7 "indexes" [] (readList Index.read?)
  let hooks ← r.orElse 8 "hooks" (fun _ => none) (readHooks meaning)
  return ⟨name, collection, singular, apiKey, permissions, attributes, joins, indexes, hooks⟩

/-- The definition that a value writes. -/
def read? (v : Json) : Option Definition := readWith? some v

/-- The written form of the hooks, one entry for each lifecycle point that has a list. -/
def hooksToJson (hooks : Lifecycle → Option (List Hook)) : Json :=
  .object (Lifecycle.all.flatMap fun l =>
    Dict.ofOption l.word ((hooks l).map fun hs => .array (hs.map Hook.toJson)))

/-- The written form of a definition. -/
def toJson (d : Definition) : Json :=
  .object ([("entityName", .string d.name), ("collectionName", .string d.collection),
      ("entitySingularName", .string d.singular), ("apiKey", .string d.apiKey)] ++
    (Dict.ofOption "permissions" (d.permissions.map Permissions.toJson) ++
      [("attributes", .object (Dict.mapValues Attribute.toJson d.attributes.entries)),
        ("joinAttributes", .object (Dict.mapValues Join.toJson d.joins.entries)),
        ("indexes", .array (d.indexes.map Index.toJson)),
        ("hooks", hooksToJson d.hooks)]))

end Definition

end Curator
