/-
The written form of attributes.

An attribute is an object: the word for its kind, the fields of that kind, and what all attributes
may declare.  The fields of lists and maps are attributes again; `parts` pairs every field of an
object with the attribute it writes, if it writes one, so that reading follows the value.

A default is a value of any kind.  What the values in a form stand for is given to the readers as
`meaning`; in a form that is a value itself they stand for themselves.
-/
import Curator.Schema.Attribute

namespace Curator

/-- A field as written, and the attribute it writes if it writes one. -/
abbrev Part := Json × Option Attribute

/-- Whole numbers that count something. -/
def count? (v : Json) : Option Nat := v.natBelow? (2 ^ 64)

namespace Affix

def read? (v : Json) : Option Affix := do
  let r ← Record.ofJson? v
  guard (r.fits 2)
  let _ ← r.required 0 "type" (Vocabulary.selector? [()] fun _ => "random")
  let chars ← r.required 1 "chars" count?
  return ⟨chars⟩

def toJson (a : Affix) : Json := .object [("type", .string "random"), ("chars", .ofNat a.chars)]

end Affix

namespace Hashing

def read? (v : Json) : Option Hashing := do
  let r ← Record.ofJson? v
  guard (r.fits 2)
  let _ ← r.required 0 "algorithm" (Vocabulary.inner? [()] fun _ => "bcrypt")
  let rounds ← r.optional 1 "salt_rounds" (Json.natBelow? (2 ^ 32))
  return ⟨rounds⟩

def toJson (h : Hashing) : Json :=
  .object (("algorithm", .string "bcrypt") :: Dict.ofOption "salt_rounds" (h.rounds.map Json.ofNat))

end Hashing

namespace Bound

def read? (v : Json) : Option Bound := v.double?.map finite

/-- The written form of a bound, which is null if the bound is not finite. -/
def toJson : Bound → Json
  | finite x => .number (.real x)
  | _ => .null

end Bound

/-- A field of an attribute that may be missing or null. -/
def optionalPart {β : Type} (r : Record Part) (place : Nat) (name : String)
    (read : Json → Option β) : Option (Option β) :=
  r.orElse place name none fun p => if p.1.isNull then some none else (read p.1).map some

/-- The kind that the parts of a record write, where `select` reads the word for it. -/
def Kind.ofRecord? (select : Json → Option KindName) (r : Record Part) : Option Kind := do
  let name ← r.required 0 "type" fun p => select p.1
  match name with
  | .boolean =>
    guard (r.fits 1)
    return .boolean
  | .email =>
    guard (r.fits 1)
    return .email
  | .enum =>
    guard (r.fits 2)
    let values ← r.required 1 "values" fun p => p.1.strings?
    return .enum values
  | .id =>
    guard (r.fits 1)
    return .id
  | .list =>
    guard (r.fits 3)
    let item ← r.required 1 "listType" fun p => p.2
    let maxItems ← optionalPart r 2 "maxItems" count?
    return .list item maxItems
  | .map =>
    guard (r.fits 3)
    let key ← r.required 1 "keyType" fun p => p.2
    let value ← r.required 2 "valueType" fun p => p.2
    return .map key value
  | .number =>
    guard (r.fits 3)
    let min ← optionalPart r 1 "min" Bound.read?
    let max ← optionalPart r 2 "max" Bound.read?
    return .number min max
  | .ref =>
    guard (r.fits 2)
    let entity ← r.required 1 "entity" fun p => p.1.string?
    return .ref entity
  | .slug =>
    guard (r.fits 4)
    let source ← r.required 1 "setFrom" fun p => p.1.string?
    let before ← optionalPart r 2 "prefix" Affix.read?
    let after ← optionalPart r 3 "suffix" Affix.read?
    return .slug source before after
  | .string =>
    guard (r.fits 3)
    let maxLength ← optionalPart r 1 "maxLength" count?
    let hash ← optionalPart r 2 "hash" Hashing.read?
    return .string maxLength hash
  | .user =>
    guard (r.fits 1)
    return .user

/-- A default that is written as null is none. -/
def readDefault (meaning : Json → Option Json) (p : Part) : Option (Option Json) :=
  if p.1.isNull then some none else (meaning p.1).map some

/-- The attribute that named parts write. -/
def Attribute.ofParts? (meaning : Json → Option Json) (parts : List (String × Part)) :
    Option Attribute := do
  let r := Record.named parts
  let kind ← Kind.ofRecord? (Vocabulary.selector? KindName.all KindName.word) r
  let required ← r.orElse 0 "required" false fun p => p.1.bool?
  let unique ← r.orElse 0 "unique" false fun p => p.1.bool?
  let default ← r.orElse 0 "default" none (readDefault meaning)
  let permissions ← optionalPart r 0 "permissions" Permissions.read?
  return ⟨kind, required, unique, default, permissions⟩

/-- What is wanted of an attribute: all of its fields, since its kind may need any of them. -/
def Attribute.outline : Outline := .record true [("permissions", Permissions.outline)]

mutual

/-- The attribute that a form writes. -/
def Attribute.readWith? (meaning : Json → Option Json) : Json → Option Attribute
  | .object fields => Attribute.ofParts? meaning (parts meaning fields)
  | _ => none

/-- The fields of an object, each with the attribute it writes. -/
def parts (meaning : Json → Option Json) : List (String × Json) → List (String × Part)
  | [] => []
  | (name, v) :: rest => (name, (v, Attribute.readWith? meaning v)) :: parts meaning rest

end

/-- The attribute that a value writes. -/
def Attribute.read? (v : Json) : Option Attribute := Attribute.readWith? some v

/-- The kind with a given word. -/
def KindName.read? (v : Json) : Option KindName :=
  v.string?.bind (Vocabulary.find? KindName.all KindName.word)

/-- The kind that a value writes by itself: as an object, or as a word and the fields in order.  Its
word is always written out. -/
def Kind.read? : Json → Option Kind
  | .object fields => Kind.ofRecord? KindName.read? (.named (parts some fields))
  | .array values =>
    Kind.ofRecord? KindName.read? (.listed (values.map fun v => (v, Attribute.read? v)))
  | _ => none

mutual

/-- The fields that a kind writes. -/
def Kind.fields : Kind → List (String × Json)
  | .boolean => []
  | .email => []
  | .enum values => [("values", .array (values.map .string))]
  | .id => []
  | .list item maxItems =>
    ("listType", item.toJson) :: Dict.ofOption "maxItems" (maxItems.map Json.ofNat)
  | .map key value => [("keyType", key.toJson), ("valueType", value.toJson)]
  | .number min max =>
    Dict.ofOption "min" (min.map Bound.toJson) ++ Dict.ofOption "max" (max.map Bound.toJson)
  | .ref entity => [("entity", .string entity)]
  | .slug source before after =>
    ("setFrom", .string source) ::
      (Dict.ofOption "prefix" (before.map Affix.toJson) ++
        Dict.ofOption "suffix" (after.map Affix.toJson))
  | .string maxLength hash =>
    Dict.ofOption "maxLength" (maxLength.map Json.ofNat) ++
      Dict.ofOption "hash" (hash.map Hashing.toJson)
  | .user => []

/-- The written form of an attribute. -/
def Attribute.toJson : Attribute → Json
  | ⟨kind, required, unique, default, permissions⟩ =>
    .object (("type", .string kind.name.word) :: (kind.fields ++
      ([("required", .bool required), ("unique", .bool unique)] ++
        (Dict.ofOption "default" default ++
          Dict.ofOption "permissions" (permissions.map Permissions.toJson)))))

end

end Curator
