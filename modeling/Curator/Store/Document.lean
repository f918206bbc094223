/-
What all stores do with documents: filter them, merge and increment their fields, and compare the
fields that must be distinct.
-/
import Curator.Failure

namespace Curator

/-- The field that holds a document's id. -/
def idField : String := "id"

namespace Document

/-- The id of a document, if it has one that is a string. -/
def id? (d : Document) : Option String := (d.get? idField).bind Json.string?

/-- Whether a document has a given id. -/
def hasId (id : String) (d : Document) : Bool := d.id? == some id

/-- The value of a field; a missing one counts as null. -/
def value (d : Document) (name : String) : Json := (d.get? name).getD .null

/-- Whether a document agrees with every field of a filter. -/
def matchesFilter (d filter : Document) : Bool :=
  filter.all fun e => (d.value e.1).agrees e.2

/-- The fields of a partial document written over a document.  The id is never overwritten. -/
def update (d fields : Document) : Document :=
  d.merge (fields.filter fun e => e.1 != idField)

/-- Adds numbers to fields in turn; a field that is no number starts at zero, and a sum too large for
a number is null.  The first delta that is no number ends it, and the sums before it remain. -/
def increment (d : Document) : List (String × Json) → Except Failure Unit × Document
  | [] => (.ok (), d)
  | (name, delta) :: rest =>
    match delta.double? with
    | none => (.error ⟨.badRequest, name ++ " increment must be a number"⟩, d)
    | some x =>
      let current := ((d.get? name).bind Json.double?).getD (Double.zero false)
      increment (d.set name (Json.ofDouble? (current.add? x))) rest

/-- Whether two documents hold the same id, or both none. -/
def sameId (d other : Document) : Bool :=
  match d.get? idField, other.get? idField with
  | some a, some b => a.same b
  | none, none => true
  | _, _ => false

/-- Whether two documents collide in a field: both have it, and the values agree and are not null. -/
def collides (d other : Document) (field : String) : Bool :=
  match d.get? field, other.get? field with
  | some a, some b => !a.isNull && a.agrees b
  | _, _ => false

/-- The first field in which a document collides with another one of a different id. -/
def collision? (unique : List String) (d : Document) (others : List Document) : Option String :=
  others.findSome? fun other =>
    if sameId other d then none else unique.find? (collides d other)

/-- Fails when a document collides with another one. -/
def checkUnique (unique : List String) (d : Document) (others : List Document) :
    Except Failure Unit :=
  match collision? unique d others with
  | some field => .error (.alreadyExists field)
  | none => .ok ()

end Document

end Curator
