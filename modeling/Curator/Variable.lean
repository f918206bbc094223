/-
Variables of templates and hook targets.

A path is `user.field`, `this.field` or `this.reference.field`: a field of the caller, of the document
at hand, or of the document that one of its references leads to.  A variable says which entity and
document its field belongs to, which attribute describes it, and its value if there is one.  The store
of another entity is only asked when there is an id to look for.
-/
import Curator.Conversion
import Curator.Directory

namespace Curator

/-- What a path is resolved against. -/
structure Scope where
  directory : Directory
  stores : Stores
  /-- The entity of the document at hand. -/
  entity : String
  /-- The document at hand. -/
  model : Document
  /-- The identity of the caller. -/
  caller : Option String

/-- A resolved path. -/
structure Variable where
  entity : String
  id : Option String
  key : String
  attr : Attribute
  value : Option Json

/-- Demands that a configured name means something. -/
def configured {α : Type} : Option α → Except Failure α
  | some a => .ok a
  | none => .error .invalidVariable

namespace Scope

/-- The value of a field of another document, if there is an id to look for. -/
def lookUp (s : Scope) (target : Entity) (id : Option String) (key : String) :
    Except Failure (Option Json) :=
  match id with
  | none => .ok none
  | some id => do
    let h ← target.store
    return (← h.findById? id s.stores).bind fun d => d.get? key

/-- A field of the caller.  The id is known without asking, and even without an entity of users. -/
def userVariable (s : Scope) (key : String) : Except Failure Variable :=
  let users := s.directory.get usersEntity
  if key = idField then
    let declared := users.toOption.bind fun u => u.attribute? idField
    .ok ⟨usersEntity, s.caller, key, declared.getD (.ofKind .id), s.caller.map .string⟩
  else do
    let users ← configured users.toOption
    let attr ← configured (users.attribute? key)
    let value ← s.lookUp users s.caller key
    return ⟨usersEntity, s.caller, key, attr, value⟩

/-- A field of the document at hand. -/
def ownVariable (s : Scope) (key : String) : Except Failure Variable := do
  let entity ← s.directory.get s.entity
  let attr ← configured (entity.attribute? key)
  return ⟨s.entity, (s.model.get? idField).bind scalarText?, key, attr, s.model.get? key⟩

/-- A field of the document that a reference leads to. -/
def referencedVariable (s : Scope) (reference key : String) : Except Failure Variable := do
  let entity ← s.directory.get s.entity
  let referring ← configured (entity.attribute? reference)
  let targetName ← configured referring.referenced?
  let target ← s.directory.get targetName
  let attr ← configured (target.attribute? key)
  let id := (s.model.get? reference).bind scalarText?
  let value ← s.lookUp target id key
  return ⟨targetName, id, key, attr, value⟩

/-- The variable of a path. -/
def variableAt (s : Scope) (path : String) : Except Failure Variable :=
  match Text.splitAt '.' path with
  | ["user", key] => s.userVariable key
  | ["this", key] => s.ownVariable key
  | ["this", reference, key] => s.referencedVariable reference key
  | _ => .error .invalidVariable

end Scope

end Curator
