/-
What a caller gets to see of documents.

A stored document is cut down to the declared attributes that the caller may read.  When it is shown,
the joins of its entity are looked up with the whole stored document at hand, and each joined document
is cut down by the attributes of its own entity.
-/
import Curator.Joins
import Curator.Service.Basic
import Curator.Store.Identifier

namespace Curator

namespace Entity

/-- Whether a caller may read a field: it is declared, and its own permissions do not forbid it. -/
def shows (e : Entity) (caller : Option String) (field : String) : Bool :=
  match e.attribute? field with
  | some a => fieldAllowed a.permissions .get caller
  | none => false

/-- The fields of a document that a caller may read. -/
def visible (e : Entity) (caller : Option String) (d : Document) : Document :=
  d.filter fun field => e.shows caller field.1

/-- The failure to find a document of an entity. -/
def documentNotFound (e : Entity) : Failure := .notFoundAs e.definition.singular

/-- The stored document of an id.  A text that is no id leads nowhere. -/
def load (e : Entity) (id : String) (stores : Stores) : Except Failure Document :=
  if isValidId id then do
    let h ← e.store
    match ← h.findById? id stores with
    | some d => return d
    | none => throw e.documentNotFound
  else .error e.documentNotFound

/-- Fails unless the entity's own permissions allow a caller an action. -/
def ensureAllowed (e : Entity) (action : Action) (caller : Option String) : Except Failure Unit :=
  if allowed e.definition.permissions action caller then .ok ()
  else .error ⟨.forbidden, "not allowed to " ++ action.word ++ " " ++ e.name⟩

/-- The fields of an input that a caller may write; unknown ones are dropped as well. -/
def writable (e : Entity) (action : Action) (caller : Option String) :
    Json → Except Failure Document
  | .object fields =>
    .ok (fields.filter fun field =>
      match e.attribute? field.1 with
      | some a => fieldAllowed a.permissions action caller
      | none => false)
  | _ => .error ⟨.badRequest, "request body must be a JSON object"⟩

end Entity

namespace Service

/-- Adds the finds of joins to a document, each as the caller may see it. -/
def addJoins (svc : Service) (stores : Stores) (model : Document) (caller : Option String) :
    List (String × Join) → Document → Except Failure Document
  | [], shown => .ok shown
  | (name, j) :: rest, shown =>
    match j.find svc.directory stores model caller with
    | .error f => .error f
    | .ok found =>
      match svc.directory.get j.entity with
      | .error f => .error f
      | .ok target =>
        svc.addJoins stores model caller rest
          (shown.set name (found.map (target.visible caller)).toJson)

/-- A stored document as a caller sees it, joins included. -/
def present (svc : Service) (e : Entity) (d : Document) (caller : Option String)
    (stores : Stores) : Except Failure Document :=
  svc.addJoins stores d caller e.definition.joins.entries (e.visible caller d)

end Service

end Curator
