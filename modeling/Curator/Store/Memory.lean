/-
Collections held in memory: a list of documents in the order of their insertion.

Documents are found by the id they hold.  An insertion refuses a known id before it looks for
collisions; an increment looks for none, and when it fails half way the sums before the failure
remain.
-/
import Curator.Store.Document

namespace Curator.Memory

/-- Puts a document in the place of the first one of a given id. -/
def replace (id : String) (new : Document) : List Document → List Document
  | [] => []
  | d :: ds => if d.hasId id then new :: ds else d :: replace id new ds

/-- The document of an id. -/
def findById (id : String) (docs : List Document) : Option Document := docs.find? (Document.hasId id)

/-- Adds a document under an id. -/
def insert (unique : List String) (id : String) (d : Document) (docs : List Document) :
    Except Failure Document × List Document :=
  if docs.any (Document.hasId id) then (.error (.alreadyExists idField), docs)
  else
    let new := d.set idField (.string id)
    match Document.checkUnique unique new docs with
    | .error e => (.error e, docs)
    | .ok _ => (.ok new, docs ++ [new])

/-- Writes fields over the document of an id; answers whether there is one. -/
def update (unique : List String) (id : String) (fields : Document) (docs : List Document) :
    Except Failure Bool × List Document :=
  match findById id docs with
  | none => (.ok false, docs)
  | some d =>
    let new := Document.update d fields
    match Document.checkUnique unique new docs with
    | .error e => (.error e, docs)
    | .ok _ => (.ok true, replace id new docs)

/-- Adds to fields of the document of an id; answers whether there is one. -/
def increment (id : String) (deltas : Document) (docs : List Document) :
    Except Failure Bool × List Document :=
  match findById id docs with
  | none => (.ok false, docs)
  | some d =>
    let (result, new) := Document.increment d deltas
    (result.map fun _ => true, replace id new docs)

/-- Removes the document of an id; answers whether there was one. -/
def delete (id : String) (docs : List Document) : Bool × List Document :=
  let rest := docs.filter fun d => !d.hasId id
  (rest.length != docs.length, rest)

end Curator.Memory
