/-
Collections kept as rows of one table.

A row holds the collection and the id it was inserted under, beside its document; documents are found
by these two, not by what the document says.  Documents are stored as text, so what is found is what
the text reads back as: `codec` says what that is, or why it cannot be read.  Such a row can still be
removed, but whoever comes across its document fails.  A change is made on a copy and written only when
it succeeds and collides with nothing.
-/
import Curator.Store.Document

namespace Curator

/-- A stored document with the collection and the id of its row. -/
structure Row where
  collection : String
  id : String
  /-- What the document reads back as. -/
  doc : Except Failure Document

namespace Table

/-- Whether a row is the one of a collection and an id. -/
def isAt (collection id : String) (r : Row) : Bool := r.collection == collection && r.id == id

/-- The documents of a collection, in the order of their insertion. -/
def documents (collection : String) (rows : List Row) : Except Failure (List Document) :=
  (rows.filter fun r => r.collection == collection).mapM (·.doc)

/-- The document of an id. -/
def findById (collection id : String) (rows : List Row) : Except Failure (Option Document) :=
  match rows.find? (isAt collection id) with
  | none => .ok none
  | some r => r.doc.map some

/-- Fails when a document collides with another one of its collection.  Only where fields must be
distinct, the others are looked at. -/
def checkUnique (collection : String) (unique : List String) (d : Document) (rows : List Row) :
    Except Failure Unit :=
  if unique.isEmpty then .ok ()
  else
    match documents collection rows with
    | .error e => .error e
    | .ok others => Document.checkUnique unique d others

/-- Adds a document under an id. -/
def insert (codec : Document → Except Failure Document) (collection : String)
    (unique : List String) (id : String) (d : Document) (rows : List Row) :
    Except Failure Document × List Row :=
  let new := d.set idField (.string id)
  match checkUnique collection unique new rows with
  | .error e => (.error e, rows)
  | .ok _ =>
    if rows.any (isAt collection id) then (.error (.alreadyExists idField), rows)
    else (.ok new, rows ++ [⟨collection, id, codec new⟩])

/-- Changes the document of an id; answers whether there is one. -/
def modify (codec : Document → Except Failure Document) (collection : String)
    (unique : List String) (id : String) (change : Document → Except Failure Document)
    (rows : List Row) : Except Failure Bool × List Row :=
  match findById collection id rows with
  | .error e => (.error e, rows)
  | .ok none => (.ok false, rows)
  | .ok (some d) =>
    match change d with
    | .error e => (.error e, rows)
    | .ok new =>
      match checkUnique collection unique new rows with
      | .error e => (.error e, rows)
      | .ok _ =>
        (.ok true,
          rows.map fun r => if isAt collection id r then { r with doc := codec new } else r)

/-- Writes fields over the document of an id; answers whether there is one. -/
def update (codec : Document → Except Failure Document) (collection : String)
    (unique : List String) (id : String) (fields : Document) (rows : List Row) :
    Except Failure Bool × List Row :=
  modify codec collection unique id (fun d => .ok (Document.update d fields)) rows

/-- Adds to fields of the document of an id; answers whether there is one. -/
def increment (codec : Document → Except Failure Document) (collection : String)
    (unique : List String) (id : String) (deltas : Document) (rows : List Row) :
    Except Failure Bool × List Row :=
  modify codec collection unique id
    (fun d =>
      match Document.increment d deltas with
      | (.ok _, new) => .ok new
      | (.error e, _) => .error e)
    rows

/-- Removes the document of an id; answers whether there was one. -/
def delete (collection id : String) (rows : List Row) : Bool × List Row :=
  let rest := rows.filter fun r => !isAt collection id r
  (rest.length != rows.length, rest)

end Table

end Curator
