/-
Stores of entities, and the state they share.

A `Handle` says where the documents of an entity are: in a memory collection of their own, or in the
rows of the one table, which entities with one collection name share.  `Stores` holds all of them, and
how many ids have been issued.  Reading needs the stores only; writing gives them back changed.
-/
import Curator.Capabilities
import Curator.Store.Memory
import Curator.Store.Table

namespace Curator

/-- The two ways of keeping a collection. -/
inductive Backing where
  | memory
  | table
deriving DecidableEq

/-- Where the documents of an entity are, and which of their fields are distinct. -/
structure Handle where
  backing : Backing
  collection : String
  unique : List String
deriving DecidableEq

/-- All documents, and the number of ids issued so far. -/
structure Stores where
  memory : Dict (List Document)
  rows : List Row
  issued : Nat

namespace Stores

/-- No documents and no ids. -/
def empty : Stores := ⟨[], [], 0⟩

/-- The documents of a memory collection. -/
def memoryAt (s : Stores) (collection : String) : List Document :=
  (s.memory.get? collection).getD []

end Stores

namespace Handle

/-- The documents of an entity, in the order of their insertion. -/
def documents (h : Handle) (s : Stores) : Except Failure (List Document) :=
  match h.backing with
  | .memory => .ok (s.memoryAt h.collection)
  | .table => Table.documents h.collection s.rows

/-- The documents that match a filter. -/
def find (h : Handle) (filter : Document) (s : Stores) : Except Failure (List Document) :=
  (h.documents s).map fun docs => docs.filter fun d => d.matchesFilter filter

/-- The first document that matches a filter. -/
def findOne? (h : Handle) (filter : Document) (s : Stores) : Except Failure (Option Document) :=
  (h.documents s).map fun docs => docs.find? fun d => d.matchesFilter filter

/-- The document of an id. -/
def findById? (h : Handle) (id : String) (s : Stores) : Except Failure (Option Document) :=
  match h.backing with
  | .memory => .ok (Memory.findById id (s.memoryAt h.collection))
  | .table => Table.findById h.collection id s.rows

/-- Runs a change of the entity's documents. -/
def change {α : Type} (h : Handle) (s : Stores) (inMemory : List Document → α × List Document)
    (inTable : List Row → α × List Row) : α × Stores :=
  match h.backing with
  | .memory =>
    let (a, docs) := inMemory (s.memoryAt h.collection)
    (a, { s with memory := s.memory.set h.collection docs })
  | .table =>
    let (a, rows) := inTable s.rows
    (a, { s with rows := rows })

/-- Stores a document, under its own id or the next one issued.  An issued id is used up even when
the document is refused. -/
def insert (c : Capabilities) (h : Handle) (d : Document) (s : Stores) :
    Except Failure Document × Stores :=
  let (id, s) :=
    match d.id? with
    | some id => (id, s)
    | none => (c.issueId s.issued, { s with issued := s.issued + 1 })
  h.change s (Memory.insert h.unique id d) (Table.insert c.codec h.collection h.unique id d)

/-- Writes fields over the document of an id; answers whether there is one. -/
def update (c : Capabilities) (h : Handle) (id : String) (fields : Document) (s : Stores) :
    Except Failure Bool × Stores :=
  h.change s (Memory.update h.unique id fields) (Table.update c.codec h.collection h.unique id fields)

/-- Adds to fields of the document of an id; answers whether there is one. -/
def increment (c : Capabilities) (h : Handle) (id : String) (deltas : Document) (s : Stores) :
    Except Failure Bool × Stores :=
  h.change s (Memory.increment id deltas)
    (Table.increment c.codec h.collection h.unique id deltas)

/-- Removes the document of an id; answers whether there was one. -/
def delete (h : Handle) (id : String) (s : Stores) : Bool × Stores :=
  h.change s (Memory.delete id) (Table.delete h.collection id)

end Handle

end Curator
