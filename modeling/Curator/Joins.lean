/-
Joins: relations that are looked up when a document is shown.

The values of a join's query are templates over the document at hand, resolved as if that document
belonged to the joined entity.  The joined documents are those that match the resolved query.
-/
import Curator.Template

namespace Curator

/-- What a join finds. -/
inductive Joined where
  | one (d : Option Document)
  | many (ds : List Document)

namespace Joined

/-- The same finds with every document changed. -/
def map (f : Document → Document) : Joined → Joined
  | one d => one (d.map f)
  | many ds => many (ds.map f)

def toJson : Joined → Json
  | one (some d) => .object d
  | one none => .null
  | many ds => .array (ds.map .object)

end Joined

namespace Join

/-- The filter that a query comes to. -/
def filter (s : Scope) : List (String × Json) → Except Failure Document
  | [] => .ok []
  | (name, v) :: rest =>
    match s.resolve v with
    | .error f => .error f
    | .ok w => (filter s rest).map fun d => (name, w) :: d

/-- The documents of a store that a filter selects, one or all. -/
def select (t : JoinType) (h : Handle) (filter : Document) (stores : Stores) :
    Except Failure Joined :=
  match t with
  | .findOne => (h.findOne? filter stores).map .one
  | .findMany => (h.find filter stores).map .many

/-- What a join finds for a document. -/
def find (dir : Directory) (stores : Stores) (j : Join) (model : Document)
    (caller : Option String) : Except Failure Joined := do
  let filter ← filter ⟨dir, stores, j.entity, model, caller⟩ j.query
  let target ← dir.get j.entity
  let h ← target.store
  select j.type h filter stores

end Join

end Curator
