/-
Entity definitions: a collection of documents with its attributes, joins, indexes and hooks.

Everything a request needs to know about an entity is declared here.  Attributes and joins are sorted
by name; the hooks of a lifecycle point are a list, and no list at all is told apart from an empty
one, since the two are written differently.
-/
import Curator.NameMap
import Curator.Schema.Attribute

namespace Curator

/-- How the two sides of a condition are compared. -/
inductive Comparator where
  | equal
  | notEqual
  | greater
  | less
  | greaterOrEqual
  | lessOrEqual
deriving DecidableEq

/-- A test that a hook waits for; strings on either side are templates. -/
structure Condition where
  left : Json
  right : Json
  comparator : Comparator

/-- What a hook does to its target. -/
inductive Effect where
  | increment
  | set
deriving DecidableEq

/-- A declared side effect. -/
structure Hook where
  condition : Option Condition
  effect : Effect
  /-- The path of the field that is written. -/
  target : String
  value : Json

/-- The points at which hooks run. -/
inductive Lifecycle where
  | beforeGet
  | afterGet
  | beforeCreate
  | afterCreate
  | beforeUpdate
  | afterUpdate
  | beforeDelete
  | afterDelete
deriving DecidableEq

/-- Whether a join shows one document or all that match. -/
inductive JoinType where
  | findOne
  | findMany
deriving DecidableEq

/-- A relation that is looked up whenever a document is shown. -/
structure Join where
  type : JoinType
  entity : String
  /-- The values that fields of the joined documents must have; strings are templates. -/
  query : Document

/-- An index over some fields. -/
structure Index where
  fields : List String
  unique : Bool
deriving DecidableEq

/-- An entity as declared. -/
structure Definition where
  name : String
  collection : String
  singular : String
  apiKey : String
  permissions : Option Permissions
  attributes : NameMap Attribute
  joins : NameMap Join
  indexes : List Index
  hooks : Lifecycle → Option (List Hook)

namespace Comparator

def word : Comparator → String
  | equal => "="
  | notEqual => "!="
  | greater => ">"
  | less => "<"
  | greaterOrEqual => ">="
  | lessOrEqual => "<="

def all : List Comparator := [equal, notEqual, greater, less, greaterOrEqual, lessOrEqual]

theorem find?_word (c : Comparator) : Vocabulary.find? all word c.word = some c := by
  cases c <;> decide

end Comparator

namespace Effect

def word : Effect → String
  | increment => "increment"
  | set => "set"

def all : List Effect := [increment, set]

theorem find?_word (e : Effect) : Vocabulary.find? all word e.word = some e := by
  cases e <;> decide

end Effect

namespace Lifecycle

def word : Lifecycle → String
  | beforeGet => "beforeGet"
  | afterGet => "afterGet"
  | beforeCreate => "beforeCreate"
  | afterCreate => "afterCreate"
  | beforeUpdate => "beforeUpdate"
  | afterUpdate => "afterUpdate"
  | beforeDelete => "beforeDelete"
  | afterDelete => "afterDelete"

def all : List Lifecycle :=
  [beforeGet, afterGet, beforeCreate, afterCreate, beforeUpdate, afterUpdate, beforeDelete,
    afterDelete]

theorem mem_all (l : Lifecycle) : l ∈ all := by cases l <;> decide

theorem find?_word (l : Lifecycle) : Vocabulary.find? all word l.word = some l := by
  cases l <;> decide

end Lifecycle

namespace JoinType

def word : JoinType → String
  | findOne => "findOne"
  | findMany => "findMany"

def all : List JoinType := [findOne, findMany]

theorem find?_word (t : JoinType) : Vocabulary.find? all word t.word = some t := by
  cases t <;> decide

end JoinType

namespace Definition

/-- An entity with a name and a collection and nothing else declared. -/
def ofNames (name collection : String) : Definition :=
  ⟨name, collection, "", "", none, .empty, .empty, [], fun _ => none⟩

/-- The hooks of a lifecycle point, in declared order. -/
def hooksAt (d : Definition) (l : Lifecycle) : List Hook := (d.hooks l).getD []

/-- The field that an index keeps distinct; only unique indexes of one field keep any. -/
def indexedField? (i : Index) : Option String :=
  match i.unique, i.fields with
  | true, [field] => some field
  | _, _ => none

/-- The fields whose values are distinct across the collection: the attributes that say so, then
those of unique indexes in declared order. -/
def uniqueFields (d : Definition) : List String :=
  let declared := (d.attributes.entries.filter fun e => e.2.unique).map (·.1)
  (d.indexes.filterMap indexedField?).foldl
    (fun fields f => if fields.contains f then fields else fields ++ [f]) declared

end Definition

end Curator
