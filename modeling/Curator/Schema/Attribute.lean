/-
Attributes: what the values of a field look like.

A `Kind` is one of eleven; lists and maps hold attributes again.  An `Attribute` adds to its kind
whether a value is required and distinct, the default for a missing value, and permissions of its
own.
-/
import Curator.Schema.Permission

namespace Curator

/-- Random text joined to a slug: how many characters. -/
structure Affix where
  chars : Nat
deriving DecidableEq

/-- One-way hashing of a string, with an optional number of rounds. -/
structure Hashing where
  rounds : Option Nat
deriving DecidableEq

/-- A bound of numbers as declared.  Only finite bounds can be written. -/
inductive Bound where
  | finite (x : Double)
  | infinite (negative : Bool)
  /-- What is not a number, so that no number is beyond it. -/
  | undefined
deriving DecidableEq

namespace Bound

/-- Whether a number is less than a bound. -/
def isAbove : Bound → Double → Bool
  | finite low, x => x.order low == .lt
  | infinite negative, _ => !negative
  | undefined, _ => false

/-- Whether a number is greater than a bound. -/
def isBelow : Bound → Double → Bool
  | finite high, x => x.order high == .gt
  | infinite negative, _ => negative
  | undefined, _ => false

end Bound

mutual

/-- The kinds of values. -/
inductive Kind where
  | boolean
  | email
  | enum (values : List String)
  | id
  | list (item : Attribute) (maxItems : Option Nat)
  | map (key value : Attribute)
  | number (min max : Option Bound)
  | ref (entity : String)
  | slug (source : String) (before after : Option Affix)
  | string (maxLength : Option Nat) (hash : Option Hashing)
  | user

/-- A field of documents. -/
structure Attribute where
  kind : Kind
  required : Bool
  unique : Bool
  default : Option Json
  permissions : Option Permissions

end

/-- The words for the kinds. -/
inductive KindName where
  | boolean
  | email
  | enum
  | id
  | list
  | map
  | number
  | ref
  | slug
  | string
  | user
deriving DecidableEq

namespace KindName

def word : KindName → String
  | boolean => "boolean"
  | email => "email"
  | enum => "enum"
  | id => "id"
  | list => "list"
  | map => "map"
  | number => "number"
  | ref => "ref"
  | slug => "slug"
  | string => "string"
  | user => "user"

def all : List KindName :=
  [boolean, email, enum, id, list, map, number, ref, slug, string, user]

theorem find?_word (n : KindName) : Vocabulary.find? all word n.word = some n := by
  cases n <;> decide

end KindName

/-- The name of a kind. -/
def Kind.name : Kind → KindName
  | boolean => .boolean
  | email => .email
  | enum _ => .enum
  | id => .id
  | list _ _ => .list
  | map _ _ => .map
  | number _ _ => .number
  | ref _ => .ref
  | slug _ _ _ => .slug
  | string _ _ => .string
  | user => .user

/-- The entity whose documents callers are. -/
def usersEntity : String := "users"

namespace Attribute

/-- An attribute of a kind with nothing else declared. -/
def ofKind (kind : Kind) : Attribute := ⟨kind, false, false, none, none⟩

/-- The entity that values of an attribute are ids of. -/
def referenced? (a : Attribute) : Option String :=
  match a.kind with
  | .ref entity => some entity
  | .user => some usersEntity
  | _ => none

end Attribute

end Curator
