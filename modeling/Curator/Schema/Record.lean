/-
Records in configuration files.

A record is written as an object with named fields, or as an array of its values in declared order.
Unknown names are ignored; a known name must not be written twice.  A field is required, optional
(missing or null), or has a default (missing, but not null).

A closed vocabulary is written as one of its words, or as an object with the word as its only name
and null as its value; inside a record whose shape a word selects, that value may also be an empty
object.  The word that selects the shape may itself be its position in the vocabulary.

Where a record is read from text, fields of unknown names are not even looked at: its outline says
which fields are wanted.
-/
import Curator.Json.Basic
import Curator.Json.Outline

namespace Curator

/-- The parts of a record as written. -/
inductive Record (α : Type) where
  | named (fields : List (String × α))
  | listed (values : List α)

namespace Record

variable {α β : Type}

/-- A written field: its value if there is one, or nothing when the name is written twice. -/
def field? (r : Record α) (place : Nat) (name : String) : Option (Option α) :=
  match r with
  | named fields =>
    match fields.filter fun e => e.1 == name with
    | [] => some none
    | [e] => some (some e.2)
    | _ => none
  | listed values => some values[place]?

/-- Whether a record has no values beyond its declared `count` fields. -/
def fits (r : Record α) (count : Nat) : Bool :=
  match r with
  | named _ => true
  | listed values => values.length ≤ count

/-- A field that must be there. -/
def required (r : Record α) (place : Nat) (name : String) (read : α → Option β) : Option β :=
  match r.field? place name with
  | some (some v) => read v
  | _ => none

/-- A field that may be missing. -/
def orElse (r : Record α) (place : Nat) (name : String) (default : β) (read : α → Option β) :
    Option β :=
  match r.field? place name with
  | none => none
  | some none => some default
  | some (some v) => read v

/-- A field that may be missing or null. -/
def optional (r : Record Json) (place : Nat) (name : String) (read : Json → Option β) :
    Option (Option β) :=
  r.orElse place name none fun v => if v.isNull then some none else (read v).map some

/-- The record that a value writes. -/
def ofJson? : Json → Option (Record Json)
  | .object fields => some (named fields)
  | .array values => some (listed values)
  | _ => none

/-- The outline of a record all of whose fields are wanted as they are written, and no others. -/
def outline (names : List String) : Outline := .record false (names.map fun n => (n, .full))

end Record

/-! ### Readers of single values -/

namespace Json

def bool? : Json → Option Bool
  | bool b => some b
  | _ => none

/-- A whole number that is not negative and below `limit`. -/
def natBelow? (limit : Nat) : Json → Option Nat
  | number (.whole n) => if 0 ≤ n.val ∧ n.val < limit then some n.val.toNat else none
  | _ => none

/-- A list of strings. -/
def strings? : Json → Option (List String)
  | array items => items.mapM string?
  | _ => none

end Json

namespace Vocabulary

variable {α : Type}

/-- The member of a vocabulary with a given word. -/
def find? (members : List α) (word : α → String) (s : String) : Option α :=
  members.find? fun a => word a == s

/-- Reads a word of a vocabulary. -/
def read? (members : List α) (word : α → String) : Json → Option α
  | .string s => find? members word s
  | .object [(s, .null)] => find? members word s
  | _ => none

/-- Reads a word of a vocabulary inside a record whose shape a word selects. -/
def inner? (members : List α) (word : α → String) : Json → Option α
  | .object [(s, .object [])] => find? members word s
  | v => read? members word v

/-- Reads the word that selects the shape of a record. -/
def selector? (members : List α) (word : α → String) : Json → Option α
  | .string s => find? members word s
  | .number (.whole n) => if 0 ≤ n.val then members[n.val.toNat]? else none
  | _ => none

end Vocabulary

end Curator
