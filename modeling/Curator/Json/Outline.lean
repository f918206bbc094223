/-
Which parts of what a text writes are wanted.

A text can be well formed and still write something that no value stands for: a number too large for
a double, half of a character, containers nested too deep.  That only matters in a part that is
wanted, and an outline says which parts are.

An object can also enclose the text of a value, under a name of its own.  Where a value is wanted, the
object stands for that value; where a part is wanted as it is written, the object stands for itself.
-/
import Curator.Dict

namespace Curator

/-- Which parts of what is written are wanted. -/
inductive Outline where
  /-- The value that is written. -/
  | value
  /-- All of it, as it is written. -/
  | full
  /-- The items of an array, each by one outline. -/
  | items (each : Outline)
  /-- The values of an object, each by one outline. -/
  | values (each : Outline)
  /-- The fields of a record by their outlines, and all of the other fields or nothing of them. -/
  | record (others : Bool) (fields : List (String × Outline))
  /-- Nothing of it. -/
  | nothing

namespace Outline

def isValue : Outline → Bool
  | value => true
  | _ => false

def isNothing : Outline → Bool
  | nothing => true
  | _ => false

/-- What is wanted of the item of an array at a place.  The items of a record are its fields. -/
def item (place : Nat) : Outline → Outline
  | value => value
  | nothing => nothing
  | items each => each
  | record _ fields =>
    match fields[place]? with
    | some (_, o) => o
    | none => full
  | full | values _ => full

/-- What is wanted of the field of an object with a name. -/
def field (name : String) : Outline → Outline
  | value => value
  | nothing => nothing
  | values each => each
  | record others fields =>
    match Dict.get? fields name with
    | some o => o
    | none => if others then full else nothing
  | full | items _ => full

end Outline

end Curator
