/-
Comparing two values in a condition.

When both sides read as numbers, strings included, their values are compared.  Otherwise strings are
compared by code points and booleans with false first; two nulls, and any two equal values, are
equal.  All other pairs are incomparable, and satisfy only "not equal".
-/
import Curator.Conversion
import Curator.Schema.Definition

namespace Curator

/-- The number that one side of a comparison stands for. -/
def comparable? : Json → Option Double
  | .number n => some n.toDouble
  | .string s =>
    match toNumber (.string s) with
    | .number x => some x
    | _ => none
  | _ => none

/-- The order of two values that are not both numbers. -/
def orderByKind? : Json → Json → Option Ordering
  | .string a, .string b => some (compare a b)
  | .bool a, .bool b => some (compare a b)
  | .null, .null => some .eq
  | a, b => if a.same b then some .eq else none

/-- The order of two values, if they are comparable. -/
def order? (a b : Json) : Option Ordering :=
  match comparable? a, comparable? b with
  | some x, some y => some (x.order y)
  | _, _ => orderByKind? a b

/-- Whether two values stand in the order that a comparator asks for. -/
def Comparator.holds (c : Comparator) (a b : Json) : Bool :=
  match c, order? a b with
  | .equal, o => o == some .eq
  | .notEqual, o => o != some .eq
  | .greater, o => o == some .gt
  | .less, o => o == some .lt
  | .greaterOrEqual, o => o == some .gt || o == some .eq
  | .lessOrEqual, o => o == some .lt || o == some .eq

end Curator
