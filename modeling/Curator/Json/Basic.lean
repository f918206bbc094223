/-
Values of documents.

A number is either a whole number of the exactly kept range or a finite double; the two are told
apart even when their values are the same, since `5` and `5.0` are written differently.  Objects
keep their fields in order.
-/
import Curator.Dict
import Curator.Number.Double

namespace Curator

/-- The whole numbers that are kept exactly. -/
structure Whole where
  val : Int
  lower : -(2 ^ 63) ≤ val
  upper : val < 2 ^ 64
deriving DecidableEq

/-- The whole number with a value, if it is in range. -/
def Whole.ofInt? (n : Int) : Option Whole :=
  if h : -(2 ^ 63) ≤ n ∧ n < 2 ^ 64 then some ⟨n, h.1, h.2⟩ else none

/-- A number in a document. -/
inductive Number where
  | whole (n : Whole)
  | real (x : Double)
deriving DecidableEq

namespace Number

/-- The double nearest to a number. -/
def toDouble : Number → Double
  | whole n => Double.ofInt n.val
  | real x => x

/-- Whether two numbers are of one kind and have one value. -/
def same : Number → Number → Bool
  | whole a, whole b => a.val == b.val
  | real x, real y => x.same y
  | _, _ => false

/-- The number of a double: whole when it has no fraction and is below 2 ^ 63 in size. -/
def ofDouble (x : Double) : Number :=
  match x.whole? with
  | some n => if h : -(2 ^ 63) < n ∧ n < 2 ^ 63 then whole ⟨n, by omega, by omega⟩ else real x
  | none => real x

end Number

/-- A value: a scalar, a list of values, or named values. -/
inductive Json where
  | null
  | bool (b : Bool)
  | number (n : Number)
  | string (s : String)
  | array (items : List Json)
  | object (fields : List (String × Json))

/-- A document or any other object: its fields in order. -/
abbrev Document := Dict Json

namespace Json

instance : Inhabited Json := ⟨null⟩

/-- The value of an integer: whole if it is in range. -/
def ofInt (n : Int) : Json :=
  match Whole.ofInt? n with
  | some w => number (.whole w)
  | none => number (.real (Double.ofInt n))

/-- The value of a natural number. -/
def ofNat (n : Nat) : Json := ofInt n

/-- The value of a computed double; a computation without a finite result is null. -/
def ofDouble? : Option Double → Json
  | some x => number (Number.ofDouble x)
  | none => null

def isNull : Json → Bool
  | null => true
  | _ => false

def string? : Json → Option String
  | string s => some s
  | _ => none

def double? : Json → Option Double
  | number n => some n.toDouble
  | _ => none

/-! ### Equality -/

mutual

/-- Whether two values are equal; the order of an object's fields does not matter. -/
def same : Json → Json → Bool
  | null, null => true
  | bool a, bool b => a == b
  | number a, number b => a.same b
  | string a, string b => a == b
  | array xs, array ys => sameItems xs ys
  | object fs, object gs => fs.length == gs.length && sameFields fs gs
  | _, _ => false

/-- Whether two lists have equal values in the same places. -/
def sameItems : List Json → List Json → Bool
  | [], [] => true
  | x :: xs, y :: ys => same x y && sameItems xs ys
  | _, _ => false

/-- Whether every field has an equal one of its name in the second list. -/
def sameFields : List (String × Json) → List (String × Json) → Bool
  | [], _ => true
  | (k, v) :: fs, gs =>
    (match Dict.get? gs k with
      | some w => same v w
      | none => false) && sameFields fs gs

end

/-- Whether two values agree: numbers by their values, everything else by equality. -/
def agrees : Json → Json → Bool
  | number a, number b => a.toDouble.same b.toDouble
  | a, b => same a b

/-! ### Repeated names -/

mutual

/-- The value with every repeated name merged: the first place, the last value. -/
def settle : Json → Json
  | array xs => array (settleItems xs)
  | object fs => object (Dict.ofList (settleFields fs))
  | v => v

def settleItems : List Json → List Json
  | [] => []
  | x :: xs => settle x :: settleItems xs

def settleFields : List (String × Json) → List (String × Json)
  | [] => []
  | (k, v) :: fs => (k, settle v) :: settleFields fs

end

end Json

end Curator
