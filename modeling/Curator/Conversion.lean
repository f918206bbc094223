/-
Converting values to the type of an attribute, without judging them.

`toNumber` reads numbers liberally: blank strings count as absent, and literals in base 16, 8 and 2 as
numbers.  `scalarText?` is the text of a scalar.  `Attribute.convert` uses both to bring a trusted
value into the form that its attribute stores; it knows no bounds, no defaults and no required fields.
-/
import Curator.Failure
import Curator.Json.Text
import Curator.Number.Decimal
import Curator.Number.Radix
import Curator.Schema.Attribute
import Curator.Text.Blank

namespace Curator

/-- A value read as a number. -/
inductive NumberReading where
  | absent
  | number (x : Double)
  | notNumber
deriving DecidableEq

/-- The number that a text without blank ends writes. -/
def numberOfText (cs : List Char) : NumberReading :=
  if cs.isEmpty then .absent
  else
    match Radix.literal? cs with
    | some n => .number (Double.ofInt n)
    | none =>
      match (Decimal.read? cs).bind Numeral.double? with
      | some x => .number x
      | none => .notNumber

/-- Reads a value as a number.  Null and blank strings are absent; booleans and containers are no
numbers. -/
def toNumber : Json → NumberReading
  | .null => .absent
  | .number n => .number n.toDouble
  | .string s => numberOfText (Text.trimChars s.toList)
  | .bool _ => .notNumber
  | .array _ => .notNumber
  | .object _ => .notNumber

/-- The text of a number: an integer if it has no fraction and is below 10 ^ 15 in size, otherwise as
in documents. -/
def numberScalarText (n : Number) : String :=
  match n.toDouble.whole? with
  | some k => if -(10 ^ 15) < k ∧ k < 10 ^ 15 then toString k else Json.numberText n
  | none => Json.numberText n

/-- The text of a scalar. -/
def scalarText? : Json → Option String
  | .string s => some s
  | .number n => some (numberScalarText n)
  | .bool b => some (if b then "true" else "false")
  | .null => none
  | .array _ => none
  | .object _ => none

/-- The boolean that a value is or spells. -/
def toBoolean? : Json → Option Bool
  | .bool b => some b
  | .string s => if s = "true" then some true else if s = "false" then some false else none
  | _ => none

/-- The failure to bring a value into the form of a type. -/
def cannotConvert (v : Json) (target : String) : Failure :=
  ⟨.badRequest, "cannot convert " ++ v.text ++ " to " ++ target⟩

/-- The text form of a value. -/
def convertText (v : Json) : Except Failure Json :=
  match scalarText? v with
  | some s => .ok (.string s)
  | none => .error (cannotConvert v "string")

mutual

/-- A value that is not null in the form of a kind. -/
def Kind.convert : Kind → Json → Except Failure Json
  | .boolean, v =>
    match toBoolean? v with
    | some b => .ok (.bool b)
    | none => .error (cannotConvert v "boolean")
  | .number _ _, v =>
    match toNumber v with
    | .number x => .ok (.number (Number.ofDouble x))
    | .absent => .ok .null
    | .notNumber => .error (cannotConvert v "number")
  | .list item _, v =>
    match v with
    | .array items => (items.mapM fun x => item.convert x).map .array
    | v => .error (cannotConvert v "list")
  | .map _ value, v =>
    match v with
    | .object fields =>
      (fields.mapM fun e => (value.convert e.2).map fun w => (e.1, w)).map .object
    | v => .error (cannotConvert v "map")
  | .email, v => convertText v
  | .enum _, v => convertText v
  | .id, v => convertText v
  | .ref _, v => convertText v
  | .slug _ _ _, v => convertText v
  | .string _ _, v => convertText v
  | .user, v => convertText v

/-- A value in the form of an attribute; null stays null. -/
def Attribute.convert : Attribute → Json → Except Failure Json
  | _, .null => .ok .null
  | ⟨kind, _, _, _, _⟩, v => kind.convert v

end

end Curator
