/-
The value of an expression.

Every node must have a finite value, a leaf as well as an intermediate result; the left operand is
evaluated before the right.  A variable counts when it is a number, a boolean, or a string that reads
as a number between its blanks.
-/
import Curator.Expression.Tree
import Curator.Json.Basic

namespace Curator

namespace Expression

/-- The number that the value of a path stands for. -/
def operand (name : String) : Json → Except ExpressionError Double
  | .number n => .ok n.toDouble
  | .bool b => .ok (Double.ofInt (if b then 1 else 0))
  | .string s =>
    match (Decimal.read? (Text.trimChars s.toList)).bind Numeral.double? with
    | some x => .ok x
    | none => .error (.notNumeric name)
  | .null => .error (.undefinedPath name)
  | .array _ => .error (.notNumeric name)
  | .object _ => .error (.notNumeric name)

/-- The rounded result of an operation, if it is finite. -/
def Operation.result? : Operation → Double → Double → Option Double
  | .add => Double.add?
  | .sub => Double.sub?
  | .mul => Double.mul?
  | .div => Double.div?

/-- Turns the lack of a finite result into an error. -/
def finite : Option Double → Except ExpressionError Double
  | some x => .ok x
  | none => .error .notFinite

/-- The value of an expression when `vars` tells the values of the paths; an unknown path is null. -/
def evaluate (vars : String → Json) : Expression → Except ExpressionError Double
  | number n => finite n.double?
  | path name => operand name (vars name)
  | negate e =>
    match evaluate vars e with
    | .error e => .error e
    | .ok x => .ok x.neg
  | binary op l r =>
    match evaluate vars l with
    | .error e => .error e
    | .ok x =>
      match evaluate vars r with
      | .error e => .error e
      | .ok y => finite (Operation.result? op x y)

end Expression

end Curator
