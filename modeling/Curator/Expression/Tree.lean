/-
Expressions as trees, and how tokens are grouped into them.

    sum     := product (('+' | '-') product)*
    product := factor (('*' | '/') factor)*
    factor  := ('+' | '-') factor | number | path | '(' sum ')'

Chains group to the left.  A minus before a factor is a node of its own; a plus before a factor and
parentheses leave nothing behind.

The functions that take a sum, a product or a factor off the front call one another with one unit of
fuel less each time.  Between two tokens at most four calls are nested, so `parse` never runs out.
-/
import Curator.Expression.Token

namespace Curator

/-- The four operations. -/
inductive Operation where
  | add
  | sub
  | mul
  | div
deriving DecidableEq

/-- An arithmetic expression. -/
inductive Expression where
  | number (n : Numeral)
  | path (name : String)
  | negate (e : Expression)
  | binary (op : Operation) (left right : Expression)
deriving DecidableEq

namespace Expression

/-- The operation of a chain of summands. -/
def additive? : Token → Option Operation
  | .plus => some .add
  | .minus => some .sub
  | _ => none

/-- The operation of a chain of factors. -/
def multiplicative? : Token → Option Operation
  | .star => some .mul
  | .slash => some .div
  | _ => none

/-- A tree taken off the front of some tokens, and the tokens after it. -/
abbrev Taken := Except ExpressionError (Expression × List Token)

mutual

/-- Takes a sum off the front. -/
def sum : Nat → List Token → Taken
  | 0, _ => .error .unexpectedEnd
  | fuel + 1, ts =>
    match product fuel ts with
    | .error e => .error e
    | .ok (left, rest) => summands fuel left rest

/-- Extends a sum by the summands that follow it. -/
def summands : Nat → Expression → List Token → Taken
  | 0, _, _ => .error .unexpectedEnd
  | _ + 1, left, [] => .ok (left, [])
  | fuel + 1, left, t :: ts =>
    match additive? t with
    | none => .ok (left, t :: ts)
    | some op =>
      match product fuel ts with
      | .error e => .error e
      | .ok (right, rest) => summands fuel (binary op left right) rest

/-- Takes a product off the front. -/
def product : Nat → List Token → Taken
  | 0, _ => .error .unexpectedEnd
  | fuel + 1, ts =>
    match factor fuel ts with
    | .error e => .error e
    | .ok (left, rest) => factors fuel left rest

/-- Extends a product by the factors that follow it. -/
def factors : Nat → Expression → List Token → Taken
  | 0, _, _ => .error .unexpectedEnd
  | _ + 1, left, [] => .ok (left, [])
  | fuel + 1, left, t :: ts =>
    match multiplicative? t with
    | none => .ok (left, t :: ts)
    | some op =>
      match factor fuel ts with
      | .error e => .error e
      | .ok (right, rest) => factors fuel (binary op left right) rest

/-- Takes a factor off the front. -/
def factor : Nat → List Token → Taken
  | 0, _ => .error .unexpectedEnd
  | _ + 1, [] => .error .unexpectedEnd
  | fuel + 1, t :: ts =>
    match t with
    | .plus => factor fuel ts
    | .minus =>
      match factor fuel ts with
      | .error e => .error e
      | .ok (e, rest) => .ok (negate e, rest)
    | .number n => .ok (number n, ts)
    | .path name => .ok (path name, ts)
    | .leftParen =>
      match sum fuel ts with
      | .error e => .error e
      | .ok (e, .rightParen :: rest) => .ok (e, rest)
      | .ok _ => .error .missingParenthesis
    | t => .error (.unexpectedToken t)

end

/-- The tree of a list of tokens that is one sum. -/
def ofTokens (ts : List Token) : Except ExpressionError Expression :=
  match ts with
  | [] => .error .empty
  | ts =>
    match sum (4 * ts.length + 4) ts with
    | .error e => .error e
    | .ok (e, []) => .ok e
    | .ok (_, t :: _) => .error (.unexpectedToken t)

/-- The tree of a text. -/
def parse (s : String) : Except ExpressionError Expression :=
  match Token.ofString s with
  | .error e => .error e
  | .ok ts => ofTokens ts

/-! ### The paths of an expression -/

/-- Appends the paths of an expression that are not listed yet, from left to right. -/
def addPaths (seen : List String) : Expression → List String
  | number _ => seen
  | path name => if seen.contains name then seen else seen ++ [name]
  | negate e => addPaths seen e
  | binary _ l r => addPaths (addPaths seen l) r

/-- The distinct paths of an expression in the order in which they first appear. -/
def paths (e : Expression) : List String := addPaths [] e

end Expression

end Curator
