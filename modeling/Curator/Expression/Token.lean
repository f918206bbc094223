/-
The tokens of arithmetic expressions.

A text is read one character at a time.  A character either continues the number or the path that is
being read, or ends it and then counts by itself: as a blank, a sign, a parenthesis, or the start of
another number or path.  `Pending` is what is being read; `step` says what one character adds and
`tokensAfter` what a whole text adds.
-/
import Curator.Text.Blank
import Curator.Text.Quoted
import Curator.Number.Decimal
import Curator.Number.Layout

namespace Curator

/-- A token of an expression. -/
inductive Token where
  | number (n : Numeral)
  | path (name : String)
  | plus
  | minus
  | star
  | slash
  | leftParen
  | rightParen
deriving DecidableEq

/-- Why an expression cannot be read or has no value. -/
inductive ExpressionError where
  | invalidNumber (text : String)
  | unexpectedCharacter (c : Char)
  | empty
  | unexpectedToken (t : Token)
  | missingParenthesis
  | unexpectedEnd
  | notFinite
  | notNumeric (path : String)
  | undefinedPath (path : String)
deriving DecidableEq

namespace Token

/-- A token as messages show it. -/
def describe : Token → String
  | number (.finite x) => "Number(" ++ Layout.token.text x ++ ")"
  | number .unbounded => "Number(inf)"
  | path name => "Path(" ++ Text.quoted name ++ ")"
  | plus => "Plus"
  | minus => "Minus"
  | star => "Star"
  | slash => "Slash"
  | leftParen => "LParen"
  | rightParen => "RParen"

/-- The token that a character is by itself. -/
def ofChar? (c : Char) : Option Token :=
  match c with
  | '+' => some plus
  | '-' => some minus
  | '*' => some star
  | '/' => some slash
  | '(' => some leftParen
  | ')' => some rightParen
  | _ => none

/-- The characters that numbers consist of. -/
def isNumberChar (c : Char) : Bool := c.isDigit || c == '.'

/-- The characters that a path may start with. -/
def isPathStart (c : Char) : Bool := c.isAlpha

/-- The characters that a path may go on with. -/
def isPathChar (c : Char) : Bool := Text.alphanumeric.contains c || c == '_' || c == '.'

/-- A number or a path of which some characters have been read. -/
inductive Pending where
  | nothing
  | number (run : List Char)
  | path (run : List Char)

namespace Pending

/-- The token that ends here, if one was being read. -/
def finish : Pending → Except ExpressionError (List Token)
  | nothing => .ok []
  | number run =>
    match Decimal.read? run with
    | some n => .ok [.number n]
    | none => .error (.invalidNumber (String.ofList run))
  | path run => .ok [.path (String.ofList run)]

/-- What is being read after a character that belongs to it. -/
def extend? : Pending → Char → Option Pending
  | nothing, _ => none
  | number run, c => if isNumberChar c then some (number (run ++ [c])) else none
  | path run, c => if isPathChar c then some (path (run ++ [c])) else none

end Pending

/-- What a character means when nothing is being read: its own token, or the start of a longer one. -/
def start (c : Char) : Except ExpressionError (List Token × Pending) :=
  if Text.isBlank c then .ok ([], .nothing)
  else
    match ofChar? c with
    | some t => .ok ([t], .nothing)
    | none =>
      if isNumberChar c then .ok ([], .number [c])
      else if isPathStart c then .ok ([], .path [c])
      else .error (.unexpectedCharacter c)

/-- What one more character adds: the tokens it completes, and what is being read after it. -/
def step (p : Pending) (c : Char) : Except ExpressionError (List Token × Pending) :=
  match p.extend? c with
  | some q => .ok ([], q)
  | none =>
    match p.finish with
    | .error e => .error e
    | .ok before =>
      match start c with
      | .error e => .error e
      | .ok (ts, q) => .ok (before ++ ts, q)

/-- The tokens that a text completes when `p` was being read before it. -/
def tokensAfter (p : Pending) : List Char → Except ExpressionError (List Token)
  | [] => p.finish
  | c :: cs =>
    match step p c with
    | .error e => .error e
    | .ok (ts, q) =>
      match tokensAfter q cs with
      | .error e => .error e
      | .ok rest => .ok (ts ++ rest)

/-- The tokens of a text. -/
def ofString (s : String) : Except ExpressionError (List Token) := tokensAfter .nothing s.toList

end Token

/-- The text of an expression error. -/
def ExpressionError.message : ExpressionError → String
  | invalidNumber text => "invalid number '" ++ text ++ "'"
  | unexpectedCharacter c => "unexpected character '" ++ String.ofList [c] ++ "'"
  | empty => "empty expression"
  | unexpectedToken t => "unexpected token " ++ t.describe
  | missingParenthesis => "missing closing parenthesis"
  | unexpectedEnd => "unexpected end of expression"
  | notFinite => "non-finite result"
  | notNumeric path => path ++ " is not numeric"
  | undefinedPath path => path ++ " is undefined"

end Curator
