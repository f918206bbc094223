/-
Templates: texts with expressions between braces.

A brace opens a span that the first closing brace after it ends; an opening brace that is never closed
is plain text, and everything between spans is too.  A template that is one span and nothing else
yields the typed value of its expression; any other one with spans yields a string in which each span
is replaced by its value.  A span is looked for only in what the template has left after the span
before it, so replaced text is not scanned again.
-/
import Curator.Expression.Evaluation
import Curator.Variable

namespace Curator

namespace Template

/-- A span as it stands in a template. -/
def span (inner : List Char) : List Char := '{' :: (inner ++ ['}'])

/-- The insides of the spans of a text, after the part `opened` of a span if one has been opened. -/
def spansAfter : Option (List Char) → List Char → List (List Char)
  | _, [] => []
  | none, c :: cs => if c = '{' then spansAfter (some []) cs else spansAfter none cs
  | some opened, c :: cs =>
    if c = '}' then opened :: spansAfter none cs else spansAfter (some (opened ++ [c])) cs

/-- The insides of the spans of a template, from the left. -/
def spans (cs : List Char) : List (List Char) := spansAfter none cs

/-- A value inside a text: null is empty, and containers are compact text. -/
def display : Json → String
  | .null => ""
  | v =>
    match scalarText? v with
    | some s => s
    | none => v.text

@[simp] theorem display_null : display .null = "" := rfl

@[simp] theorem display_string (s : String) : display (.string s) = s := rfl

@[simp] theorem display_bool (b : Bool) : display (.bool b) = if b then "true" else "false" := rfl

@[simp] theorem display_number (n : Number) : display (.number n) = numberScalarText n := rfl

@[simp] theorem display_array (items : List Json) :
    display (.array items) = Json.text (.array items) := rfl

@[simp] theorem display_object (fields : List (String × Json)) :
    display (.object fields) = Json.text (.object fields) := rfl

end Template

namespace Scope

/-- The values of the paths of an expression, in the order of the paths. -/
def pathValues (s : Scope) : List String → Except Failure (Dict Json)
  | [] => .ok []
  | path :: rest =>
    match s.variableAt path with
    | .error f => .error f
    | .ok v => (s.pathValues rest).map fun d => (path, v.value.getD .null) :: d

/-- The value of an expression.  A bare path has the stored value of any type; anything else is
arithmetic and has a number. -/
def evaluate (s : Scope) (expression : String) : Except Failure Json :=
  match Expression.parse expression with
  | .error _ => .error .notEvaluated
  | .ok (.path path) => (s.variableAt path).map fun v => v.value.getD .null
  | .ok e =>
    match s.pathValues e.paths with
    | .error f => .error f
    | .ok values =>
      match e.evaluate fun path => (values.get? path).getD .null with
      | .error _ => .error .notEvaluated
      | .ok x => .ok (.number (Number.ofDouble x))

/-- The text of a template, each span replaced by its value.  A span is looked for in what is left after
the one before it. -/
def fill (s : Scope) (text : List Char) : List (List Char) → Except Failure String
  | [] => .ok (String.ofList text)
  | inner :: rest =>
    match Text.cut? (Template.span inner) text with
    | none => s.fill text rest
    | some (before, after) =>
      match s.evaluate (String.ofList inner) with
      | .error f => .error f
      | .ok v =>
        (s.fill after rest).map fun t => String.ofList before ++ (Template.display v ++ t)

/-- The value of a template. -/
def template (s : Scope) (t : String) : Except Failure Json :=
  match Template.spans t.toList with
  | [] => .ok (.string t)
  | [inner] =>
    if Text.trimChars t.toList = Template.span inner then s.evaluate (String.ofList inner)
    else (s.fill t.toList [inner]).map .string
  | inners => (s.fill t.toList inners).map .string

/-- A configured value: strings are templates, anything else stands for itself. -/
def resolve (s : Scope) : Json → Except Failure Json
  | .string t => s.template t
  | v => .ok v

end Scope

end Curator
