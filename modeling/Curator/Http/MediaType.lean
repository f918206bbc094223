/-
Media types of request bodies.

A media type is a type, a slash and a subtype, and after a semicolon parameters: names with values
that are tokens or quoted.  The last plus sign of a subtype starts its suffix.  A body is taken as JSON
when its type is `application` and its subtype, without the suffix, or the suffix is `json`.
-/
namespace Curator.Http.MediaType

/-- The characters of tokens. -/
def isToken (c : Char) : Bool := c.isAlphanum || "!#$%&'*+-.^_\x60|~".contains c

/-- What may stand between quotes, as far as it does not end them. -/
def isQuotable (c : Char) : Bool := 32 ≤ c.toNat && c.toNat != 127

/-- Takes the rest of a quoted value and the semicolon after it, if any, off the front.  The first
character of the value never ends it. -/
def quoted? : List Char → Option (List Char)
  | [] => none
  | first :: cs =>
    if !isQuotable first then none
    else
      match (cs.dropWhile fun c => c != '"' && isQuotable c) with
      | '"' :: rest =>
        match rest.dropWhile (· == ' ') with
        | [] => some []
        | ';' :: more => some more
        | _ => none
      | _ => none

/-- Takes a value and the semicolon after it, if any, off the front. -/
def value? : List Char → Option (List Char)
  | '"' :: cs => quoted? cs
  | cs =>
    match cs.dropWhile isToken with
    | [] => some []
    | ';' :: more => if (cs.takeWhile isToken).isEmpty then none else some more
    | _ => none

/-- Takes a parameter and the semicolon after it, if any, off the front. -/
def parameter? (cs : List Char) : Option (List Char) :=
  match cs.dropWhile isToken with
  | '=' :: rest => if (cs.takeWhile isToken).isEmpty then none else value? rest
  | _ => none

/-- Whether a text is a row of parameters.  Every one takes a character, so fuel for the length of
the text is enough. -/
def areParameters : Nat → List Char → Bool
  | 0, _ => false
  | fuel + 1, cs =>
    match cs.dropWhile (· == ' ') with
    | [] => true
    | cs =>
      match parameter? cs with
      | some rest => areParameters fuel rest
      | none => false

/-- A subtype without its suffix, and the suffix if there is one. -/
def splitSuffix (subtype : List Char) : List Char × Option (List Char) :=
  let suffix := (subtype.reverse.takeWhile (· != '+')).reverse
  let front := subtype.take (subtype.length - suffix.length - 1)
  if front.isEmpty then (subtype, none) else (front, some suffix)

/-- Whether a type and a subtype say that a body is JSON. -/
def saysJson (type subtype : List Char) : Bool :=
  let (front, suffix) := splitSuffix (subtype.map Char.toLower)
  type.map Char.toLower == "application".toList &&
    (front == "json".toList || suffix == some "json".toList)

/-- Whether a media type is one of JSON. -/
def isJson (s : String) : Bool :=
  let cs := s.toList
  match cs.dropWhile isToken with
  | '/' :: rest =>
    let subtype := rest.takeWhile isToken
    let parametersOk :=
      match rest.dropWhile isToken with
      | [] => true
      | ';' :: parameters => areParameters (parameters.length + 1) parameters
      | _ => false
    parametersOk && saysJson (cs.takeWhile isToken) subtype
  | _ => false

end Curator.Http.MediaType
