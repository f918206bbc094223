/-
Coercing what a client sends to the attribute it is meant for.

`Attribute.coerce` yields the value to store, nothing when the field stays unset, or the failure to
report.  A value that is missing, null or blank is absent: the default stands in for it, and without
one it fails only where a value is required.  Failures begin with the label of the value; those of
list items and map entries gain the label of the list or map.

A list stops at its first failing item.  A map goes through all its entries and reports the failures
that the client caused together, but any other failure ends it at once.
-/
import Curator.Conversion
import Curator.Directory
import Curator.Store.Identifier
import Curator.Text.Email
import Curator.Text.Slug

namespace Curator

/-- What can be wrong with a value. -/
inductive Complaint where
  | notBoolean
  | notEmail
  | notOneOf (values : List String)
  | notNumber
  | below (min : Bound)
  | above (max : Bound)
  | notString
  | tooLong (maxLength : Nat)
  | notId
  | notArray
  | tooMany (maxItems : Nat)
  | notObject
  | required

/-- The text of a bound in a complaint. -/
def Bound.text : Bound → String
  | finite x => Layout.message.text x
  | infinite negative => if negative then "-inf" else "inf"
  | undefined => "NaN"

/-- The text of a complaint, to follow a label. -/
def Complaint.text : Complaint → String
  | notBoolean => "must be boolean"
  | notEmail => "is not a valid email address"
  | notOneOf values => "must be one of: " ++ Text.join ", " values
  | notNumber => "must be a number"
  | below min => "must be at least " ++ min.text
  | above max => "must be at most " ++ max.text
  | notString => "must be a string"
  | tooLong maxLength => "must be at most " ++ toString maxLength ++ " characters"
  | notId => "is not a valid ID"
  | notArray => "must be an array"
  | tooMany maxItems => "cannot have more than " ++ toString maxItems ++ " items"
  | notObject => "must be an object"
  | required => "is required"

/-- A complaint about the value with a label. -/
def Failure.invalid (label : String) (c : Complaint) : Failure :=
  ⟨.badRequest, label ++ " " ++ c.text⟩

/-- What coercion needs to know beside the value. -/
structure Surroundings where
  capabilities : Capabilities
  directory : Directory
  stores : Stores
  /-- The identity of the caller. -/
  caller : Option String
  /-- Whether absent values stay absent instead of taking their default. -/
  ignoreDefaults : Bool

/-- The value to store for a field, if any. -/
abbrev Coerced := Except Failure (Option Json)

/-- What an absent value becomes. -/
def Surroundings.absent (s : Surroundings) (label : String) (required : Bool)
    (default : Option Json) : Coerced :=
  match s.ignoreDefaults, default with
  | false, some v => .ok (some v)
  | _, _ => if required then .error (.invalid label .required) else .ok none

/-! ### Scalars -/

/-- A number within optional bounds. -/
def coerceNumber (label : String) (min max : Option Bound) (x : Double) : Coerced :=
  match min.filter fun low => low.isAbove x, max.filter fun high => high.isBelow x with
  | some low, _ => .error (.invalid label (.below low))
  | none, some high => .error (.invalid label (.above high))
  | none, none => .ok (some (.number (Number.ofDouble x)))

/-- A text without blank ends, of limited length, hashed if so declared. -/
def coerceText (s : Surroundings) (label : String) (maxLength : Option Nat) (hash : Option Hashing)
    (cs : List Char) : Coerced :=
  match maxLength.filter fun n => n < cs.length, hash with
  | some n, _ => .error (.invalid label (.tooLong n))
  | none, some h => (s.capabilities.hash (String.ofList cs) h.rounds).map fun t => some (.string t)
  | none, none => .ok (some (.string (String.ofList cs)))

/-- A slug with random text before and after it. -/
def slugText (c : Capabilities) (before after : Option Affix) (slug : String) : String :=
  let random (a : Option Affix) : List String := a.toList.map fun a => c.randomText a.chars
  Text.join "-" (random before ++ [slug] ++ random after)

/-- The id of a document that exists. -/
def coerceRef (s : Surroundings) (label entity : String) (v : Json) : Coerced :=
  match (scalarText? v).filter isValidId with
  | none => .error (.invalid label .notId)
  | some id => do
    let target ← s.directory.get entity
    let h ← target.store
    match ← h.findById? id s.stores with
    | some _ => return some (.string id)
    | none => throw (.notFoundAs label)

/-! ### Containers -/

/-- Coerces items in turn, the first at index `i`; items that come to nothing are null. -/
def coerceItems (coerce : String → Json → Coerced) : Nat → List Json → Except Failure (List Json)
  | _, [] => .ok []
  | i, v :: rest =>
    match coerce ("index " ++ toString i) v with
    | .error f => .error f
    | .ok w => (coerceItems coerce (i + 1) rest).map fun ws => w.getD .null :: ws

/-- The coerced name of an entry, or the name itself when it comes to nothing. -/
def entryName (name : String) : Option Json → String
  | some v => (scalarText? v).getD name
  | none => name

/-- Coerces one entry of a map: its name, and then its value. -/
def coerceEntry (coerceName coerceValue : String → Json → Coerced) (e : String × Json) :
    Except Failure (String × Json) :=
  match coerceName e.1 (.string e.1) with
  | .error f => .error f
  | .ok name =>
    match coerceValue e.1 e.2 with
    | .error f => .error f
    | .ok v => .ok (entryName e.1 name, v.getD .null)

/-- Coerces entries in turn: the entries that succeed and the failures that the client caused. -/
def coerceEntries (coerce : String × Json → Except Failure (String × Json)) :
    Document → List Failure → List (String × Json) → Except Failure (Document × List Failure)
  | done, failures, [] => .ok (done, failures)
  | done, failures, e :: rest =>
    match coerce e with
    | .ok (name, v) => coerceEntries coerce (done.set name v) failures rest
    | .error f =>
      if f.isClientError then coerceEntries coerce done (failures ++ [f]) rest else .error f

/-- One failure for several entries of a map: nothing is found only if no entry found anything. -/
def Failure.together (label : String) (failures : List Failure) : Failure :=
  ⟨if failures.all fun f => f.kind == .notFound then .notFound else .badRequest,
    Text.join ", " (failures.map fun f => label ++ " " ++ f.message)⟩

/-- The outcome of a map with these entries and failures. -/
def mapOutcome (label : String) : Document × List Failure → Coerced
  | (done, []) => .ok (some (.object done))
  | (_, failures) => .error (.together label failures)

/-! ### All kinds -/

mutual

/-- Coerces a value that is not null, if there is one, to a kind.  `absent` is what becomes of a
value that is absent, and `data` the object that slugs take their source from. -/
def Kind.coerce (s : Surroundings) (data : Document) (label : String) (absent : Coerced) :
    Kind → Option Json → Coerced
  | .boolean, none => absent
  | .boolean, some v =>
    match toBoolean? v with
    | some b => .ok (some (.bool b))
    | none => .error (.invalid label .notBoolean)
  | .email, none => absent
  | .email, some v =>
    match v with
    | .string t =>
      let cs := Text.trimChars t.toList
      if cs.isEmpty then absent
      else if Text.isEmail cs then .ok (some (.string (String.ofList cs)))
      else .error (.invalid label .notEmail)
    | _ => .error (.invalid label .notEmail)
  | .enum _, none => absent
  | .enum values, some v =>
    match (scalarText? v).filter values.contains with
    | some t => .ok (some (.string t))
    | none => .error (.invalid label (.notOneOf values))
  | .number min max, raw =>
    match toNumber (raw.getD .null) with
    | .absent => absent
    | .notNumber => .error (.invalid label .notNumber)
    | .number x => coerceNumber label min max x
  | .string _ _, none => absent
  | .string maxLength hash, some v =>
    match scalarText? v with
    | none => .error (.invalid label .notString)
    | some t =>
      let cs := Text.trimChars t.toList
      if cs.isEmpty then absent else coerceText s label maxLength hash cs
  | .slug source before after, _ =>
    let slug := Text.slug (((data.get? source).bind scalarText?).getD "")
    if slug.isEmpty then absent
    else .ok (some (.string (slugText s.capabilities before after slug)))
  | .ref _, none => absent
  | .ref entity, some v => coerceRef s label entity v
  | .user, _ =>
    match s.caller with
    | some id => .ok (some (.string id))
    | none => absent
  | .list _ _, none => absent
  | .list item maxItems, some v =>
    match v with
    | .array items =>
      match maxItems.filter fun n => n < items.length with
      | some n => .error (.invalid label (.tooMany n))
      | none =>
        match coerceItems (fun l x => item.coerce s data l (some x)) 0 items with
        | .ok vs => .ok (some (.array vs))
        | .error f => .error (f.within (label ++ " "))
    | _ => .error (.invalid label .notArray)
  | .map _ _, none => absent
  | .map key value, some v =>
    match v with
    | .object entries =>
      match
        coerceEntries
          (coerceEntry (fun l x => key.coerce s data l (some x))
            (fun l x => value.coerce s data l (some x)))
          [] [] entries
      with
      | .ok outcome => mapOutcome label outcome
      | .error f => .error f
    | _ => .error (.invalid label .notObject)
  | .id, raw => .ok raw

/-- Coerces a value, if there is one, to an attribute. -/
def Attribute.coerce (s : Surroundings) (data : Document) (label : String) :
    Attribute → Option Json → Coerced
  | ⟨kind, required, _, default, _⟩, raw =>
    kind.coerce s data label (s.absent label required default) (raw.filter fun v => !v.isNull)

end

end Curator
