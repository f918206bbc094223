/-
Failures of requests.

A failure has a kind and a message.  The kind decides how it is shown: its label in front of the
message, and whether the message may gain the name of an enclosing field.  The causes that several
modules share are named here, each with its wording.
-/
import Curator.Json.Basic

namespace Curator

/-- The kinds of failure. -/
inductive FailureKind where
  | database
  | notFound
  | badRequest
  | internal
  | duplicateKey
  | configuration
  | serialization
  | forbidden
deriving DecidableEq

/-- What went wrong. -/
structure Failure where
  kind : FailureKind
  message : String
deriving DecidableEq

/-- The words in front of a message when a failure is shown in full. -/
def FailureKind.label : FailureKind → String
  | database => "Database error"
  | notFound => "Not found"
  | badRequest => "Bad request"
  | internal => "Internal error"
  | duplicateKey => "Duplicate key"
  | configuration => "Configuration error"
  | serialization => "Serialization error"
  | forbidden => "Forbidden"

namespace Failure

/-- The message with its label. -/
def display (f : Failure) : String := f.kind.label ++ ": " ++ f.message

/-- The failures that a client caused by the values it sent. -/
def isClientError (f : Failure) : Bool :=
  match f.kind with
  | .badRequest | .notFound => true
  | _ => false

/-- The failure with `lead` in front of its message, if the client caused it. -/
def within (lead : String) (f : Failure) : Failure :=
  if f.isClientError then { f with message := lead ++ f.message } else f

/-! ### Shared causes -/

def unknownEntity (name : String) : Failure := ⟨.notFound, "entity " ++ name ++ " not found"⟩

def noStore (name : String) : Failure :=
  ⟨.configuration, "entity " ++ name ++ " has no data access handle"⟩

def alreadyExists (field : String) : Failure := ⟨.duplicateKey, field ++ " already exists"⟩

def notFoundAs (noun : String) : Failure := ⟨.notFound, noun ++ " not found"⟩

def unknownField (name : String) : Failure := ⟨.badRequest, name ++ " is not a known field"⟩

def invalidVariable : Failure := ⟨.internal, "invalid variable on config"⟩

def notEvaluated : Failure := ⟨.internal, "failed to evaluate expression"⟩

theorem within_message_of_client {lead : String} {f : Failure} (h : f.isClientError = true) :
    (f.within lead).message = lead ++ f.message := by
  simp [within, h]

theorem within_of_not_client {lead : String} {f : Failure} (h : f.isClientError = false) :
    f.within lead = f := by
  simp [within, h]

@[simp] theorem within_kind (lead : String) (f : Failure) : (f.within lead).kind = f.kind := by
  unfold within
  split <;> rfl

end Failure

end Curator
