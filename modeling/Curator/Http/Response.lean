/-
Responses: a status, and a value as JSON unless the response is empty.

A failure answers with its message and the status of its kind.  What went wrong inside the service is
not told.
-/
import Curator.Failure

namespace Curator

/-- The status that a failure answers with. -/
def FailureKind.status : FailureKind → Nat
  | badRequest => 400
  | forbidden => 403
  | notFound => 404
  | duplicateKey => 409
  | database | internal | configuration | serialization => 500

namespace Http

/-- What a request is answered with. -/
structure Response where
  status : Nat
  body : Option Json

namespace Response

/-- A response without a body. -/
def empty (status : Nat) : Response := ⟨status, none⟩

def badRequest : Response := empty 400

def notFound : Response := empty 404

def methodNotAllowed : Response := empty 405

def payloadTooLarge : Response := empty 413

def unsupportedMediaType : Response := empty 415

def unprocessable : Response := empty 422

/-- A response with a value. -/
def json (status : Nat) (v : Json) : Response := ⟨status, some v⟩

/-- The response without its body. -/
def withoutBody (r : Response) : Response := { r with body := none }

/-- What a client is told of a failure. -/
def told (f : Failure) : String :=
  if f.kind.status = 500 then "Internal server error" else f.message

/-- The response that reports a failure. -/
def ofFailure (f : Failure) : Response :=
  json f.kind.status
    (.object [("error", .string (told f)), ("status", .ofNat f.kind.status)])

end Response

end Http

end Curator
