/-
Answering requests.

The checks come in a fixed order: who the caller is, where the path leads and whether the method goes
with it, the escapes of the path, and for requests that carry a body its media type, its size and its
syntax.  Only then is the service asked.
-/
import Curator.Http.Header
import Curator.Http.MediaType
import Curator.Http.Query
import Curator.Http.Response
import Curator.Http.Route
import Curator.Http.Target
import Curator.Json.Reading
import Curator.Service.Operations

namespace Curator.Http

/-- A request as it arrives. -/
structure Message where
  method : String
  target : Target
  /-- The header that names the caller. -/
  user : Option String
  /-- The header that names the media type of the body. -/
  contentType : Option String
  body : String

namespace Message

/-- The greatest number of bytes in a body. -/
def maxBody : Nat := 2 ^ 21

/-- Puts a request together, if its method, target and headers can be sent. -/
def make? (method uri : String) (user contentType : Option String) (body : String) :
    Option Message := do
  guard (!method.isEmpty && method.toList.all MediaType.isToken)
  let target ← Target.read? uri
  guard ((user.toList ++ contentType.toList).all Header.isSendable)
  return ⟨method, target, user, contentType, body⟩

/-- The value that a body writes, or the response that refuses it. -/
def payload (m : Message) : Except Response Json :=
  if m.contentType.any fun t => Header.isPlain t && MediaType.isJson t then
    if maxBody < m.body.utf8ByteSize then .error .payloadTooLarge
    else
      match Json.read m.body with
      | .ok v => .ok v
      | .error f => .error (if f.isMeaning then .unprocessable else .badRequest)
  else .error .unsupportedMediaType

end Message

/-- Asks the service, and puts its answer into a response. -/
def respond {α : Type} (status : Nat) (write : α → Json) (call : Serving α) (w : World) :
    Response × World :=
  match call.runOn w with
  | (.ok a, w) => (.json status (write a), w)
  | (.error f, w) => (.ofFailure f, w)

/-- Asks the service with the payload of a message. -/
def respondTo (m : Message) (status : Nat) (call : Json → Serving Document) (w : World) :
    Response × World :=
  match m.payload with
  | .ok v => respond status .object (call v) w
  | .error r => (r, w)

/-- Serves an endpoint to a caller. -/
def serve (svc : Service) (now : Int) (m : Message) (caller : Option String) (e : Endpoint)
    (w : World) : Response × World :=
  let req : Request := ⟨caller, none, now⟩
  match e with
  | .find entity =>
    respond 200 (fun ds : List Document => .array (ds.map .object))
      (svc.find entity (Query.read m.target.query) req) w
  | .create entity =>
    respondTo m 201 (fun v => svc.create entity v { req with body := some v }) w
  | .get entity id => respond 200 .object (svc.get entity id req) w
  | .update entity id =>
    respondTo m 200 (fun v => svc.update entity id v { req with body := some v }) w
  | .delete entity id => respond 200 .object (svc.delete entity id req) w

/-- Serves a route to a caller. -/
def serveRoute (svc : Service) (now : Int) (m : Message) (caller : Option String) (r : Route)
    (w : World) : Response × World :=
  match r.endpoint? m.method with
  | none => (.methodNotAllowed, w)
  | some e =>
    match e.decoded? with
    | none => (.badRequest, w)
    | some e => serve svc now m caller e w

/-- Answers a message at a given time. -/
def answer (svc : Service) (now : Int) (m : Message) (w : World) : Response × World :=
  match Header.caller? m.user with
  | none => (.badRequest, w)
  | some caller =>
    match Route.ofPath? m.target.path with
    | none => (.notFound, w)
    | some r =>
      let (response, w) := serveRoute svc now m caller r w
      (if m.method == "HEAD" then response.withoutBody else response, w)

end Curator.Http
