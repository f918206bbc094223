/-
Routes.

A path of one part names a collection, one of two parts a document in it; no part but the first of
two may be empty.  Parts are told apart before their escapes are undone.  What is done with a
collection or a document is a matter of the method; the method for reading is also accepted in its
form that asks for no body.
-/
import Curator.Http.Percent
import Curator.Text.Words

namespace Curator.Http

/-- What a path leads to, escapes and all. -/
inductive Route where
  | collection (entity : String)
  | item (entity id : String)
deriving DecidableEq

/-- What a request asks for, and of what. -/
inductive Endpoint where
  | find (entity : String)
  | create (entity : String)
  | get (entity id : String)
  | update (entity id : String)
  | delete (entity id : String)
deriving DecidableEq

namespace Route

/-- The route of a path. -/
def ofPath? (path : List Char) : Option Route :=
  match path with
  | '/' :: cs =>
    match Text.splitAt '/' (String.ofList cs) with
    | [entity] => if entity.isEmpty then none else some (collection entity)
    | [entity, id] => if id.isEmpty then none else some (item entity id)
    | _ => none
  | _ => none

/-- What a method asks of a route. -/
def endpoint? (r : Route) (method : String) : Option Endpoint :=
  match r with
  | collection entity =>
    if method == "GET" || method == "HEAD" then some (.find entity)
    else if method == "POST" then some (.create entity)
    else none
  | item entity id =>
    if method == "GET" || method == "HEAD" then some (.get entity id)
    else if method == "PATCH" then some (.update entity id)
    else if method == "DELETE" then some (.delete entity id)
    else none

end Route

namespace Endpoint

/-- The endpoint with the escapes of its names undone. -/
def decoded? : Endpoint → Option Endpoint
  | find entity => (Percent.segment? entity.toList).map find
  | create entity => (Percent.segment? entity.toList).map create
  | get entity id => both entity id get
  | update entity id => both entity id update
  | delete entity id => both entity id delete
where
  both (entity id : String) (f : String → String → Endpoint) : Option Endpoint :=
    match Percent.segment? entity.toList, Percent.segment? id.toList with
    | some entity, some id => some (f entity id)
    | _, _ => none

end Endpoint

end Curator.Http
