/-
The five operations on the documents of an entity.

Each one first asks whether the caller is allowed it at all.  What comes in is cut down to the fields
that the caller may write and coerced to their attributes; what goes out is cut down to the fields
that the caller may read.  Hooks run before and after, and a document is shown as it is after them.
-/
import Curator.Coercion
import Curator.Service.Presentation

namespace Curator

namespace Service

/-- What coercion needs to know while a request is served. -/
def surroundings (svc : Service) (caller : Option String) (ignoreDefaults : Bool)
    (stores : Stores) : Surroundings :=
  ⟨svc.capabilities, svc.directory, stores, caller, ignoreDefaults⟩

/-! ### Input -/

/-- The fields of a new document: every attribute that is not managed and comes to a value. -/
def newFields (s : Surroundings) (data : Document) :
    List (String × Attribute) → Except Failure Document
  | [] => .ok []
  | (name, a) :: rest =>
    if isManaged name then newFields s data rest
    else
      match a.coerce s data name (data.get? name) with
      | .error f => .error f
      | .ok v => (newFields s data rest).map fun fields => Dict.ofOption name v ++ fields

/-- Whether an input touches an attribute: a slug is touched through its source. -/
def touches (data : Document) (name : String) (a : Attribute) : Bool :=
  match a.kind with
  | .slug source _ _ => data.has source
  | _ => data.has name

/-- The fields that an update writes: every attribute that is not managed and is touched, null when
it comes to nothing. -/
def changedFields (s : Surroundings) (data : Document) :
    List (String × Attribute) → Except Failure Document
  | [] => .ok []
  | (name, a) :: rest =>
    if isManaged name || !touches data name a then changedFields s data rest
    else
      match a.coerce s data name (data.get? name) with
      | .error f => .error f
      | .ok v => (changedFields s data rest).map fun fields => (name, v.getD .null) :: fields

/-- The filter that a query comes to.  Fields that the caller may not read do not exist for it. -/
def queryFilter (e : Entity) (caller : Option String) :
    List (String × Json) → Except Failure Document
  | [] => .ok []
  | (name, v) :: rest =>
    match e.attribute? name with
    | none => .error (.unknownField name)
    | some a =>
      if fieldAllowed a.permissions .get caller then
        match a.convert v with
        | .error f => .error f
        | .ok w => (queryFilter e caller rest).map fun d => (name, w) :: d
      else .error (.unknownField name)

/-! ### Operations -/

/-- Creates a document and shows it. -/
def create (svc : Service) (entity : String) (input : Json) (req : Request) : Serving Document := do
  let e ← Serving.ofExcept (svc.directory.get entity)
  Serving.ofExcept (e.ensureAllowed .create req.caller)
  let data ← Serving.ofExcept (e.writable .create req.caller input)
  let fields ← Serving.look fun stores =>
    newFields (svc.surroundings req.caller false stores) data e.definition.attributes.entries
  let doc := fields ++ [(createdAtField, Json.ofInt req.now), (updatedAtField, Json.ofInt req.now)]
  svc.runHooks entity .beforeCreate doc req
  let h ← Serving.ofExcept e.store
  let stored ← Serving.onStores (h.insert svc.capabilities doc)
  match Document.id? stored with
  | none => throw ⟨.internal, "stored document has no id"⟩
  | some id =>
    svc.runHooks entity .afterCreate stored req
    let current ← Serving.look (e.load id)
    Serving.look (svc.present e current req.caller)

/-- Shows a document between its hooks. -/
def showOne (svc : Service) (entity : String) (e : Entity) (d : Document) (req : Request) :
    Serving Document := do
  svc.runHooks entity .beforeGet d req
  let shown ← Serving.look (svc.present e d req.caller)
  svc.runHooks entity .afterGet d req
  return shown

/-- Shows documents in turn. -/
def showAll (svc : Service) (entity : String) (e : Entity) (req : Request) :
    List Document → Serving (List Document)
  | [] => return []
  | d :: ds => do
    let shown ← svc.showOne entity e d req
    let rest ← svc.showAll entity e req ds
    return shown :: rest

/-- Shows the document of an id. -/
def get (svc : Service) (entity id : String) (req : Request) : Serving Document := do
  let e ← Serving.ofExcept (svc.directory.get entity)
  Serving.ofExcept (e.ensureAllowed .get req.caller)
  let d ← Serving.look (e.load id)
  svc.showOne entity e d req

/-- Shows the documents that match a query. -/
def find (svc : Service) (entity : String) (query : Document) (req : Request) :
    Serving (List Document) := do
  let e ← Serving.ofExcept (svc.directory.get entity)
  Serving.ofExcept (e.ensureAllowed .get req.caller)
  let filter ← Serving.ofExcept (queryFilter e req.caller query)
  let h ← Serving.ofExcept e.store
  let docs ← Serving.look (h.find filter)
  svc.showAll entity e req docs

/-- Updates the fields of a document that an input touches, and shows it. -/
def update (svc : Service) (entity id : String) (input : Json) (req : Request) :
    Serving Document := do
  let e ← Serving.ofExcept (svc.directory.get entity)
  Serving.ofExcept (e.ensureAllowed .update req.caller)
  let existing ← Serving.look (e.load id)
  let data ← Serving.ofExcept (e.writable .update req.caller input)
  let fields ← Serving.look fun stores =>
    changedFields (svc.surroundings req.caller true stores) data e.definition.attributes.entries
  let changes := fields ++ [(updatedAtField, Json.ofInt req.now)]
  svc.runHooks entity .beforeUpdate (Dict.merge existing changes) req
  let h ← Serving.ofExcept e.store
  if ← Serving.onStores (h.update svc.capabilities id changes) then
    let updated ← Serving.look (e.load id)
    svc.runHooks entity .afterUpdate updated req
    let current ← Serving.look (e.load id)
    Serving.look (svc.present e current req.caller)
  else throw e.documentNotFound

/-- Deletes a document and shows its last state, without joins. -/
def delete (svc : Service) (entity id : String) (req : Request) : Serving Document := do
  let e ← Serving.ofExcept (svc.directory.get entity)
  Serving.ofExcept (e.ensureAllowed .delete req.caller)
  let existing ← Serving.look (e.load id)
  svc.runHooks entity .beforeDelete existing req
  let h ← Serving.ofExcept e.store
  let found ← Serving.onStores fun stores =>
    let (found, stores) := h.delete id stores
    (.ok found, stores)
  if found then
    svc.runHooks entity .afterDelete existing req
    return e.visible req.caller existing
  else throw e.documentNotFound

end Service

end Curator
