/-
A service, and the hooks it runs.

The declared hooks of a lifecycle point run in order, each on what the one before left behind, and
after them the code hook of that point if one is installed.  The first failure ends it; what was
written before it stays written.
-/
import Curator.HookWrite
import Curator.Serving

namespace Curator

/-- A service: its entities, its supplies, and the code hooks installed in it. -/
structure Service where
  capabilities : Capabilities
  directory : Directory
  /-- The code hook of an entity and a lifecycle point: what it says of a document and a request. -/
  codeHook? : String → Lifecycle → Option (Document → Request → Except Failure Unit)

namespace Service

/-- What paths and templates are resolved against while a document of an entity is at hand. -/
def scope (svc : Service) (stores : Stores) (entity : String) (model : Document)
    (caller : Option String) : Scope :=
  ⟨svc.directory, stores, entity, model, caller⟩

/-- Runs one declared hook. -/
def runHook (svc : Service) (entity : String) (model : Document) (req : Request) (h : Hook) :
    Serving Unit := do
  let planned ← Serving.look fun stores => h.plan (svc.scope stores entity model req.caller)
  match planned with
  | none => return ()
  | some w =>
    let _ ← Serving.onStores fun stores => w.perform svc.capabilities stores
    return ()

/-- Runs declared hooks in order. -/
def runDeclared (svc : Service) (entity : String) (model : Document) (req : Request) :
    List Hook → Serving Unit
  | [] => return ()
  | h :: hs => do
    svc.runHook entity model req h
    svc.runDeclared entity model req hs

/-- Runs the code hook of a lifecycle point, if one is installed. -/
def runCode (svc : Service) (entity : String) (l : Lifecycle) (model : Document) (req : Request) :
    Serving Unit :=
  match svc.codeHook? entity l with
  | none => return ()
  | some hook => do
    Serving.record ⟨entity, l, model, req.caller, req.body⟩
    Serving.ofExcept (hook model req)

/-- Runs all hooks of a lifecycle point. -/
def runHooks (svc : Service) (entity : String) (l : Lifecycle) (model : Document) (req : Request) :
    Serving Unit := do
  let e ← Serving.ofExcept (svc.directory.get entity)
  svc.runDeclared entity model req (e.definition.hooksAt l)
  svc.runCode entity l model req

end Service

end Curator
