/-
Requests, and computations that serve them.

A computation sees the world, may change it, and either yields a result or fails; what it changed
before a failure stays changed.  The world is the stores and the record of the code hooks that ran.
-/
import Curator.Directory

namespace Curator

/-- Who asks, with what payload, and when. -/
structure Request where
  /-- The identity of the caller; anonymous callers have none. -/
  caller : Option String
  /-- The payload of the request, which hooks may look at. -/
  body : Option Json
  /-- The time at which the request is served, in milliseconds. -/
  now : Int

/-- One run of a code hook. -/
structure HookCall where
  entity : String
  lifecycle : Lifecycle
  model : Document
  caller : Option String
  body : Option Json

/-- What requests work on. -/
structure World where
  stores : Stores
  /-- The runs of code hooks, in order. -/
  calls : List HookCall

/-- A computation that may change the world and may fail. -/
abbrev Serving := ExceptT Failure (StateM World)

namespace Serving

/-- The result of a computation and the world after it. -/
def runOn {α : Type} (m : Serving α) (w : World) : Except Failure α × World := (ExceptT.run m).run w

/-- A computation that does not look at the world at all. -/
def ofExcept {α : Type} (r : Except Failure α) : Serving α := ExceptT.mk fun w => (r, w)

/-- A computation that only looks at the stores. -/
def look {α : Type} (f : Stores → Except Failure α) : Serving α :=
  ExceptT.mk fun w => (f w.stores, w)

/-- A computation that changes the stores. -/
def onStores {α : Type} (f : Stores → Except Failure α × Stores) : Serving α :=
  ExceptT.mk fun w =>
    let (r, stores) := f w.stores
    (r, { w with stores := stores })

/-- Records a run of a code hook. -/
def record (call : HookCall) : Serving Unit :=
  ExceptT.mk fun w => (.ok (), { w with calls := w.calls ++ [call] })

end Serving

end Curator
