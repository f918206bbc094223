/-
What a declared hook writes.

A hook comes down to at most one write of one field: `Hook.plan` says which, or that there is nothing
to do because its condition does not hold or its target has no id.  Planning only looks at the stores;
`HookWrite.perform` is the write itself.
-/
import Curator.Comparison
import Curator.Template

namespace Curator

/-- A write that a hook has decided on. -/
structure HookWrite where
  handle : Handle
  id : String
  effect : Effect
  key : String
  value : Json

/-- Whether a condition holds. -/
def Condition.check (s : Scope) (c : Condition) : Except Failure Bool := do
  let left ← s.resolve c.left
  let right ← s.resolve c.right
  return c.comparator.holds left right

/-- The value that an effect writes: the converted value itself, or the number it adds. -/
def Effect.operand (e : Effect) (v : Json) : Except Failure Json :=
  match e with
  | .set => .ok v
  | .increment =>
    match toNumber v with
    | .number x => .ok (.number (Number.ofDouble x))
    | _ => .error ⟨.internal, "hook increment value is not a number"⟩

namespace Hook

/-- Whether the condition of a hook holds, if it has one. -/
def applies (s : Scope) (h : Hook) : Except Failure Bool :=
  match h.condition with
  | none => .ok true
  | some c => c.check s

/-- The write of a hook whose condition holds. -/
def target? (s : Scope) (h : Hook) : Except Failure (Option HookWrite) := do
  let v ← s.variableAt h.target
  match v.id with
  | none => return none
  | some id =>
    let resolved ← s.resolve h.value
    let converted ← v.attr.convert resolved
    let operand ← h.effect.operand converted
    let entity ← s.directory.get v.entity
    let handle ← entity.store
    return some ⟨handle, id, h.effect, v.key, operand⟩

/-- The write that a hook comes down to, if any. -/
def plan (s : Scope) (h : Hook) : Except Failure (Option HookWrite) := do
  if ← h.applies s then h.target? s else return none

end Hook

/-- Carries out a write. -/
def HookWrite.perform (c : Capabilities) (w : HookWrite) (s : Stores) :
    Except Failure Bool × Stores :=
  match w.effect with
  | .set => w.handle.update c w.id [(w.key, w.value)] s
  | .increment => w.handle.increment c w.id [(w.key, w.value)] s

end Curator
