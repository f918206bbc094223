/-
How computations run.

`Serving.runOn` takes a computation apart along its steps: each law below says what one kind of step
yields and what world it leaves.  A sequence goes on only after a step that succeeded, and keeps what
the step did to the world either way, which is all that later proofs need to follow a request from
one early exit to the next.
-/
import Curator.Serving

namespace Curator

/-! ### Results -/

namespace Outcome

variable {ε α β : Type}

@[simp] theorem ok_bind (a : α) (f : α → Except ε β) : Except.ok a >>= f = f a := rfl

@[simp] theorem error_bind (e : ε) (f : α → Except ε β) : Except.error e >>= f = .error e := rfl

@[simp] theorem pure_eq_ok (a : α) : (pure a : Except ε α) = .ok a := rfl

theorem bind_eq_ok_iff {r : Except ε α} {f : α → Except ε β} {b : β} :
    r >>= f = .ok b ↔ ∃ a, r = .ok a ∧ f a = .ok b := by
  cases r with
  | error e =>
      constructor
      · intro h
        cases h
      · rintro ⟨a, h, -⟩
        cases h
  | ok a =>
      constructor
      · intro h
        exact ⟨a, rfl, h⟩
      · rintro ⟨a', h, h'⟩
        cases h
        exact h'

theorem map_eq_ok_iff {r : Except ε α} {f : α → β} {b : β} :
    r.map f = .ok b ↔ ∃ a, r = .ok a ∧ f a = b := by
  cases r with
  | error e => simp [Except.map]
  | ok a => simp [Except.map]

theorem map_eq_error_iff {r : Except ε α} {f : α → β} {e : ε} :
    r.map f = .error e ↔ r = .error e := by
  cases r with
  | error e' => simp [Except.map]
  | ok a => simp [Except.map]

theorem toOption_eq_some_iff {r : Except ε α} {a : α} : r.toOption = some a ↔ r = .ok a := by
  cases r with
  | error e => simp [Except.toOption]
  | ok b => simp [Except.toOption]

theorem toOption_eq_none_iff {r : Except ε α} : r.toOption = none ↔ ∃ e, r = .error e := by
  cases r with
  | error e => simp [Except.toOption]
  | ok a => simp [Except.toOption]

theorem toOption_map (f : α → β) (r : Except ε α) : (r.map f).toOption = r.toOption.map f := by
  cases r <;> rfl

theorem toOption_bind (r : Except ε α) (f : α → Except ε β) :
    (r >>= f).toOption = r.toOption.bind fun a => (f a).toOption := by
  cases r <;> rfl

/-- The failure of a result that has one. -/
def error? : Except ε α → Option ε
  | .error e => some e
  | .ok _ => none

theorem error?_eq_some_iff {r : Except ε α} {e : ε} : error? r = some e ↔ r = .error e := by
  cases r with
  | error e' => simp [error?]
  | ok a => simp [error?]

end Outcome

/-! ### Computations -/

namespace Serving

variable {α β : Type}

/-- Computations are the same if they do the same to every world. -/
theorem eq_of_runOn {m m' : Serving α} (h : ∀ w, runOn m w = runOn m' w) : m = m' := funext h

@[simp] theorem runOn_pure (a : α) (w : World) : runOn (pure a) w = (.ok a, w) := rfl

@[simp] theorem runOn_throw (f : Failure) (w : World) :
    runOn (throw f : Serving α) w = (.error f, w) := rfl

@[simp] theorem runOn_ofExcept (r : Except Failure α) (w : World) :
    runOn (ofExcept r) w = (r, w) := rfl

@[simp] theorem runOn_look (f : Stores → Except Failure α) (w : World) :
    runOn (look f) w = (f w.stores, w) := rfl

@[simp] theorem runOn_onStores (f : Stores → Except Failure α × Stores) (w : World) :
    runOn (onStores f) w = ((f w.stores).1, { w with stores := (f w.stores).2 }) := rfl

@[simp] theorem runOn_record (call : HookCall) (w : World) :
    runOn (record call) w = (.ok (), { w with calls := w.calls ++ [call] }) := rfl

@[simp] theorem ofExcept_ok_bind (a : α) (k : α → Serving β) : ofExcept (.ok a) >>= k = k a := rfl

theorem runOn_bind (m : Serving α) (k : α → Serving β) (w : World) :
    runOn (m >>= k) w =
      match runOn m w with
      | (.ok a, v) => runOn (k a) v
      | (.error f, v) => (.error f, v) := by
  simp only [runOn, ExceptT.run_bind, StateT.run_bind]
  rcases (ExceptT.run m).run w with ⟨f | a, v⟩
  · rfl
  · rfl

/-! ### Looks at the stores -/

theorem look_of_const (r : Except Failure α) : (look fun _ => r) = ofExcept r := rfl

/-- A look that takes several steps is several looks. -/
theorem look_bind (m : Stores → Except Failure α) (f : α → Stores → Except Failure β) :
    (look fun s => m s >>= fun a => f a s) = look m >>= fun a => look (f a) := by
  refine eq_of_runOn fun w => ?_
  rw [runOn_look, runOn_bind, runOn_look]
  cases m w.stores with
  | error f => rfl
  | ok a => rfl

/-- What has been looked at can be looked at again after other looks. -/
theorem look_again {γ : Type} (m : Stores → Except Failure α) (f : α → Stores → Except Failure β)
    (k : α → β → Serving γ) :
    (look m >>= fun a => look (f a) >>= fun b => k a b) =
      look m >>= fun a => look (f a) >>= fun b => look m >>= fun a => k a b := by
  refine eq_of_runOn fun w => ?_
  simp only [runOn_bind, runOn_look]
  cases hm : m w.stores with
  | error e => rfl
  | ok a =>
      dsimp only
      cases f a w.stores with
      | error e => rfl
      | ok b => simp only [hm]

/-! ### Results of sequences -/

/-- A sequence yields a result when its first step does, and then the rest. -/
theorem bind_eq_ok_iff {m : Serving α} {k : α → Serving β} {w w' : World} {b : β} :
    runOn (m >>= k) w = (.ok b, w') ↔
      ∃ a v, runOn m w = (.ok a, v) ∧ runOn (k a) v = (.ok b, w') := by
  rw [runOn_bind]
  rcases runOn m w with ⟨_ | a, v⟩
  · simp
  · constructor
    · intro h
      exact ⟨a, v, rfl, h⟩
    · rintro ⟨a', v', h, h'⟩
      obtain ⟨ha, hv⟩ := Prod.mk.inj h
      obtain rfl := Except.ok.inj ha
      rw [hv]
      exact h'

theorem look_bind_eq_ok_iff {f : Stores → Except Failure α} {k : α → Serving β} {w w' : World}
    {b : β} :
    runOn (look f >>= k) w = (.ok b, w') ↔ ∃ a, f w.stores = .ok a ∧ runOn (k a) w = (.ok b, w') := by
  rw [runOn_bind, runOn_look]
  cases f w.stores with
  | error e => simp
  | ok a => simp

theorem ofExcept_bind_eq_ok_iff {r : Except Failure α} {k : α → Serving β} {w w' : World} {b : β} :
    runOn (ofExcept r >>= k) w = (.ok b, w') ↔ ∃ a, r = .ok a ∧ runOn (k a) w = (.ok b, w') :=
  look_bind_eq_ok_iff (f := fun _ => r)

end Serving

end Curator
