/-
Converted values are in the form of their attribute for good.

`Attribute.Shapes` says when a stored value has the form of its attribute: it is null, or conversion
leaves it alone.  What conversion comes to has that form, at every depth of lists and maps, so nothing
changes when a value is converted twice.  For numbers this rests on a number being written from its
double in one way only.
-/
import Curator.Conversion
import Curator.Proofs.Number.Nearest
import Curator.Proofs.Serving

namespace Curator

/-- A traversal leaves its results alone if every step does. -/
theorem mapM_fixed {α : Type} {f : α → Except Failure α} {as bs : List α}
    (hfixed : ∀ a b, f a = .ok b → f b = .ok b) (hbs : as.mapM f = .ok bs) : bs.mapM f = .ok bs := by
  induction as generalizing bs with
  | nil =>
      cases hbs
      rfl
  | cons a as ih =>
      rw [List.mapM_cons] at hbs
      obtain ⟨b, hb, hbs⟩ := Outcome.bind_eq_ok_iff.mp hbs
      obtain ⟨rest, hrest, hbs⟩ := Outcome.bind_eq_ok_iff.mp hbs
      cases hbs
      rw [List.mapM_cons, hfixed a b hb, Outcome.ok_bind, ih hrest]
      rfl

/-- A traversal whose steps leave all items alone leaves the list alone. -/
theorem mapM_eq_self {α : Type} {f : α → Except Failure α} {as : List α}
    (h : ∀ a ∈ as, f a = .ok a) : as.mapM f = .ok as := by
  induction as with
  | nil => rfl
  | cons a as ih =>
      obtain ⟨ha, has⟩ := List.forall_mem_cons.mp h
      rw [List.mapM_cons, ha, Outcome.ok_bind, ih has]
      rfl

theorem convertText_fixed {v u : Json} (hu : convertText v = .ok u) :
    (∃ s, u = .string s) ∧ convertText u = .ok u := by
  unfold convertText at hu
  split at hu
  · rename_i s _
    cases hu
    exact ⟨⟨s, rfl⟩, rfl⟩
  · cases hu

theorem Attribute.convert_null (a : Attribute) : a.convert .null = .ok .null := by
  cases a
  rfl

theorem Attribute.convert_of_ne_null {a : Attribute} {v : Json} (hv : v ≠ .null) :
    a.convert v = a.kind.convert v := by
  obtain ⟨kind, _, _, _, _⟩ := a
  rw [Attribute.convert]
  exact hv

mutual

theorem Kind.convert_convert :
    ∀ {k : Kind} {v u : Json}, k.convert v = .ok u → k.convert u = .ok u
  | .boolean, v, u, h => by
      rw [Kind.convert] at h
      split at h
      · cases h
        rfl
      · cases h
  | .number _ _, v, u, h => by
      rw [Kind.convert] at h
      split at h
      · rename_i x _
        cases h
        rw [Kind.convert, toNumber]
        exact congrArg (fun n => Except.ok (Json.number n)) (Number.ofDouble_toDouble x)
      · cases h
        rfl
      · cases h
  | .list item _, v, u, h => by
      cases v with
      | array items =>
          obtain ⟨converted, hconverted, rfl⟩ := Outcome.map_eq_ok_iff.mp h
          have hfixed := mapM_fixed (fun _ _ => Attribute.convert_convert) hconverted
          rw [Kind.convert, hfixed]
          rfl
      | _ => cases h
  | .map _ value, v, u, h => by
      cases v with
      | object fields =>
          obtain ⟨converted, hconverted, rfl⟩ := Outcome.map_eq_ok_iff.mp h
          have hfixed := mapM_fixed (fun e e' he => by
            obtain ⟨w, hw, rfl⟩ := Outcome.map_eq_ok_iff.mp he
            exact Outcome.map_eq_ok_iff.mpr ⟨w, Attribute.convert_convert hw, rfl⟩) hconverted
          rw [Kind.convert, hfixed]
          rfl
      | _ => cases h
  | .email, _, _, h => (convertText_fixed h).2
  | .enum _, _, _, h => (convertText_fixed h).2
  | .id, _, _, h => (convertText_fixed h).2
  | .ref _, _, _, h => (convertText_fixed h).2
  | .slug _ _ _, _, _, h => (convertText_fixed h).2
  | .string _ _, _, _, h => (convertText_fixed h).2
  | .user, _, _, h => (convertText_fixed h).2

/-- Converting a second time changes nothing. -/
theorem Attribute.convert_convert :
    ∀ {a : Attribute} {v u : Json}, a.convert v = .ok u → a.convert u = .ok u
  | ⟨kind, _, _, _, _⟩, v, u, h => by
      by_cases hv : v = .null
      · subst hv
        cases h
        rfl
      · rw [Attribute.convert_of_ne_null hv] at h
        by_cases hu : u = .null
        · rw [hu]
          rfl
        · rw [Attribute.convert_of_ne_null hu]
          exact Kind.convert_convert h

end

/-- A value has the form of an attribute if it is null or conversion leaves it alone. -/
def Attribute.Shapes (a : Attribute) (v : Json) : Prop := v = .null ∨ a.convert v = .ok v

theorem Attribute.shapes_iff {a : Attribute} {v : Json} : a.Shapes v ↔ a.convert v = .ok v := by
  constructor
  · rintro (rfl | h)
    · exact a.convert_null
    · exact h
  · exact Or.inr

theorem Attribute.shapes_of_convert {a : Attribute} {v u : Json} (hu : a.convert v = .ok u) :
    a.Shapes u :=
  Or.inr (convert_convert hu)

/-- Whether values of a kind are numbers. -/
def Kind.IsNumber (k : Kind) : Prop := k.name = .number

instance (k : Kind) : Decidable k.IsNumber := inferInstanceAs (Decidable (k.name = .number))

/-- A number that was computed has the form of every attribute that stores numbers. -/
theorem Attribute.shapes_ofDouble? {a : Attribute} (ha : a.kind.IsNumber) (x : Option Double) :
    a.Shapes (Json.ofDouble? x) := by
  cases x with
  | none => exact Or.inl rfl
  | some x =>
      obtain ⟨kind, _, _, _, _⟩ := a
      cases kind with
      | number min max =>
          refine Or.inr ?_
          rw [Attribute.convert_of_ne_null Json.noConfusion, Json.ofDouble?, Kind.convert, toNumber]
          exact congrArg (fun n => Except.ok (Json.number n)) (Number.ofDouble_toDouble x)
      | _ => cases ha

/-- A number has the form of no other attribute. -/
theorem Attribute.not_shapes_number {a : Attribute} (ha : ¬ a.kind.IsNumber) (n : Number) :
    ¬ a.Shapes (.number n) := by
  rintro (hnull | hsame)
  · cases hnull
  · obtain ⟨kind, _, _, _, _⟩ := a
    rw [Attribute.convert_of_ne_null Json.noConfusion] at hsame
    cases kind with
    | number min max => exact ha rfl
    | _ => cases hsame

end Curator
