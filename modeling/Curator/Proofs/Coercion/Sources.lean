/-
What a coercion reads of the object around the value.

Beside the value itself a coercion is given the whole object that the value was sent in, for the sake of
slugs, which take their text from another field of it.  `Attribute.sources` are the fields that slugs
read, at every depth of lists and maps, and nothing else of the object matters.  Slugs and the identity
of the caller are made without a look at the value that was sent for them.
-/
import Curator.Proofs.Coercion.Projection

namespace Curator

mutual

/-- The fields that the slugs of a kind are made from, at every depth. -/
def Kind.sources : Kind → List String
  | .boolean => []
  | .email => []
  | .enum _ => []
  | .number _ _ => []
  | .string _ _ => []
  | .ref _ => []
  | .list item _ => item.sources
  | .map key value => key.sources ++ value.sources
  | .id => []
  | .slug source _ _ => [source]
  | .user => []

/-- The fields that the slugs of an attribute are made from. -/
def Attribute.sources : Attribute → List String
  | ⟨kind, _, _, _, _⟩ => kind.sources

end

theorem Attribute.sources_eq (a : Attribute) : a.sources = a.kind.sources := by
  cases a
  rfl

/-- Whether values of a kind are made without a look at what was sent for them. -/
def Kind.IsMade (k : Kind) : Prop := k.name = .user ∨ k.name = .slug

variable {s : Surroundings} {data data' : Document}

/-! ### The object around a value -/

mutual

/-- Objects that agree on the sources of a kind coerce its values alike. -/
theorem Kind.coerce_congr :
    ∀ {k : Kind}, (∀ source ∈ k.sources, data.get? source = data'.get? source) →
      ∀ label absent raw, k.coerce s data label absent raw = k.coerce s data' label absent raw
  | .boolean, _, _, _, raw => by cases raw <;> rfl
  | .email, _, _, _, raw => by cases raw <;> rfl
  | .enum _, _, _, _, raw => by cases raw <;> rfl
  | .number _ _, _, _, _, _ => rfl
  | .string _ _, _, _, _, raw => by cases raw <;> rfl
  | .ref _, _, _, _, raw => by cases raw <;> rfl
  | .id, _, _, _, _ => rfl
  | .user, _, _, _, _ => rfl
  | .slug source _ _, hdata, _, _, _ => by
      rw [Kind.coerce, Kind.coerce, hdata source List.mem_cons_self]
  | .list _ _, _, _, _, none => rfl
  | .list item _, hdata, _, _, some v => by
      have hitem : (fun l x => item.coerce s data l (some x)) =
          fun l x => item.coerce s data' l (some x) := by
        funext l x
        exact Attribute.coerce_congr hdata l (some x)
      cases v with
      | array items => rw [Kind.coerce, Kind.coerce, hitem]
      | _ => rfl
  | .map _ _, _, _, _, none => rfl
  | .map key value, hdata, _, _, some v => by
      have hkey : (fun l x => key.coerce s data l (some x)) =
          fun l x => key.coerce s data' l (some x) := by
        funext l x
        exact Attribute.coerce_congr
          (fun source hsource => hdata source (List.mem_append_left _ hsource)) l (some x)
      have hvalue : (fun l x => value.coerce s data l (some x)) =
          fun l x => value.coerce s data' l (some x) := by
        funext l x
        exact Attribute.coerce_congr
          (fun source hsource => hdata source (List.mem_append_right _ hsource)) l (some x)
      cases v with
      | object entries => rw [Kind.coerce, Kind.coerce, hkey, hvalue]
      | _ => rfl

/-- Objects that agree on the sources of an attribute coerce its values alike. -/
theorem Attribute.coerce_congr :
    ∀ {a : Attribute}, (∀ source ∈ a.sources, data.get? source = data'.get? source) →
      ∀ label raw, a.coerce s data label raw = a.coerce s data' label raw
  | ⟨_, _, _, _, _⟩, hdata, _, _ => Kind.coerce_congr hdata _ _ _

end

/-! ### The value itself -/

theorem Kind.coerce_eq_of_isMade {k : Kind} (hmade : k.IsMade) (label : String) (absent : Coerced)
    (raw raw' : Option Json) :
    k.coerce s data label absent raw = k.coerce s data label absent raw' := by
  cases k with
  | slug source before after => rfl
  | user => rfl
  | _ => rcases hmade with h | h <;> cases h

theorem Attribute.coerce_eq_of_isMade {a : Attribute} (hmade : a.kind.IsMade) (label : String)
    (raw raw' : Option Json) : a.coerce s data label raw = a.coerce s data label raw' := by
  rw [a.coerce_eq, a.coerce_eq, Kind.coerce_eq_of_isMade hmade]

end Curator
