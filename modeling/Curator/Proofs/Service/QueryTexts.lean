/-
Queries by the text of a value.

The values of a query that comes with a request are texts, and conversion brings them into the form that the
attribute stores.  Of a scalar that form is told by its text: `Kind.convert_text` says that conversion
takes the text of what it came to back to the same value.  For words and strings there is little to it; for
numbers it rests on their texts, which read back as a number of the same value, and a number of a value is
stored in one way only.  A query by the text of a stored scalar is therefore the query by the scalar
itself.
-/
import Curator.Proofs.Conversion
import Curator.Proofs.Number.Text
import Curator.Service.Operations

namespace Curator

/-- Whether values of a kind hold no other values. -/
def Kind.IsScalar (k : Kind) : Prop := k.name ≠ .list ∧ k.name ≠ .map

instance (k : Kind) : Decidable k.IsScalar :=
  inferInstanceAs (Decidable (k.name ≠ .list ∧ k.name ≠ .map))

/-- A value that stands for itself as a text is told by it. -/
theorem convertText_text {v u : Json} (hu : convertText v = .ok u) :
    ∃ t, scalarText? u = some t ∧ convertText (.string t) = .ok u := by
  obtain ⟨⟨t, rfl⟩, hfixed⟩ := convertText_fixed hu
  exact ⟨t, rfl, hfixed⟩

/-- The text of a number that is stored is read as a number that is stored in the same way. -/
theorem Kind.convert_numberText (min max : Option Bound) (x : Double) :
    Kind.convert (.number min max) (.string (numberScalarText (Number.ofDouble x))) =
      .ok (.number (Number.ofDouble x)) := by
  obtain ⟨y, hread, hvalue⟩ := toNumber_numberScalarText x
  rw [Kind.convert, hread]
  dsimp only
  rw [Number.ofDouble_congr hvalue]

/-- What a scalar is converted to is told by its text, unless it is null. -/
theorem Kind.convert_text {k : Kind} (hk : k.IsScalar) {v u : Json} (hu : k.convert v = .ok u)
    (hne : u ≠ .null) : ∃ t, scalarText? u = some t ∧ k.convert (.string t) = .ok u := by
  cases k with
  | boolean =>
      rw [Kind.convert] at hu
      split at hu
      · rename_i b _
        cases hu
        cases b with
        | true => exact ⟨"true", rfl, rfl⟩
        | false => exact ⟨"false", rfl, rfl⟩
      · cases hu
  | number min max =>
      rw [Kind.convert] at hu
      split at hu
      · rename_i x _
        cases hu
        exact ⟨_, rfl, Kind.convert_numberText min max x⟩
      · cases hu
        exact absurd rfl hne
      · cases hu
  | list item maxItems => exact absurd rfl hk.1
  | map key value => exact absurd rfl hk.2
  | email => exact convertText_text hu
  | enum values => exact convertText_text hu
  | id => exact convertText_text hu
  | ref target => exact convertText_text hu
  | slug source before after => exact convertText_text hu
  | string maxLength hash => exact convertText_text hu
  | user => exact convertText_text hu

namespace Service

/-- A query asks for what its values are converted to. -/
theorem find_congr_convert {svc : Service} {entity name : String} {a : Attribute} {v w : Json}
    (hname : ∀ e, svc.directory.get entity = .ok e → e.attribute? name = some a)
    (hsame : a.convert v = a.convert w) (rest : Document) (req : Request) :
    svc.find entity ((name, v) :: rest) req = svc.find entity ((name, w) :: rest) req := by
  unfold find
  cases he : svc.directory.get entity with
  | error f => rfl
  | ok e =>
      have hfilter : queryFilter e req.caller ((name, v) :: rest) =
          queryFilter e req.caller ((name, w) :: rest) := by
        simp only [queryFilter, hname e he, hsame]
      simp only [Serving.ofExcept_ok_bind, hfilter]

end Service

/--
**A stored scalar is found by its text.**  A value that is not null is in the form of a scalar attribute
exactly if it has a text and conversion takes that text to the value.  A query that asks for the text is
then answered as one that asks for the value itself.
-/
theorem Attribute.stored_iff_convert_text {a : Attribute} {v : Json} (hk : a.kind.IsScalar)
    (hv : v ≠ .null) :
    (a.convert v = .ok v ↔ ∃ t, scalarText? v = some t ∧ a.convert (.string t) = .ok v) ∧
    ∀ t, a.convert v = .ok v → scalarText? v = some t →
      ∀ (svc : Service) (entity name : String) (rest : Document) (req : Request),
        (∀ e, svc.directory.get entity = .ok e → e.attribute? name = some a) →
        svc.find entity ((name, .string t) :: rest) req = svc.find entity ((name, v) :: rest) req := by
  have htext : a.convert v = .ok v →
      ∃ t, scalarText? v = some t ∧ a.convert (.string t) = .ok v := by
    intro h
    rw [Attribute.convert_of_ne_null hv] at h
    obtain ⟨t, ht, hconvert⟩ := Kind.convert_text hk h hv
    refine ⟨t, ht, ?_⟩
    rw [Attribute.convert_of_ne_null Json.noConfusion]
    exact hconvert
  refine ⟨⟨htext, ?_⟩, ?_⟩
  · rintro ⟨t, -, hconvert⟩
    exact Attribute.convert_convert hconvert
  · intro t h ht svc entity name rest req hname
    obtain ⟨other, hother, hconvert⟩ := htext h
    have hsame : other = t := Option.some.inj (hother.symm.trans ht)
    rw [hsame] at hconvert
    exact Service.find_congr_convert hname (hconvert.trans h.symm) rest req

/-- The double nearest to a tenth. -/
private def tenth : Double := ⟨false, 7205759403792794, -56, by decide⟩

/-- A tenth, which is nearest to a fraction of two, is found by the text of the fraction of ten. -/
theorem Attribute.stored_iff_convert_text_tenth :
    Kind.IsScalar (.number none none) ∧
    (Attribute.ofKind (.number none none)).convert (.number (.real tenth)) =
      .ok (.number (.real tenth)) ∧
    (Attribute.ofKind (.number none none)).convert (.string "0.1") = .ok (.number (.real tenth)) := by
  have hscalar : Kind.IsScalar (.number none none) := by decide
  have hstored : (Attribute.ofKind (.number none none)).convert (.number (.real tenth)) =
      .ok (.number (.real tenth)) := rfl
  have hdigits : scalarText? (.number (.real tenth)) = some "0.1" := by decide +kernel
  refine ⟨hscalar, hstored, ?_⟩
  obtain ⟨hiff, -⟩ := Attribute.stored_iff_convert_text (a := .ofKind (.number none none)) hscalar
    (v := .number (.real tenth)) Json.noConfusion
  obtain ⟨t, ht, hconvert⟩ := hiff.mp hstored
  rw [hdigits] at ht
  cases ht
  exact hconvert

end Curator
