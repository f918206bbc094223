/-
Ids that are sent as numbers.

A whole number is written with all its digits, although its text is decided by the double that it is
rounded to.  Below 10 ^ 15 that double is the number itself, and a number above 2 ^ 53 is never rounded to
one so small.  A reference takes the text of what was sent, so a number and the string of its digits are
one reference, to the document with this text as its id.
-/
import Curator.Proofs.Coercion.Projection
import Curator.Proofs.Number.Whole
import Curator.Proofs.Store.Identifier

namespace Curator

/-! ### Texts of whole numbers -/

/-- A whole number that is rounded to a small one is not rounded. -/
theorem Double.eq_of_value_ofInt {n k : Int} (hn : |n| < 2 ^ 64) (hk : |k| < 10 ^ 15)
    (h : (ofInt n).value = k) : n = k := by
  by_cases hsmall : |n| ≤ 2 ^ 53
  · rw [value_ofInt hsmall] at h
    exact_mod_cast h
  · have hfar := le_abs_value_ofInt (not_le.mp hsmall) hn
    rw [h] at hfar
    have hfar' : (2 : Int) ^ 52 ≤ |k| := by exact_mod_cast hfar
    omega

/-- Whole numbers are written with all their digits. -/
theorem numberScalarText_whole (n : Whole) : numberScalarText (.whole n) = toString n.val := by
  have hrange : |n.val| < 2 ^ 64 := by
    have hlower := n.lower
    have hupper := n.upper
    rw [abs_lt]
    constructor <;> omega
  rw [numberScalarText, Number.toDouble]
  split
  · rename_i k hk
    split
    · rename_i hsmall
      rw [Double.eq_of_value_ofInt hrange (abs_lt.mpr hsmall) (Double.whole?_eq_some_iff.mp hk)]
    · rfl
  · rfl

/-! ### References -/

section References

variable {s : Surroundings} {data : Document} {label entity : String} {a : Attribute}

/-- Of what is sent for a reference only the text counts. -/
theorem coerceRef_congr {v w : Json} (h : scalarText? v = scalarText? w) :
    coerceRef s label entity v = coerceRef s label entity w := by
  rw [coerceRef, coerceRef, h]

theorem Attribute.coerce_ref (ha : a.kind = .ref entity) {v : Json} (hv : v.isNull = false) :
    a.coerce s data label (some v) = coerceRef s label entity v := by
  rw [a.coerce_some hv, ha, Kind.coerce]

/-- A valid id is accepted if the store that is asked for it has it. -/
theorem coerceRef_of_valid {id : String} (hvalid : isValidId id = true) {e : Entity} {h : Handle}
    (he : s.directory.get entity = .ok e) (hstore : e.store = .ok h) :
    coerceRef s label entity (.string id) =
      match h.findById? id s.stores with
      | .ok (some _) => .ok (some (.string id))
      | .ok none => .error (.notFoundAs label)
      | .error f => .error f := by
  rw [coerceRef, scalarText?, Option.filter_some, if_pos hvalid]
  dsimp only
  rw [he, Outcome.ok_bind, hstore, Outcome.ok_bind]
  cases h.findById? id s.stores with
  | error f => rfl
  | ok found => cases found <;> rfl

end References

/--
**Ids survive being sent as numbers.**  The text of a whole number is its decimal text, over the whole range
in which numbers are kept exactly.  So a reference makes the same of the number as of the string.  If the
number is positive, it is accepted exactly if there is a document with this text as its id, and then this
text is stored.  What the store answers when it is asked for this text decides everything: whether the id
is accepted, is not found or cannot be looked up.
-/
theorem Attribute.numeric_ids_kept (n : Whole) :
    scalarText? (.number (.whole n)) = some (toString n.val) ∧
    ∀ (a : Attribute) (entity : String), a.kind = .ref entity →
      ∀ (s : Surroundings) (data : Document) (label : String),
        a.coerce s data label (some (.number (.whole n))) =
          a.coerce s data label (some (.string (toString n.val))) ∧
        (0 < n.val →
          (∀ w, a.coerce s data label (some (.number (.whole n))) = .ok w ↔
            s.HasDocument entity (toString n.val) ∧ w = some (.string (toString n.val))) ∧
          ∀ e h, s.directory.get entity = .ok e → e.store = .ok h →
            a.coerce s data label (some (.number (.whole n))) =
              match h.findById? (toString n.val) s.stores with
              | .ok (some _) => .ok (some (.string (toString n.val)))
              | .ok none => .error (.notFoundAs label)
              | .error f => .error f) := by
  have htext : scalarText? (.number (.whole n)) = some (toString n.val) :=
    congrArg some (numberScalarText_whole n)
  refine ⟨htext, fun a entity ha s data label => ?_⟩
  have hsame : a.coerce s data label (some (.number (.whole n))) =
      coerceRef s label entity (.string (toString n.val)) := by
    rw [Attribute.coerce_ref ha rfl]
    exact coerceRef_congr htext
  refine ⟨hsame.trans (Attribute.coerce_ref ha rfl).symm, fun hpos => ?_⟩
  have hvalid : isValidId (toString n.val) = true := by
    obtain ⟨k, hk⟩ := Int.eq_ofNat_of_zero_le hpos.le
    have hupper := n.upper
    rw [hk]
    exact (isValidId_toString (by omega) (by omega)).1
  rw [hsame]
  constructor
  · intro w
    rw [coerceRef_eq_ok_iff]
    constructor
    · rintro ⟨id, hid, -, hdoc, hw⟩
      obtain rfl := Option.some.inj hid
      exact ⟨hdoc, hw⟩
    · rintro ⟨hdoc, hw⟩
      exact ⟨_, rfl, hvalid, hdoc, hw⟩
  · intro e h he hstore
    exact coerceRef_of_valid hvalid he hstore

/-- The largest whole number that is kept exactly. -/
private def largest : Whole := ⟨2 ^ 64 - 1, by decide, by decide⟩

private def largestId : String := "18446744073709551615"

private def notesStore : Handle := ⟨.memory, "notes", []⟩

private def drafts : Entity := ⟨Definition.ofNames "drafts" "drafts", some ⟨.memory, "drafts", []⟩⟩

/-- A note whose id is the largest one, and no draft. -/
private def largestNote : Surroundings where
  capabilities :=
    ⟨fun t _ => .ok t, fun n => String.ofList (List.replicate n 'x'), fun _ => "7", Document.reread⟩
  directory :=
    ⟨[("drafts", drafts), ("notes", ⟨Definition.ofNames "notes" "notes", some notesStore⟩)]⟩
  stores := ⟨[("notes", [[("id", .string largestId)]])], [], 0⟩
  caller := none
  ignoreDefaults := false

theorem Attribute.numeric_ids_kept_largest :
    toString largest.val = largestId ∧ 0 < largest.val ∧
    scalarText? (.number (.whole largest)) = some largestId ∧
    (Attribute.ofKind (.ref "notes")).coerce largestNote [] "note" (some (.number (.whole largest))) =
      (Attribute.ofKind (.ref "notes")).coerce largestNote [] "note" (some (.string largestId)) ∧
    (Attribute.ofKind (.ref "notes")).coerce largestNote [] "note" (some (.number (.whole largest))) =
      .ok (some (.string largestId)) ∧
    (Attribute.ofKind (.ref "drafts")).coerce largestNote [] "draft" (some (.number (.whole largest))) =
      .error (.notFoundAs "draft") := by
  obtain ⟨htext, hcoerce⟩ := Attribute.numeric_ids_kept largest
  obtain ⟨hsame, hpositive⟩ := hcoerce (.ofKind (.ref "notes")) "notes" rfl largestNote [] "note"
  obtain ⟨-, hpositive'⟩ := hcoerce (.ofKind (.ref "drafts")) "drafts" rfl largestNote [] "draft"
  have hdigits : toString largest.val = largestId := by decide +kernel
  have hpos : 0 < largest.val := by decide
  obtain ⟨hfound, -⟩ := hpositive hpos
  obtain ⟨-, hlookedUp⟩ := hpositive' hpos
  rw [hdigits] at htext hsame hfound hlookedUp
  refine ⟨hdigits, hpos, htext, hsame, (hfound _).mpr ⟨?_, rfl⟩, hlookedUp drafts _ rfl rfl⟩
  exact ⟨_, notesStore, _, rfl, rfl, rfl⟩

end Curator
