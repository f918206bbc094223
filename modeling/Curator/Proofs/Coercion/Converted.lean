/-
Conversion leaves alone what coercion comes to.

Coercion judges what a client sends and conversion judges nothing, but they agree on what a value of a
kind looks like, hashes, slugs and callers included.  Only two things get past coercion without having
been made by it, the values of ids and defaults, and an attribute must be free of both at every depth.
The name of an entry is rewritten by coercion and not looked at by conversion.
-/
import Curator.Proofs.Coercion.Projection
import Curator.Proofs.Conversion
import Curator.Proofs.Schema.Depth

namespace Curator

/-- Nothing gets past an attribute as it was sent or declared: it holds no ids and has no default. -/
structure Attribute.IsChecked (a : Attribute) : Prop where
  noId : a.kind.name ≠ .id
  noDefault : a.default = none

/-! ### Coerced values -/

section Coerced

variable {s : Surroundings} {data : Document} {label : String} {absent : Coerced}
  {raw : Option Json} {v : Json}

theorem Surroundings.absent_none_ne (required : Bool) :
    s.absent label required none ≠ .ok (some v) := by
  rw [s.absent_none]
  cases required <;> nofun

/-- A text comes to a text, hashed or not. -/
theorem exists_string_of_coerceText {maxLength : Option Nat} {hash : Option Hashing} {cs : List Char}
    (h : coerceText s label maxLength hash cs = .ok (some v)) : ∃ t, v = .string t := by
  unfold coerceText at h
  split at h
  · cases h
  · obtain ⟨t, -, ht⟩ := Outcome.map_eq_ok_iff.mp h
    cases ht
    exact ⟨t, rfl⟩
  · cases h
    exact ⟨_, rfl⟩

/-- What is kept as text, ids aside, is a string. -/
theorem Kind.exists_string_of_coerce {k : Kind}
    (hk : k.name ∈ [.email, .enum, .ref, .slug, .string, .user]) (habsent : absent ≠ .ok (some v))
    (h : k.coerce s data label absent raw = .ok (some v)) : ∃ t, v = .string t := by
  cases k with
  | email =>
      cases raw with
      | none => exact absurd h habsent
      | some x =>
          cases x with
          | string t =>
              rw [Kind.coerce] at h
              split at h
              · exact absurd h habsent
              · split at h
                · cases h
                  exact ⟨_, rfl⟩
                · cases h
          | _ => cases h
  | enum values =>
      cases raw with
      | none => exact absurd h habsent
      | some x =>
          rw [Kind.coerce] at h
          split at h
          · cases h
            exact ⟨_, rfl⟩
          · cases h
  | ref entity =>
      cases raw with
      | none => exact absurd h habsent
      | some x =>
          rw [Kind.coerce] at h
          obtain ⟨id, -, -, -, hw⟩ := coerceRef_eq_ok_iff.mp h
          cases hw
          exact ⟨id, rfl⟩
  | slug source before after =>
      rw [Kind.coerce] at h
      split at h
      · exact absurd h habsent
      · cases h
        exact ⟨_, rfl⟩
  | string maxLength hash =>
      cases raw with
      | none => exact absurd h habsent
      | some x =>
          rw [Kind.coerce] at h
          split at h
          · cases h
          · dsimp only at h
            split at h
            · exact absurd h habsent
            · exact exists_string_of_coerceText h
  | user =>
      rw [Kind.coerce] at h
      split at h
      · cases h
        exact ⟨_, rfl⟩
      · exact absurd h habsent
  | _ => simp [Kind.name] at hk

/-! ### Conversion of coerced values -/

section Containers

variable {item : Attribute}
  (hitem : ∀ label x w, item.coerce s data label (some x) = .ok w →
    item.convert (w.getD .null) = .ok (w.getD .null))

include hitem

theorem Kind.convert_list_of_coerceItems {maxItems : Option Nat} {i : Nat} {items vs : List Json}
    (h : coerceItems (fun l x => item.coerce s data l (some x)) i items = .ok vs) :
    (Kind.list item maxItems).convert (.array vs) = .ok (.array vs) := by
  have hall := coerceItems_forall (P := fun v => item.convert v = .ok v) hitem h
  rw [Kind.convert, mapM_eq_self hall.2]
  rfl

/-- The names of the entries do not matter. -/
theorem Kind.convert_map_of_coerceEntries {key : Attribute} {entries : List (String × Json)}
    {done : Document} {failures : List Failure}
    (h : coerceEntries
      (coerceEntry (fun l x => key.coerce s data l (some x))
        (fun l x => item.coerce s data l (some x)))
      [] [] entries = .ok (done, failures)) :
    (Kind.map key item).convert (.object done) = .ok (.object done) := by
  have hall : ∀ e ∈ done, item.convert e.2 = .ok e.2 := by
    refine coerceEntries_inv (P := fun d => ∀ e ∈ d, item.convert e.2 = .ok e.2) ?_ (by simp) h
    intro d e name v hd he
    have hv : item.convert v = .ok v := by
      rw [coerceEntry] at he
      split at he
      · cases he
      · split at he
        · cases he
        · rename_i hw
          cases he
          exact hitem _ _ _ hw
    exact Dict.forall_mem_set (P := fun e => item.convert e.2 = .ok e.2) hd hv
  have hsame : ∀ e ∈ done, ((item.convert e.2).map fun w => (e.1, w)) = .ok e := by
    intro e he
    rw [hall e he]
    rfl
  rw [Kind.convert, mapM_eq_self hsame]
  rfl

end Containers

/-- Conversion leaves alone what a kind comes to, if it does so with what the attributes in it come
to. -/
theorem Kind.convert_of_coerce {k : Kind} (hk : k.name ≠ .id)
    (hitems : ∀ item ∈ k.items, ∀ label raw v,
      item.coerce s data label raw = .ok (some v) → item.convert v = .ok v)
    (habsent : absent ≠ .ok (some v)) (h : k.coerce s data label absent raw = .ok (some v)) :
    k.convert v = .ok v := by
  -- items and entries that come to nothing are null, which conversion leaves alone as well
  have hkept (item : Attribute) (hmem : item ∈ k.items) (label : String) (x : Json)
      (w : Option Json) (hw : item.coerce s data label (some x) = .ok w) :
      item.convert (w.getD .null) = .ok (w.getD .null) := by
    cases w with
    | none => exact item.convert_null
    | some u => exact hitems item hmem label _ u hw
  have htext (hk : k.name ∈ [.email, .enum, .ref, .slug, .string, .user])
      (hconvert : ∀ u, k.convert u = convertText u) : k.convert v = .ok v := by
    obtain ⟨t, rfl⟩ := Kind.exists_string_of_coerce hk habsent h
    exact hconvert _
  cases k with
  | id => exact absurd rfl hk
  | boolean =>
      cases raw with
      | none => exact absurd h habsent
      | some x =>
          rw [Kind.coerce] at h
          split at h
          · cases h
            rfl
          · cases h
  | number min max =>
      rw [Kind.coerce] at h
      split at h
      · exact absurd h habsent
      · cases h
      · rename_i x _
        obtain ⟨-, hw⟩ := coerceNumber_eq_ok_iff.mp h
        cases hw
        exact congrArg (fun n => Except.ok (Json.number n)) (Number.ofDouble_toDouble x)
  | list item maxItems =>
      cases raw with
      | none => exact absurd h habsent
      | some x =>
          cases x with
          | array items =>
              rw [Kind.coerce] at h
              split at h
              · cases h
              · split at h
                · rename_i vs hvs
                  cases h
                  exact Kind.convert_list_of_coerceItems (hkept item (by simp [Kind.items])) hvs
                · cases h
          | _ => cases h
  | map key value =>
      cases raw with
      | none => exact absurd h habsent
      | some x =>
          cases x with
          | object entries =>
              rw [Kind.coerce] at h
              split at h
              · rename_i outcome hout
                obtain ⟨done, failures⟩ := outcome
                cases failures with
                | cons f rest => cases h
                | nil =>
                    cases h
                    exact Kind.convert_map_of_coerceEntries
                      (hkept value (by simp [Kind.items])) hout
              · cases h
          | _ => cases h
  | _ => exact htext (by simp [Kind.name]) fun _ => rfl

/-- Whatever a checked attribute comes to, conversion leaves alone. -/
theorem Attribute.Throughout.convert_of_coerce {a : Attribute} (ha : a.Throughout IsChecked)
    (h : a.coerce s data label raw = .ok (some v)) : a.convert v = .ok v := by
  induction ha generalizing label raw v with
  | intro a here items ih =>
      rw [a.coerce_eq, here.noDefault] at h
      by_cases hv : v = .null
      · rw [hv, a.convert_null]
      · rw [Attribute.convert_of_ne_null hv]
        exact Kind.convert_of_coerce here.noId (fun item hitem _ _ _ => ih item hitem)
          (Surroundings.absent_none_ne _) h

end Coerced

end Curator
