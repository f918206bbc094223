/-
What comes back with other numbers in it was written with those numbers.

Between writing and reading, the numbers in a form may be exchanged, and the values in it are read by what
they stand for.  If the definition that was written is read in the end, then no number was exchanged for
another one and every value stands for itself.  The argument goes through the records of a schema one after
the other: what is read under a name is read of what was written under it, exchanged.
-/
import Curator.Proofs.Json.Numbers
import Curator.Proofs.Schema.RoundTrip

namespace Curator

open Json (exchange? exchangeItems? exchangeFields?)

variable {f : Number → Option Number} {meaning : Json → Option Json}

/-! ### The way of a form -/

/-- What is certain about the way of a form: whole numbers stay, other numbers stay doubles, and whatever
stands for the value that was written is that value. -/
structure Json.Passage (f : Number → Option Number) (meaning : Json → Option Json) : Prop where
  whole : ∀ n, f (.whole n) = some (.whole n)
  real : ∀ {x m}, f (.real x) = some m → ∃ y, m = .real y
  same : ∀ {v w}, v.exchange? f = some w → meaning w = some v → w = v

namespace Json

theorem Passage.none : Passage some some where
  whole _ := rfl
  real h := ⟨_, (Option.some.inj h).symm⟩
  same _ h := Option.some.inj h

theorem Passage.text : Passage Number.reread? meaning? where
  whole := Number.reread?_whole
  real := Number.exists_real_of_reread?
  same := eq_of_meaning?

theorem Passage.kept (hx : Passage f meaning) {v w : Json} (hw : v.exchange? f = some w)
    (h : meaning w = some v) : v.exchange? f = some v ∧ meaning v = some v := by
  obtain rfl := hx.same hw h
  exact ⟨hw, h⟩

@[simp] theorem exchange?_bool (b : Bool) : exchange? f (.bool b) = some (.bool b) := by
  simp [exchange?]

@[simp] theorem exchange?_string (s : String) : exchange? f (.string s) = some (.string s) := by
  simp [exchange?]

@[simp] theorem exchange?_strings (values : List String) :
    exchange? f (.array (values.map .string)) = some (.array (values.map .string)) :=
  exchange?_array_eq_self_iff.mpr (List.forall_mem_map.mpr fun _ _ => exchange?_string _)

theorem Passage.exchange?_ofNat (hx : Passage f meaning) {n : Nat} (h : n < 2 ^ 64) :
    exchange? f (ofNat n) = some (ofNat n) := by
  rw [ofNat_eq h, exchange?, hx.whole]
  rfl

end Json

theorem Dict.forall_mem_ofOption {α : Type} {name : String} {x : Option α} {P : String × α → Prop} :
    (∀ e ∈ ofOption name x, P e) ↔ ∀ a ∈ x, P (name, a) := by
  cases x <;> simp [ofOption]

namespace Record

/-- A value that is read as it was written was kept. -/
theorem kept_of_required (hx : Json.Passage f meaning) {fs gs : Document}
    (hgs : exchangeFields? f fs = some gs) (hnames : fs.names.Nodup) {place : Nat} {name : String}
    {v : Json} (hv : (name, v) ∈ fs) (h : (named gs).required place name meaning = some v) :
    v.exchange? f = some v ∧ meaning v = some v := by
  obtain ⟨w, hw, hread⟩ := required_eq_some h
  exact hx.kept (Json.exchange?_of_mem hgs hnames hv (mem_of_field? hw)) hread

end Record

/-! ### Records without values -/

theorem Rule.exchange?_toJson (r : Rule) : r.toJson.exchange? f = some r.toJson := by
  cases r with
  | one a => exact Json.exchange?_string _
  | any as =>
      rw [toJson, Json.exchange?_array_eq_self_iff]
      exact List.forall_mem_map.mpr fun _ _ => Json.exchange?_string _

theorem Permissions.exchange?_toJson (p : Permissions) : p.toJson.exchange? f = some p.toJson := by
  rw [toJson, Json.exchange?_object_eq_self_iff]
  simp only [List.forall_mem_append, Dict.forall_mem_ofOption, Option.mem_map]
  simp [Rule.exchange?_toJson]

theorem Affix.exchange?_toJson (hx : Json.Passage f meaning) {a : Affix} (h : a.chars < 2 ^ 64) :
    a.toJson.exchange? f = some a.toJson := by
  rw [toJson, Json.exchange?_object_eq_self_iff]
  simp [hx.exchange?_ofNat h]

theorem Hashing.exchange?_toJson (hx : Json.Passage f meaning) {h : Hashing}
    (hrounds : ∀ n ∈ h.rounds, n < 2 ^ 32) : h.toJson.exchange? f = some h.toJson := by
  rw [toJson, Json.exchange?_object_eq_self_iff, List.forall_mem_cons, Dict.forall_mem_ofOption]
  refine ⟨Json.exchange?_string _, fun v hv => ?_⟩
  obtain ⟨n, hn, rfl⟩ := Option.mem_map.mp hv
  dsimp only
  exact hx.exchange?_ofNat (Nat.lt_of_lt_of_le (hrounds n hn) (by decide))

theorem Index.exchange?_toJson (i : Index) : i.toJson.exchange? f = some i.toJson := by
  rw [toJson, Json.exchange?_object_eq_self_iff]
  simp

/-! ### Hooks and joins -/

theorem Condition.kept (hx : Json.Passage f meaning) {c : Condition} {w : Json}
    (hw : c.toJson.exchange? f = some w) (h : readWith? meaning w = some c) :
    c.toJson.exchange? f = some c.toJson ∧ ∀ v ∈ c.values, meaning v = some v := by
  rw [toJson, exchange?] at hw
  obtain ⟨gs, hgs, rfl⟩ := Option.map_eq_some_iff.mp hw
  obtain ⟨_, ⟨⟩, hleft, hright⟩ := readWith?_eq_some h
  obtain ⟨hleft, hleftMeaning⟩ := Record.kept_of_required hx hgs (by simp) (by simp) hleft
  obtain ⟨hright, hrightMeaning⟩ := Record.kept_of_required hx hgs (by simp) (by simp) hright
  refine ⟨?_, by simp [values, hleftMeaning, hrightMeaning]⟩
  rw [toJson, Json.exchange?_object_eq_self_iff]
  simp [hleft, hright]

theorem Hook.kept (hx : Json.Passage f meaning) {h : Hook} {w : Json}
    (hw : h.toJson.exchange? f = some w) (hread : readWith? meaning w = some h) :
    h.toJson.exchange? f = some h.toJson ∧ ∀ v ∈ h.values, meaning v = some v := by
  have hnames := h.nodup_names_fields
  rw [toJson_eq, exchange?] at hw
  obtain ⟨gs, hgs, rfl⟩ := Option.map_eq_some_iff.mp hw
  obtain ⟨hcondition, hvalue⟩ := readWith?_eq_some hread
  obtain ⟨hvalue, hvalueMeaning⟩ :=
    Record.kept_of_required hx hgs hnames (by simp [fields]) hvalue
  have hkept : ∀ c ∈ h.condition, c.toJson.exchange? f = some c.toJson ∧
      ∀ v ∈ c.values, meaning v = some v := by
    intro c hc
    obtain ⟨w, hw, -, hread⟩ := Record.nullable_eq_some hcondition c hc
    refine Condition.kept hx (Json.exchange?_of_mem hgs hnames ?_ (Record.mem_of_field? hw)) hread
    exact List.mem_append_left _ (Dict.mem_ofOption.mpr ⟨rfl, Option.mem_map_of_mem _ hc⟩)
  constructor
  · rw [toJson_eq, Json.exchange?_object_eq_self_iff, fields, List.forall_mem_append,
      Dict.forall_mem_ofOption]
    refine ⟨fun v hv => ?_, by simp [hvalue]⟩
    obtain ⟨c, hc, rfl⟩ := Option.mem_map.mp hv
    exact (hkept c hc).1
  · rw [values, List.forall_mem_cons]
    refine ⟨hvalueMeaning, fun v hv => ?_⟩
    obtain ⟨c, hc, hv⟩ := List.mem_flatMap.mp hv
    exact (hkept c (Option.mem_toList.mp hc)).2 v hv

theorem Join.kept (hx : Json.Passage f meaning) {j : Join} {w : Json}
    (hw : j.toJson.exchange? f = some w) (h : readWith? meaning w = some j) :
    j.toJson.exchange? f = some j.toJson ∧ ∀ e ∈ j.query, meaning e.2 = some e.2 := by
  have hnodup := nodup_names_query h
  rw [toJson, exchange?] at hw
  obtain ⟨gs, hgs, rfl⟩ := Option.map_eq_some_iff.mp hw
  obtain ⟨_, ⟨⟩, hquery⟩ := readWith?_eq_some h
  have hkept : ∀ e ∈ j.query, e.2.exchange? f = some e.2 ∧ meaning e.2 = some e.2 := by
    rcases Record.orElse_eq_some hquery with hnone | ⟨w, hw, hread⟩
    · rw [hnone]
      exact List.forall_mem_nil _
    have hw : exchange? f (.object j.query) = some w :=
      Json.exchange?_of_mem hgs (by simp) (by simp) (Record.mem_of_field? hw)
    rw [exchange?] at hw
    obtain ⟨hs, hhs, rfl⟩ := Option.map_eq_some_iff.mp hw
    obtain ⟨es, hes, hsame⟩ := Option.map_eq_some_iff.mp hread
    have hnames := (Dict.names_of_mapM hes).trans (Json.names_of_exchangeFields? hhs)
    rw [Dict.ofList_eq_self (hnames ▸ hnodup)] at hsame
    subst hsame
    intro e he
    obtain ⟨g, hg, hread⟩ := mem_of_mapM hes e he
    obtain ⟨v, hv, rfl⟩ := Option.map_eq_some_iff.mp hread
    exact hx.kept (Json.exchange?_of_mem hhs hnodup he hg) hv
  refine ⟨?_, fun e he => (hkept e he).2⟩
  have hqueryKept := Json.exchange?_object_eq_self_iff.mpr fun e he => (hkept e he).1
  rw [toJson, Json.exchange?_object_eq_self_iff]
  simp [hqueryKept]

/-! ### Attributes -/

theorem Bound.kept (hx : Json.Passage f meaning) {b : Bound} {w : Json}
    (hw : b.toJson.exchange? f = some w) (h : Bound.read? w = some b) :
    b.toJson.exchange? f = some b.toJson := by
  cases b with
  | finite x =>
      rw [toJson, exchange?] at hw ⊢
      obtain ⟨m, hm, rfl⟩ := Option.map_eq_some_iff.mp hw
      obtain ⟨y, rfl⟩ := hx.real hm
      cases h
      exact hw
  | infinite negative => exact (Bound.isFinite_of_read? h).elim
  | undefined => exact (Bound.isFinite_of_read? h).elim

namespace Kind

variable {k : Kind}

theorem mem_fields_of_mem_bounds {e : String × Bound} (h : e ∈ k.bounds) :
    (e.1, e.2.toJson) ∈ k.fields := by
  cases k with
  | number min max =>
      rw [fields, List.mem_append, Dict.mem_ofOption, Dict.mem_ofOption]
      rcases List.mem_append.mp h with h | h
      · obtain ⟨hname, hb⟩ := Dict.mem_ofOption.mp h
        exact .inl ⟨hname, Option.mem_map_of_mem _ hb⟩
      · obtain ⟨hname, hb⟩ := Dict.mem_ofOption.mp h
        exact .inr ⟨hname, Option.mem_map_of_mem _ hb⟩
  | _ => cases h

theorem mem_fields_of_mem_itemFields {e : String × Attribute} (h : e ∈ k.itemFields) :
    (e.1, e.2.toJson) ∈ k.fields := by
  cases k with
  | list item maxItems =>
      obtain rfl := List.mem_singleton.mp h
      exact List.mem_cons_self
  | map key value =>
      rw [itemFields, List.mem_cons, List.mem_singleton] at h
      rcases h with rfl | rfl <;> simp [fields]
  | _ => cases h

/-- The fields of a kind are kept if its bounds and the attributes in it are. -/
theorem exchange?_fields (hx : Json.Passage f meaning) (hcounts : k.Counts)
    (hbounds : ∀ e ∈ k.bounds, e.2.toJson.exchange? f = some e.2.toJson)
    (hitems : ∀ item ∈ k.items, item.toJson.exchange? f = some item.toJson) :
    ∀ e ∈ k.fields, e.2.exchange? f = some e.2 := by
  have hcount : ∀ {x : Option Nat}, (∀ n ∈ x, n < 2 ^ 64) → ∀ v ∈ x.map Json.ofNat,
      v.exchange? f = some v := by
    intro x h v hv
    obtain ⟨n, hn, rfl⟩ := Option.mem_map.mp hv
    exact hx.exchange?_ofNat (h n hn)
  have haffix : ∀ {x : Option Affix}, (∀ a ∈ x, a.chars < 2 ^ 64) → ∀ v ∈ x.map Affix.toJson,
      v.exchange? f = some v := by
    intro x h v hv
    obtain ⟨a, ha, rfl⟩ := Option.mem_map.mp hv
    exact a.exchange?_toJson hx (h a ha)
  cases k with
  | list item maxItems =>
      rw [fields, List.forall_mem_cons, Dict.forall_mem_ofOption]
      exact ⟨hitems item List.mem_cons_self, hcount hcounts⟩
  | map key value =>
      rw [fields, List.forall_mem_cons, List.forall_mem_singleton]
      exact ⟨hitems key List.mem_cons_self, hitems value (by simp [items])⟩
  | number min max =>
      rw [bounds, List.forall_mem_append, Dict.forall_mem_ofOption, Dict.forall_mem_ofOption]
        at hbounds
      rw [fields, List.forall_mem_append, Dict.forall_mem_ofOption, Dict.forall_mem_ofOption]
      constructor <;>
        · intro v hv
          obtain ⟨b, hb, rfl⟩ := Option.mem_map.mp hv
          first
            | exact hbounds.1 b hb
            | exact hbounds.2 b hb
  | slug source before after =>
      rw [fields, List.forall_mem_cons, List.forall_mem_append, Dict.forall_mem_ofOption,
        Dict.forall_mem_ofOption]
      exact ⟨Json.exchange?_string _, haffix hcounts.1, haffix hcounts.2⟩
  | string maxLength hash =>
      rw [fields, List.forall_mem_append, Dict.forall_mem_ofOption, Dict.forall_mem_ofOption]
      refine ⟨hcount hcounts.1, fun v hv => ?_⟩
      obtain ⟨h, hh, rfl⟩ := Option.mem_map.mp hv
      exact h.exchange?_toJson hx (hcounts.2 h hh)
  | enum values =>
      rw [fields, List.forall_mem_singleton]
      exact Json.exchange?_strings values
  | ref entity =>
      rw [fields, List.forall_mem_singleton]
      exact Json.exchange?_string entity
  | boolean | email | id | user => exact List.forall_mem_nil _

end Kind

namespace Attribute

variable {a : Attribute}

theorem exchange?_toJson (hx : Json.Passage f meaning) (hcounts : a.kind.Counts)
    (hbounds : ∀ e ∈ a.kind.bounds, e.2.toJson.exchange? f = some e.2.toJson)
    (hitems : ∀ item ∈ a.kind.items, item.toJson.exchange? f = some item.toJson)
    (hdefault : ∀ v ∈ a.default, v.exchange? f = some v) :
    a.toJson.exchange? f = some a.toJson := by
  rw [toJson_eq, Json.exchange?_object_eq_self_iff, fields, List.forall_mem_cons,
    List.forall_mem_append, commonFields, List.forall_mem_append, List.forall_mem_append,
    Dict.forall_mem_ofOption, Dict.forall_mem_ofOption]
  refine ⟨Json.exchange?_string _, Kind.exchange?_fields hx hcounts hbounds hitems, by simp,
    hdefault, fun v hv => ?_⟩
  obtain ⟨p, -, rfl⟩ := Option.mem_map.mp hv
  exact p.exchange?_toJson

/-- A part that is read under a name is what was written under it, exchanged. -/
theorem exists_exchange?_of_part {fields gs : Document} (hgs : exchangeFields? f fields = some gs)
    (hnames : fields.names.Nodup) {place : Nat} {name : String} {v : Json} {p : Part}
    (hv : (name, v) ∈ fields)
    (hp : (Record.named (parts meaning gs)).field? place name = some (some p)) :
    v.exchange? f = some p.1 ∧ p.2 = readWith? meaning p.1 := by
  have hmem := Record.mem_of_field? hp
  rw [parts_eq_mapValues] at hmem
  obtain ⟨g, hg, hsame⟩ := List.mem_map.mp hmem
  cases hsame
  exact ⟨Json.exchange?_of_mem hgs hnames hv hg, rfl⟩

theorem kept (hx : Json.Passage f meaning) (hcounts : a.Throughout fun b => b.kind.Counts)
    {w : Json} (hw : a.toJson.exchange? f = some w) (hread : readWith? meaning w = some a) :
    a.toJson.exchange? f = some a.toJson ∧
      a.Throughout fun b => ∀ v ∈ b.default, meaning v = some v := by
  induction hcounts generalizing w with
  | intro a hcounts items ih =>
      have hnames := a.nodup_names_fields
      rw [toJson_eq, exchange?] at hw
      obtain ⟨gs, hgs, rfl⟩ := Option.map_eq_some_iff.mp hw
      rw [readWith?] at hread
      obtain ⟨hkind, hdefault⟩ := ofParts?_eq_some hread
      obtain ⟨-, hbounds, hitemFields⟩ := Kind.of_ofRecord? hkind
      have hfields : ∀ e ∈ a.kind.fields, e ∈ a.fields := fun e he =>
        List.mem_cons_of_mem _ (List.mem_append_left _ he)
      have hboundsKept : ∀ e ∈ a.kind.bounds, e.2.toJson.exchange? f = some e.2.toJson := by
        intro e he
        obtain ⟨place, p, hp, hread⟩ := hbounds e he
        have hv := hfields _ (Kind.mem_fields_of_mem_bounds he)
        exact e.2.kept hx (exists_exchange?_of_part hgs hnames hv hp).1 hread
      have hitemsKept : ∀ item ∈ a.kind.items, item.toJson.exchange? f = some item.toJson ∧
          item.Throughout fun b => ∀ v ∈ b.default, meaning v = some v := by
        intro item hitem
        obtain ⟨name, hfield⟩ := Kind.mem_items_iff.mp hitem
        obtain ⟨place, p, hp, hpitem⟩ := hitemFields _ hfield
        have hv := hfields _ (Kind.mem_fields_of_mem_itemFields hfield)
        obtain ⟨hexchange, hpart⟩ := exists_exchange?_of_part hgs hnames hv hp
        exact ih item hitem hexchange (hpart ▸ hpitem)
      have hdefaultKept : ∀ v ∈ a.default, v.exchange? f = some v ∧ meaning v = some v := by
        intro v hv
        obtain ⟨place, p, hp, -, hread⟩ := exists_part_of_default hdefault v hv
        have hmem : ("default", v) ∈ a.fields := by
          simp [fields, commonFields, Dict.mem_ofOption, hv]
        exact hx.kept (exists_exchange?_of_part hgs hnames hmem hp).1 hread
      refine ⟨exchange?_toJson hx hcounts hboundsKept (fun item hitem => (hitemsKept item hitem).1)
        fun v hv => (hdefaultKept v hv).1, ?_⟩
      exact .intro a (fun v hv => (hdefaultKept v hv).2) fun item hitem => (hitemsKept item hitem).2

end Attribute

/-! ### Collections -/

namespace Definition

section Collections

variable {α : Type} {write : α → Json} {read : Json → Option α} {w : Json}

/-- What is read of an entry is read of what was written of it, exchanged. -/
theorem exists_exchange?_of_readEntries {m : NameMap α}
    (hw : exchange? f (.object (Dict.mapValues write m.entries)) = some w)
    (h : readEntries read w = some m) :
    ∀ e ∈ m.entries, ∃ v, (write e.2).exchange? f = some v ∧ read v = some e.2 := by
  rw [exchange?] at hw
  obtain ⟨gs, hgs, rfl⟩ := Option.map_eq_some_iff.mp hw
  obtain ⟨es, hes, rfl⟩ := Option.map_eq_some_iff.mp h
  intro e he
  obtain ⟨g, hg, hread⟩ := mem_of_mapM hes e (NameMap.mem_of_mem_ofList he)
  obtain ⟨a, ha, rfl⟩ := Option.map_eq_some_iff.mp hread
  refine ⟨g.2, Json.exchange?_of_mem hgs ?_ (List.mem_map_of_mem he) hg, ha⟩
  rw [Dict.names_mapValues]
  exact NameMap.nodup_names _

theorem exists_exchange?_of_readList {as : List α}
    (hw : exchange? f (.array (as.map write)) = some w) (h : readList read w = some as) :
    ∀ a ∈ as, ∃ v, (write a).exchange? f = some v ∧ read v = some a := by
  rw [exchange?] at hw
  obtain ⟨ws, hws, rfl⟩ := Option.map_eq_some_iff.mp hw
  rw [readList] at h
  clear hw
  induction as generalizing ws with
  | nil => exact List.forall_mem_nil _
  | cons a as ih =>
      rw [List.map_cons, exchangeItems?] at hws
      obtain ⟨v, hv, hws⟩ := Option.bind_eq_some_iff.mp hws
      obtain ⟨rest, hrest, rfl⟩ := Option.map_eq_some_iff.mp hws
      rw [List.mapM_cons] at h
      obtain ⟨a', ha, h⟩ := Option.bind_eq_some_iff.mp h
      obtain ⟨as', has, h⟩ := Option.bind_eq_some_iff.mp h
      cases h
      exact List.forall_mem_cons.mpr ⟨⟨v, hv, ha⟩, ih rest hrest has⟩

end Collections

variable {hooks : Lifecycle → Option (List Hook)}

theorem exchange?_hooksToJson
    (h : ∀ l hs, hooks l = some hs → ∀ h ∈ hs, h.toJson.exchange? f = some h.toJson) :
    exchange? f (hooksToJson hooks) = some (hooksToJson hooks) := by
  rw [hooksToJson_eq, Json.exchange?_object_eq_self_iff]
  refine List.forall_mem_map.mpr fun e he => ?_
  exact Json.exchange?_array_eq_self_iff.mpr
    (List.forall_mem_map.mpr (h e.1 e.2 (mem_hookEntries.mp he)))

theorem hooks_kept (hx : Json.Passage f meaning) {w : Json}
    (hw : exchange? f (hooksToJson hooks) = some w) (h : readHooks meaning w = some hooks) :
    ∀ l hs, hooks l = some hs → ∀ h ∈ hs, h.toJson.exchange? f = some h.toJson ∧
      ∀ v ∈ h.values, meaning v = some v := by
  intro l hs hl
  rw [hooksToJson_eq, exchange?] at hw
  obtain ⟨gs, hgs, rfl⟩ := Option.map_eq_some_iff.mp hw
  obtain ⟨es, hes, hsame⟩ := Option.map_eq_some_iff.mp h
  have hfound := congrFun hsame l
  rw [hl] at hfound
  obtain ⟨e, he, rfl⟩ := Option.map_eq_some_iff.mp hfound
  obtain ⟨g, hg, hread⟩ := mem_of_mapM hes e (List.mem_reverse.mp (List.mem_of_find?_eq_some he))
  obtain ⟨l', hword, hread⟩ := Option.bind_eq_some_iff.mp hread
  obtain ⟨hs, hlist, hread⟩ := Option.bind_eq_some_iff.mp hread
  cases hread
  obtain rfl : l' = l := by simpa using List.find?_some he
  -- The entry that was exchanged has the same word, so it is the one of this point.
  obtain ⟨written, hmem, hname, hexchange⟩ := Json.mem_of_exchangeFields? hgs hg
  obtain ⟨entry, hentry, rfl⟩ := List.mem_map.mp hmem
  rw [← hname, entry.1.find?_word] at hword
  obtain rfl := Option.some.inj hword
  have hsame := mem_hookEntries.mp hentry
  rw [hl] at hsame
  obtain rfl := Option.some.inj hsame
  intro hook hhook
  obtain ⟨v, hv, hread⟩ := exists_exchange?_of_readList hexchange hlist hook hhook
  exact hook.kept hx hv hread

/-! ### Definitions -/

variable {d : Definition}

theorem exchange?_toJson
    (hattributes : ∀ e ∈ d.attributes.entries, e.2.toJson.exchange? f = some e.2.toJson)
    (hjoins : ∀ e ∈ d.joins.entries, e.2.toJson.exchange? f = some e.2.toJson)
    (hhooks : ∀ l hs, d.hooks l = some hs → ∀ h ∈ hs, h.toJson.exchange? f = some h.toJson) :
    d.toJson.exchange? f = some d.toJson := by
  have hentries : ∀ {α : Type} {write : α → Json} {m : NameMap α},
      (∀ e ∈ m.entries, (write e.2).exchange? f = some (write e.2)) →
      exchange? f (.object (Dict.mapValues write m.entries)) =
        some (.object (Dict.mapValues write m.entries)) :=
    fun h => Json.exchange?_object_eq_self_iff.mpr (List.forall_mem_map.mpr h)
  have hindexes : exchange? f (.array (d.indexes.map Index.toJson)) =
      some (.array (d.indexes.map Index.toJson)) :=
    Json.exchange?_array_eq_self_iff.mpr (List.forall_mem_map.mpr fun i _ => i.exchange?_toJson)
  have hpermissions : ∀ v ∈ d.permissions.map Permissions.toJson, v.exchange? f = some v := by
    intro v hv
    obtain ⟨p, -, rfl⟩ := Option.mem_map.mp hv
    exact p.exchange?_toJson
  rw [toJson, Json.exchange?_object_eq_self_iff, List.forall_mem_append, List.forall_mem_append,
    Dict.forall_mem_ofOption]
  refine ⟨by simp, hpermissions, ?_⟩
  simp [hentries hattributes, hentries hjoins, hindexes, exchange?_hooksToJson hhooks]

theorem kept (hx : Json.Passage f meaning) (hfits : d.Fits) {w : Json}
    (hw : d.toJson.exchange? f = some w) (h : readWith? meaning w = some d) :
    d.toJson.exchange? f = some d.toJson ∧ d.Literal meaning := by
  have hnames := d.nodup_names_fields
  have hattributesMem : ("attributes", Json.object (Dict.mapValues Attribute.toJson
      d.attributes.entries)) ∈ d.fields := by simp [fields]
  have hjoinsMem : ("joinAttributes", Json.object (Dict.mapValues Join.toJson d.joins.entries)) ∈
      d.fields := by simp [fields]
  have hhooksMem : ("hooks", hooksToJson d.hooks) ∈ d.fields := by simp [fields]
  rw [toJson_eq, exchange?] at hw
  obtain ⟨gs, hgs, rfl⟩ := Option.map_eq_some_iff.mp hw
  obtain ⟨_, ⟨⟩, hattributes, hjoins, hhooks⟩ := readWith?_eq_some h
  have hattributesKept : ∀ e ∈ d.attributes.entries, e.2.toJson.exchange? f = some e.2.toJson ∧
      e.2.Throughout fun a => ∀ v ∈ a.default, meaning v = some v := by
    rcases Record.orElse_eq_some hattributes with hnone | ⟨w, hw, hread⟩
    · rw [hnone]
      exact List.forall_mem_nil _
    intro e he
    obtain ⟨v, hv, hread⟩ := exists_exchange?_of_readEntries
      (Json.exchange?_of_mem hgs hnames hattributesMem (Record.mem_of_field? hw)) hread e he
    exact Attribute.kept hx (hfits.counts e he) hv hread
  have hjoinsKept : ∀ e ∈ d.joins.entries, e.2.toJson.exchange? f = some e.2.toJson ∧
      ∀ field ∈ e.2.query, meaning field.2 = some field.2 := by
    rcases Record.orElse_eq_some hjoins with hnone | ⟨w, hw, hread⟩
    · rw [hnone]
      exact List.forall_mem_nil _
    intro e he
    obtain ⟨v, hv, hread⟩ := exists_exchange?_of_readEntries
      (Json.exchange?_of_mem hgs hnames hjoinsMem (Record.mem_of_field? hw)) hread e he
    exact e.2.kept hx hv hread
  have hhooksKept : ∀ l hs, d.hooks l = some hs → ∀ h ∈ hs,
      h.toJson.exchange? f = some h.toJson ∧ ∀ v ∈ h.values, meaning v = some v := by
    rcases Record.orElse_eq_some hhooks with hnone | ⟨w, hw, hread⟩
    · rw [hnone]
      intro l hs hl
      cases hl
    exact hooks_kept hx (Json.exchange?_of_mem hgs hnames hhooksMem (Record.mem_of_field? hw)) hread
  exact ⟨exchange?_toJson (fun e he => (hattributesKept e he).1) (fun e he => (hjoinsKept e he).1)
      fun l hs hl h hh => (hhooksKept l hs hl h hh).1,
    fun e he => (hattributesKept e he).2, fun e he => (hjoinsKept e he).2,
    fun l hs hl h hh => (hhooksKept l hs hl h hh).2⟩

/-- A definition comes back just if its bounds are finite, each of its numbers comes back, and each of
its values stands for itself. -/
theorem exchange?_bind_readWith?_iff (hx : Json.Passage f meaning) (hfits : d.Fits)
    (hdefault : d.NoNullDefault) :
    (d.toJson.exchange? f).bind (readWith? meaning) = some d ↔
      d.FiniteBounds ∧ (∀ n ∈ d.toJson.numbers, f n = some n) ∧ d.Literal meaning := by
  constructor
  · intro h
    obtain ⟨w, hw, hread⟩ := Option.bind_eq_some_iff.mp h
    obtain ⟨hkept, hliteral⟩ := kept hx hfits hw hread
    exact ⟨finiteBounds_of_readWith? hread, Json.exchange?_eq_self_iff _ |>.mp hkept, hliteral⟩
  · rintro ⟨hbounds, hnumbers, hliteral⟩
    rw [(Json.exchange?_eq_self_iff _).mpr hnumbers]
    exact readWith?_toJson hfits hbounds hdefault hliteral

/-- In a value, a definition comes back just if its bounds are finite. -/
theorem read?_toJson_iff (hfits : d.Fits) (hdefault : d.NoNullDefault) :
    Definition.read? d.toJson = some d ↔ d.FiniteBounds := by
  have hself : d.toJson.exchange? some = some d.toJson :=
    (Json.exchange?_eq_self_iff _).mpr fun _ _ => rfl
  have hback := exchange?_bind_readWith?_iff Json.Passage.none hfits hdefault
  rw [hself] at hback
  exact hback.trans ⟨fun h => h.1, fun h => ⟨h, fun _ _ => rfl, literal_some hfits⟩⟩

end Definition

end Curator
