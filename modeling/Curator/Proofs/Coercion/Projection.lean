/-
Coercion keeps what conforms and yields nothing else.

`Conforms` says what the stored values of a kind look like, clause by clause and without a word about
how they are arrived at.  For attributes that declare no default, hash or slug, and hold no ids and
callers, coercion is a projection onto these values: whatever it accepts it turns into a conforming
value, and a conforming value it gives back as it is.

Two places keep the induction from being a mere walk over the kinds.  An item or entry may come to
nothing, and is then kept as null, so the values inside a container need only be admitted: conform, or
be null where no value is required.  And the name of a map entry is replaced by the text of what its
key attribute makes of it.  That this text is left alone when it is coerced again rests, for numbers,
on texts of numbers reading back.
-/
import Curator.Coercion
import Curator.Proofs.Number.Text
import Curator.Proofs.Store.Entries

namespace Curator

/-! ### Attributes whose values are all their own -/

mutual

/-- Whether a kind makes its values of what was sent alone, at every depth. -/
def Kind.IsPlain : Kind → Prop
  | .boolean => True
  | .email => True
  | .enum _ => True
  | .number _ _ => True
  | .string _ hash => hash = none
  | .ref _ => True
  | .list item _ => item.IsPlain
  | .map key value => key.IsPlain ∧ value.IsPlain
  | .id => False
  | .slug _ _ _ => False
  | .user => False

/-- Whether an attribute has a plain kind and no default, at every depth. -/
def Attribute.IsPlain : Attribute → Prop
  | ⟨kind, _, _, default, _⟩ => kind.IsPlain ∧ default = none

end

/-- Whether an attribute leaves the name of an entry as it is. -/
def Attribute.KeepsName (s : Surroundings) (data : Document) (key : Attribute) (name : String) :
    Prop :=
  ∃ w, key.coerce s data name (some (.string name)) = .ok w ∧ entryName name w = name

/-- Whether a document can be read under an id from the store of an entity. -/
def Surroundings.HasDocument (s : Surroundings) (entity id : String) : Prop :=
  ∃ e h d, s.directory.get entity = .ok e ∧ e.store = .ok h ∧
    (h.entries s.stores).get? id = some (.ok d)

namespace Bound

/-- A bound is at most a number; one that is not a number puts no limit to it. -/
def AtMost : Bound → Rat → Prop
  | finite low, r => low.value ≤ r
  | infinite negative, _ => negative = true
  | undefined, _ => True

/-- A bound is at least a number. -/
def AtLeast : Bound → Rat → Prop
  | finite high, r => r ≤ high.value
  | infinite negative, _ => negative = false
  | undefined, _ => True

theorem isAbove_eq_false_iff (b : Bound) (x : Double) : b.isAbove x = false ↔ b.AtMost x.value := by
  cases b with
  | finite low =>
      have hlt := Double.order_eq_lt_iff x low
      simp [isAbove, AtMost, hlt]
  | infinite negative => simp [isAbove, AtMost]
  | undefined => simp [isAbove, AtMost]

theorem isBelow_eq_false_iff (b : Bound) (x : Double) : b.isBelow x = false ↔ b.AtLeast x.value := by
  cases b with
  | finite high =>
      have hgt := Double.order_eq_gt_iff x high
      simp [isBelow, AtLeast, hgt]
  | infinite negative => simp [isBelow, AtLeast]
  | undefined => simp [isBelow, AtLeast]

end Bound

mutual

/-- The values that conform to a kind.  There is no null among them. -/
inductive Conforms (s : Surroundings) (data : Document) : Kind → Json → Prop where
  | boolean (b : Bool) : Conforms s data .boolean (.bool b)
  | email {t : String} (trimmed : Text.IsTrimmed t.toList) (shape : Text.isEmail t.toList = true) :
      Conforms s data .email (.string t)
  | enum {values : List String} {t : String} (member : t ∈ values) :
      Conforms s data (.enum values) (.string t)
  | number {min max : Option Bound} {x : Double} (above : ∀ low ∈ min, low.AtMost x.value)
      (below : ∀ high ∈ max, high.AtLeast x.value) :
      Conforms s data (.number min max) (.number (Number.ofDouble x))
  | string {maxLength : Option Nat} {hash : Option Hashing} {t : String}
      (trimmed : Text.IsTrimmed t.toList) (nonempty : t ≠ "")
      (short : ∀ n ∈ maxLength, t.toList.length ≤ n) :
      Conforms s data (.string maxLength hash) (.string t)
  | ref {entity id : String} (valid : isValidId id = true) (found : s.HasDocument entity id) :
      Conforms s data (.ref entity) (.string id)
  | list {item : Attribute} {maxItems : Option Nat} {items : List Json}
      (few : ∀ n ∈ maxItems, items.length ≤ n) (admitted : ∀ v ∈ items, Admits s data item v) :
      Conforms s data (.list item maxItems) (.array items)
  | map {key value : Attribute} {fields : Document} (distinct : fields.names.Nodup)
      (kept : ∀ e ∈ fields, key.KeepsName s data e.1)
      (admitted : ∀ e ∈ fields, Admits s data value e.2) :
      Conforms s data (.map key value) (.object fields)

/-- The values that an attribute admits inside a list or a map. -/
inductive Admits (s : Surroundings) (data : Document) : Attribute → Json → Prop where
  | value {a : Attribute} {v : Json} (conforms : Conforms s data a.kind v) : Admits s data a v
  | unset {a : Attribute} (optional : a.required = false) : Admits s data a .null

end

theorem Conforms.isNull_eq_false {s : Surroundings} {data : Document} {k : Kind} {v : Json}
    (h : Conforms s data k v) : v.isNull = false := by
  cases h <;> rfl

/-! ### What the parts of coercion accept -/

/-- Without a default, an absent value fails where one is required and stays unset elsewhere. -/
theorem Surroundings.absent_none (s : Surroundings) (label : String) (required : Bool) :
    s.absent label required none =
      if required then .error (.invalid label .required) else .ok none := by
  cases hs : s.ignoreDefaults <;> simp [absent, hs]

theorem coerceNumber_eq_ok_iff {label : String} {min max : Option Bound} {x : Double}
    {w : Option Json} :
    coerceNumber label min max x = .ok w ↔
      ((∀ low ∈ min, low.AtMost x.value) ∧ ∀ high ∈ max, high.AtLeast x.value) ∧
        w = some (.number (Number.ofDouble x)) := by
  have hmin : (∀ low ∈ min, low.AtMost x.value) ↔
      (min.filter fun low => low.isAbove x) = none := by
    simp [Option.filter_eq_none_iff, Bound.isAbove_eq_false_iff]
  have hmax : (∀ high ∈ max, high.AtLeast x.value) ↔
      (max.filter fun high => high.isBelow x) = none := by
    simp [Option.filter_eq_none_iff, Bound.isBelow_eq_false_iff]
  rw [hmin, hmax, coerceNumber]
  split
  · rename_i hlow
    simp [hlow]
  · rename_i hlow hhigh
    simp [hlow, hhigh]
  · rename_i hlow hhigh
    simp [hlow, hhigh, eq_comm]

theorem coerceText_eq_ok_iff {s : Surroundings} {label : String} {maxLength : Option Nat}
    {cs : List Char} {w : Option Json} :
    coerceText s label maxLength none cs = .ok w ↔
      (∀ n ∈ maxLength, cs.length ≤ n) ∧ w = some (.string (String.ofList cs)) := by
  have hmax : (∀ n ∈ maxLength, cs.length ≤ n) ↔
      (maxLength.filter fun n => n < cs.length) = none := by
    simp [Option.filter_eq_none_iff]
  rw [hmax]
  unfold coerceText
  split
  · rename_i hlong
    simp [hlong]
  · rename_i hhash
    cases hhash
  · rename_i hlong _
    simp [hlong, eq_comm]

/-- A document can be read from a store when every step of looking for it goes through. -/
theorem Surroundings.hasDocument_iff {s : Surroundings} {entity id : String}
    (hvalid : isValidId id = true) :
    s.HasDocument entity id ↔
      ∃ e h d, s.directory.get entity = .ok e ∧ e.store = .ok h ∧
        h.findById? id s.stores = .ok (some d) := by
  have hfind : ∀ (h : Handle) d, h.findById? id s.stores = .ok (some d) ↔
      (h.entries s.stores).get? id = some (.ok d) := by
    intro h d
    rw [Handle.findById?_eq (ne_empty_of_isValidId hvalid)]
    split
    · simp [*]
    · rename_i r hr
      cases r <;> simp [hr, Except.map]
  simp only [HasDocument, hfind]

theorem coerceRef_eq_ok_iff {s : Surroundings} {label entity : String} {v : Json}
    {w : Option Json} :
    coerceRef s label entity v = .ok w ↔
      ∃ id, scalarText? v = some id ∧ isValidId id = true ∧ s.HasDocument entity id ∧
        w = some (.string id) := by
  cases htext : (scalarText? v).filter isValidId with
  | none =>
      simp only [coerceRef, htext, reduceCtorEq, false_iff]
      rintro ⟨id, hid, hvalid, -⟩
      rw [hid, Option.filter_some, if_pos hvalid] at htext
      cases htext
  | some id =>
      obtain ⟨hid, hvalid⟩ := Option.filter_eq_some_iff.mp htext
      rw [coerceRef, htext]
      dsimp only
      constructor
      · intro h
        obtain ⟨e, he, h⟩ := Outcome.bind_eq_ok_iff.mp h
        obtain ⟨handle, hhandle, h⟩ := Outcome.bind_eq_ok_iff.mp h
        obtain ⟨found, hfound, h⟩ := Outcome.bind_eq_ok_iff.mp h
        cases found with
        | none => cases h
        | some d =>
            cases h
            exact ⟨id, hid, hvalid,
              (Surroundings.hasDocument_iff hvalid).mpr ⟨e, handle, d, he, hhandle, hfound⟩, rfl⟩
      · rintro ⟨other, hother, -, hdoc, rfl⟩
        obtain rfl := Option.some.inj (hid.symm.trans hother)
        obtain ⟨e, handle, d, he, hhandle, hfound⟩ := (Surroundings.hasDocument_iff hvalid).mp hdoc
        rw [he, Outcome.ok_bind, hhandle, Outcome.ok_bind, hfound, Outcome.ok_bind]
        rfl

/-! ### Items and entries -/

section Containers

variable {coerce : String → Json → Coerced} {P : Json → Prop}

theorem coerceItems_forall (hcoerce : ∀ l x w, coerce l x = .ok w → P (w.getD .null))
    {i : Nat} {items vs : List Json} (h : coerceItems coerce i items = .ok vs) :
    vs.length = items.length ∧ ∀ v ∈ vs, P v := by
  induction items generalizing i vs with
  | nil =>
      cases h
      exact ⟨rfl, by simp⟩
  | cons x rest ih =>
      rw [coerceItems] at h
      split at h
      · cases h
      · rename_i w hx
        obtain ⟨ws, hws, rfl⟩ := Outcome.map_eq_ok_iff.mp h
        obtain ⟨hlength, hall⟩ := ih hws
        exact ⟨congrArg (· + 1) hlength, List.forall_mem_cons.mpr ⟨hcoerce _ _ _ hx, hall⟩⟩

theorem coerceItems_eq_self {items : List Json}
    (hcoerce : ∀ l, ∀ x ∈ items, ∃ w, coerce l x = .ok w ∧ w.getD .null = x) (i : Nat) :
    coerceItems coerce i items = .ok items := by
  induction items generalizing i with
  | nil => rfl
  | cons x rest ih =>
      obtain ⟨w, hw, hx⟩ := hcoerce ("index " ++ toString i) x List.mem_cons_self
      rw [coerceItems, hw]
      dsimp only
      rw [ih fun l y hy => hcoerce l y (List.mem_cons_of_mem _ hy), hx]
      rfl

end Containers

/-- What every coerced entry keeps, the entries that succeed have in the end. -/
theorem coerceEntries_inv {coerce : String × Json → Except Failure (String × Json)}
    {P : Document → Prop}
    (hstep : ∀ done e name v, P done → coerce e = .ok (name, v) → P (done.set name v))
    {done done' : Document} {failures failures' : List Failure} {entries : List (String × Json)}
    (hstart : P done) (h : coerceEntries coerce done failures entries = .ok (done', failures')) :
    P done' := by
  induction entries generalizing done failures with
  | nil =>
      cases h
      exact hstart
  | cons e rest ih =>
      rw [coerceEntries] at h
      split at h
      · rename_i name v he
        exact ih (hstep _ _ _ _ hstart he) h
      · split at h
        · exact ih hstart h
        · cases h

/-- Entries that are left as they are, with names of their own, are found in their order. -/
theorem coerceEntries_eq_append {coerce : String × Json → Except Failure (String × Json)}
    {done : Document} {failures : List Failure} {entries : List (String × Json)}
    (hnames : (Dict.names (done ++ entries)).Nodup) (hcoerce : ∀ e ∈ entries, coerce e = .ok e) :
    coerceEntries coerce done failures entries = .ok (done ++ entries, failures) := by
  induction entries generalizing done with
  | nil => rw [coerceEntries, List.append_nil]
  | cons e rest ih =>
      have he : e.1 ∉ done.names := by
        rw [Dict.names_append, List.nodup_append] at hnames
        intro hmem
        exact hnames.2.2 _ hmem _ List.mem_cons_self rfl
      rw [coerceEntries, hcoerce e List.mem_cons_self]
      dsimp only
      rw [Dict.set_of_not_mem_names done e.2 he, ih, List.append_assoc, List.singleton_append]
      · rwa [List.append_assoc, List.singleton_append]
      · exact fun x hx => hcoerce x (List.mem_cons_of_mem _ hx)

/-! ### Attributes as kinds -/

section Attributes

variable {s : Surroundings} {data : Document} {label : String} {absent : Coerced}

theorem Attribute.isPlain_iff (a : Attribute) :
    a.IsPlain ↔ a.kind.IsPlain ∧ a.default = none := by
  cases a
  rfl

theorem Attribute.coerce_eq (a : Attribute) (raw : Option Json) :
    a.coerce s data label raw =
      a.kind.coerce s data label (s.absent label a.required a.default)
        (raw.filter fun v => !v.isNull) := by
  cases a
  rfl

theorem Attribute.coerce_some (a : Attribute) {v : Json} (hv : v.isNull = false) :
    a.coerce s data label (some v) =
      a.kind.coerce s data label (s.absent label a.required a.default) (some v) := by
  rw [a.coerce_eq, Option.filter_some, if_pos (by simp [hv])]

/-- A plain kind leaves it to the attribute what becomes of an absent value. -/
theorem Kind.coerce_none {k : Kind} (hk : k.IsPlain) :
    k.coerce s data label absent none = absent := by
  cases k with
  | id => exact hk.elim
  | slug => exact hk.elim
  | user => exact hk.elim
  | _ => rfl

/-! ### What conforms is kept -/

theorem coerceEntry_of_admits {key value : Attribute} {e : String × Json}
    (hname : key.KeepsName s data e.1)
    (hvalue : ∃ w, value.coerce s data e.1 (some e.2) = .ok w ∧ w.getD .null = e.2) :
    coerceEntry (fun l x => key.coerce s data l (some x))
      (fun l x => value.coerce s data l (some x)) e = .ok e := by
  obtain ⟨name, hcoerced, hkept⟩ := hname
  obtain ⟨w, hw, hv⟩ := hvalue
  simp only [coerceEntry, hcoerced, hw, hkept, hv]

mutual

/-- A conforming value is accepted and given back as it is. -/
theorem Kind.coerce_of_conforms :
    ∀ {k : Kind} {v : Json}, k.IsPlain → Conforms s data k v → ∀ label absent,
      k.coerce s data label absent (some v) = .ok (some v)
  | _, _, _, .boolean b, _, _ => rfl
  | _, .string t, _, .email trimmed shape, _, _ => by
      have hne : t.toList.isEmpty = false := by
        rw [List.isEmpty_eq_false_iff]
        intro hnil
        rw [hnil] at shape
        exact absurd shape (by decide)
      simp [Kind.coerce, Text.trimChars_eq_self trimmed, hne, shape]
  | _, _, _, .enum member, _, _ => by
      simp [Kind.coerce, scalarText?, Option.filter_some, member]
  | _, _, _, .number (x := x) above below, _, _ => by
      have hvalue := Number.value_toDouble_ofDouble x
      rw [Kind.coerce, Option.getD_some, toNumber]
      dsimp only
      rw [coerceNumber_eq_ok_iff, hvalue, Number.ofDouble_toDouble]
      exact ⟨⟨above, below⟩, rfl⟩
  | _, .string t, hk, .string trimmed nonempty short, _, _ => by
      have hhash := hk
      rw [Kind.IsPlain] at hhash
      rw [Kind.coerce, scalarText?]
      dsimp only
      rw [Text.trimChars_eq_self trimmed, if_neg (by simpa using nonempty), hhash,
        coerceText_eq_ok_iff, String.ofList_toList]
      exact ⟨short, rfl⟩
  | _, _, _, .ref valid found, _, _ => by
      rw [Kind.coerce, coerceRef_eq_ok_iff]
      exact ⟨_, rfl, valid, found, rfl⟩
  | .list item _, _, hk, .list few admitted, _, _ => by
      rw [Kind.coerce, Option.filter_eq_none_iff.mpr (by simpa using few)]
      dsimp only
      rw [coerceItems_eq_self fun l x hx => Attribute.coerce_of_admits hk (admitted x hx) l]
  | .map key value, .object fields, hk, .map distinct kept admitted, _, _ => by
      have hnames : (Dict.names ([] ++ fields)).Nodup := distinct
      rw [Kind.coerce, coerceEntries_eq_append hnames fun e he =>
        coerceEntry_of_admits (kept e he)
          (Attribute.coerce_of_admits hk.2 (admitted e he) e.1)]
      rfl

/-- What an attribute admits inside a container is there again after coercion. -/
theorem Attribute.coerce_of_admits :
    ∀ {a : Attribute} {v : Json}, a.IsPlain → Admits s data a v → ∀ label,
      ∃ w, a.coerce s data label (some v) = .ok w ∧ w.getD .null = v
  | ⟨k, _, _, _, _⟩, v, ha, .value conforms, label => by
      refine ⟨some v, ?_, rfl⟩
      rw [Attribute.coerce_some _ conforms.isNull_eq_false]
      exact Kind.coerce_of_conforms ha.1 conforms _ _
  | ⟨k, _, _, _, _⟩, _, ha, .unset optional, label => by
      obtain ⟨hk, hdefault⟩ := ha
      subst hdefault
      dsimp only at optional
      subst optional
      refine ⟨none, ?_, rfl⟩
      rw [Attribute.coerce_eq]
      exact (Kind.coerce_none hk).trans (s.absent_none label false)

end

/-! ### What is accepted conforms -/

/-- The name that a key attribute gives an entry is one that it leaves alone. -/
theorem Attribute.keepsName_entryName {key : Attribute} {name : String} {w : Option Json}
    (hkey : key.IsPlain) (h : key.coerce s data name (some (.string name)) = .ok w)
    (hcases : (w = none ∧ key.required = false) ∨ ∃ v, w = some v ∧ Conforms s data key.kind v) :
    key.KeepsName s data (entryName name w) := by
  have hplain := key.isPlain_iff.mp hkey
  obtain ⟨rfl, -⟩ | ⟨v, rfl, hv⟩ := hcases
  · exact ⟨none, h, rfl⟩
  have hsame : ∀ t, v = .string t → key.KeepsName s data (entryName name (some v)) := by
    rintro t rfl
    refine ⟨some (.string t), ?_, rfl⟩
    rw [key.coerce_some rfl]
    exact Kind.coerce_of_conforms hplain.1 hv _ _
  generalize hkind : key.kind = k at hv
  cases hv with
  | email => exact hsame _ rfl
  | enum => exact hsame _ rfl
  | string => exact hsame _ rfl
  | ref => exact hsame _ rfl
  -- A container has no text, so it would leave the name alone as well.
  | list => exact ⟨_, h, rfl⟩
  | map => exact ⟨_, h, rfl⟩
  | boolean b =>
      refine ⟨some (.bool b), ?_, rfl⟩
      rw [key.coerce_some rfl, hkind]
      cases b <;> rfl
  | number above below =>
      -- The text need not be the one that was sent, but it reads as a number of the same value.
      rename_i min max x
      obtain ⟨y, hread, hy⟩ := toNumber_numberScalarText x
      refine ⟨some (.number (Number.ofDouble x)), ?_, rfl⟩
      rw [key.coerce_some rfl, hkind, Kind.coerce, Option.getD_some]
      dsimp only [entryName, scalarText?, Option.getD_some]
      rw [hread]
      dsimp only
      rw [coerceNumber_eq_ok_iff, hy, Number.ofDouble_congr hy]
      exact ⟨⟨above, below⟩, rfl⟩

theorem Conforms.email_trimChars {cs : List Char} (shape : Text.isEmail (Text.trimChars cs) = true) :
    Conforms s data .email (.string (String.ofList (Text.trimChars cs))) := by
  refine .email ?_ ?_
  · rw [String.toList_ofList]
    exact Text.isTrimmed_trimChars cs
  · rwa [String.toList_ofList]

theorem Conforms.string_trimChars {cs : List Char} {maxLength : Option Nat}
    (nonempty : Text.trimChars cs ≠ [])
    (short : ∀ n ∈ maxLength, (Text.trimChars cs).length ≤ n) :
    Conforms s data (.string maxLength none) (.string (String.ofList (Text.trimChars cs))) := by
  refine .string ?_ ?_ ?_
  · rw [String.toList_ofList]
    exact Text.isTrimmed_trimChars cs
  · simpa using nonempty
  · rwa [String.toList_ofList]

/-- An object still conforms when an entry is written that may stand in it. -/
theorem Conforms.set {key value : Attribute} {d : Document} {name : String} {v : Json}
    (h : Conforms s data (.map key value) (.object d)) (hname : key.KeepsName s data name)
    (hv : Admits s data value v) : Conforms s data (.map key value) (.object (d.set name v)) := by
  cases h with
  | map distinct kept admitted =>
      refine .map (Dict.nodup_names_set distinct name v) ?_ ?_
      · exact Dict.forall_mem_set (P := fun e => key.KeepsName s data e.1) kept hname
      · exact Dict.forall_mem_set (P := fun e => Admits s data value e.2) admitted hv

theorem Admits.of_cases {a : Attribute} {w : Option Json}
    (h : (w = none ∧ a.required = false) ∨ ∃ v, w = some v ∧ Conforms s data a.kind v) :
    Admits s data a (w.getD .null) := by
  obtain ⟨rfl, hoptional⟩ | ⟨v, rfl, hv⟩ := h
  · exact .unset hoptional
  · exact .value hv

/-- As many items as were sent make up a conforming list. -/
theorem coerceItems_conforms {item : Attribute} {maxItems : Option Nat} {i : Nat}
    {items vs : List Json}
    (hitem : ∀ {l x w}, item.coerce s data l (some x) = .ok w → Admits s data item (w.getD .null))
    (few : ∀ n ∈ maxItems, items.length ≤ n)
    (h : coerceItems (fun l x => item.coerce s data l (some x)) i items = .ok vs) :
    Conforms s data (.list item maxItems) (.array vs) := by
  obtain ⟨hlength, admitted⟩ :=
    coerceItems_forall (P := Admits s data item) (fun l x w hx => hitem hx) h
  exact .list (hlength ▸ few) admitted

section Entries

variable {key value : Attribute}
  (hkey : ∀ {name w}, key.coerce s data name (some (.string name)) = .ok w →
    key.KeepsName s data (entryName name w))
  (hvalue : ∀ {l x w}, value.coerce s data l (some x) = .ok w → Admits s data value (w.getD .null))

include hkey hvalue

theorem coerceEntry_admits {e : String × Json} {name : String} {v : Json}
    (h : coerceEntry (fun l x => key.coerce s data l (some x))
      (fun l x => value.coerce s data l (some x)) e = .ok (name, v)) :
    key.KeepsName s data name ∧ Admits s data value v := by
  rw [coerceEntry] at h
  split at h
  · cases h
  · rename_i hname
    split at h
    · cases h
    · rename_i hv
      cases h
      exact ⟨hkey hname, hvalue hv⟩

/-- The entries that succeed make up a conforming object, whatever becomes of the others. -/
theorem coerceEntries_conforms {entries : List (String × Json)} {done : Document}
    {failures : List Failure}
    (h : coerceEntries
      (coerceEntry (fun l x => key.coerce s data l (some x))
        (fun l x => value.coerce s data l (some x)))
      [] [] entries = .ok (done, failures)) :
    Conforms s data (.map key value) (.object done) := by
  have hstart : Conforms s data (.map key value) (.object []) :=
    .map List.nodup_nil (by simp) (by simp)
  refine coerceEntries_inv (P := fun d => Conforms s data (.map key value) (.object d))
    (fun d e name v hd he => ?_) hstart h
  obtain ⟨hname, hv⟩ := coerceEntry_admits hkey hvalue he
  exact hd.set hname hv

end Entries

mutual

/-- A coercion that succeeds does so with what absent values become, or with a conforming value. -/
theorem Kind.coerce_cases :
    ∀ {k : Kind} {label : String} {absent : Coerced} {raw w : Option Json}, k.IsPlain →
      k.coerce s data label absent raw = .ok w →
        absent = .ok w ∨ ∃ v, w = some v ∧ Conforms s data k v
  | k, _, _, none, _, hk, h => by
      rw [Kind.coerce_none hk] at h
      exact .inl h
  | .boolean, _, _, some v, _, _, h => by
      rw [Kind.coerce] at h
      split at h
      · cases h
        exact .inr ⟨_, rfl, .boolean _⟩
      · cases h
  | .email, _, _, some v, _, _, h => by
      cases v with
      | string t =>
          rw [Kind.coerce] at h
          split at h
          · exact .inl h
          · split at h
            · rename_i hshape
              cases h
              exact .inr ⟨_, rfl, .email_trimChars hshape⟩
            · cases h
      | _ => cases h
  | .enum values, _, _, some v, _, _, h => by
      rw [Kind.coerce] at h
      split at h
      · rename_i t ht
        cases h
        have hmem := (Option.filter_eq_some_iff.mp ht).2
        exact .inr ⟨_, rfl, .enum (List.contains_iff_mem.mp hmem)⟩
      · cases h
  | .number min max, _, _, some v, _, _, h => by
      rw [Kind.coerce] at h
      split at h
      · exact .inl h
      · cases h
      · obtain ⟨⟨above, below⟩, rfl⟩ := coerceNumber_eq_ok_iff.mp h
        exact .inr ⟨_, rfl, .number above below⟩
  | .string maxLength hash, _, _, some v, _, hk, h => by
      have hhash := hk
      rw [Kind.IsPlain] at hhash
      subst hhash
      rw [Kind.coerce] at h
      split at h
      · cases h
      · dsimp only at h
        split at h
        · exact .inl h
        · rename_i t _ hne
          obtain ⟨short, rfl⟩ := coerceText_eq_ok_iff.mp h
          exact .inr ⟨_, rfl, .string_trimChars (by simpa using hne) short⟩
  | .ref entity, _, _, some v, _, _, h => by
      rw [Kind.coerce] at h
      obtain ⟨id, -, valid, found, rfl⟩ := coerceRef_eq_ok_iff.mp h
      exact .inr ⟨_, rfl, .ref valid found⟩
  | .list item maxItems, _, _, some v, _, hk, h => by
      cases v with
      | array items =>
          rw [Kind.coerce] at h
          split at h
          · cases h
          · rename_i hfew
            split at h
            · rename_i vs hvs
              cases h
              have few : ∀ n ∈ maxItems, items.length ≤ n := by
                simpa [Option.filter_eq_none_iff] using hfew
              exact .inr ⟨_, rfl, coerceItems_conforms
                (fun hx => .of_cases (Attribute.coerce_cases hk hx)) few hvs⟩
            · cases h
      | _ => cases h
  | .map key value, _, _, some v, _, hk, h => by
      cases v with
      | object entries =>
          rw [Kind.coerce] at h
          split at h
          · rename_i outcome hout
            obtain ⟨done, failures⟩ := outcome
            cases failures with
            | cons f rest => cases h
            | nil =>
                cases h
                exact .inr ⟨_, rfl, coerceEntries_conforms
                  (fun hx => key.keepsName_entryName hk.1 hx (Attribute.coerce_cases hk.1 hx))
                  (fun hx => .of_cases (Attribute.coerce_cases hk.2 hx)) hout⟩
          · cases h
      | _ => cases h

/-- An attribute without a default comes to nothing only when no value is required. -/
theorem Attribute.coerce_cases :
    ∀ {a : Attribute} {label : String} {raw w : Option Json}, a.IsPlain →
      a.coerce s data label raw = .ok w →
        (w = none ∧ a.required = false) ∨ ∃ v, w = some v ∧ Conforms s data a.kind v
  | ⟨k, required, _, default, _⟩, label, raw, w, ha, h => by
      obtain ⟨hk, hdefault⟩ := ha
      subst hdefault
      refine (Kind.coerce_cases hk h).imp_left fun habsent => ?_
      rw [s.absent_none] at habsent
      split at habsent
      · cases habsent
      · rename_i hrequired
        cases habsent
        exact ⟨rfl, Bool.eq_false_of_not_eq_true hrequired⟩

end

/-- **Coercion is a projection onto the conforming values.** Whatever was sent, a plain attribute
accepts it only as a value that conforms, and it accepts every value that conforms as it is. -/
theorem Attribute.coerce_projects {a : Attribute} (ha : a.IsPlain) (s : Surroundings)
    (data : Document) (label : String) :
    (∀ raw v, a.coerce s data label raw = .ok (some v) → Conforms s data a.kind v) ∧
      ∀ v, Conforms s data a.kind v → a.coerce s data label (some v) = .ok (some v) := by
  constructor
  · intro raw v h
    obtain ⟨hnone, -⟩ | ⟨w, hw, hconforms⟩ := Attribute.coerce_cases ha h
    · cases hnone
    · cases hw
      exact hconforms
  · intro v hv
    rw [a.coerce_some hv.isNull_eq_false]
    exact Kind.coerce_of_conforms (a.isPlain_iff.mp ha).1 hv _ _

/-- The notes that each address may read, at most two. -/
private def readers : Attribute :=
  .ofKind (.map (.ofKind .email) (.ofKind (.list (.ofKind (.ref "notes")) (some 2))))

private def noteSurroundings : Surroundings where
  capabilities :=
    ⟨fun t _ => .ok t, fun n => String.ofList (List.replicate n 'x'), fun _ => "7", Document.reread⟩
  directory :=
    ⟨[("notes", ⟨Definition.ofNames "notes" "notes", some ⟨.memory, "notes", []⟩⟩)]⟩
  stores := ⟨[("notes", [[("id", .string "7")]])], [], 0⟩
  caller := none
  ignoreDefaults := false

private def sentReaders : Json := .object [(" a@b.co ", .array [.string "7", .null])]

private def keptReaders : Json := .object [("a@b.co", .array [.string "7", .null])]

theorem Attribute.coerce_projects_readers :
    readers.IsPlain ∧ Conforms noteSurroundings [] readers.kind keptReaders ∧
      readers.coerce noteSurroundings [] "readers" (some keptReaders) = .ok (some keptReaders) := by
  have hplain : readers.IsPlain := ⟨⟨⟨trivial, rfl⟩, ⟨trivial, rfl⟩, rfl⟩, rfl⟩
  obtain ⟨hsound, hkeeps⟩ := Attribute.coerce_projects hplain noteSurroundings [] "readers"
  have hsent : readers.coerce noteSurroundings [] "readers" (some sentReaders) =
      .ok (some keptReaders) := rfl
  have hconforms := hsound (some sentReaders) keptReaders hsent
  exact ⟨hplain, hconforms, hkeeps keptReaders hconforms⟩

end Attributes

end Curator
