/-
Attributes are read as they were written, at every depth.

Lists and maps hold attributes again, so what is asked of an attribute is asked of all the attributes in
it.  `Attribute.Throughout` says that a property holds of each, and the proofs about writing follow it
from the innermost attributes outwards.  Reading follows the form instead: every attribute inside a form
is itself the form of a part, so what holds of each attribute that is put together from parts holds
throughout what is read.

Three things do not come back.  A count that does not fit its word is not read, a bound that is not finite
is written as null and read as no bound, and a default that is null is read as no default.
-/
import Curator.Proofs.Schema.Forms

namespace Curator

/-! ### Every depth -/

/-- The attributes that values in a list or in a map have. -/
def Kind.items : Kind → List Attribute
  | .list item _ => [item]
  | .map key value => [key, value]
  | _ => []

/-- A property holds of an attribute and of all attributes in it. -/
inductive Attribute.Throughout (P : Attribute → Prop) : Attribute → Prop
  | intro (a : Attribute) (here : P a) (items : ∀ item ∈ a.kind.items, Throughout P item) :
      Throughout P a

namespace Attribute

variable {P Q : Attribute → Prop} {a : Attribute}

theorem Throughout.of_items_eq_nil (here : P a) (h : a.kind.items = []) : a.Throughout P :=
  .intro a here (h ▸ List.forall_mem_nil _)

theorem Throughout.imp (hPQ : ∀ b, P b → Q b) (h : a.Throughout P) : a.Throughout Q := by
  induction h with
  | intro a here items ih => exact .intro a (hPQ a here) ih

theorem Throughout.and (hP : a.Throughout P) (hQ : a.Throughout Q) :
    a.Throughout fun b => P b ∧ Q b := by
  induction hP with
  | intro a here items ih =>
      cases hQ with
      | intro _ here' items' =>
          exact .intro a ⟨here, here'⟩ fun item hitem => ih item hitem (items' item hitem)

end Attribute

/-- The attributes that values in a list or in a map have, by the names of their fields. -/
def Kind.itemFields : Kind → Dict Attribute
  | .list item _ => [("listType", item)]
  | .map key value => [("keyType", key), ("valueType", value)]
  | _ => []

theorem Kind.mem_items_iff {k : Kind} {item : Attribute} :
    item ∈ k.items ↔ ∃ name, (name, item) ∈ k.itemFields := by
  cases k <;> simp [items, itemFields, exists_or]

/-- The bounds that a kind declares, by the names of their fields. -/
def Kind.bounds : Kind → Dict Bound
  | .number min max => Dict.ofOption "min" min ++ Dict.ofOption "max" max
  | _ => []

/-- The counts in a kind fit their words, of 64 bits and of 32 for the rounds of a hash. -/
def Kind.Counts : Kind → Prop
  | .list _ maxItems => ∀ n ∈ maxItems, n < 2 ^ 64
  | .slug _ before after => (∀ a ∈ before, a.chars < 2 ^ 64) ∧ ∀ a ∈ after, a.chars < 2 ^ 64
  | .string maxLength hash =>
    (∀ n ∈ maxLength, n < 2 ^ 64) ∧ ∀ h ∈ hash, ∀ n ∈ h.rounds, n < 2 ^ 32
  | _ => True

/-- What is written of an attribute itself can be read: its counts and bounds, and a default that is not
null and stands for itself. -/
structure Attribute.Readable (meaning : Json → Option Json) (a : Attribute) : Prop where
  counts : a.kind.Counts
  bounds : ∀ e ∈ a.kind.bounds, e.2.IsFinite
  default_ne_null : a.default ≠ some .null
  default : ∀ v ∈ a.default, meaning v = some v

/-! ### The fields of a written attribute -/

/-- The names of the fields that a kind may have, besides its word. -/
def KindName.fieldNames : KindName → List String
  | boolean => []
  | email => []
  | enum => ["values"]
  | id => []
  | list => ["listType", "maxItems"]
  | map => ["keyType", "valueType"]
  | number => ["min", "max"]
  | ref => ["entity"]
  | slug => ["setFrom", "prefix", "suffix"]
  | string => ["maxLength", "hash"]
  | user => []

theorem Kind.names_fields_sublist (k : Kind) : (Dict.names k.fields).Sublist k.name.fieldNames := by
  cases k with
  | list item maxItems => exact (Dict.names_ofOption_sublist ..).cons_cons _
  | number min max =>
      rw [fields, Dict.names_append]
      exact (Dict.names_ofOption_sublist ..).append (Dict.names_ofOption_sublist ..)
  | slug source before after =>
      rw [fields, Dict.names_cons, Dict.names_append]
      exact ((Dict.names_ofOption_sublist ..).append (Dict.names_ofOption_sublist ..)).cons_cons _
  | string maxLength hash =>
      rw [fields, Dict.names_append]
      exact (Dict.names_ofOption_sublist ..).append (Dict.names_ofOption_sublist ..)
  | _ => exact List.Sublist.refl _

namespace Attribute

variable {a : Attribute} {name : String}

/-- The fields that any attribute may have. -/
def commonFields (a : Attribute) : Document :=
  [("required", .bool a.required), ("unique", .bool a.unique)] ++
    (Dict.ofOption "default" a.default ++
      Dict.ofOption "permissions" (a.permissions.map Permissions.toJson))

/-- The fields that an attribute is written as. -/
def fields (a : Attribute) : Document :=
  ("type", .string a.kind.name.word) :: (a.kind.fields ++ a.commonFields)

theorem toJson_eq (a : Attribute) : a.toJson = .object a.fields := by
  cases a
  rfl

theorem names_commonFields_sublist (a : Attribute) :
    a.commonFields.names.Sublist ["required", "unique", "default", "permissions"] := by
  simp only [commonFields, Dict.names_append]
  exact (List.Sublist.refl ["required", "unique"]).append
    ((Dict.names_ofOption_sublist ..).append (Dict.names_ofOption_sublist ..))

theorem nodup_names_fields (a : Attribute) : a.fields.names.Nodup := by
  have hall : ∀ n : KindName, ("type" :: (n.fieldNames ++
      ["required", "unique", "default", "permissions"])).Nodup := by
    intro n
    cases n <;> decide
  have hsub := (a.kind.names_fields_sublist.append a.names_commonFields_sublist).cons_cons "type"
  rw [← Dict.names_append] at hsub
  exact (hall a.kind.name).sublist hsub

/-- The fields of a kind are not hidden by those that any attribute may have. -/
theorem get?_fields_of_mem_fieldNames (h : name ∈ a.kind.name.fieldNames) :
    a.fields.get? name = Dict.get? a.kind.fields name := by
  have hapart : ∀ n : KindName, ∀ name ∈ n.fieldNames,
      "type" ≠ name ∧ name ∉ ["required", "unique", "default", "permissions"] := by
    intro n
    cases n <;> decide
  obtain ⟨htype, hcommon⟩ := hapart _ name h
  have hnone : a.commonFields.get? name = none :=
    (Dict.get?_eq_none_iff _ _).mpr fun hmem => hcommon (a.names_commonFields_sublist.subset hmem)
  rw [fields, Dict.get?_cons, if_neg htype, Dict.get?_append, hnone, Option.or_none]

theorem get?_fields_of_mem_common
    (h : name ∈ ["required", "unique", "default", "permissions"]) :
    a.fields.get? name = a.commonFields.get? name := by
  have hapart : ∀ n : KindName, ∀ name ∈ ["required", "unique", "default", "permissions"],
      "type" ≠ name ∧ name ∉ n.fieldNames := by
    intro n
    cases n <;> decide
  obtain ⟨htype, hkind⟩ := hapart a.kind.name name h
  have hnone : Dict.get? a.kind.fields name = none :=
    (Dict.get?_eq_none_iff _ _).mpr fun hmem => hkind (a.kind.names_fields_sublist.subset hmem)
  rw [fields, Dict.get?_cons, if_neg htype, Dict.get?_append, hnone, Option.none_or]

end Attribute

/-! ### Parts of a written object -/

section Parts

variable {meaning : Json → Option Json} {fields : Document} {name : String} {β γ : Type}

theorem parts_eq_mapValues (meaning : Json → Option Json) (fields : Document) :
    parts meaning fields = fields.mapValues fun v => (v, Attribute.readWith? meaning v) := by
  induction fields with
  | nil => rw [parts]; rfl
  | cons e rest ih =>
      rw [parts, ih]
      rfl

theorem nodup_names_parts (hnames : fields.names.Nodup) :
    (Dict.names (parts meaning fields)).Nodup := by
  rw [parts_eq_mapValues, Dict.names_mapValues]
  exact hnames

theorem get?_parts (meaning : Json → Option Json) (fields : Document) (name : String) :
    Dict.get? (parts meaning fields) name =
      (fields.get? name).map fun v => (v, Attribute.readWith? meaning v) := by
  rw [parts_eq_mapValues, Dict.get?_mapValues]

theorem required_parts (hnames : fields.names.Nodup) {v : Json} (hget : fields.get? name = some v)
    (place : Nat) (read : Part → Option β) :
    (Record.named (parts meaning fields)).required place name read =
      read (v, Attribute.readWith? meaning v) := by
  have hpart := get?_parts meaning fields name
  rw [hget] at hpart
  exact Record.required_named (nodup_names_parts hnames) hpart place read

theorem orElse_parts (hnames : fields.names.Nodup) {v : Json} (hget : fields.get? name = some v)
    (place : Nat) (default : β) (read : Part → Option β) :
    (Record.named (parts meaning fields)).orElse place name default read =
      read (v, Attribute.readWith? meaning v) := by
  have hpart := get?_parts meaning fields name
  rw [hget] at hpart
  exact Record.orElse_named (nodup_names_parts hnames) hpart place default read

/-- A field that is left out when there is nothing to write, for any reader of parts. -/
theorem orElse_parts_omitted (hnames : fields.names.Nodup) {x : Option γ} {write : γ → Json}
    (hget : fields.get? name = x.map write) {read : Part → Option (Option γ)}
    (hread : ∀ c ∈ x, read (write c, Attribute.readWith? meaning (write c)) = some (some c))
    (place : Nat) :
    (Record.named (parts meaning fields)).orElse place name none read = some x := by
  have hpart := get?_parts meaning fields name
  rw [hget, Option.map_map] at hpart
  exact Record.orElse_omitted (nodup_names_parts hnames) hpart hread place

theorem optionalPart_parts (hnames : fields.names.Nodup) {x : Option γ} {write : γ → Json}
    (hget : fields.get? name = x.map write) {read : Json → Option γ}
    (hread : ∀ c ∈ x, (write c).isNull = false ∧ read (write c) = some c) (place : Nat) :
    optionalPart (.named (parts meaning fields)) place name read = some x := by
  refine orElse_parts_omitted hnames hget (fun c hc => ?_) place
  obtain ⟨hnull, hc⟩ := hread c hc
  rw [hnull, hc]
  rfl

end Parts

/-! ### Writing, then reading -/

section Written

variable {meaning : Json → Option Json}

/-- A kind is read from parts that have its word and its fields, if the attributes in it are read. -/
theorem Kind.ofRecord?_written {k : Kind} {fields : Document} (hnames : fields.names.Nodup)
    (htype : fields.get? "type" = some (.string k.name.word))
    (hfields : ∀ name ∈ k.name.fieldNames, fields.get? name = Dict.get? k.fields name)
    (hcounts : k.Counts) (hbounds : ∀ e ∈ k.bounds, e.2.IsFinite)
    (hitems : ∀ item ∈ k.items, Attribute.readWith? meaning item.toJson = some item) :
    Kind.ofRecord? (Vocabulary.selector? KindName.all KindName.word)
      (.named (parts meaning fields)) = some k := by
  have hword : (Record.named (parts meaning fields)).required 0 "type"
      (fun p => Vocabulary.selector? KindName.all KindName.word p.1) = some k.name :=
    (required_parts hnames htype 0 _).trans k.name.find?_word
  rw [ofRecord?, hword, Option.bind_eq_bind, Option.bind_some]
  cases k with
  | enum values =>
      have hvalues : fields.get? "values" = some (.array (values.map .string)) :=
        hfields "values" List.mem_cons_self
      dsimp only [name]
      rw [required_parts hnames hvalues, Json.strings?_written]
      rfl
  | list item maxItems =>
      have hitem : fields.get? "listType" = some item.toJson := hfields "listType" List.mem_cons_self
      have hmax : fields.get? "maxItems" = maxItems.map Json.ofNat := by
        rw [hfields "maxItems" (by simp [name, KindName.fieldNames])]
        simp [Kind.fields, Dict.get?_cons, Dict.get?_ofOption]
      dsimp only [name]
      rw [required_parts hnames hitem, hitems item List.mem_cons_self,
        optionalPart_parts hnames hmax fun n hn => count?_ofNat (hcounts n hn)]
      rfl
  | map key value =>
      have hkey : fields.get? "keyType" = some key.toJson := hfields "keyType" List.mem_cons_self
      have hvalue : fields.get? "valueType" = some value.toJson :=
        hfields "valueType" (by simp [name, KindName.fieldNames])
      dsimp only [name]
      rw [required_parts hnames hkey, required_parts hnames hvalue, hitems key List.mem_cons_self,
        hitems value (by simp [items])]
      rfl
  | number min max =>
      have hmin : fields.get? "min" = min.map Bound.toJson := by
        rw [hfields "min" List.mem_cons_self]
        simp [Kind.fields, Dict.get?_append, Dict.get?_ofOption]
      have hmax : fields.get? "max" = max.map Bound.toJson := by
        rw [hfields "max" (by simp [name, KindName.fieldNames])]
        simp [Kind.fields, Dict.get?_append, Dict.get?_ofOption]
      dsimp only [name]
      have hlow : ∀ b ∈ min, b.IsFinite := fun b hb =>
        hbounds ("min", b) (List.mem_append_left _ (Dict.mem_ofOption.mpr ⟨rfl, hb⟩))
      have hhigh : ∀ b ∈ max, b.IsFinite := fun b hb =>
        hbounds ("max", b) (List.mem_append_right _ (Dict.mem_ofOption.mpr ⟨rfl, hb⟩))
      rw [optionalPart_parts hnames hmin fun b hb => Bound.read?_toJson (hlow b hb),
        optionalPart_parts hnames hmax fun b hb => Bound.read?_toJson (hhigh b hb)]
      rfl
  | ref entity =>
      have hentity : fields.get? "entity" = some (.string entity) :=
        hfields "entity" List.mem_cons_self
      dsimp only [name]
      rw [required_parts hnames hentity]
      rfl
  | slug source before after =>
      obtain ⟨hbeforeCounts, hafterCounts⟩ := hcounts
      have hsource : fields.get? "setFrom" = some (.string source) :=
        hfields "setFrom" List.mem_cons_self
      have hbefore : fields.get? "prefix" = before.map Affix.toJson := by
        rw [hfields "prefix" (by simp [name, KindName.fieldNames])]
        simp [Kind.fields, Dict.get?_cons, Dict.get?_append, Dict.get?_ofOption]
      have hafter : fields.get? "suffix" = after.map Affix.toJson := by
        rw [hfields "suffix" (by simp [name, KindName.fieldNames])]
        simp [Kind.fields, Dict.get?_cons, Dict.get?_append, Dict.get?_ofOption]
      dsimp only [name]
      rw [required_parts hnames hsource,
        optionalPart_parts hnames hbefore fun a ha => ⟨rfl, Affix.read?_toJson (hbeforeCounts a ha)⟩,
        optionalPart_parts hnames hafter fun a ha => ⟨rfl, Affix.read?_toJson (hafterCounts a ha)⟩]
      rfl
  | string maxLength hash =>
      obtain ⟨hlengthCounts, hroundCounts⟩ := hcounts
      have hlength : fields.get? "maxLength" = maxLength.map Json.ofNat := by
        rw [hfields "maxLength" List.mem_cons_self]
        simp [Kind.fields, Dict.get?_append, Dict.get?_ofOption]
      have hhash : fields.get? "hash" = hash.map Hashing.toJson := by
        rw [hfields "hash" (by simp [name, KindName.fieldNames])]
        simp [Kind.fields, Dict.get?_append, Dict.get?_ofOption]
      dsimp only [name]
      rw [optionalPart_parts hnames hlength fun n hn => count?_ofNat (hlengthCounts n hn),
        optionalPart_parts hnames hhash fun h hh => ⟨rfl, Hashing.read?_toJson (hroundCounts h hh)⟩]
      rfl
  | _ => rfl

/-- An attribute comes back if the attributes in it do. -/
theorem Attribute.readWith?_toJson {a : Attribute} (h : a.Readable meaning)
    (hitems : ∀ item ∈ a.kind.items, readWith? meaning item.toJson = some item) :
    readWith? meaning a.toJson = some a := by
  have hnames := a.nodup_names_fields
  have hkind : Kind.ofRecord? (Vocabulary.selector? KindName.all KindName.word)
      (.named (parts meaning a.fields)) = some a.kind :=
    Kind.ofRecord?_written hnames rfl (fun _ => get?_fields_of_mem_fieldNames) h.counts h.bounds hitems
  have hrequired : a.fields.get? "required" = some (.bool a.required) := by
    rw [get?_fields_of_mem_common (by decide)]
    rfl
  have hunique : a.fields.get? "unique" = some (.bool a.unique) := by
    rw [get?_fields_of_mem_common (by decide)]
    rfl
  have hget : a.fields.get? "default" = a.default.map id := by
    rw [get?_fields_of_mem_common (by decide)]
    simp [commonFields, Dict.get?_cons, Dict.get?_append, Dict.get?_ofOption]
  have hpermissions : a.fields.get? "permissions" = a.permissions.map Permissions.toJson := by
    rw [get?_fields_of_mem_common (by decide)]
    simp [commonFields, Dict.get?_cons, Dict.get?_append, Dict.get?_ofOption]
  have hread : ∀ v ∈ a.default, readDefault meaning (v, readWith? meaning v) = some (some v) := by
    intro v hv
    have hnull : v.isNull = false := by
      cases v with
      | null => exact absurd hv h.default_ne_null
      | _ => rfl
    rw [readDefault, hnull, h.default v hv]
    rfl
  rw [toJson_eq, readWith?, ofParts?]
  dsimp only [Option.bind_eq_bind]
  rw [hkind, Option.bind_some, orElse_parts hnames hrequired, orElse_parts hnames hunique,
    orElse_parts_omitted hnames hget hread,
    optionalPart_parts hnames hpermissions fun p _ => ⟨rfl, p.read?_toJson⟩]
  cases a
  rfl

theorem Attribute.Throughout.readWith?_toJson {a : Attribute}
    (h : a.Throughout (Attribute.Readable meaning)) :
    Attribute.readWith? meaning a.toJson = some a := by
  induction h with
  | intro a here items ih => exact Attribute.readWith?_toJson here ih

end Written

/-! ### Reading -/

variable {meaning : Json → Option Json}

theorem Record.mem_of_field? {α : Type} {fields : Dict α} {place : Nat} {name : String} {v : α}
    (h : (named fields).field? place name = some (some v)) : (name, v) ∈ fields := by
  rw [field?] at h
  split at h
  · cases h
  · rename_i e he
    cases h
    obtain ⟨hmem, hname⟩ := List.mem_filter.mp (he ▸ List.mem_cons_self)
    rw [← eq_of_beq hname]
    exact hmem
  · cases h

/-- What a kind has of its own, its bounds and the attributes in it, is what fields of the record write. -/
theorem Kind.of_ofRecord? {select : Json → Option KindName} {r : Record Part} {k : Kind}
    (h : Kind.ofRecord? select r = some k) :
    k.Counts ∧
      (∀ e ∈ k.bounds, ∃ place p, r.field? place e.1 = some (some p) ∧ Bound.read? p.1 = some e.2) ∧
      ∀ e ∈ k.itemFields, ∃ place p, r.field? place e.1 = some (some p) ∧ p.2 = some e.2 := by
  obtain ⟨name, -, h⟩ := Option.bind_eq_some_iff.mp h
  cases name with
  | boolean | email | id | user =>
      obtain ⟨-, -, h⟩ := Option.bind_eq_some_iff.mp h
      cases h
      exact ⟨trivial, List.forall_mem_nil _, List.forall_mem_nil _⟩
  | enum | ref =>
      obtain ⟨-, -, h⟩ := Option.bind_eq_some_iff.mp h
      obtain ⟨_, -, h⟩ := Option.bind_eq_some_iff.mp h
      cases h
      exact ⟨trivial, List.forall_mem_nil _, List.forall_mem_nil _⟩
  | number =>
      obtain ⟨-, -, h⟩ := Option.bind_eq_some_iff.mp h
      obtain ⟨min, hmin, h⟩ := Option.bind_eq_some_iff.mp h
      obtain ⟨max, hmax, h⟩ := Option.bind_eq_some_iff.mp h
      cases h
      refine ⟨trivial, fun e he => ?_, List.forall_mem_nil _⟩
      rcases List.mem_append.mp he with he | he
      · obtain ⟨hname, hb⟩ := Dict.mem_ofOption.mp he
        obtain ⟨p, hp, -, hread⟩ := Record.nullable_eq_some hmin e.2 hb
        exact ⟨_, p, hname ▸ hp, hread⟩
      · obtain ⟨hname, hb⟩ := Dict.mem_ofOption.mp he
        obtain ⟨p, hp, -, hread⟩ := Record.nullable_eq_some hmax e.2 hb
        exact ⟨_, p, hname ▸ hp, hread⟩
  | list =>
      obtain ⟨-, -, h⟩ := Option.bind_eq_some_iff.mp h
      obtain ⟨item, hitem, h⟩ := Option.bind_eq_some_iff.mp h
      obtain ⟨maxItems, hmax, h⟩ := Option.bind_eq_some_iff.mp h
      cases h
      obtain ⟨p, hp, hpitem⟩ := Record.required_eq_some hitem
      refine ⟨fun n hn => ?_, List.forall_mem_nil _,
        List.forall_mem_singleton.mpr ⟨_, p, hp, hpitem⟩⟩
      obtain ⟨p, -, -, hcount⟩ := Record.nullable_eq_some hmax n hn
      exact count?_lt hcount
  | map =>
      obtain ⟨-, -, h⟩ := Option.bind_eq_some_iff.mp h
      obtain ⟨key, hkey, h⟩ := Option.bind_eq_some_iff.mp h
      obtain ⟨value, hvalue, h⟩ := Option.bind_eq_some_iff.mp h
      cases h
      obtain ⟨p, hp, hpkey⟩ := Record.required_eq_some hkey
      obtain ⟨q, hq, hqvalue⟩ := Record.required_eq_some hvalue
      exact ⟨trivial, List.forall_mem_nil _, List.forall_mem_cons.mpr ⟨⟨_, p, hp, hpkey⟩,
        List.forall_mem_singleton.mpr ⟨_, q, hq, hqvalue⟩⟩⟩
  | slug =>
      obtain ⟨-, -, h⟩ := Option.bind_eq_some_iff.mp h
      obtain ⟨source, -, h⟩ := Option.bind_eq_some_iff.mp h
      obtain ⟨before, hbefore, h⟩ := Option.bind_eq_some_iff.mp h
      obtain ⟨after, hafter, h⟩ := Option.bind_eq_some_iff.mp h
      cases h
      refine ⟨⟨fun a ha => ?_, fun a ha => ?_⟩, List.forall_mem_nil _, List.forall_mem_nil _⟩
      · obtain ⟨p, -, -, hread⟩ := Record.nullable_eq_some hbefore a ha
        exact Affix.chars_lt hread
      · obtain ⟨p, -, -, hread⟩ := Record.nullable_eq_some hafter a ha
        exact Affix.chars_lt hread
  | string =>
      obtain ⟨-, -, h⟩ := Option.bind_eq_some_iff.mp h
      obtain ⟨maxLength, hlength, h⟩ := Option.bind_eq_some_iff.mp h
      obtain ⟨hash, hhash, h⟩ := Option.bind_eq_some_iff.mp h
      cases h
      refine ⟨⟨fun n hn => ?_, fun a ha => ?_⟩, List.forall_mem_nil _, List.forall_mem_nil _⟩
      · obtain ⟨p, -, -, hcount⟩ := Record.nullable_eq_some hlength n hn
        exact count?_lt hcount
      · obtain ⟨p, -, -, hread⟩ := Record.nullable_eq_some hhash a ha
        exact Hashing.rounds_lt hread

namespace Attribute

variable {written : List (String × Part)} {a : Attribute}

theorem ofParts?_eq_some (h : ofParts? meaning written = some a) :
    Kind.ofRecord? (Vocabulary.selector? KindName.all KindName.word) (.named written) =
        some a.kind ∧
      (Record.named written).orElse 0 "default" none (readDefault meaning) = some a.default := by
  obtain ⟨kind, hkind, h⟩ := Option.bind_eq_some_iff.mp h
  obtain ⟨required, -, h⟩ := Option.bind_eq_some_iff.mp h
  obtain ⟨unique, -, h⟩ := Option.bind_eq_some_iff.mp h
  obtain ⟨default, hdefault, h⟩ := Option.bind_eq_some_iff.mp h
  obtain ⟨permissions, -, h⟩ := Option.bind_eq_some_iff.mp h
  cases h
  exact ⟨hkind, hdefault⟩

theorem counts_of_ofParts? (h : ofParts? meaning written = some a) : a.kind.Counts :=
  (Kind.of_ofRecord? (ofParts?_eq_some h).1).1

/-- The attributes in one that is put together from parts are written by the parts. -/
theorem items_of_ofParts? (h : ofParts? meaning written = some a) :
    ∀ item ∈ a.kind.items, ∃ part ∈ written, part.2.2 = some item := by
  intro item hitem
  obtain ⟨name, hfield⟩ := Kind.mem_items_iff.mp hitem
  obtain ⟨place, p, hp, hpitem⟩ := (Kind.of_ofRecord? (ofParts?_eq_some h).1).2.2 _ hfield
  exact ⟨(name, p), Record.mem_of_field? hp, hpitem⟩

theorem finite_of_ofParts? (h : ofParts? meaning written = some a) :
    ∀ e ∈ a.kind.bounds, e.2.IsFinite := by
  intro e he
  obtain ⟨place, p, -, hread⟩ := (Kind.of_ofRecord? (ofParts?_eq_some h).1).2.1 e he
  exact Bound.isFinite_of_read? hread

/-- A default is what some part stands for that is not null. -/
theorem exists_part_of_default {r : Record Part} {x : Option Json}
    (h : r.orElse 0 "default" none (readDefault meaning) = some x) :
    ∀ v ∈ x, ∃ place p, r.field? place "default" = some (some p) ∧ p.1.isNull = false ∧
      meaning p.1 = some v := by
  have hnullable : r.orElse 0 "default" none (fun p : Part => if p.1.isNull then some none
      else (meaning p.1).map some) = some x := h
  intro v hv
  obtain ⟨p, hp⟩ := Record.nullable_eq_some hnullable v hv
  exact ⟨0, p, hp⟩

theorem default_of_ofParts? (hm : ∀ {w v}, meaning w = some v → meaning v = some v)
    (h : ofParts? meaning written = some a) : ∀ v ∈ a.default, meaning v = some v := by
  intro v hv
  obtain ⟨place, p, -, -, hp⟩ := exists_part_of_default (ofParts?_eq_some h).2 v hv
  exact hm hp

/-- Where values stand for themselves, no default that is read is null. -/
theorem default_ne_null_of_ofParts? (h : ofParts? some written = some a) :
    a.default ≠ some .null := by
  intro hnull
  obtain ⟨place, p, -, hvalue, hp⟩ := exists_part_of_default (ofParts?_eq_some h).2 .null hnull
  rw [Option.some.inj hp] at hvalue
  cases hvalue

end Attribute

mutual

/-- What holds of every attribute put together from parts holds throughout one that is read. -/
theorem Attribute.throughout_of_readWith? {P : Attribute → Prop}
    (hP : ∀ {written a}, Attribute.ofParts? meaning written = some a → P a) :
    ∀ {v : Json} {a : Attribute}, Attribute.readWith? meaning v = some a → a.Throughout P
  | .object fields, a, h => by
      rw [Attribute.readWith?] at h
      refine .intro a (hP h) fun item hitem => ?_
      obtain ⟨part, hpart, hwritten⟩ := Attribute.items_of_ofParts? h item hitem
      exact throughout_of_mem_parts hP part hpart item hwritten
  | .null, _, h | .bool _, _, h | .number _, _, h | .string _, _, h | .array _, _, h => by
      rw [Attribute.readWith?] at h
      · cases h
      · nofun

theorem throughout_of_mem_parts {P : Attribute → Prop}
    (hP : ∀ {written a}, Attribute.ofParts? meaning written = some a → P a) :
    ∀ {fields : List (String × Json)}, ∀ part ∈ parts meaning fields, ∀ a, part.2.2 = some a →
      a.Throughout P
  | [], _, hpart, _, _ => by
      rw [parts] at hpart
      cases hpart
  | (name, v) :: rest, part, hpart, a, ha => by
      rw [parts] at hpart
      rcases List.mem_cons.mp hpart with rfl | hpart
      · exact Attribute.throughout_of_readWith? hP ha
      · exact throughout_of_mem_parts hP part hpart a ha

end

end Curator
