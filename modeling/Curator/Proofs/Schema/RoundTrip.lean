/-
A definition that is written is read back as the same definition.

`Definition.Fits` is what the types of a definition leave open: counts that fit their words, and queries
that name a field once.  Whatever was read fits, in any order of its names and with any names beside
them, so only a default that is null stands between a definition and the one that is read back.  No
default is null when it was read from a value, where null means that there is none.  A text can still
write one, as the text of a value that it encloses.
-/
import Curator.Proofs.Schema.Depth
import Curator.Schema.Folder

namespace Curator

namespace Definition

/-- What is written of a definition can be read: its counts fit their words, and no query names a field
twice. -/
structure Fits (d : Definition) : Prop where
  counts : ∀ e ∈ d.attributes.entries, e.2.Throughout fun a => a.kind.Counts
  queries : ∀ e ∈ d.joins.entries, e.2.query.names.Nodup

/-- No attribute has a bound that is not finite, at any depth. -/
def FiniteBounds (d : Definition) : Prop :=
  ∀ e ∈ d.attributes.entries, e.2.Throughout fun a => ∀ b ∈ a.kind.bounds, b.2.IsFinite

/-- No attribute has null for its default, at any depth. -/
def NoNullDefault (d : Definition) : Prop :=
  ∀ e ∈ d.attributes.entries, e.2.Throughout fun a => a.default ≠ some .null

/-- The values in a definition stand for themselves. -/
structure Literal (meaning : Json → Option Json) (d : Definition) : Prop where
  defaults : ∀ e ∈ d.attributes.entries,
    e.2.Throughout fun a => ∀ v ∈ a.default, meaning v = some v
  queries : ∀ e ∈ d.joins.entries, ∀ field ∈ e.2.query, meaning field.2 = some field.2
  hooks : ∀ l hs, d.hooks l = some hs → ∀ h ∈ hs, ∀ v ∈ h.values, meaning v = some v

/-! ### Collections -/

section Entries

variable {α : Type} {read : Json → Option α}

theorem readEntries_written {write : α → Json} {m : NameMap α}
    (h : ∀ e ∈ m.entries, read (write e.2) = some e.2) :
    readEntries read (.object (Dict.mapValues write m.entries)) = some m := by
  have hentries : (Dict.mapValues write m.entries).mapM
      (fun e => (read e.2).map fun a => (e.1, a)) = some m.entries := by
    refine mapM_written fun e he => ?_
    rw [h e he]
    rfl
  rw [readEntries, hentries, Option.map_some, NameMap.ofList_entries]

theorem exists_read_of_mem_readEntries {v : Json} {m : NameMap α} (h : readEntries read v = some m) :
    ∀ e ∈ m.entries, ∃ w, read w = some e.2 := by
  unfold readEntries at h
  split at h
  · obtain ⟨entries, hentries, rfl⟩ := Option.map_eq_some_iff.mp h
    intro e he
    obtain ⟨e', -, hread⟩ := mem_of_mapM hentries e (NameMap.mem_of_mem_ofList he)
    obtain ⟨a, ha, rfl⟩ := Option.map_eq_some_iff.mp hread
    exact ⟨e'.2, ha⟩
  · cases h

theorem readList_written {write : α → Json} {as : List α} (h : ∀ a ∈ as, read (write a) = some a) :
    readList read (.array (as.map write)) = some as :=
  mapM_written h

end Entries

/-! ### Hooks -/

/-- The lifecycle points that have hooks, with their hooks. -/
def hookEntries (hooks : Lifecycle → Option (List Hook)) : List (Lifecycle × List Hook) :=
  Lifecycle.all.filterMap fun l => (hooks l).map fun hs => (l, hs)

theorem mem_hookEntries {hooks : Lifecycle → Option (List Hook)} {e : Lifecycle × List Hook} :
    e ∈ hookEntries hooks ↔ hooks e.1 = some e.2 := by
  rw [hookEntries, List.mem_filterMap]
  constructor
  · rintro ⟨l, -, h⟩
    obtain ⟨hs, hhooks, rfl⟩ := Option.map_eq_some_iff.mp h
    exact hhooks
  · intro h
    exact ⟨e.1, e.1.mem_all, Option.map_eq_some_iff.mpr ⟨e.2, h, rfl⟩⟩

theorem hooksToJson_eq (hooks : Lifecycle → Option (List Hook)) :
    hooksToJson hooks = .object ((hookEntries hooks).map fun e =>
      (e.1.word, .array (e.2.map Hook.toJson))) := by
  rw [hooksToJson, hookEntries]
  congr 1
  induction Lifecycle.all with
  | nil => rfl
  | cons l ls ih =>
      rw [List.flatMap_cons, List.filterMap_cons, ih]
      cases hooks l <;> rfl

theorem readHooks_written {meaning : Json → Option Json} {hooks : Lifecycle → Option (List Hook)}
    (h : ∀ l hs, hooks l = some hs → ∀ h ∈ hs, ∀ v ∈ h.values, meaning v = some v) :
    readHooks meaning (hooksToJson hooks) = some hooks := by
  have hentries : ((hookEntries hooks).map fun e =>
      (e.1.word, Json.array (e.2.map Hook.toJson))).mapM (readHookEntry meaning) =
        some (hookEntries hooks) := by
    refine mapM_written fun e he => ?_
    have hlist : readList (Hook.readWith? meaning) (.array (e.2.map Hook.toJson)) = some e.2 :=
      readList_written fun hook hmem =>
        Hook.readWith?_toJson (h e.1 e.2 (mem_hookEntries.mp he) hook hmem)
    rw [readHookEntry, e.1.find?_word, Option.bind_eq_bind, Option.bind_some, hlist]
    rfl
  rw [hooksToJson_eq, readHooks, hentries, Option.map_some]
  congr 1
  funext l
  cases h : (hookEntries hooks).reverse.find? fun e => e.1 == l with
  | none =>
      cases hl : hooks l with
      | none => rfl
      | some hs =>
          have hmem : (l, hs) ∈ (hookEntries hooks).reverse :=
            List.mem_reverse.mpr (mem_hookEntries.mpr hl)
          exact absurd BEq.rfl (List.find?_eq_none.mp h _ hmem)
  | some e =>
      have hname : e.1 = l := by simpa using List.find?_some h
      have hmem : e ∈ hookEntries hooks := List.mem_reverse.mp (List.mem_of_find?_eq_some h)
      rw [← hname, mem_hookEntries.mp hmem]
      rfl

theorem exists_read_of_mem_readHooks {meaning : Json → Option Json} {w : Json}
    {hooks : Lifecycle → Option (List Hook)} (h : readHooks meaning w = some hooks) {l : Lifecycle}
    {hs : List Hook} (hl : hooks l = some hs) :
    ∀ hook ∈ hs, ∃ v, Hook.readWith? meaning v = some hook := by
  unfold readHooks at h
  split at h
  · obtain ⟨es, hes, rfl⟩ := Option.map_eq_some_iff.mp h
    obtain ⟨e, he, rfl⟩ := Option.map_eq_some_iff.mp hl
    obtain ⟨g, -, hread⟩ := mem_of_mapM hes e (List.mem_reverse.mp (List.mem_of_find?_eq_some he))
    obtain ⟨l', -, hread⟩ := Option.bind_eq_some_iff.mp hread
    obtain ⟨hs, hlist, hread⟩ := Option.bind_eq_some_iff.mp hread
    cases hread
    unfold readList at hlist
    split at hlist
    · intro hook hhook
      obtain ⟨v, -, hv⟩ := mem_of_mapM hlist hook hhook
      exact ⟨v, hv⟩
    · cases hlist
  · cases h

/-! ### Definitions -/

variable {d : Definition}

/-- The fields that a definition is written as. -/
def fields (d : Definition) : Document :=
  [("entityName", .string d.name), ("collectionName", .string d.collection),
      ("entitySingularName", .string d.singular), ("apiKey", .string d.apiKey)] ++
    (Dict.ofOption "permissions" (d.permissions.map Permissions.toJson) ++
      [("attributes", .object (Dict.mapValues Attribute.toJson d.attributes.entries)),
        ("joinAttributes", .object (Dict.mapValues Join.toJson d.joins.entries)),
        ("indexes", .array (d.indexes.map Index.toJson)),
        ("hooks", hooksToJson d.hooks)])

theorem toJson_eq (d : Definition) : d.toJson = .object d.fields := rfl

theorem nodup_names_fields (d : Definition) : d.fields.names.Nodup := by
  have hsub : d.fields.names.Sublist ["entityName", "collectionName", "entitySingularName", "apiKey",
      "permissions", "attributes", "joinAttributes", "indexes", "hooks"] := by
    simp only [fields, Dict.names_append]
    exact (List.Sublist.refl ["entityName", "collectionName", "entitySingularName", "apiKey"]).append
      ((Dict.names_ofOption_sublist ..).append (List.Sublist.refl _))
  exact List.Nodup.sublist hsub (by decide)

theorem readWith?_toJson {meaning : Json → Option Json} (hfits : d.Fits) (hbounds : d.FiniteBounds)
    (hdefault : d.NoNullDefault) (hliteral : d.Literal meaning) :
    readWith? meaning d.toJson = some d := by
  have hnames := d.nodup_names_fields
  have hattribute : ∀ e ∈ d.attributes.entries,
      Attribute.readWith? meaning e.2.toJson = some e.2 := by
    intro e he
    have hall := ((hfits.counts e he).and (hbounds e he)).and
      ((hdefault e he).and (hliteral.defaults e he))
    exact (hall.imp fun a h => ⟨h.1.1, h.1.2, h.2.1, h.2.2⟩).readWith?_toJson
  have hjoin : ∀ e ∈ d.joins.entries, Join.readWith? meaning e.2.toJson = some e.2 :=
    fun e he => Join.readWith?_toJson (hfits.queries e he) (hliteral.queries e he)
  have hname : d.fields.get? "entityName" = some (.string d.name) := rfl
  have hcollection : d.fields.get? "collectionName" = some (.string d.collection) := rfl
  have hsingular : d.fields.get? "entitySingularName" = some (.string d.singular) := rfl
  have hapiKey : d.fields.get? "apiKey" = some (.string d.apiKey) := rfl
  have hpermissions : d.fields.get? "permissions" = d.permissions.map Permissions.toJson := by
    simp [fields, Dict.get?_cons, Dict.get?_append, Dict.get?_ofOption]
  have hattributes : d.fields.get? "attributes" =
      some (.object (Dict.mapValues Attribute.toJson d.attributes.entries)) := by
    simp [fields, Dict.get?_cons, Dict.get?_append, Dict.get?_ofOption]
  have hjoins : d.fields.get? "joinAttributes" =
      some (.object (Dict.mapValues Join.toJson d.joins.entries)) := by
    simp [fields, Dict.get?_cons, Dict.get?_append, Dict.get?_ofOption]
  have hindexes : d.fields.get? "indexes" = some (.array (d.indexes.map Index.toJson)) := by
    simp [fields, Dict.get?_cons, Dict.get?_append, Dict.get?_ofOption]
  have hhooks : d.fields.get? "hooks" = some (hooksToJson d.hooks) := by
    simp [fields, Dict.get?_cons, Dict.get?_append, Dict.get?_ofOption]
  have hform : Record.ofJson? d.toJson = some (.named d.fields) := rfl
  rw [readWith?, hform, Option.bind_eq_bind, Option.bind_some,
    Record.required_named hnames hname, Record.required_named hnames hcollection,
    Record.orElse_named hnames hsingular, Record.orElse_named hnames hapiKey,
    Record.optional_omitted hnames hpermissions fun p _ => ⟨rfl, p.read?_toJson⟩,
    Record.orElse_named hnames hattributes, readEntries_written hattribute,
    Record.orElse_named hnames hjoins, readEntries_written hjoin,
    Record.orElse_named hnames hindexes, readList_written fun i _ => i.read?_toJson,
    Record.orElse_named hnames hhooks, readHooks_written hliteral.hooks]
  rfl

/-- In a value, values stand for themselves. -/
theorem literal_some (hfits : d.Fits) : d.Literal some where
  defaults := fun e he => (hfits.counts e he).imp fun _ _ _ _ => rfl
  queries := fun _ _ _ _ => rfl
  hooks := fun _ _ _ _ _ _ _ => rfl

theorem readWith?_eq_some {meaning : Json → Option Json} {v : Json}
    (h : readWith? meaning v = some d) :
    ∃ r, Record.ofJson? v = some r ∧
      r.orElse 5 "attributes" .empty (readEntries (Attribute.readWith? meaning)) =
        some d.attributes ∧
      r.orElse 6 "joinAttributes" .empty (readEntries (Join.readWith? meaning)) = some d.joins ∧
      r.orElse 8 "hooks" (fun _ => none) (readHooks meaning) = some d.hooks := by
  obtain ⟨r, hr, h⟩ := Option.bind_eq_some_iff.mp h
  obtain ⟨-, -, h⟩ := Option.bind_eq_some_iff.mp h
  obtain ⟨name, -, h⟩ := Option.bind_eq_some_iff.mp h
  obtain ⟨collection, -, h⟩ := Option.bind_eq_some_iff.mp h
  obtain ⟨singular, -, h⟩ := Option.bind_eq_some_iff.mp h
  obtain ⟨apiKey, -, h⟩ := Option.bind_eq_some_iff.mp h
  obtain ⟨permissions, -, h⟩ := Option.bind_eq_some_iff.mp h
  obtain ⟨attributes, hattributes, h⟩ := Option.bind_eq_some_iff.mp h
  obtain ⟨joins, hjoins, h⟩ := Option.bind_eq_some_iff.mp h
  obtain ⟨indexes, -, h⟩ := Option.bind_eq_some_iff.mp h
  obtain ⟨hooks, hhooks, h⟩ := Option.bind_eq_some_iff.mp h
  cases h
  exact ⟨r, hr, hattributes, hjoins, hhooks⟩

theorem exists_read_of_readWith? {meaning : Json → Option Json} {v : Json}
    (h : readWith? meaning v = some d) :
    (∀ e ∈ d.attributes.entries, ∃ w, Attribute.readWith? meaning w = some e.2) ∧
      ∀ e ∈ d.joins.entries, ∃ w, Join.readWith? meaning w = some e.2 := by
  obtain ⟨r, -, hattributes, hjoins, -⟩ := readWith?_eq_some h
  constructor
  · rcases Record.orElse_eq_some hattributes with hnone | ⟨w, -, hw⟩
    · rw [hnone]
      exact List.forall_mem_nil _
    · exact exists_read_of_mem_readEntries hw
  · rcases Record.orElse_eq_some hjoins with hnone | ⟨w, -, hw⟩
    · rw [hnone]
      exact List.forall_mem_nil _
    · exact exists_read_of_mem_readEntries hw

/-- Whatever was read can be written. -/
theorem fits_of_readWith? {meaning : Json → Option Json} {v : Json}
    (h : readWith? meaning v = some d) : d.Fits := by
  obtain ⟨hattributes, hjoins⟩ := exists_read_of_readWith? h
  constructor
  · intro e he
    obtain ⟨w, hw⟩ := hattributes e he
    exact Attribute.throughout_of_readWith? Attribute.counts_of_ofParts? hw
  · intro e he
    obtain ⟨w, hw⟩ := hjoins e he
    exact Join.nodup_names_query hw

/-- Whatever was read has finite bounds. -/
theorem finiteBounds_of_readWith? {meaning : Json → Option Json} {v : Json}
    (h : readWith? meaning v = some d) : d.FiniteBounds := by
  intro e he
  obtain ⟨w, hw⟩ := (exists_read_of_readWith? h).1 e he
  exact Attribute.throughout_of_readWith? Attribute.finite_of_ofParts? hw

/-- Whatever was read holds values that stand for themselves, if what stands for a value does. -/
theorem literal_of_readWith? {meaning : Json → Option Json}
    (hm : ∀ {w v}, meaning w = some v → meaning v = some v) {v : Json}
    (h : readWith? meaning v = some d) : d.Literal meaning where
  defaults := fun e he => by
    obtain ⟨w, hw⟩ := (exists_read_of_readWith? h).1 e he
    exact Attribute.throughout_of_readWith? (Attribute.default_of_ofParts? hm) hw
  queries := fun e he => by
    obtain ⟨w, hw⟩ := (exists_read_of_readWith? h).2 e he
    exact Join.values_of_readWith? hm hw
  hooks := fun l hs hl hook hhook => by
    obtain ⟨r, -, -, -, hhooks⟩ := readWith?_eq_some h
    rcases Record.orElse_eq_some hhooks with hnone | ⟨w, -, hw⟩
    · rw [hnone] at hl
      cases hl
    · obtain ⟨w, hw⟩ := exists_read_of_mem_readHooks hw hl hook hhook
      exact Hook.values_of_readWith? hm hw

theorem noNullDefault_of_read? {v : Json} (h : Definition.read? v = some d) : d.NoNullDefault := by
  intro e he
  obtain ⟨w, hw⟩ := (exists_read_of_readWith? h).1 e he
  exact Attribute.throughout_of_readWith? Attribute.default_ne_null_of_ofParts? hw

end Definition

end Curator
