/-
A definition that was written as text is read back, or not.

The text of a definition is read by the outline of definitions, which wants every field that is written as
it is written.  So nothing happens to the definition on the way but that its numbers are exchanged for what
their digits are read as, and `Definition.ReadsBack` says what that comes to: bounds are finite, containers
do not nest too deep, all numbers stay the same, and the values in the definition stand for themselves.
A definition that was itself read from a text has finite bounds, and its values stand for themselves.
-/
import Curator.Proofs.Json.Meaning
import Curator.Proofs.Schema.Exchange

namespace Curator

/-! ### What the outlines want -/

namespace Json.Reading

variable {asValue : Bool} {o : Outline}

theorem wantsFields_iff {fs : List (String × Json)} :
    WantsFields asValue o fs ↔ ∀ e ∈ fs, Wants asValue (o.field e.1) e.2 := by
  induction fs with
  | nil => simp [WantsFields]
  | cons e fs ih => rw [WantsFields, List.forall_mem_cons, ih]

theorem wants_object (ho : Keeps asValue o) {fs : List (String × Json)}
    (h : ∀ e ∈ fs, Wants asValue (o.field e.1) e.2) : Wants asValue o (.object fs) := by
  rw [Wants]
  exact ⟨ho, wantsFields_iff.mpr h⟩

theorem wants_items {each : Outline} {xs : List Json} (h : ∀ x ∈ xs, Wants false each x) :
    Wants false (.items each) (.array xs) := by
  have hitems : ∀ (xs : List Json) (place : Nat), (∀ x ∈ xs, Wants false each x) →
      WantsItems false (.items each) place xs := by
    intro xs
    induction xs with
    | nil => exact fun _ _ => trivial
    | cons x xs ih =>
        intro place h
        obtain ⟨hx, hxs⟩ := List.forall_mem_cons.mp h
        exact ⟨hx, ih (place + 1) hxs⟩
  rw [Wants]
  exact ⟨⟨rfl, rfl⟩, hitems xs 0 h⟩

theorem field_outline {names : List String} {name : String} (h : name ∈ names) :
    (Record.outline names).field name = .full := by
  have hget : Dict.get? (names.map fun n => (n, Outline.full)) name = some .full := by
    induction names with
    | nil => cases h
    | cons n names ih =>
        rw [List.map_cons, Dict.get?_cons]
        split
        · rfl
        · rename_i hne
          exact ih ((List.mem_cons.mp h).resolve_left fun heq => hne heq.symm)
  rw [Record.outline, Outline.field, hget]

/-- A record without records in it is wanted as it is written. -/
theorem wants_outline {names : List String} {fs : Document} (h : ∀ name ∈ fs.names, name ∈ names) :
    Wants false (Record.outline names) (.object fs) := by
  refine wants_object ⟨rfl, rfl⟩ fun e he => ?_
  rw [field_outline (h _ (Dict.mem_names_of_mem he))]
  exact wants_full e.2

/-- A record of which one field is a record again. -/
theorem wants_record {name : String} {inner : Outline} {fs : Document}
    (h : ∀ v, (name, v) ∈ fs → Wants false inner v) :
    Wants false (.record true [(name, inner)]) (.object fs) := by
  refine wants_object ⟨rfl, rfl⟩ fun e he => ?_
  rw [Outline.field, Dict.get?_cons, Dict.get?_nil]
  by_cases hname : name = e.1
  · rw [if_pos hname]
    exact h e.2 (hname ▸ he)
  · rw [if_neg hname]
    exact wants_full e.2

end Json.Reading

open Json.Reading (Wants wants_object wants_items wants_outline wants_record wants_full)

theorem Permissions.wants_toJson (p : Permissions) : Wants false outline p.toJson := by
  have hsub : p.fields.names.Sublist ["get", "create", "update", "delete"] := p.names_fields_sublist
  exact wants_outline hsub.subset

theorem Condition.wants_toJson (c : Condition) : Wants false outline c.toJson :=
  wants_outline fun _ h => h

theorem Join.wants_toJson (j : Join) : Wants false outline j.toJson :=
  wants_outline fun _ h => h

theorem Index.wants_toJson (i : Index) : Wants false outline i.toJson :=
  wants_outline fun _ h => h

theorem Hook.wants_toJson (h : Hook) : Wants false outline h.toJson := by
  refine wants_record fun v hv => ?_
  rcases List.mem_append.mp hv with hv | hv
  · obtain ⟨c, -, rfl⟩ := Option.mem_map.mp (Dict.mem_ofOption.mp hv).2
    exact c.wants_toJson
  · simp at hv

theorem Attribute.wants_toJson (a : Attribute) : Wants false outline a.toJson := by
  rw [toJson_eq]
  refine wants_record fun v hv => ?_
  have hget : a.fields.get? "permissions" = some v := Dict.get?_of_mem a.nodup_names_fields hv
  have hpermissions : a.fields.get? "permissions" = a.permissions.map Permissions.toJson := by
    rw [get?_fields_of_mem_common (by decide)]
    simp [commonFields, Dict.get?_cons, Dict.get?_append, Dict.get?_ofOption]
  obtain ⟨p, -, rfl⟩ := Option.map_eq_some_iff.mp (hpermissions.symm.trans hget)
  exact p.wants_toJson

namespace Definition

variable {d : Definition}

theorem wants_entries {α : Type} {write : α → Json} {each : Outline}
    (h : ∀ a, Wants false each (write a)) (m : NameMap α) :
    Wants false (.values each) (.object (Dict.mapValues write m.entries)) :=
  wants_object ⟨rfl, rfl⟩ (List.forall_mem_map.mpr fun e _ => h e.2)

theorem wants_toJson (d : Definition) : Wants false outline d.toJson := by
  have hindexes : Wants false (.items Index.outline) (.array (d.indexes.map Index.toJson)) :=
    wants_items (List.forall_mem_map.mpr fun i _ => i.wants_toJson)
  have hhooks : Wants false (.values (.items Hook.outline)) (hooksToJson d.hooks) := by
    rw [hooksToJson_eq]
    refine wants_object ⟨rfl, rfl⟩ (List.forall_mem_map.mpr fun e _ => ?_)
    exact wants_items (List.forall_mem_map.mpr fun h _ => h.wants_toJson)
  rw [toJson]
  refine wants_object ⟨rfl, rfl⟩ ?_
  rw [List.forall_mem_append, List.forall_mem_append, Dict.forall_mem_ofOption]
  refine ⟨?names, fun v hv => ?permissions, ?parts⟩
  case names =>
    simp only [List.forall_mem_cons, List.not_mem_nil, false_imp_iff, implies_true, and_true]
    exact ⟨wants_full _, wants_full _, wants_full _, wants_full _⟩
  case permissions =>
    obtain ⟨p, -, rfl⟩ := Option.mem_map.mp hv
    exact p.wants_toJson
  case parts =>
    simp only [List.forall_mem_cons, List.not_mem_nil, false_imp_iff, implies_true, and_true]
    exact ⟨wants_entries Attribute.wants_toJson _, wants_entries Join.wants_toJson _, hindexes,
      hhooks⟩

/-! ### Reading the text -/

/-- What has to hold of a definition for it to be read back from its text: its bounds are finite, its
containers do not nest too deep, each of its numbers is read back from its digits, and its values stand
for themselves. -/
structure ReadsBack (d : Definition) : Prop where
  bounds : d.FiniteBounds
  nesting : d.toJson.depth ≤ Json.maxDepth
  numbers : ∀ n ∈ d.toJson.numbers, n.reread? = some n
  values : d.Literal Json.meaning?

theorem definition?_text_iff (hfits : d.Fits) (hdefault : d.NoNullDefault) :
    Folder.definition? d.toJson.text = some d ↔ d.ReadsBack := by
  have hback := exchange?_bind_readWith?_iff Json.Passage.text hfits hdefault
  rw [Folder.definition?, Json.wanted_asWritten d.wants_toJson]
  constructor
  · intro h
    split at h
    · rename_i hnesting
      obtain ⟨hbounds, hnumbers, hvalues⟩ := hback.mp h
      exact ⟨hbounds, hnesting, hnumbers, hvalues⟩
    · cases h
  · rintro ⟨hbounds, hnesting, hnumbers, hvalues⟩
    rw [if_pos hnesting]
    exact hback.mpr ⟨hbounds, hnumbers, hvalues⟩

/-- A definition that was read from a text reads back from its own text if its numbers do and its
containers do not nest too deep. -/
theorem definition?_text_iff_of_definition? {text : String} (h : Folder.definition? text = some d)
    (hdefault : d.NoNullDefault) :
    Folder.definition? d.toJson.text = some d ↔
      d.toJson.depth ≤ Json.maxDepth ∧ ∀ n ∈ d.toJson.numbers, n.reread? = some n := by
  obtain ⟨form, -, hform⟩ := Option.bind_eq_some_iff.mp h
  rw [definition?_text_iff (fits_of_readWith? hform) hdefault]
  constructor
  · exact fun h => ⟨h.nesting, h.numbers⟩
  · rintro ⟨hnesting, hnumbers⟩
    exact ⟨finiteBounds_of_readWith? hform, hnesting, hnumbers,
      literal_of_readWith? Json.meaning?_meaning? hform⟩

/-- A definition that is written is read back.  From a value that takes finite bounds, and in a definition
that was read they are finite, in whatever order its fields stood and with whatever fields beside them.
From a text it takes no less than `ReadsBack`, of which only nesting and numbers are left to ask in a
definition that was read from a text. -/
theorem reads_back (d : Definition) :
    (d.Fits → d.NoNullDefault →
      (Definition.read? d.toJson = some d ↔ d.FiniteBounds) ∧
        (Folder.definition? d.toJson.text = some d ↔ d.ReadsBack)) ∧
    (∀ v, Definition.read? v = some d →
      Definition.read? d.toJson = some d ∧
        (Folder.definition? d.toJson.text = some d ↔ d.ReadsBack)) ∧
    ∀ text, Folder.definition? text = some d → d.NoNullDefault →
      Definition.read? d.toJson = some d ∧
        (Folder.definition? d.toJson.text = some d ↔
          d.toJson.depth ≤ Json.maxDepth ∧ ∀ n ∈ d.toJson.numbers, n.reread? = some n) := by
  refine ⟨fun hfits hdefault => ⟨read?_toJson_iff hfits hdefault,
    definition?_text_iff hfits hdefault⟩, fun v h => ?_, fun text h hdefault => ?_⟩
  · have hfits := fits_of_readWith? h
    have hdefault := noNullDefault_of_read? h
    exact ⟨(read?_toJson_iff hfits hdefault).mpr (finiteBounds_of_readWith? h),
      definition?_text_iff hfits hdefault⟩
  · obtain ⟨form, -, hform⟩ := Option.bind_eq_some_iff.mp h
    exact ⟨(read?_toJson_iff (fits_of_readWith? hform) hdefault).mpr
      (finiteBounds_of_readWith? hform), definition?_text_iff_of_definition? h hdefault⟩

private def nineQuarters : Double := ⟨false, 5066549580791808, -51, by decide⟩

/-- Articles with attributes of attributes, bounds, rules of both shapes, a join, an index, and hooks with
and without a condition. -/
private def articles : Definition where
  name := "articles"
  collection := "articles"
  singular := "article"
  apiKey := "slug"
  permissions := some ⟨some (.one .anyone), some (.any [.user]), some (.any []), none⟩
  attributes := ⟨[
    ("links", ⟨.list ⟨.map ⟨.enum ["home", "press"], true, false, none, none⟩
      ⟨.list (.ofKind .email) none, false, false, some (.array [.null]), none⟩, false, false, none,
      none⟩ (some 8), false, false, none, none⟩),
    ("rating", ⟨.number (some (.finite (.zero false))) (some (.finite nineQuarters)), false, false,
      some (.number (.real nineQuarters)), none⟩),
    ("secret", ⟨.string (some 64) (some ⟨some 4⟩), true, false, none,
      some (.uniform (.one .nobody))⟩),
    ("slug", ⟨.slug "title" (some ⟨6⟩) none, false, true, none, none⟩)],
    by decide⟩
  joins := ⟨[("comments", ⟨.findMany, "comments", [("article", .string "\x7bthis.id\x7d")]⟩)],
    by simp⟩
  indexes := [⟨["slug"], true⟩]
  hooks
    | .beforeGet => some []
    | .afterCreate => some [
        ⟨some ⟨.string "\x7bthis.links\x7d", .null, .notEqual⟩, .increment, "this.author.articles",
          .ofNat 1⟩,
        ⟨none, .set, "this.secret", .null⟩]
    | _ => none

/-- A form with its names in another order, one that is unknown, and a default that is null. -/
private def notesForm : Json :=
  .object [("color", .null), ("hooks", .object []), ("collectionName", .string "notes"),
    ("attributes", .object [("text", .object [("required", .bool true), ("default", .null),
      ("type", .string "email")])]),
    ("entityName", .string "notes")]

/-- What the form writes. -/
private def notes : Definition :=
  { ofNames "notes" "notes" with
    attributes := ⟨[("text", ⟨.email, true, false, none, none⟩)], by simp⟩ }

/-- A text in which the form stands. -/
private def notesText : String :=
  "\x7b\"color\": null, \"hooks\": \x7b\x7d, \"collectionName\": \"notes\", \"attributes\": \x7b\"text\": " ++
    "\x7b\"required\": true, \"default\": null, \"type\": \"email\"\x7d\x7d, \"entityName\": \"notes\"\x7d"

private theorem readable_of_plain {a : Attribute} (hcounts : a.kind.Counts)
    (hbounds : a.kind.bounds = []) (hdefault : a.default = none) : a.Readable Json.meaning? :=
  ⟨hcounts, by simp [hbounds], by simp [hdefault], by simp [hdefault]⟩

private theorem readable_articles : ∀ e ∈ articles.attributes.entries,
    e.2.Throughout (Attribute.Readable Json.meaning?) := by
  refine List.forall_mem_cons.mpr ⟨?links, List.forall_mem_cons.mpr ⟨?rating,
    List.forall_mem_cons.mpr ⟨?secret, List.forall_mem_singleton.mpr ?slug⟩⟩⟩
  case links =>
    refine .intro _ (readable_of_plain (by simp [Kind.Counts]) rfl rfl) (List.forall_mem_singleton.mpr
      (.intro _ (readable_of_plain trivial rfl rfl) (List.forall_mem_cons.mpr ⟨?choice,
        List.forall_mem_singleton.mpr ?emails⟩)))
    case choice => exact .of_items_eq_nil (readable_of_plain trivial rfl rfl) rfl
    case emails =>
      refine .intro _ ⟨by simp [Kind.Counts], List.forall_mem_nil _, by simp, ?default⟩
        (List.forall_mem_singleton.mpr (.of_items_eq_nil (readable_of_plain trivial rfl rfl) rfl))
      case default => simp [Json.meaning?, Json.meaningItems?]
  case rating =>
    refine .of_items_eq_nil ⟨trivial, ?bounds, by simp, by simp [Json.meaning?]⟩ rfl
    case bounds => simp [Kind.bounds, Dict.ofOption, Bound.IsFinite]
  case secret => exact .of_items_eq_nil (readable_of_plain (by simp [Kind.Counts]) rfl rfl) rfl
  case slug => exact .of_items_eq_nil (readable_of_plain (by simp [Kind.Counts]) rfl rfl) rfl

private theorem fits_articles : articles.Fits :=
  ⟨fun e he => (readable_articles e he).imp fun _ h => h.counts,
    List.forall_mem_singleton.mpr (by simp)⟩

private theorem noNullDefault_articles : articles.NoNullDefault :=
  fun e he => (readable_articles e he).imp fun _ h => h.default_ne_null

private theorem readsBack_articles : articles.ReadsBack where
  bounds e he := (readable_articles e he).imp fun _ h => h.bounds
  nesting := by decide +kernel
  numbers := by decide +kernel
  values := by
    have hhooks : ∀ l hs, articles.hooks l = some hs → ∀ h ∈ hs, ∀ v ∈ h.values,
        v.meaning? = some v := by
      intro l hs hl
      cases l with
      | beforeGet =>
          cases hl
          exact List.forall_mem_nil _
      | afterCreate =>
          cases hl
          simp [Hook.values, Condition.values, Json.meaning?, Json.ofNat_eq]
      | _ => cases hl
    exact ⟨fun e he => (readable_articles e he).imp fun _ h => h.default,
      List.forall_mem_singleton.mpr (by simp [Json.meaning?]), hhooks⟩

private theorem readsBack_notes : notes.ReadsBack where
  bounds := List.forall_mem_singleton.mpr (.of_items_eq_nil (List.forall_mem_nil _) rfl)
  nesting := by decide +kernel
  numbers := by decide +kernel
  values := ⟨List.forall_mem_singleton.mpr (.of_items_eq_nil (by simp) rfl), List.forall_mem_nil _,
    fun _ _ h => by cases h⟩

/-- No attribute is made of others or has a default. -/
private def isFlat (d : Definition) : Bool :=
  d.attributes.entries.all fun e => e.2.kind.items.isEmpty && e.2.default.isNone

private theorem noNullDefault_of_isFlat (h : d.isFlat = true) : d.NoNullDefault := by
  intro e he
  have hflat := List.all_eq_true.mp h e he
  simp only [Bool.and_eq_true, List.isEmpty_iff, Option.isNone_iff_eq_none] at hflat
  exact .of_items_eq_nil (by simp [hflat.2]) hflat.1

theorem reads_back_articles :
    (articles.Fits ∧ articles.NoNullDefault ∧ Definition.read? articles.toJson = some articles ∧
      Folder.definition? articles.toJson.text = some articles) ∧
    (Definition.read? notesForm = some notes ∧ Definition.read? notes.toJson = some notes ∧
      Folder.definition? notes.toJson.text = some notes) ∧
    ∃ d, Folder.definition? notesText = some d ∧ d.NoNullDefault ∧
      Definition.read? d.toJson = some d ∧ Folder.definition? d.toJson.text = some d := by
  have hnotes : Definition.read? notesForm = some notes := rfl
  have htext : ((Folder.definition? notesText).any fun d =>
      d.isFlat && decide (d.toJson.depth ≤ Json.maxDepth) && d.toJson.numbers.isEmpty) = true := by
    decide +kernel
  obtain ⟨d, hd, hflat⟩ := (Option.any_eq_true _ _).mp htext
  simp only [Bool.and_eq_true, List.isEmpty_iff, decide_eq_true_eq] at hflat
  obtain ⟨⟨hflat, hnesting⟩, hnumbers⟩ := hflat
  have hdefault := noNullDefault_of_isFlat hflat
  obtain ⟨harticles, harticlesText⟩ := (reads_back articles).1 fits_articles noNullDefault_articles
  obtain ⟨hnotesForm, hnotesText⟩ := (reads_back notes).2.1 notesForm hnotes
  obtain ⟨hform, hfile⟩ := (reads_back d).2.2 notesText hd hdefault
  exact ⟨⟨fits_articles, noNullDefault_articles, harticles.mpr readsBack_articles.bounds,
      harticlesText.mpr readsBack_articles⟩,
    ⟨hnotes, hnotesForm, hnotesText.mpr readsBack_notes⟩,
    d, hd, hdefault, hform, hfile.mpr ⟨hnesting, by simp [hnumbers]⟩⟩

/-- Rates that are not below a bound. -/
private def rates (low : Bound) : Definition :=
  { ofNames "rates" "rates" with
    attributes := ⟨[("rate", .ofKind (.number (some low) none))], by simp⟩ }

/-- The double nearest to 6e23, whose digits are read as the double below it. -/
private def steepLimit : Double := ⟨false, 8940696716308594, 26, by decide⟩

/-- A file with a bound that changes whenever it is written and read. -/
private def ratesText : String :=
  "\x7b\"entityName\": \"rates\", \"collectionName\": \"rates\", \"attributes\": " ++
    "\x7b\"rate\": \x7b\"type\": \"number\", \"min\": 1.03e28\x7d\x7d\x7d"

private theorem fits_rates (low : Bound) : (rates low).Fits :=
  ⟨List.forall_mem_singleton.mpr (.of_items_eq_nil trivial rfl), List.forall_mem_nil _⟩

private theorem noNullDefault_rates (low : Bound) : (rates low).NoNullDefault :=
  List.forall_mem_singleton.mpr (.of_items_eq_nil (by simp [Attribute.ofKind]) rfl)

/-- Digits are read as a neighbour of the double that they were written for, in a definition and in one
that was itself read from a text, and a bound that is not finite is not written at all. -/
theorem not_reads_back :
    ((rates (.finite steepLimit)).Fits ∧ (rates (.finite steepLimit)).NoNullDefault ∧
      Folder.definition? (rates (.finite steepLimit)).toJson.text ≠
        some (rates (.finite steepLimit))) ∧
    ((rates (.infinite false)).Fits ∧ (rates (.infinite false)).NoNullDefault ∧
      Definition.read? (rates (.infinite false)).toJson ≠ some (rates (.infinite false))) ∧
    ∃ d, Folder.definition? ratesText = some d ∧ d.NoNullDefault ∧
      Folder.definition? d.toJson.text ≠ some d := by
  refine ⟨⟨fits_rates _, noNullDefault_rates _, fun h => ?steep⟩,
    ⟨fits_rates _, noNullDefault_rates _, fun h => ?infinite⟩, ?file⟩
  case steep =>
    have hkept := ((definition?_text_iff (fits_rates _) (noNullDefault_rates _)).mp h).numbers
    exact absurd (hkept (.real steepLimit) (by decide +kernel)) (by decide +kernel)
  case infinite =>
    have hbounds := (read?_toJson_iff (fits_rates _) (noNullDefault_rates _)).mp h
    cases List.forall_mem_singleton.mp hbounds with
    | intro _ here _ =>
        exact here ("min", .infinite false) (by simp [Attribute.ofKind, Kind.bounds, Dict.ofOption])
  case file =>
    have htext : ((Folder.definition? ratesText).any fun d =>
        d.isFlat && d.toJson.numbers.any fun n => n.reread? != some n) = true := by
      decide +kernel
    obtain ⟨d, hd, hflat⟩ := (Option.any_eq_true _ _).mp htext
    simp only [Bool.and_eq_true, List.any_eq_true, bne_iff_ne, ne_eq] at hflat
    obtain ⟨hflat, n, hn, hmoved⟩ := hflat
    have hdefault := noNullDefault_of_isFlat hflat
    refine ⟨d, hd, hdefault, fun h => hmoved ?_⟩
    exact ((definition?_text_iff_of_definition? hd hdefault).mp h).2 n hn

end Definition

end Curator
