/-
What is written of a record is read as it was.

A record is written as an object of fields with distinct names, from which some may be left out.  So
what is read under a name is what was written under it, wherever it stands, and nothing else.  The small
records of a schema follow from that one after the other; of numbers only those that fit their word come
back, and of the read ones all fit.
-/
import Curator.Proofs.Dict
import Curator.Schema.DefinitionForm

namespace Curator

/-! ### Fields of a written record -/

namespace Record

variable {α β γ : Type} {fields : Dict α} {name : String}

theorem field?_named (hnames : fields.names.Nodup) (place : Nat) (name : String) :
    (named fields).field? place name = some (fields.get? name) := by
  rw [field?]
  induction fields with
  | nil => rfl
  | cons e rest ih =>
      obtain ⟨hfirst, hrest⟩ := List.nodup_cons.mp hnames
      rw [Dict.get?_cons]
      by_cases hname : e.1 = name
      · have hnone : rest.filter (fun e => e.1 == name) = [] := by
          refine List.filter_eq_nil_iff.mpr fun x hx hsame => hfirst ?_
          have hfst : x.1 = e.1 := (beq_iff_eq.mp hsame).trans hname.symm
          exact List.mem_map.mpr ⟨x, hx, hfst⟩
        rw [List.filter_cons_of_pos (by simpa using hname), hnone, if_pos hname]
      · rw [List.filter_cons_of_neg (by simpa using hname), if_neg hname]
        exact ih hrest

theorem required_named (hnames : fields.names.Nodup) {v : α} (hget : fields.get? name = some v)
    (place : Nat) (read : α → Option β) : (named fields).required place name read = read v := by
  rw [required, field?_named hnames, hget]

theorem orElse_named (hnames : fields.names.Nodup) {v : α} (hget : fields.get? name = some v)
    (place : Nat) (default : β) (read : α → Option β) :
    (named fields).orElse place name default read = read v := by
  rw [orElse, field?_named hnames, hget]

/-- A field that is left out when there is nothing to write is read as what was written. -/
theorem orElse_omitted (hnames : fields.names.Nodup) {x : Option γ} {write : γ → α}
    (hget : fields.get? name = x.map write) {read : α → Option (Option γ)}
    (hread : ∀ c ∈ x, read (write c) = some (some c)) (place : Nat) :
    (named fields).orElse place name none read = some x := by
  rw [orElse, field?_named hnames, hget]
  cases x with
  | none => rfl
  | some c => exact hread c rfl

theorem optional_omitted {fields : Document} (hnames : fields.names.Nodup) {x : Option γ}
    {write : γ → Json} (hget : fields.get? name = x.map write) {read : Json → Option γ}
    (hread : ∀ c ∈ x, (write c).isNull = false ∧ read (write c) = some c) (place : Nat) :
    (named fields).optional place name read = some x := by
  refine orElse_omitted hnames hget (fun c hc => ?_) place
  obtain ⟨hnull, hc⟩ := hread c hc
  rw [hnull, hc]
  rfl

/-! ### Fields of any record -/

variable {r : Record α} {place : Nat}

theorem required_eq_some {read : α → Option β} {b : β} (h : r.required place name read = some b) :
    ∃ v, r.field? place name = some (some v) ∧ read v = some b := by
  rw [required] at h
  split at h
  · rename_i v hv
    exact ⟨v, hv, h⟩
  · cases h

theorem orElse_eq_some {read : α → Option β} {default b : β}
    (h : r.orElse place name default read = some b) :
    b = default ∨ ∃ v, r.field? place name = some (some v) ∧ read v = some b := by
  rw [orElse] at h
  split at h
  · cases h
  · exact Or.inl (Option.some.inj h).symm
  · rename_i v hv
    exact Or.inr ⟨v, hv, h⟩

/-- What is read of a field that may be missing or null is read of a value of the field. -/
theorem nullable_eq_some {isNull : α → Bool} {read : α → Option β} {x : Option β}
    (h : r.orElse place name none (fun v => if isNull v then some none else (read v).map some) =
      some x) : ∀ b ∈ x, ∃ v, r.field? place name = some (some v) ∧ isNull v = false ∧
        read v = some b := by
  rcases orElse_eq_some h with rfl | ⟨v, hfield, hv⟩
  · nofun
  · split at hv
    · cases hv
      nofun
    · rename_i hnull
      obtain ⟨b, hb, rfl⟩ := Option.map_eq_some_iff.mp hv
      rintro _ ⟨⟩
      exact ⟨v, hfield, Bool.eq_false_iff.mpr hnull, hb⟩

end Record

/-! ### Lists -/

section Lists

variable {α β : Type}

theorem mapM_written {write : α → β} {read : β → Option α} {as : List α}
    (h : ∀ a ∈ as, read (write a) = some a) : (as.map write).mapM read = some as := by
  induction as with
  | nil => rfl
  | cons a as ih =>
      obtain ⟨ha, has⟩ := List.forall_mem_cons.mp h
      rw [List.map_cons, List.mapM_cons, ha, ih has]
      rfl

theorem Dict.names_of_mapM {read : α → Option β} {fields : Dict α} {read' : Dict β}
    (h : fields.mapM (fun e => (read e.2).map fun b => (e.1, b)) = some read') :
    read'.names = fields.names := by
  induction fields generalizing read' with
  | nil =>
      cases h
      rfl
  | cons e fields ih =>
      rw [List.mapM_cons] at h
      obtain ⟨b, hb, h⟩ := Option.bind_eq_some_iff.mp h
      obtain ⟨rest, hrest, h⟩ := Option.bind_eq_some_iff.mp h
      cases h
      obtain ⟨v, -, rfl⟩ := Option.map_eq_some_iff.mp hb
      exact congrArg (e.1 :: ·) (ih hrest)

theorem mem_of_mapM {read : β → Option α} {bs : List β} {as : List α} (h : bs.mapM read = some as) :
    ∀ a ∈ as, ∃ b ∈ bs, read b = some a := by
  induction bs generalizing as with
  | nil =>
      cases h
      nofun
  | cons b bs ih =>
      rw [List.mapM_cons] at h
      obtain ⟨a, ha, h⟩ := Option.bind_eq_some_iff.mp h
      obtain ⟨rest, hrest, h⟩ := Option.bind_eq_some_iff.mp h
      cases h
      refine List.forall_mem_cons.mpr ⟨⟨b, List.mem_cons_self, ha⟩, fun a' ha' => ?_⟩
      obtain ⟨b', hb', hread⟩ := ih hrest a' ha'
      exact ⟨b', List.mem_cons_of_mem b hb', hread⟩

end Lists

/-! ### Single values -/

namespace Json

theorem ofNat_eq {n : Nat} (h : n < 2 ^ 64) :
    ofNat n = number (.whole ⟨n, by omega, by omega⟩) := by
  have hwhole : Whole.ofInt? n = some ⟨n, by omega, by omega⟩ := dif_pos ⟨by omega, by omega⟩
  rw [ofNat, ofInt, hwhole]

theorem isNull_ofNat (n : Nat) : (ofNat n).isNull = false := by
  rw [ofNat, ofInt]
  cases Whole.ofInt? n <;> rfl

theorem natBelow?_ofNat {n limit : Nat} (h : n < limit) (hlimit : limit ≤ 2 ^ 64) :
    (ofNat n).natBelow? limit = some n := by
  have hrange : 0 ≤ (n : Int) ∧ (n : Int) < limit := ⟨by omega, by omega⟩
  rw [ofNat_eq (by omega), natBelow?, if_pos hrange, Int.toNat_natCast]

theorem natBelow?_lt {limit n : Nat} {v : Json} (h : v.natBelow? limit = some n) : n < limit := by
  unfold natBelow? at h
  split at h
  · split at h
    · cases h
      omega
    · cases h
  · cases h

theorem strings?_written (values : List String) :
    strings? (.array (values.map .string)) = some values :=
  mapM_written fun _ _ => rfl

end Json

theorem count?_ofNat {n : Nat} (h : n < 2 ^ 64) :
    (Json.ofNat n).isNull = false ∧ count? (.ofNat n) = some n :=
  ⟨Json.isNull_ofNat n, Json.natBelow?_ofNat h (Nat.le_refl _)⟩

theorem count?_lt {v : Json} {n : Nat} (h : count? v = some n) : n < 2 ^ 64 := Json.natBelow?_lt h

/-! ### Permissions -/

theorem Rule.read?_toJson (r : Rule) : Rule.read? r.toJson = some r ∧ r.toJson.isNull = false := by
  have hword : ∀ a : Audience, Audience.read? (.string a.word) = some a := Audience.find?_word
  cases r with
  | one a =>
      rw [toJson, read?, hword]
      · exact ⟨rfl, rfl⟩
      · nofun
  | any as =>
      rw [toJson, read?, mapM_written fun a _ => hword a]
      exact ⟨rfl, rfl⟩

namespace Permissions

/-- The fields that permissions are written as. -/
def fields (p : Permissions) : Document :=
  Dict.ofOption "get" (p.get.map Rule.toJson) ++
    (Dict.ofOption "create" (p.create.map Rule.toJson) ++
      (Dict.ofOption "update" (p.update.map Rule.toJson) ++
        Dict.ofOption "delete" (p.delete.map Rule.toJson)))

theorem names_fields_sublist (p : Permissions) :
    p.fields.names.Sublist ["get", "create", "update", "delete"] := by
  simp only [fields, Dict.names_append]
  exact (Dict.names_ofOption_sublist ..).append ((Dict.names_ofOption_sublist ..).append
    ((Dict.names_ofOption_sublist ..).append (Dict.names_ofOption_sublist ..)))

theorem nodup_names_fields (p : Permissions) : p.fields.names.Nodup :=
  List.Nodup.sublist p.names_fields_sublist (by decide)

theorem read?_toJson (p : Permissions) : read? p.toJson = some p := by
  have hrule : ∀ {x : Option Rule}, ∀ r ∈ x,
      r.toJson.isNull = false ∧ Rule.read? r.toJson = some r :=
    fun r _ => r.read?_toJson.symm
  have hnames := p.nodup_names_fields
  have hget : p.fields.get? "get" = p.get.map Rule.toJson := by
    simp [fields, Dict.get?_append, Dict.get?_ofOption]
  have hcreate : p.fields.get? "create" = p.create.map Rule.toJson := by
    simp [fields, Dict.get?_append, Dict.get?_ofOption]
  have hupdate : p.fields.get? "update" = p.update.map Rule.toJson := by
    simp [fields, Dict.get?_append, Dict.get?_ofOption]
  have hdelete : p.fields.get? "delete" = p.delete.map Rule.toJson := by
    simp [fields, Dict.get?_append, Dict.get?_ofOption]
  have hform : Record.ofJson? p.toJson = some (.named p.fields) := rfl
  rw [read?, hform, Option.bind_eq_bind, Option.bind_some,
    Record.optional_omitted hnames hget hrule, Record.optional_omitted hnames hcreate hrule,
    Record.optional_omitted hnames hupdate hrule, Record.optional_omitted hnames hdelete hrule]
  rfl

end Permissions

/-! ### Parts of attributes -/

/-- A bound that is a double. -/
def Bound.IsFinite : Bound → Prop
  | finite _ => True
  | _ => False

theorem Bound.read?_toJson {b : Bound} (h : b.IsFinite) :
    b.toJson.isNull = false ∧ Bound.read? b.toJson = some b := by
  cases b with
  | finite x => exact ⟨rfl, rfl⟩
  | infinite negative => exact h.elim
  | undefined => exact h.elim

theorem Bound.isFinite_of_read? {v : Json} {b : Bound} (h : Bound.read? v = some b) :
    b.IsFinite := by
  obtain ⟨x, -, rfl⟩ := Option.map_eq_some_iff.mp h
  trivial

theorem Affix.read?_toJson {a : Affix} (h : a.chars < 2 ^ 64) : Affix.read? a.toJson = some a := by
  let fields : Document := [("type", .string "random"), ("chars", .ofNat a.chars)]
  have hnames : fields.names.Nodup := by simp [fields]
  have htype : fields.get? "type" = some (.string "random") := rfl
  have hchars : fields.get? "chars" = some (.ofNat a.chars) := by simp [fields, Dict.get?_cons]
  have hform : Record.ofJson? a.toJson = some (.named fields) := rfl
  rw [read?, hform, Option.bind_eq_bind, Option.bind_some, Record.required_named hnames htype,
    Record.required_named hnames hchars, (count?_ofNat h).2]
  rfl

theorem Affix.chars_lt {v : Json} {a : Affix} (h : Affix.read? v = some a) : a.chars < 2 ^ 64 := by
  obtain ⟨r, -, h⟩ := Option.bind_eq_some_iff.mp h
  obtain ⟨-, -, h⟩ := Option.bind_eq_some_iff.mp h
  obtain ⟨-, -, h⟩ := Option.bind_eq_some_iff.mp h
  obtain ⟨chars, hchars, h⟩ := Option.bind_eq_some_iff.mp h
  cases h
  obtain ⟨v, -, hv⟩ := Record.required_eq_some hchars
  exact count?_lt hv

theorem Hashing.read?_toJson {h : Hashing} (hrounds : ∀ n ∈ h.rounds, n < 2 ^ 32) :
    Hashing.read? h.toJson = some h := by
  let fields : Document :=
    ("algorithm", .string "bcrypt") :: Dict.ofOption "salt_rounds" (h.rounds.map Json.ofNat)
  have hnames : fields.names.Nodup :=
    List.Nodup.sublist ((Dict.names_ofOption_sublist "salt_rounds" _).cons_cons "algorithm")
      (by decide)
  have halgorithm : fields.get? "algorithm" = some (.string "bcrypt") := rfl
  have hsalt : fields.get? "salt_rounds" = h.rounds.map Json.ofNat := by
    simp [fields, Dict.get?_cons, Dict.get?_ofOption]
  have hform : Record.ofJson? h.toJson = some (.named fields) := rfl
  rw [read?, hform, Option.bind_eq_bind, Option.bind_some, Record.required_named hnames halgorithm,
    Record.optional_omitted hnames hsalt fun n hn =>
      ⟨Json.isNull_ofNat n, Json.natBelow?_ofNat (hrounds n hn) (by decide)⟩]
  rfl

theorem Hashing.rounds_lt {v : Json} {h : Hashing} (hread : Hashing.read? v = some h) :
    ∀ n ∈ h.rounds, n < 2 ^ 32 := by
  obtain ⟨r, -, hread⟩ := Option.bind_eq_some_iff.mp hread
  obtain ⟨-, -, hread⟩ := Option.bind_eq_some_iff.mp hread
  obtain ⟨-, -, hread⟩ := Option.bind_eq_some_iff.mp hread
  obtain ⟨rounds, hrounds, hread⟩ := Option.bind_eq_some_iff.mp hread
  cases hread
  intro n hn
  obtain ⟨v, -, -, hv⟩ := Record.nullable_eq_some hrounds n hn
  exact Json.natBelow?_lt hv

/-! ### Hooks, joins and indexes -/

section Values

variable {meaning : Json → Option Json}

/-- The values that a condition compares. -/
def Condition.values (c : Condition) : List Json := [c.left, c.right]

/-- The values that a hook holds. -/
def Hook.values (h : Hook) : List Json := h.value :: (h.condition.toList.flatMap Condition.values)

namespace Condition

theorem readWith?_toJson {c : Condition} (h : ∀ v ∈ c.values, meaning v = some v) :
    Condition.readWith? meaning c.toJson = some c := by
  let fields : Document :=
    [("left", c.left), ("right", c.right), ("comparator", .string c.comparator.word)]
  have hnames : fields.names.Nodup := by simp [fields]
  have hleft : fields.get? "left" = some c.left := rfl
  have hright : fields.get? "right" = some c.right := rfl
  have hcomparator : fields.get? "comparator" = some (.string c.comparator.word) := rfl
  have hform : Record.ofJson? c.toJson = some (.named fields) := rfl
  have hword : Vocabulary.read? Comparator.all Comparator.word (.string c.comparator.word) =
      some c.comparator := c.comparator.find?_word
  rw [readWith?, hform, Option.bind_eq_bind, Option.bind_some, Record.required_named hnames hleft,
    h c.left (by simp [values]), Record.required_named hnames hright,
    h c.right (by simp [values]), Record.required_named hnames hcomparator, hword]
  rfl

theorem readWith?_eq_some {v : Json} {c : Condition} (h : readWith? meaning v = some c) :
    ∃ r, Record.ofJson? v = some r ∧ r.required 0 "left" meaning = some c.left ∧
      r.required 1 "right" meaning = some c.right := by
  obtain ⟨r, hr, h⟩ := Option.bind_eq_some_iff.mp h
  obtain ⟨-, -, h⟩ := Option.bind_eq_some_iff.mp h
  obtain ⟨left, hleft, h⟩ := Option.bind_eq_some_iff.mp h
  obtain ⟨right, hright, h⟩ := Option.bind_eq_some_iff.mp h
  obtain ⟨comparator, -, h⟩ := Option.bind_eq_some_iff.mp h
  cases h
  exact ⟨r, hr, hleft, hright⟩

/-- If what stands for a value stands for itself, the values that were read do. -/
theorem values_of_readWith? (hm : ∀ {w v}, meaning w = some v → meaning v = some v) {v : Json}
    {c : Condition} (h : readWith? meaning v = some c) : ∀ u ∈ c.values, meaning u = some u := by
  obtain ⟨r, -, hleft, hright⟩ := readWith?_eq_some h
  obtain ⟨w, -, hw⟩ := Record.required_eq_some hleft
  obtain ⟨w', -, hw'⟩ := Record.required_eq_some hright
  exact List.forall_mem_cons.mpr ⟨hm hw, List.forall_mem_singleton.mpr (hm hw')⟩

end Condition

namespace Hook

/-- The fields that a hook is written as. -/
def fields (h : Hook) : Document :=
  Dict.ofOption "condition" (h.condition.map Condition.toJson) ++
    [("action", .string h.effect.word), ("target", .string h.target), ("value", h.value)]

theorem toJson_eq (h : Hook) : h.toJson = .object h.fields := rfl

theorem nodup_names_fields (h : Hook) : h.fields.names.Nodup := by
  have hsub : h.fields.names.Sublist ["condition", "action", "target", "value"] := by
    simp only [fields, Dict.names_append]
    exact (Dict.names_ofOption_sublist ..).append (List.Sublist.refl _)
  exact List.Nodup.sublist hsub (by decide)

theorem readWith?_toJson {h : Hook} (hvalues : ∀ v ∈ h.values, meaning v = some v) :
    Hook.readWith? meaning h.toJson = some h := by
  have hnames := h.nodup_names_fields
  have hcondition : h.fields.get? "condition" = h.condition.map Condition.toJson := by
    simp [fields, Dict.get?_append, Dict.get?_ofOption, Dict.get?_cons]
  have haction : h.fields.get? "action" = some (.string h.effect.word) := by
    simp [fields, Dict.get?_append, Dict.get?_ofOption, Dict.get?_cons]
  have htarget : h.fields.get? "target" = some (.string h.target) := by
    simp [fields, Dict.get?_append, Dict.get?_ofOption, Dict.get?_cons]
  have hvalue : h.fields.get? "value" = some h.value := by
    simp [fields, Dict.get?_append, Dict.get?_ofOption, Dict.get?_cons]
  have hword : Vocabulary.selector? Effect.all Effect.word (.string h.effect.word) = some h.effect :=
    h.effect.find?_word
  have hread : ∀ c ∈ h.condition,
      c.toJson.isNull = false ∧ Condition.readWith? meaning c.toJson = some c := by
    intro c hc
    refine ⟨rfl, Condition.readWith?_toJson fun v hv => hvalues v (List.mem_cons_of_mem _ ?_)⟩
    exact List.mem_flatMap.mpr ⟨c, Option.mem_toList.mpr hc, hv⟩
  rw [toJson_eq, readWith?, Option.bind_eq_bind, Record.optional_omitted hnames hcondition hread,
    Record.required_named hnames haction, hword, Record.required_named hnames htarget,
    Record.required_named hnames hvalue, hvalues h.value List.mem_cons_self]
  rfl

theorem readWith?_eq_some {fields : Document} {h : Hook}
    (hread : readWith? meaning (.object fields) = some h) :
    (Record.named fields).optional 0 "condition" (Condition.readWith? meaning) = some h.condition ∧
      (Record.named fields).required 0 "value" meaning = some h.value := by
  rw [readWith?] at hread
  obtain ⟨condition, hcondition, hread⟩ := Option.bind_eq_some_iff.mp hread
  obtain ⟨effect, -, hread⟩ := Option.bind_eq_some_iff.mp hread
  obtain ⟨target, -, hread⟩ := Option.bind_eq_some_iff.mp hread
  obtain ⟨value, hvalue, hread⟩ := Option.bind_eq_some_iff.mp hread
  cases hread
  exact ⟨hcondition, hvalue⟩

theorem values_of_readWith? (hm : ∀ {w v}, meaning w = some v → meaning v = some v) {v : Json}
    {h : Hook} (hread : readWith? meaning v = some h) : ∀ u ∈ h.values, meaning u = some u := by
  cases v with
  | object fields =>
      obtain ⟨hcondition, hvalue⟩ := readWith?_eq_some hread
      obtain ⟨w, -, hw⟩ := Record.required_eq_some hvalue
      refine List.forall_mem_cons.mpr ⟨hm hw, fun u hu => ?_⟩
      obtain ⟨c, hc, hu⟩ := List.mem_flatMap.mp hu
      obtain ⟨w, -, -, hw⟩ := Record.nullable_eq_some hcondition c (Option.mem_toList.mp hc)
      exact Condition.values_of_readWith? hm hw u hu
  | _ => cases hread

end Hook

namespace Join

theorem readQuery_written {query : Document} (h : query.names.Nodup)
    (hvalues : ∀ e ∈ query, meaning e.2 = some e.2) :
    readQuery meaning (.object query) = some query := by
  have hfields : (query.map id).mapM
      (fun e : String × Json => (meaning e.2).map fun v => (e.1, v)) = some query :=
    mapM_written fun e he => congrArg (Option.map fun v => (e.1, v)) (hvalues e he)
  rw [List.map_id] at hfields
  rw [readQuery, hfields, Option.map_some, Dict.ofList_eq_self h]

theorem readWith?_toJson {j : Join} (h : j.query.names.Nodup)
    (hvalues : ∀ e ∈ j.query, meaning e.2 = some e.2) :
    Join.readWith? meaning j.toJson = some j := by
  let fields : Document :=
    [("type", .string j.type.word), ("entity", .string j.entity), ("query", .object j.query)]
  have hnames : fields.names.Nodup := by simp [fields]
  have htype : fields.get? "type" = some (.string j.type.word) := rfl
  have hentity : fields.get? "entity" = some (.string j.entity) := rfl
  have hquery : fields.get? "query" = some (.object j.query) := rfl
  have hform : Record.ofJson? j.toJson = some (.named fields) := rfl
  have hword : Vocabulary.read? JoinType.all JoinType.word (.string j.type.word) = some j.type :=
    j.type.find?_word
  rw [readWith?, hform, Option.bind_eq_bind, Option.bind_some, Record.required_named hnames htype,
    hword, Record.required_named hnames hentity, Record.orElse_named hnames hquery,
    readQuery_written h hvalues]
  rfl

theorem readWith?_eq_some {v : Json} {j : Join} (h : Join.readWith? meaning v = some j) :
    ∃ r, Record.ofJson? v = some r ∧ r.orElse 2 "query" [] (readQuery meaning) = some j.query := by
  obtain ⟨r, hr, h⟩ := Option.bind_eq_some_iff.mp h
  obtain ⟨-, -, h⟩ := Option.bind_eq_some_iff.mp h
  obtain ⟨type, -, h⟩ := Option.bind_eq_some_iff.mp h
  obtain ⟨entity, -, h⟩ := Option.bind_eq_some_iff.mp h
  obtain ⟨query, hquery, h⟩ := Option.bind_eq_some_iff.mp h
  cases h
  exact ⟨r, hr, hquery⟩

/-- A query that was read names no field twice. -/
theorem nodup_names_query {v : Json} {j : Join} (h : Join.readWith? meaning v = some j) :
    j.query.names.Nodup := by
  obtain ⟨r, -, hquery⟩ := readWith?_eq_some h
  rcases Record.orElse_eq_some hquery with hnone | ⟨v, -, hv⟩
  · rw [hnone]
    exact List.nodup_nil
  · unfold readQuery at hv
    split at hv
    · obtain ⟨fields, -, hfields⟩ := Option.map_eq_some_iff.mp hv
      exact hfields ▸ Dict.nodup_names_ofList fields
    · cases hv

theorem values_of_readWith? (hm : ∀ {w v}, meaning w = some v → meaning v = some v) {v : Json}
    {j : Join} (h : Join.readWith? meaning v = some j) : ∀ e ∈ j.query, meaning e.2 = some e.2 := by
  obtain ⟨r, -, hquery⟩ := readWith?_eq_some h
  rcases Record.orElse_eq_some hquery with hnone | ⟨v, -, hv⟩
  · rw [hnone]
    exact List.forall_mem_nil _
  · unfold readQuery at hv
    split at hv
    · obtain ⟨fields, hfields, hsame⟩ := Option.map_eq_some_iff.mp hv
      rw [← hsame]
      refine Dict.forall_mem_merge nofun fun e he => ?_
      obtain ⟨written, -, hread⟩ := mem_of_mapM hfields e he
      obtain ⟨u, hu, rfl⟩ := Option.map_eq_some_iff.mp hread
      exact hm hu
    · cases hv

end Join

end Values

theorem Index.read?_toJson (i : Index) : Index.read? i.toJson = some i := by
  let fields : Document :=
    [("fields", .array (i.fields.map .string)), ("unique", .bool i.unique)]
  have hnames : fields.names.Nodup := by simp [fields]
  have hfields : fields.get? "fields" = some (.array (i.fields.map .string)) := rfl
  have hunique : fields.get? "unique" = some (.bool i.unique) := rfl
  have hform : Record.ofJson? i.toJson = some (.named fields) := rfl
  rw [read?, hform, Option.bind_eq_bind, Option.bind_some, Record.required_named hnames hfields,
    Json.strings?_written, Record.orElse_named hnames hunique]
  rfl

end Curator
