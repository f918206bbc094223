/-
What becomes of the entries of a map.

The name of an entry is replaced by the text of what its key attribute makes of it, and an entry whose
name is there already takes its place.  `Attribute.nameOf` is the name that an entry gets.  A map that
could be coerced has an entry for each one that was sent as long as all of these names differ; where
two are the same, only the later of the entries is left.  Kinds that accept a name only as it is keep
all entries.
-/
import Curator.Proofs.Coercion.Projection

namespace Curator

/-! ### The loop over the entries -/

section Loop

variable {coerce : String × Json → Except Failure (String × Json)} {done done' : Document}
  {failures failures' : List Failure} {entries coerced fields : List (String × Json)}

/-- A failure that was met is reported in the end. -/
theorem coerceEntries_failures
    (h : coerceEntries coerce done failures entries = .ok (done', failures')) :
    failures <+: failures' := by
  induction entries generalizing done failures with
  | nil =>
      cases h
      exact List.prefix_rfl
  | cons e rest ih =>
      rw [coerceEntries] at h
      split at h
      · exact ih h
      · split at h
        · exact (List.prefix_append _ _).trans (ih h)
        · cases h

/-- All entries can be coerced exactly if no failure is met, and then they are set in turn. -/
theorem coerceEntries_eq_ok_iff :
    coerceEntries coerce done failures entries = .ok (done', []) ↔
      failures = [] ∧ ∃ coerced, List.Forall₂ (fun e c => coerce e = .ok c) entries coerced ∧
        done' = done.merge coerced := by
  induction entries generalizing done failures with
  | nil =>
      rw [coerceEntries]
      constructor
      · intro h
        cases h
        exact ⟨rfl, [], .nil, rfl⟩
      · rintro ⟨rfl, coerced, hcoerced, rfl⟩
        cases hcoerced
        rfl
  | cons e rest ih =>
      rw [coerceEntries]
      cases he : coerce e with
      | ok c =>
          obtain ⟨name, v⟩ := c
          dsimp only
          rw [ih]
          refine and_congr_right fun _ => ?_
          constructor
          · rintro ⟨coerced, hcoerced, rfl⟩
            exact ⟨(name, v) :: coerced, .cons he hcoerced, rfl⟩
          · rintro ⟨coerced, hcoerced, rfl⟩
            cases hcoerced with
            | cons hc hrest =>
                rw [he] at hc
                cases hc
                exact ⟨_, hrest, rfl⟩
      | error f =>
          have hnone : ¬ ∃ coerced,
              List.Forall₂ (fun e c => coerce e = .ok c) (e :: rest) coerced ∧
                done' = done.merge coerced := by
            rintro ⟨coerced, hcoerced, -⟩
            cases hcoerced with
            | cons hc hrest =>
                rw [he] at hc
                cases hc
          refine iff_of_false ?_ fun h => hnone h.2
          dsimp only
          intro h
          split at h
          · have hprefix := coerceEntries_failures h
            simp at hprefix
          · cases h

/-- Entries that could be coerced are all there, in their order, exactly if their names differ. -/
theorem forall₂_ofList_iff
    (hcoerced : List.Forall₂ (fun e c => coerce e = .ok c) entries coerced) :
    List.Forall₂ (fun e c => coerce e = .ok c) entries (Dict.ofList coerced) ↔
      (Dict.names coerced).Nodup := by
  constructor
  · intro h
    have hunique : Relator.RightUnique fun e c => coerce e = .ok c := by
      intro e c c' hc hc'
      exact Except.ok.inj (hc.symm.trans hc')
    rw [List.right_unique_forall₂' hunique hcoerced h]
    exact Dict.nodup_names_ofList coerced
  · intro h
    rwa [Dict.ofList_eq_self h]

end Loop

/-! ### Names of entries -/

variable {s : Surroundings} {data : Document} {label : String} {key value : Attribute}
  {entries coerced : List (String × Json)}

/-- The name that an entry gets: the text of what the key attribute makes of its own. -/
def Attribute.nameOf (key : Attribute) (s : Surroundings) (data : Document) (name : String) : String :=
  entryName name (key.coerce s data name (some (.string name))).toOption.join

/-- Coerces one entry of a map with these attributes. -/
def Attribute.coerceEntry (key value : Attribute) (s : Surroundings) (data : Document)
    (e : String × Json) : Except Failure (String × Json) :=
  Curator.coerceEntry (fun l x => key.coerce s data l (some x))
    (fun l x => value.coerce s data l (some x)) e

theorem nameOf_of_coerceEntry {e c : String × Json} (h : key.coerceEntry value s data e = .ok c) :
    (∃ w, key.coerce s data e.1 (some (.string e.1)) = .ok w) ∧ c.1 = key.nameOf s data e.1 := by
  rw [Attribute.coerceEntry, coerceEntry] at h
  split at h
  · cases h
  · rename_i w hw
    split at h
    · cases h
    · cases h
      refine ⟨⟨w, hw⟩, ?_⟩
      rw [Attribute.nameOf, hw]
      cases w <;> rfl

theorem names_of_coerced
    (h : List.Forall₂ (fun e c => key.coerceEntry value s data e = .ok c) entries coerced) :
    Dict.names coerced = (Dict.names entries).map (key.nameOf s data) := by
  induction h with
  | nil => rfl
  | cons he _ ih =>
      rw [Dict.names_cons, Dict.names_cons, List.map_cons, ih, (nameOf_of_coerceEntry he).2]

/-- Some kinds accept a name only as it is. -/
theorem nameOf_eq_self (hkey : key.kind.name ∈ [.boolean, .enum, .id, .ref]) {name : String}
    {w : Option Json} (h : key.coerce s data name (some (.string name)) = .ok w) :
    key.nameOf s data name = name := by
  rw [Attribute.nameOf, h]
  show entryName name w = name
  rw [key.coerce_some rfl] at h
  cases hkind : key.kind with
  | boolean =>
      rw [hkind, Kind.coerce, toBoolean?] at h
      split at h
      · rename_i b hb
        cases h
        split at hb
        · rename_i htrue
          cases hb
          exact htrue.symm
        · split at hb
          · rename_i hfalse
            cases hb
            exact hfalse.symm
          · cases hb
      · cases h
  | enum values =>
      rw [hkind, Kind.coerce] at h
      split at h
      · rename_i t ht
        cases h
        exact (Option.some.inj (Option.filter_eq_some_iff.mp ht).1).symm
      · cases h
  | id =>
      rw [hkind, Kind.coerce] at h
      cases h
      rfl
  | ref entity =>
      rw [hkind, Kind.coerce] at h
      obtain ⟨id, hid, -, -, rfl⟩ := coerceRef_eq_ok_iff.mp h
      exact (Option.some.inj hid).symm
  | _ => simp [hkind, Kind.name] at hkey

theorem map_nameOf_eq_self (hkey : key.kind.name ∈ [.boolean, .enum, .id, .ref])
    (h : List.Forall₂ (fun e c => key.coerceEntry value s data e = .ok c) entries coerced) :
    (Dict.names entries).map (key.nameOf s data) = Dict.names entries := by
  induction h with
  | nil => rfl
  | cons he _ ih =>
      obtain ⟨⟨w, hw⟩, -⟩ := nameOf_of_coerceEntry he
      rw [Dict.names_cons, List.map_cons, ih, nameOf_eq_self hkey hw]

/-! ### Coerced maps -/

/-- A map that could be coerced is made of its coerced entries, set in turn. -/
theorem Attribute.coerce_map {a : Attribute} (ha : a.kind = .map key value) {v : Json}
    (h : a.coerce s data label (some (.object entries)) = .ok (some v)) :
    ∃ coerced, List.Forall₂ (fun e c => key.coerceEntry value s data e = .ok c) entries coerced ∧
      v = .object (Dict.ofList coerced) := by
  rw [a.coerce_some rfl, ha, Kind.coerce] at h
  split at h
  · rename_i outcome hout
    obtain ⟨done, failures⟩ := outcome
    cases failures with
    | cons f rest => cases h
    | nil =>
        cases h
        obtain ⟨-, coerced, hcoerced, rfl⟩ := coerceEntries_eq_ok_iff.mp hout
        exact ⟨coerced, hcoerced, rfl⟩
  · cases h

/--
**A coerced map keeps the entries whose names stay apart.**  Its fields are the coerced entries, those
that are sent later written over those of the same name.  So there is one for each entry that was sent,
in its place and with its value, exactly if no two of them get the same name, and otherwise there are
fewer.  If the key attribute accepts names only as they are, all entries are there.
-/
theorem Attribute.map_keeps_entries_iff {a : Attribute} (ha : a.kind = .map key value) {v : Json}
    (h : a.coerce s data label (some (.object entries)) = .ok (some v)) :
    ∃ fields : Document, v = .object fields ∧
      (∃ coerced,
        List.Forall₂ (fun e c => key.coerceEntry value s data e = .ok c) entries coerced ∧
          fields = Dict.ofList coerced) ∧
      (List.Forall₂ (fun e c => key.coerceEntry value s data e = .ok c) entries fields ↔
        ((Dict.names entries).map (key.nameOf s data)).Nodup) ∧
      fields.length ≤ entries.length ∧
      (fields.length = entries.length ↔ ((Dict.names entries).map (key.nameOf s data)).Nodup) ∧
      (key.kind.name ∈ [.boolean, .enum, .id, .ref] → (Dict.names entries).Nodup →
        List.Forall₂ (fun e c => key.coerceEntry value s data e = .ok c) entries fields) := by
  obtain ⟨coerced, hcoerced, rfl⟩ := coerce_map ha h
  have hkept := forall₂_ofList_iff hcoerced
  rw [names_of_coerced hcoerced] at hkept
  refine ⟨_, rfl, ⟨coerced, hcoerced, rfl⟩, hkept, ?most, ?length, ?kinds⟩
  case most =>
    rw [hcoerced.length_eq]
    exact Dict.length_ofList_le coerced
  case length =>
    rw [hcoerced.length_eq, Dict.length_ofList_eq_iff, names_of_coerced hcoerced]
  case kinds =>
    intro hkey hnames
    refine hkept.mpr ?_
    rwa [map_nameOf_eq_self hkey hcoerced]

private def flagSurroundings : Surroundings where
  capabilities :=
    ⟨fun t _ => .ok t, fun n => String.ofList (List.replicate n 'x'), fun _ => "7", Document.reread⟩
  directory := .empty
  stores := .empty
  caller := none
  ignoreDefaults := false

/-- Flags with names of any text. -/
private def flags : Attribute := .ofKind (.map (.ofKind (.string none none)) (.ofKind .boolean))

private def sentFlags : Document := [(" a ", .string "true"), ("b", .null)]

private def keptFlags : Document := [("a", .bool true), ("b", .null)]

/-- Two names that stay apart when the blanks around one of them go. -/
theorem Attribute.map_keeps_entries_iff_flags :
    flags.coerce flagSurroundings [] "flags" (some (.object sentFlags)) =
        .ok (some (.object keptFlags)) ∧
      List.Forall₂ (fun e c => (Attribute.ofKind (.string none none)).coerceEntry (.ofKind .boolean)
        flagSurroundings [] e = .ok c) sentFlags keptFlags := by
  have hsent : flags.coerce flagSurroundings [] "flags" (some (.object sentFlags)) =
      .ok (some (.object keptFlags)) := rfl
  obtain ⟨fields, hfields, -, hkept, -⟩ := map_keeps_entries_iff (a := flags) rfl hsent
  cases hfields
  exact ⟨hsent, hkept.mpr (by decide)⟩

private def blankFlags : Document := [("a", .bool true), (" a", .bool false)]

/-- Of two entries whose names differ in blanks only, one is lost. -/
theorem Attribute.not_length_eq_of_blanks :
    ¬ ∀ (a key value : Attribute) (s : Surroundings) (data entries fields : Document) label,
        a.kind = .map key value → entries.names.Nodup →
        a.coerce s data label (some (.object entries)) = .ok (some (.object fields)) →
        fields.length = entries.length := by
  intro hall
  have hmerged : flags.coerce flagSurroundings [] "flags" (some (.object blankFlags)) =
      .ok (some (.object [("a", .bool false)])) := rfl
  have hlength := hall flags _ _ _ _ _ _ _ rfl (by decide) hmerged
  cases hlength

end Curator
