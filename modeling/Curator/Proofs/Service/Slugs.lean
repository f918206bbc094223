/-
Slugs in step with their sources.

A text field stores what is left of an input when its blanks are taken off, and a slug field that is set
from it is computed from the input as it came.  Both come to nothing exactly if the input is no text or a
blank one, because a slug is empty only then; otherwise the slug is that of the stored text.  An update
touches the slug through its source, so it writes both fields or neither.  So every write of a run leaves
the two in step, whoever may write which field, and documents are read back with their texts.
-/
import Curator.Proofs.Coercion.Projection
import Curator.Proofs.Service.Storing
import Curator.Proofs.Store.Legible
import Curator.Proofs.Text.Slug

namespace Curator

open Serving (runOn)

/-! ### Texts and their slugs -/

/-- The text that an input comes to: that of a scalar, without blank ends, unless nothing is left. -/
def givenText? (raw : Option Json) : Option String :=
  ((raw.bind scalarText?).map Text.trim).filter fun t => !t.isEmpty

/-- A text as the value of a field; without one the field is null. -/
def Json.ofText? (t : Option String) : Json := (t.map .string).getD .null

/-- The slug field of a document holds the slug of the text in its source, and nothing if there is no
text. -/
def Document.InStep (source slug : String) (d : Document) : Prop :=
  ∃ t : Option String, d.value source = .ofText? t ∧ d.value slug = .ofText? (t.map Text.slug)

theorem Json.isPlain_ofText? (t : Option String) : (Json.ofText? t).isPlain = true := by
  cases t <;> rfl

section Coerce

variable {s : Surroundings} {data : Document} {label : String} {raw : Option Json}
  {required distinct : Bool} {permissions : Option Permissions} {v : Option Json}

theorem absent_eq_ok {label : String} {required : Bool} {v : Option Json}
    (h : s.absent label required none = .ok v) : v = none := by
  rw [s.absent_none] at h
  split at h
  · cases h
  · cases h
    rfl

theorem isEmpty_ofList (cs : List Char) : (String.ofList cs).isEmpty = cs.isEmpty := by
  rw [Bool.eq_iff_iff, String.isEmpty_iff, String.ofList_eq_empty_iff, List.isEmpty_iff]

theorem givenText?_eq {w : Json} {t : String} (hw : scalarText? w = some t) :
    givenText? (some w) =
      if (Text.trimChars t.toList).isEmpty then none else some (Text.trim t) := by
  rw [givenText?, Option.bind_some, hw, Option.map_some, Option.filter_some, Text.trim, isEmpty_ofList]
  cases (Text.trimChars t.toList).isEmpty <;> rfl

/-- A text field stores the text that it is given. -/
theorem coerce_string {maxLength : Option Nat}
    (h : Attribute.coerce s data label ⟨.string maxLength none, required, distinct, none, permissions⟩
      raw = .ok v) : v = (givenText? raw).map .string := by
  have hnone : ∀ {raw : Option Json}, (raw.filter fun w => !w.isNull) = none →
      Attribute.coerce s data label ⟨.string maxLength none, required, distinct, none, permissions⟩
        raw = .ok v → v = none := by
    intro raw hraw h
    rw [Attribute.coerce_eq, hraw] at h
    exact absent_eq_ok h
  cases raw with
  | none => exact hnone rfl h
  | some w =>
      by_cases hw : w.isNull = true
      · cases w with
        | null => exact hnone rfl h
        | _ => cases hw
      · rw [Attribute.coerce_some _ (Bool.eq_false_of_not_eq_true hw), Kind.coerce] at h
        cases htext : scalarText? w with
        | none =>
            rw [htext] at h
            cases h
        | some t =>
            rw [htext] at h
            rw [givenText?_eq htext]
            dsimp only at h
            split at h
            · rename_i hempty
              rw [absent_eq_ok h, if_pos hempty]
              rfl
            · rename_i hfull
              rw [(coerceText_eq_ok_iff.mp h).2, if_neg hfull]
              rfl

/-- A slug field stores the slug of the text that its source is given. -/
theorem coerce_slug {source : String}
    (h : Attribute.coerce s data label ⟨.slug source none none, required, distinct, none, permissions⟩
      raw = .ok v) : v = (givenText? (data.get? source)).map fun t => .string (Text.slug t) := by
  rw [Attribute.coerce_eq, Kind.coerce] at h
  cases htext : (data.get? source).bind scalarText? with
  | none =>
      rw [htext] at h
      rw [givenText?, htext]
      exact absent_eq_ok h
  | some t =>
      obtain ⟨w, hw, ht⟩ := Option.bind_eq_some_iff.mp htext
      rw [htext, Option.getD_some] at h
      rw [hw, givenText?_eq ht]
      have hempty : (Text.slug t).isEmpty = (Text.trimChars t.toList).isEmpty := by
        rw [Text.slug, isEmpty_ofList, Bool.eq_iff_iff, List.isEmpty_iff, List.isEmpty_iff]
        exact Text.slugChars_eq_nil_iff _
      dsimp only at h
      rw [hempty] at h
      split at h
      · rename_i hblank
        rw [absent_eq_ok h, if_pos hblank]
        rfl
      · rename_i hfull
        cases h
        rw [if_neg hfull, Option.map_some, Text.slug_trim]
        rfl

end Coerce

/-! ### What is written -/

/-- A text field and a slug field that is set from it.  The service itself writes neither, and neither
has a default. -/
structure Entity.SlugOf (e : Entity) (source slug : String) : Prop where
  text : ∃ maxLength required distinct permissions, e.attribute? source =
    some ⟨.string maxLength none, required, distinct, none, permissions⟩
  slugged : ∃ required distinct permissions, e.attribute? slug =
    some ⟨.slug source none none, required, distinct, none, permissions⟩
  unmanaged : isManaged source = false ∧ isManaged slug = false

/-- A write brings a text together with its slug, or neither. -/
def Write.InStep (source slug : String) : Write → Prop
  | .insert d => d.names.Nodup ∧ d.InStep source slug
  | .update _ fields => fields.names.Nodup ∧
      ((fields.get? source = none ∧ fields.get? slug = none) ∨
        ∃ t : Option String, fields.get? source = some (.ofText? t) ∧
          fields.get? slug = some (.ofText? (t.map Text.slug)))
  | .increment _ _ => False
  | .delete _ => True

theorem ne_of_isManaged {name : String} (hname : isManaged name = false) :
    name ≠ idField ∧ name ≠ createdAtField ∧ name ≠ updatedAtField := by
  simpa [isManaged, and_assoc] using hname

namespace Service

variable {svc : Service} {entity : String} {e : Entity} {source slug : String}

/-- A field of a draft is what its attribute comes to. -/
theorem draft_coerced {input : Json} {req : Request} {stores : Stores} {d : Document}
    (h : svc.draft e input req stores = .ok d) {name : String} {a : Attribute}
    (ha : e.attribute? name = some a) (hname : isManaged name = false) :
    a.coerce (svc.surroundings req.caller false stores) (e.accepted .create req.caller input) name
      ((e.accepted .create req.caller input).get? name) = .ok (d.get? name) := by
  obtain ⟨fields, hfields, -⟩ := draft_eq_ok h
  obtain ⟨v, hv⟩ := newFields_coerced hfields _ (Dict.mem_of_get?_eq_some ha) hname
  obtain ⟨-, hcreated, hupdated⟩ := ne_of_isManaged hname
  have hvalue : d.get? name = v := by
    rw [draft_get? h, created, if_neg (not_or.mpr ⟨hcreated, hupdated⟩), hname, ha]
    simp only [Bool.false_eq_true, if_false, Option.bind_some, Attribute.value?]
    rw [hv]
    rfl
  rw [hvalue]
  exact hv

/-- A field that an update touches is what its attribute comes to, and null for nothing. -/
theorem changes_coerced {id : String} {input : Json} {req : Request} {stores : Stores}
    {fields : Document} (h : svc.changes e id input req stores = .ok fields) {name : String}
    {a : Attribute} (ha : e.attribute? name = some a) (hname : isManaged name = false)
    (htouch : touches (e.accepted .update req.caller input) name a = true) :
    ∃ v, a.coerce (svc.surroundings req.caller true stores) (e.accepted .update req.caller input) name
        ((e.accepted .update req.caller input).get? name) = .ok v ∧
      fields.get? name = some (v.getD .null) := by
  obtain ⟨-, written, hwritten, -⟩ := changes_eq_ok h
  obtain ⟨v, hv⟩ := changedFields_coerced hwritten _ (Dict.mem_of_get?_eq_some ha) hname htouch
  refine ⟨v, hv, ?_⟩
  obtain ⟨-, -, hupdated⟩ := ne_of_isManaged hname
  rw [changes_get? h, changed, if_neg hupdated, hname, ha]
  simp only [Bool.false_eq_true, if_false, Option.bind_some, htouch, if_true, Attribute.value?]
  rw [hv]
  rfl

theorem changes_untouched {id : String} {input : Json} {req : Request} {stores : Stores}
    {fields : Document} (h : svc.changes e id input req stores = .ok fields) {name : String}
    {a : Attribute} (ha : e.attribute? name = some a) (hname : isManaged name = false)
    (htouch : touches (e.accepted .update req.caller input) name a = false) :
    fields.get? name = none := by
  obtain ⟨-, -, hupdated⟩ := ne_of_isManaged hname
  rw [changes_get? h, changed, if_neg hupdated, hname, ha]
  simp [htouch]

theorem draft_inStep (hs : e.SlugOf source slug) {input : Json} {req : Request} {stores : Stores}
    {d : Document} (h : svc.draft e input req stores = .ok d) : d.InStep source slug := by
  obtain ⟨_, _, _, _, hsource⟩ := hs.text
  obtain ⟨_, _, _, hslug⟩ := hs.slugged
  have htext := coerce_string (draft_coerced h hsource hs.unmanaged.1)
  have hslugged := coerce_slug (draft_coerced h hslug hs.unmanaged.2)
  refine ⟨givenText? ((e.accepted .create req.caller input).get? source), ?_, ?_⟩
  · rw [Document.value, htext, Json.ofText?]
  · rw [Document.value, hslugged, Json.ofText?, Option.map_map]
    rfl

theorem changes_inStep (hs : e.SlugOf source slug) {id : String} {input : Json} {req : Request}
    {stores : Stores} {fields : Document} (h : svc.changes e id input req stores = .ok fields) :
    (fields.get? source = none ∧ fields.get? slug = none) ∨
      ∃ t : Option String, fields.get? source = some (.ofText? t) ∧
        fields.get? slug = some (.ofText? (t.map Text.slug)) := by
  obtain ⟨_, _, _, _, hsource⟩ := hs.text
  obtain ⟨_, _, _, hslug⟩ := hs.slugged
  -- both fields are touched through the source
  cases htouch : Dict.has (e.accepted .update req.caller input) source with
  | false =>
      exact Or.inl ⟨changes_untouched h hsource hs.unmanaged.1 htouch,
        changes_untouched h hslug hs.unmanaged.2 htouch⟩
  | true =>
      obtain ⟨v, hv, htext⟩ := changes_coerced h hsource hs.unmanaged.1 htouch
      obtain ⟨w, hw, hslugged⟩ := changes_coerced h hslug hs.unmanaged.2 htouch
      refine Or.inr ⟨givenText? ((e.accepted .update req.caller input).get? source), ?_, ?_⟩
      · rw [htext, coerce_string hv, Json.ofText?]
      · rw [hslugged, coerce_slug hw, Json.ofText?, Option.map_map]
        rfl

/-- Every write that a call makes brings a text together with its slug. -/
theorem storeWrite_inStep (hs : e.SlugOf source slug) {ev : Event} {x : Write}
    (h : svc.storeWrite entity e ev = some x) : x.InStep source slug := by
  unfold storeWrite at h
  split at h
  · split at h
    · cases h
    · rename_i d hdraft
      obtain ⟨_, -, rfl⟩ := Option.map_eq_some_iff.mp h
      exact ⟨draft_names_nodup hdraft, draft_inStep hs hdraft⟩
  · split at h
    · rename_i d fields _ hchanges
      obtain ⟨_, -, rfl⟩ := Option.map_eq_some_iff.mp h
      exact ⟨changes_names_nodup hchanges, changes_inStep hs hchanges⟩
    · cases h
  · split at h
    · cases h
    · obtain ⟨_, -, rfl⟩ := Option.map_eq_some_iff.mp h
      trivial
  · cases h

end Service

/-! ### What is stored -/

section Stored

variable {source slug : String}

theorem Document.InStep.set_idField {d : Document} (hd : d.InStep source slug)
    (hsource : source ≠ idField) (hslug : slug ≠ idField) (id : String) :
    Document.InStep source slug (d.set idField (.string id)) := by
  obtain ⟨t, ht, hslugged⟩ := hd
  refine ⟨t, ?_, ?_⟩
  · rw [Document.value, Dict.get?_set_of_ne _ _ (Ne.symm hsource)]
    exact ht
  · rw [Document.value, Dict.get?_set_of_ne _ _ (Ne.symm hslug)]
    exact hslugged

theorem Document.InStep.update {d fields : Document} {id : String} (hd : d.InStep source slug)
    (hsource : source ≠ idField) (hslug : slug ≠ idField)
    (hfields : (Write.update id fields).InStep source slug) :
    Document.InStep source slug (Document.update d fields) := by
  obtain ⟨hnames, hwritten⟩ := hfields
  have hvalue : ∀ name, name ≠ idField →
      (Document.update d fields).value name = ((fields.get? name).or (d.get? name)).getD .null := by
    intro name hname
    rw [Document.value, Document.get?_update d hnames, if_neg hname]
  rcases hwritten with ⟨hnone, hnoSlug⟩ | ⟨t, ht, hslugged⟩
  · obtain ⟨t, ht, hslugged⟩ := hd
    refine ⟨t, ?_, ?_⟩
    · rw [hvalue source hsource, hnone, Option.none_or]
      exact ht
    · rw [hvalue slug hslug, hnoSlug, Option.none_or]
      exact hslugged
  · refine ⟨t, ?_, ?_⟩
    · rw [hvalue source hsource, ht]
      rfl
    · rw [hvalue slug hslug, hslugged]
      rfl

namespace Handle

variable {c : Capabilities} {h : Handle}

/-- A write that brings a text together with its slug leaves a document in step. -/
theorem Leaves.inStep {ev : WriteEvent} {id : String} {d : Document} (hleft : Leaves c h ev id d)
    (hheld : ∀ d ∈ h.held ev.before, Document.InStep source slug d) (hsource : source ≠ idField)
    (hslug : slug ≠ idField) (hwrite : ev.write.InStep source slug) : d.InStep source slug := by
  cases hleft with
  | inserted write _ sets _ _ _ =>
      rw [write] at hwrite
      rw [sets]
      exact hwrite.2.set_idField hsource hslug id
  | @rewritten old turns rewrites _ =>
      have hold : Document.InStep source slug old :=
        hheld old (List.mem_filterMap.mpr ⟨_, rewrites.mem_slots, rfl⟩)
      rcases turns with ⟨fields, hw, rfl⟩ | ⟨deltas, hw, -⟩
      · rw [hw] at hwrite
        exact hold.update hsource hslug hwrite
      · rw [hw] at hwrite
        exact hwrite.elim

/-- What is kept of a document in step is in step. -/
theorem inStep_of_kept (hc : h.backing = .table → c.Legible) {d k : Document} (hnamed : d.Named)
    (hd : d.InStep source slug) (hk : h.kept c d = .ok k) : k.InStep source slug := by
  obtain ⟨-, hplain⟩ := named_of_kept hc hnamed hk
  obtain ⟨t, ht, hslugged⟩ := hd
  refine ⟨t, ?_, ?_⟩
  · rw [hplain source (ht ▸ Json.isPlain_ofText? t), ht]
  · rw [hplain slug (hslugged ▸ Json.isPlain_ofText? _), hslugged]

/-- Writes that bring texts together with their slugs keep all documents in step. -/
theorem Run.inStep {past : List WriteEvent} {s : Stores} (hr : Run c h past s)
    (hc : h.backing = .table → c.Legible) (hsource : source ≠ idField) (hslug : slug ≠ idField)
    (hwrites : ∀ ev ∈ past, ev.write.InStep source slug) :
    ∀ d ∈ h.held s, Document.Named d ∧ d.InStep source slug := by
  induction hr with
  | start empty =>
      intro d hd
      rw [held, empty] at hd
      cases hd
  | @write past s run x ih =>
      obtain ⟨hx, hpast⟩ := List.forall_mem_cons.mp hwrites
      have hbefore : ∀ d ∈ h.held (h.writeEvent c s x).before,
          Document.Named d ∧ d.InStep source slug := ih hpast
      have hbrought : ∀ d, x = .insert d → d.names.Nodup := by
        rintro d rfl
        exact hx.1
      refine forall_held_of_writeStep (writeStep_of_keys run.keys c x) hbefore ?_
      intro id d k hleft hk
      have hnamed : d.Named := hleft.named (fun d hd => (hbefore d hd).1) hbrought
      have hd : d.InStep source slug :=
        hleft.inStep (fun d hd => (hbefore d hd).2) hsource hslug hx
      exact ⟨(named_of_kept hc hnamed hk).1, inStep_of_kept hc hnamed hd hk⟩
  | elsewhere run same ih =>
      rw [held, same]
      exact ih hwrites

end Handle

end Stored

/--
**Slugs stay in step with their source.**  After any calls on an entity without declared hooks, for any
callers, the text field of every document of its collection is a text or null, and the slug field is the
slug of that text, or null as well.
-/
theorem Service.slugs_in_step {svc : Service} {entity : String} {e : Entity} {h : Handle}
    {past : List Event} {w : World} (hh : svc.Hookless entity e h) (hr : svc.Run entity h past w)
    (hc : h.backing = .table → svc.capabilities.Legible) {source slug : String}
    (hs : e.SlugOf source slug) :
    ∀ d ∈ h.held w.stores,
      (∀ t, d.value source = .string t → d.value slug = .string (Text.slug t)) ∧
      (d.value source = .null → d.value slug = .null) ∧
      ((∃ t, d.value source = .string t) ∨ d.value source = .null) := by
  have hwrites : ∀ ev ∈ svc.writes entity e h past, ev.write.InStep source slug := by
    intro ev hev
    obtain ⟨call, -, hwrite⟩ := List.mem_filterMap.mp hev
    obtain ⟨x, hx, rfl⟩ := Option.map_eq_some_iff.mp hwrite
    exact storeWrite_inStep hs hx
  have hsource := (ne_of_isManaged hs.unmanaged.1).1
  have hslug := (ne_of_isManaged hs.unmanaged.2).1
  intro d hd
  obtain ⟨-, t, ht, hslugged⟩ := (Run.runs_writes hh hr).inStep hc hsource hslug hwrites d hd
  rw [ht, hslugged]
  cases t with
  | none => exact ⟨nofun, fun _ => rfl, Or.inr rfl⟩
  | some t =>
      refine ⟨?_, nofun, Or.inl ⟨t, rfl⟩⟩
      rintro _ ⟨⟩
      rfl

/-! ### Titles of stories -/

namespace Service

/-- Stories that anyone may write; only a caller with an identity may give one another title. -/
private def stories : Entity :=
  ⟨{ Definition.ofNames "stories" "stories" with
      permissions := some ⟨some (.one .anyone), some (.one .anyone), some (.one .anyone), none⟩
      attributes :=
        (NameMap.empty.insert "slug" (.ofKind (.slug "title" none none))).insert "title"
          ⟨.string (some 40) none, true, false, none,
            some ⟨none, some (.one .anyone), some (.one .user), none⟩⟩ },
    some ⟨.table, "stories", []⟩⟩

private def storyService : Service :=
  ⟨⟨fun t _ => .ok t, fun n => String.ofList (List.replicate n 'x'), fun _ => "1001",
      Document.reread⟩, ⟨[("stories", stories)]⟩, fun _ _ => none⟩

private def storyTable : Handle := ⟨.table, "stories", []⟩

private def noStories : World := ⟨Stores.empty, []⟩

private def publishing : Call := .create (.object [("title", .string "  Hello World ")])

private def retitling : Call := .update "1001" (.object [("title", .bool true)])

private def newcomer : Request := ⟨none, none, 0⟩

private def member : Request := ⟨some "7", none, 1⟩

private def published : World :=
  (runOn (storyService.serve "stories" publishing newcomer) noStories).2

private def retitled : World :=
  (runOn (storyService.serve "stories" retitling member) published).2

private theorem stories_hookless : storyService.Hookless "stories" stories storyTable where
  registered := rfl
  stored := rfl
  noHooks := fun _ => rfl

private theorem retitled_run : storyService.Run "stories" storyTable
    [storyService.event "stories" retitling member published,
      storyService.event "stories" publishing newcomer noStories] retitled :=
  .call (.call (.start rfl) publishing newcomer) retitling member

private theorem stories_slugOf : stories.SlugOf "title" "slug" where
  text := ⟨_, _, _, _, rfl⟩
  slugged := ⟨_, _, _, rfl⟩
  unmanaged := by decide

theorem slugs_in_step_retitled :
    (∀ d ∈ storyTable.held retitled.stores,
      (∀ t, d.value "title" = .string t → d.value "slug" = .string (Text.slug t)) ∧
      (d.value "title" = .null → d.value "slug" = .null) ∧
      ((∃ t, d.value "title" = .string t) ∨ d.value "title" = .null)) ∧
    (storyTable.held published.stores).map
        (fun d => ((d.value "title").string?, (d.value "slug").string?)) =
      [(some "Hello World", some "hello-world")] ∧
    (storyTable.held retitled.stores).map
        (fun d => ((d.value "title").string?, (d.value "slug").string?)) =
      [(some "true", some "true")] :=
  ⟨slugs_in_step stories_hookless retitled_run
      (fun _ => Capabilities.legible_of_reread rfl) stories_slugOf,
    by decide +kernel, by decide +kernel⟩

end Service

end Curator
