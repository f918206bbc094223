/-
What is stored is left alone by conversion.

The fields that creations and updates write are coerced, and a hook that sets a field converts its
value, so conversion leaves all of them alone.  A query is converted before it is asked: asking for a
field as it is shown asks for the value that is stored, and the document is found.
-/
import Curator.Proofs.Coercion.Converted
import Curator.Proofs.Json.Equality
import Curator.Proofs.Service.Shapes
import Curator.Proofs.Service.Writing

namespace Curator

/-! ### Documents that were written -/

namespace Service

variable {svc : Service} {e : Entity} {input : Json} {req : Request} {stores : Stores} {d : Document}
  {name : String} {a : Attribute} {v : Json}

theorem convert_of_value? (ha : a.Throughout Attribute.IsChecked) {s : Surroundings}
    {data : Document} (h : a.value? s data name = some v) : a.convert v = .ok v := by
  have hcoerced : a.coerce s data name (data.get? name) = .ok (some v) :=
    Outcome.toOption_eq_some_iff.mp (Option.join_eq_some_iff.mp h)
  exact ha.convert_of_coerce hcoerced

/-- A creation stores fields that conversion leaves alone. -/
theorem convert_of_draft (hdraft : svc.draft e input req stores = .ok d)
    (hname : isManaged name = false) (ha : e.attribute? name = some a)
    (hchecked : a.Throughout Attribute.IsChecked) (hv : d.get? name = some v) :
    a.convert v = .ok v := by
  have htimes : ¬ (name = createdAtField ∨ name = updatedAtField) := by
    rintro (rfl | rfl) <;> cases hname
  rw [draft_get? hdraft, created, if_neg htimes, hname, if_neg Bool.false_ne_true, ha,
    Option.bind_some] at hv
  exact convert_of_value? hchecked hv

/-- An update writes fields that conversion leaves alone. -/
theorem convert_of_changes {id : String} (hchanges : svc.changes e id input req stores = .ok d)
    (hname : isManaged name = false) (ha : e.attribute? name = some a)
    (hchecked : a.Throughout Attribute.IsChecked) (hv : d.get? name = some v) :
    a.convert v = .ok v := by
  have htime : name ≠ updatedAtField := by
    rintro rfl
    cases hname
  rw [changes_get? hchanges, changed, if_neg htime, hname, if_neg Bool.false_ne_true, ha,
    Option.bind_some] at hv
  dsimp only at hv
  split at hv
  · cases hw : a.value? (svc.surroundings req.caller true stores)
        (e.accepted .update req.caller input) name with
    | none =>
        rw [hw] at hv
        cases hv
        exact a.convert_null
    | some w =>
        rw [hw] at hv
        cases hv
        exact convert_of_value? hchecked hw
  · cases hv

/-! ### Asking for what is shown -/

/-- A query for fields as they are shown is the filter that it comes to, if they are in form. -/
theorem queryFilter_eq_self {caller : Option String} {shown : Document}
    (hshown : shown ⊆ e.visible caller d)
    (hforms : ∀ field ∈ shown, ∀ a, e.attribute? field.1 = some a → a.Shapes field.2) :
    queryFilter e caller shown = .ok shown := by
  induction shown with
  | nil => rfl
  | cons field rest ih =>
      obtain ⟨name, v⟩ := field
      obtain ⟨hfield, hrest⟩ := List.cons_subset.mp hshown
      obtain ⟨hform, hforms⟩ := List.forall_mem_cons.mp hforms
      have hshows := (List.mem_filter.mp hfield).2
      rw [queryFilter]
      cases ha : e.attribute? name with
      | none => simp [Entity.shows, ha] at hshows
      | some a =>
          simp only [Entity.shows, ha] at hshows
          have hconvert := Attribute.shapes_iff.mp (hform a ha)
          simp only [hshows, if_true, hconvert, ih hrest hforms]
          rfl

end Service

namespace Document

/-- A settled document agrees with its own fields. -/
theorem matchesFilter_of_subset {d filter : Document} (hd : Settled d) (h : filter ⊆ d) :
    d.matchesFilter filter = true := by
  refine List.all_eq_true.mpr fun field hfield => ?_
  have hmem := h hfield
  rw [Document.value, Dict.get?_of_mem hd.distinct hmem, Option.getD_some]
  exact (hd.values field hmem).agrees_self

end Document

/--
**What is stored is left alone by conversion.**  Whatever a checked attribute makes of what a client
sends, and whatever any attribute converts, conversion leaves alone; so it leaves alone what creations
and updates write.  A query for fields of a document as they are shown, if they are in form, is the
filter that it comes to, and finds the document.  A hook that sets a field writes a value in the form of
the field.
-/
theorem Attribute.convert_stored {a : Attribute} (ha : a.Throughout IsChecked) :
    (∀ s data label raw v, a.coerce s data label raw = .ok (some v) → a.convert v = .ok v) ∧
    (∀ (b : Attribute) x v, b.convert x = .ok v → b.convert v = .ok v) ∧
    (∀ (svc : Service) e id input req stores d name v,
      svc.draft e input req stores = .ok d ∨ svc.changes e id input req stores = .ok d →
      isManaged name = false → e.attribute? name = some a → d.get? name = some v →
      a.convert v = .ok v) ∧
    (∀ (e : Entity) (h : Handle) caller stores docs d shown, h.documents stores = .ok docs →
      d ∈ docs → Document.Settled d → shown ⊆ e.visible caller d →
      (∀ field ∈ shown, ∀ b, e.attribute? field.1 = some b → b.Shapes field.2) →
      Service.queryFilter e caller shown = .ok shown ∧
        ∃ found, h.find shown stores = .ok found ∧ d ∈ found) ∧
    (∀ (s : Scope) (h : Hook) w, h.effect = .set → h.plan s = .ok (some w) →
      ∃ v, s.variableAt h.target = .ok v ∧ v.key = w.key ∧
        v.attr.convert w.value = .ok w.value) := by
  refine ⟨fun _ _ _ _ _ => ha.convert_of_coerce, fun _ _ _ => Attribute.convert_convert, ?written,
    ?shown, ?set⟩
  case written =>
    rintro svc e id input req stores d name v (hdraft | hchanges) hname hdeclared hv
    · exact Service.convert_of_draft hdraft hname hdeclared ha hv
    · exact Service.convert_of_changes hchanges hname hdeclared ha hv
  case shown =>
    intro e h caller stores docs d shown hdocs hmem hsettled hshown hforms
    have hown : shown ⊆ d := List.Subset.trans hshown (List.filter_subset_self _)
    refine ⟨Service.queryFilter_eq_self hshown hforms,
      docs.filter fun d => d.matchesFilter shown, ?_, ?_⟩
    · rw [Handle.find, hdocs]
      rfl
    · exact List.mem_filter.mpr ⟨hmem, Document.matchesFilter_of_subset hsettled hown⟩
  case set =>
    intro s h w heffect hplan
    obtain ⟨hnone, -⟩ | ⟨w', v, hw, -, hplans⟩ := Hook.plan_cases hplan
    · cases hnone
    · cases hw
      obtain ⟨resolved, converted, -, hconverted, hoperand⟩ := hplans.operand
      rw [heffect, Effect.operand] at hoperand
      cases hoperand
      exact ⟨v, hplans.target, hplans.key, Attribute.convert_convert hconverted⟩

/-- The votes that each name has cast. -/
private def votes : Attribute :=
  .ofKind (.map (.ofKind (.string none none)) (.ofKind (.list (.ofKind .boolean) none)))

private def polls : Entity :=
  ⟨{ Definition.ofNames "polls" "polls" with attributes := NameMap.empty.insert "votes" votes },
    some ⟨.memory, "polls", []⟩⟩

private def pollSurroundings : Surroundings where
  capabilities :=
    ⟨fun t _ => .ok t, fun n => String.ofList (List.replicate n 'x'), fun _ => "7", Document.reread⟩
  directory := ⟨[("polls", polls)]⟩
  stores := .empty
  caller := none
  ignoreDefaults := false

private def sentVotes : Json :=
  .object [(" ann ", .array [.string "true", .null]), ("bob", .null)]

private def keptVotes : Json := .object [("ann", .array [.bool true, .null]), ("bob", .null)]

private def poll : Document := [("id", .string "7"), ("votes", keptVotes)]

private def heldPolls : Stores := ⟨[("polls", [poll])], [], 0⟩

private theorem poll_settled : Document.Settled poll := by
  have hlist : ∀ v ∈ [Json.bool true, Json.null], v.Settled := by
    simp only [List.forall_mem_cons, List.not_mem_nil, false_implies, implies_true, and_true]
    exact ⟨.bool true, .null⟩
  have hvotes : keptVotes.Settled := by
    refine .object (by decide) ?_
    simp only [List.forall_mem_cons, List.not_mem_nil, false_implies, implies_true, and_true]
    exact ⟨.array hlist, .null⟩
  refine .object (by decide) ?_
  simp only [poll, List.forall_mem_cons, List.not_mem_nil, false_implies, implies_true, and_true]
  exact ⟨.string "7", hvotes⟩

private theorem votes_checked : votes.Throughout Attribute.IsChecked := by
  have hleaf {k : Kind} (hk : k.items = []) (hid : k.name ≠ .id) :
      (Attribute.ofKind k).Throughout Attribute.IsChecked := .of_items_eq_nil ⟨hid, rfl⟩ hk
  refine .intro _ ⟨nofun, rfl⟩ fun item hitem => ?_
  rcases List.mem_pair.mp hitem with rfl | rfl
  · exact hleaf rfl nofun
  · refine .intro _ ⟨nofun, rfl⟩ fun item hitem => ?_
    obtain rfl := List.mem_singleton.mp hitem
    exact hleaf rfl nofun

/-- Votes with blanks around a name, a vote sent as text, and two that come to nothing. -/
theorem Attribute.convert_stored_votes :
    votes.Throughout IsChecked ∧
      votes.coerce pollSurroundings [] "votes" (some sentVotes) = .ok (some keptVotes) ∧
      votes.convert keptVotes = .ok keptVotes ∧
      Service.queryFilter polls none [("votes", keptVotes)] = .ok [("votes", keptVotes)] ∧
      ∃ found, polls.handle?.map (fun h => h.find [("votes", keptVotes)] heldPolls) =
        some (.ok found) ∧ poll ∈ found := by
  obtain ⟨hcoerced, -, -, hshown, -⟩ := convert_stored votes_checked
  have hsent : votes.coerce pollSurroundings [] "votes" (some sentVotes) =
      .ok (some keptVotes) := rfl
  have hkept := hcoerced _ _ _ _ _ hsent
  have hforms : ∀ field ∈ [("votes", keptVotes)], ∀ b, polls.attribute? field.1 = some b →
      b.Shapes field.2 := by
    intro field hfield b hb
    obtain rfl := List.mem_singleton.mp hfield
    cases hb
    exact Or.inr hkept
  obtain ⟨hfilter, found, hfound, hmem⟩ := hshown polls ⟨.memory, "polls", []⟩ none heldPolls
    [poll] poll [("votes", keptVotes)] rfl List.mem_cons_self poll_settled (fun _ h => h) hforms
  exact ⟨votes_checked, hsent, hkept, hfilter, found, congrArg some hfound, hmem⟩

end Curator
