/-
What declared hooks make of the forms of stored values.

A hook brings its value into the form of the field that its target leads to, and converted values have
that form for good.  What a hook stores need not be that value: an increment stores a sum, and a sum is a
number, whatever the field is declared as.  So documents keep the forms of their fields exactly as long as
every document that a hook wrote fits, as it is kept, the entities of its collection.  In memory and where
no two entities share a collection, the hooks that do not fit are the increments of fields that are no
numbers, and no others.
-/
import Curator.Proofs.Conversion
import Curator.Proofs.Number.Whole
import Curator.Proofs.Service.Hooks
import Curator.Proofs.Service.Storing

namespace Curator

open Serving (runOn)

/-! ### Documents in form -/

/-- Every declared field of a document has the form of its attribute. -/
def Entity.Shapes (e : Entity) (d : Document) : Prop :=
  ∀ field a v, e.attribute? field = some a → d.get? field = some v → a.Shapes v

namespace Directory

/-- Every declared field of every document has the form of its attribute, in all entities. -/
def Shapes (dir : Directory) (s : Stores) : Prop :=
  ∀ name e h, dir.get name = .ok e → e.handle? = some h → ∀ d ∈ h.held s, e.Shapes d

/-- Entities in memory that share no collections.  All of them declare their ids, as registered entities
do. -/
structure Plain (dir : Directory) : Prop where
  memory : ∀ {name e h}, dir.get name = .ok e → e.handle? = some h → h.backing = .memory
  own : ∀ {name name' e e' h h'}, dir.get name = .ok e → e.handle? = some h →
    dir.get name' = .ok e' → e'.handle? = some h' → h.SameCollection h' → name' = name
  ids : ∀ {name e}, dir.get name = .ok e → (e.attribute? idField).isSome

end Directory

theorem Handle.mem_held_iff {h : Handle} {s : Stores} {d : Document} :
    d ∈ h.held s ↔ ∃ x ∈ h.slots s, x.doc = .ok d := by
  rw [held, List.mem_filterMap]
  simp only [Outcome.toOption_eq_some_iff]

theorem Handle.mem_held_of_found? {h : Handle} {id : String} {s : Stores} {d : Document}
    (hfound : h.found? id s = some d) : d ∈ h.held s := by
  obtain ⟨before, after, hslots, -⟩ := exists_slot_of_found? hfound
  exact mem_held_iff.mpr ⟨⟨some id, .ok d⟩, hslots ▸ List.mem_append_right _ List.mem_cons_self, rfl⟩

theorem Stores.SameDocuments.shapes {dir : Directory} {s s' : Stores} (hsame : s.SameDocuments s')
    (hs : dir.Shapes s) : dir.Shapes s' := by
  intro name e h he hh d hd
  rw [Handle.held, hsame.slots_eq h] at hd
  exact hs name e h he hh d hd

/-! ### What a hook leaves in form -/

namespace HookEvent

/-- The document that a hook wrote fits all entities of its collection, as it is kept. -/
def Fits (c : Capabilities) (dir : Directory) (ev : HookEvent) : Prop :=
  ∀ w d k, ev.planned = .ok (some w) → w.handle.found? w.id ev.before = some d →
    w.handle.kept c (w.turn d) = .ok k → ∀ name e h, dir.get name = .ok e → e.handle? = some h →
      w.handle.SameCollection h → e.Shapes k

variable {c : Capabilities} {dir : Directory} {ev : HookEvent}

/-- A hook that succeeds leaves all documents in form exactly if what it wrote fits. -/
theorem Step.shapes_iff (hstep : ev.Step c) (hbefore : dir.Shapes ev.before)
    (hok : ev.answer = .ok ()) : dir.Shapes ev.after ↔ ev.Fits c dir := by
  have honly : ∀ {w w'}, ev.planned = .ok (some w) → ev.planned = .ok (some w') → w = w' :=
    fun hplanned hplanned' => Option.some.inj (Except.ok.inj (hplanned.symm.trans hplanned'))
  cases hstep.done hok with
  | rests planned same =>
      refine iff_of_true (same ▸ hbefore) fun w d k hplanned => ?_
      rw [planned] at hplanned
      cases hplanned
  | missing planned none same =>
      refine iff_of_true (same.shapes hbefore) fun w d k hplanned hfound => ?_
      obtain rfl := honly planned hplanned
      rw [none] at hfound
      cases hfound
  | @puts w d planned found step after =>
      constructor
      · intro hshapes w' d' k hplanned hfound hk name e h he hh hsame
        obtain rfl := honly planned hplanned
        obtain rfl := Option.some.inj (found.symm.trans hfound)
        obtain ⟨x, hx, hdoc⟩ := Handle.exists_slot_put c found (w.turn d)
        rw [← after, ← hsame.slots_eq] at hx
        exact hshapes name e h he hh k (Handle.mem_held_iff.mpr ⟨x, hx, hdoc.trans hk⟩)
      · intro hfits name e h he hh k hk
        obtain ⟨x, hx, hdoc⟩ := Handle.mem_held_iff.mp hk
        by_cases hsame : w.handle.SameCollection h
        · rw [hsame.slots_eq, after] at hx
          rcases Handle.mem_slots_put hx with hold | hnew
          · rw [← hsame.slots_eq] at hold
            exact hbefore name e h he hh k (Handle.mem_held_iff.mpr ⟨x, hold, hdoc⟩)
          · exact hfits w d k planned found (hnew.symm.trans hdoc) name e h he hh hsame
        · have hstores : ev.after = (w.perform c ev.before).2 := by rw [step]
          rw [hstores, w.perform_stores, Handle.slots_perform_of_not_sameCollection hsame] at hx
          exact hbefore name e h he hh k (Handle.mem_held_iff.mpr ⟨x, hx, hdoc⟩)

end HookEvent

/-! ### Hooks that fit -/

namespace Service

/-- A hook increments no field but a number. -/
def AddsToNumbers (svc : Service) (entity : String) (model : Document) (req : Request)
    (ev : HookEvent) : Prop :=
  ∀ w d v, ev.planned = .ok (some w) → w.handle.found? w.id ev.before = some d →
    w.effect = .increment →
    (svc.scope ev.before entity model req.caller).variableAt ev.hook.target = .ok v →
    v.attr.kind.IsNumber

end Service

section Turn

variable {s : Scope} {h : Hook} {w : HookWrite} {v : Variable} {e : Entity} {d : Document}

/-- A field that stores no numbers counts as zero. -/
theorem Entity.Shapes.double?_eq_none (hd : e.Shapes d) {field : String} {a : Attribute}
    (ha : e.attribute? field = some a) (hkind : ¬ a.kind.IsNumber) :
    (d.get? field).bind Json.double? = none := by
  cases hget : d.get? field with
  | none => rfl
  | some u =>
      have hu := hd field a u ha hget
      cases u with
      | number n => exact absurd hu (Attribute.not_shapes_number hkind n)
      | _ => rfl

/-- A field that is set is left in form, and one that is incremented is exactly if it is a number. -/
theorem Hook.Plans.shapes_turn_iff (hp : h.Plans s w v) (he : s.directory.get v.entity = .ok e)
    (hids : (e.attribute? idField).isSome) (hd : e.Shapes d) :
    e.Shapes (w.turn d) ↔ (w.effect = .increment → v.attr.kind.IsNumber) := by
  have hattr : e.attribute? w.key = some v.attr := by
    rcases Scope.attribute?_of_variableAt hp.target he with hattr | ⟨-, hnone⟩
    · exact hp.key ▸ hattr
    · rw [hnone] at hids
      cases hids
  -- Only the field that is written has to be looked at.
  have hfield : e.Shapes (w.turn d) ↔ ∀ u, (w.turn d).get? w.key = some u → v.attr.Shapes u := by
    refine ⟨fun hshapes u hu => hshapes w.key v.attr u hattr hu, fun hkey field a u ha hu => ?_⟩
    by_cases hname : field = w.key
    · subst hname
      obtain rfl := Option.some.inj (hattr.symm.trans ha)
      exact hkey u hu
    · rw [w.get?_turn_of_ne d hname] at hu
      exact hd field a u ha hu
  rw [hfield]
  cases heffect : w.effect with
  | set =>
      refine iff_of_true (fun u hu => ?_) nofun
      rw [HookWrite.get?_turn_of_set heffect] at hu
      split at hu
      · exact hd w.key v.attr u hattr hu
      · obtain ⟨resolved, converted, -, hconverted, hoperand⟩ := hp.operand
        rw [← hp.effect, heffect] at hoperand
        cases hoperand
        cases hu
        exact Attribute.shapes_of_convert hconverted
  | increment =>
      obtain ⟨x, hx⟩ := Option.isSome_iff_exists.mp (hp.double? heffect)
      rw [HookWrite.get?_turn_of_increment heffect hx]
      constructor
      · intro hshapes _
        by_contra hkind
        have hsum := hshapes _ rfl
        obtain ⟨y, hy, -⟩ := Double.add?_of_value (x := Double.zero false) (y := x) (z := x)
          (by rw [Double.value_zero, zero_add])
        rw [hd.double?_eq_none hattr hkind, Option.getD_none, hy] at hsum
        exact Attribute.not_shapes_number hkind _ hsum
      · rintro hkind u ⟨⟩
        exact Attribute.shapes_ofDouble? (hkind rfl) _

end Turn

namespace Service

variable {svc : Service} {entity : String} {model : Document} {req : Request}

/-- In plain memory what a hook leaves is looked at by one entity only, the one that its target leads
to. -/
theorem exists_variable_kept_shapes_iff (hplain : svc.directory.Plain) {h : Hook} {s : Stores}
    (hs : svc.directory.Shapes s) {w : HookWrite} {d : Document}
    (hplanned : h.plan (svc.scope s entity model req.caller) = .ok (some w))
    (hfound : w.handle.found? w.id s = some d) :
    ∃ v, (svc.scope s entity model req.caller).variableAt h.target = .ok v ∧
      ((∀ k, w.handle.kept svc.capabilities (w.turn d) = .ok k → ∀ name e h',
          svc.directory.get name = .ok e → e.handle? = some h' → w.handle.SameCollection h' →
          e.Shapes k) ↔
        (w.effect = .increment → v.attr.kind.IsNumber)) := by
  rcases Hook.plan_cases hplanned with ⟨hnone, -⟩ | ⟨w', v, hsome, -, hplans⟩
  · cases hnone
  · cases hsome
    obtain ⟨e, he, hh⟩ := hplans.stored
    have hd := hs v.entity e w.handle he hh d (Handle.mem_held_of_found? hfound)
    have hkept : w.handle.kept svc.capabilities (w.turn d) = .ok (w.turn d) := by
      rw [Handle.kept, hplain.memory he hh]
    refine ⟨v, hplans.target, ?_⟩
    rw [← hplans.shapes_turn_iff he (hplain.ids he) hd]
    constructor
    · intro hall
      exact hall _ hkept v.entity e w.handle he hh ⟨rfl, rfl⟩
    · intro hshapes k hk name e' h' he' hh' hsame
      obtain rfl := hplain.own he hh he' hh' hsame
      obtain rfl := Except.ok.inj (he.symm.trans he')
      obtain rfl := Except.ok.inj (hkept.symm.trans hk)
      exact hshapes

/-- In plain memory the hooks that fit are those that increment no field but a number. -/
theorem fits_iff_addsToNumbers (hplain : svc.directory.Plain) {h : Hook} {s : Stores}
    (hs : svc.directory.Shapes s) :
    (svc.hookEvent entity model req h s).Fits svc.capabilities svc.directory ↔
      svc.AddsToNumbers entity model req (svc.hookEvent entity model req h s) := by
  constructor
  · intro hfits w d v hplanned hfound heffect hv
    obtain ⟨v', hv', hiff⟩ := exists_variable_kept_shapes_iff hplain hs hplanned hfound
    obtain rfl := Except.ok.inj (hv'.symm.trans hv)
    exact hiff.mp (fun k hk => hfits w d k hplanned hfound hk) heffect
  · intro hadds w d k hplanned hfound hk
    obtain ⟨v, hv, hiff⟩ := exists_variable_kept_shapes_iff hplain hs hplanned hfound
    exact hiff.mpr (fun heffect => hadds w d v hplanned hfound heffect hv) k hk

/-! ### The whole run -/

/-- Hooks leave documents in form, one after the other, exactly if each does when it finds them so. -/
theorem InTurn.shapes_iff {P : HookEvent → Prop}
    (hstep : ∀ h s, svc.directory.Shapes s → (svc.hookEvent entity model req h s).answer = .ok () →
      (svc.directory.Shapes (svc.hookEvent entity model req h s).after ↔
        P (svc.hookEvent entity model req h s)))
    {took : List HookEvent} {s s' : Stores} (hturn : svc.InTurn entity model req took s s')
    (hs : svc.directory.Shapes s) :
    (∀ ev ∈ took, svc.directory.Shapes ev.after) ↔ ∀ ev ∈ took, P ev := by
  induction hturn with
  | nil _ => exact iff_of_true (List.forall_mem_nil _) (List.forall_mem_nil _)
  | @cons h s s' later succeeds _ ih =>
      rw [List.forall_mem_cons, List.forall_mem_cons, ← hstep h s hs succeeds]
      exact and_congr_right fun hafter => ih hafter

theorem InTurn.shapes {took : List HookEvent} {s s' : Stores}
    (hturn : svc.InTurn entity model req took s s') (hs : svc.directory.Shapes s)
    (hall : ∀ ev ∈ took, svc.directory.Shapes ev.after) : svc.directory.Shapes s' := by
  induction hturn with
  | nil _ => exact hs
  | cons _ _ ih =>
      obtain ⟨hafter, hall⟩ := List.forall_mem_cons.mp hall
      exact ih hafter hall

/-- Neither the code hook nor the hook that fails changes a document. -/
theorem Ends.shapes {l : Lifecycle} {hooks : List Hook} {took : List HookEvent} {v : World}
    {outcome : Except Failure Unit × World}
    (hends : svc.Ends entity model req l hooks took v outcome) (hv : svc.directory.Shapes v.stores) :
    svc.directory.Shapes outcome.2.stores := by
  cases hends with
  | completed _ code =>
      rw [code, svc.keepsStores_runCode entity l model req]
      exact hv
  | stopped _ _ unchanged ends =>
      rw [ends]
      exact unchanged.shapes hv

/--
**Declared hooks leave documents in form as long as what they write fits.**  From documents in form every
hook that takes effect leaves documents in form exactly if what each of them wrote fits the entities of its
collection, as it is kept.  Then the whole run does, however it ends.  In memory, without shared
collections, this is so exactly if no field but a number is incremented.
-/
theorem runHooks_shapes_iff {e : Entity} (he : svc.directory.get entity = .ok e) (l : Lifecycle)
    (model : Document) (req : Request) {w : World} (hs : svc.directory.Shapes w.stores) :
    ∃ took s, svc.InTurn entity model req took w.stores s ∧
      svc.Ends entity model req l (e.definition.hooksAt l) took ⟨s, w.calls⟩
        (runOn (svc.runHooks entity l model req) w) ∧
      ((∀ ev ∈ took, svc.directory.Shapes ev.after) ↔
        ∀ ev ∈ took, ev.Fits svc.capabilities svc.directory) ∧
      ((∀ ev ∈ took, svc.directory.Shapes ev.after) →
        svc.directory.Shapes (runOn (svc.runHooks entity l model req) w).2.stores) ∧
      (svc.directory.Plain → ((∀ ev ∈ took, svc.directory.Shapes ev.after) ↔
        ∀ ev ∈ took, svc.AddsToNumbers entity model req ev)) := by
  obtain ⟨took, s, hturn, hends⟩ := exists_ends he l model req w
  have hfits : ∀ h s, svc.directory.Shapes s →
      (svc.hookEvent entity model req h s).answer = .ok () →
      (svc.directory.Shapes (svc.hookEvent entity model req h s).after ↔
        (svc.hookEvent entity model req h s).Fits svc.capabilities svc.directory) :=
    fun h s hs hok => (svc.hookEvent_step entity model req h s).shapes_iff hs hok
  refine ⟨took, s, hturn, hends, hturn.shapes_iff hfits hs, fun hall => ?_, fun hplain => ?_⟩
  · exact hends.shapes (hturn.shapes hs hall)
  · exact hturn.shapes_iff
      (fun h s hs hok => (hfits h s hs hok).trans (fits_iff_addsToNumbers hplain hs)) hs

/-! ### An increment of a label -/

private def shelf : Handle := ⟨.memory, "shelf", []⟩

/-- Things on a shelf.  A creation adds to the label, an update to the value, and sets the label. -/
private def shelfEntity : Entity :=
  ⟨{ Definition.ofNames "shelf" "shelf" with
      attributes := ⟨[("id", .ofKind .id), ("label", .ofKind (.string none none)),
        ("value", .ofKind (.number none none))], by decide⟩
      hooks := fun l =>
        match l with
        | .afterCreate => some [⟨none, .increment, "this.label", .ofNat 1⟩]
        | .afterUpdate =>
          some [⟨none, .increment, "this.value", .string "2"⟩, ⟨none, .set, "this.label", .ofNat 7⟩]
        | _ => none },
    some shelf⟩

private def shelfService : Service :=
  ⟨⟨fun t _ => .ok t, fun n => String.ofList (List.replicate n 'x'), fun _ => "1001",
      Document.reread⟩, ⟨[("shelf", shelfEntity)]⟩, fun _ _ => none⟩

private def oneThing : World :=
  ⟨WriteEvent.latest Stores.empty (shelf.events shelfService.capabilities Stores.empty
    [.insert [("label", .string "x")]]), []⟩

private def thing : Document := [("label", .string "x"), ("id", .string "1001")]

private def shelfCaller : Request := ⟨none, none, 0⟩

private theorem get_shelf {name : String} {e : Entity}
    (he : shelfService.directory.get name = .ok e) : name = "shelf" ∧ e = shelfEntity := by
  unfold Directory.get at he
  split at he
  · rename_i other hget
    cases he
    have hmem := List.mem_singleton.mp (Dict.mem_of_get?_eq_some hget)
    exact Prod.mk.inj hmem
  · cases he

private theorem plain_shelf : shelfService.directory.Plain where
  memory := by
    intro name e h he hh
    obtain ⟨-, rfl⟩ := get_shelf he
    cases hh
    rfl
  own := by
    intro name name' e e' h h' he _ he' _ _
    exact (get_shelf he').1.trans (get_shelf he).1.symm
  ids := by
    intro name e he
    obtain ⟨-, rfl⟩ := get_shelf he
    rfl

private theorem shapes_oneThing : shelfService.directory.Shapes oneThing.stores := by
  intro name e h he hh d hd field a v ha hv
  obtain ⟨-, rfl⟩ := get_shelf he
  cases hh
  have hheld : shelf.held oneThing.stores = [thing] := rfl
  obtain rfl := List.mem_singleton.mp (hheld ▸ hd)
  have hmem := Dict.mem_of_get?_eq_some hv
  simp only [thing, List.mem_cons, List.not_mem_nil, or_false, Prod.mk.injEq] at hmem
  rcases hmem with ⟨rfl, rfl⟩ | ⟨rfl, rfl⟩
  · cases ha
    exact Or.inr rfl
  · cases ha
    exact Or.inr rfl

theorem runHooks_shapes_iff_shelf :
    shelfService.directory.get "shelf" = .ok shelfEntity ∧
    shelfService.directory.Shapes oneThing.stores ∧
    ∃ took s, shelfService.InTurn "shelf" thing shelfCaller took oneThing.stores s ∧
      shelfService.Ends "shelf" thing shelfCaller .afterUpdate
        (shelfEntity.definition.hooksAt .afterUpdate) took ⟨s, oneThing.calls⟩
        (runOn (shelfService.runHooks "shelf" .afterUpdate thing shelfCaller) oneThing) ∧
      ((∀ ev ∈ took, shelfService.directory.Shapes ev.after) ↔
        ∀ ev ∈ took, ev.Fits shelfService.capabilities shelfService.directory) ∧
      ((∀ ev ∈ took, shelfService.directory.Shapes ev.after) →
        shelfService.directory.Shapes
          (runOn (shelfService.runHooks "shelf" .afterUpdate thing shelfCaller) oneThing).2.stores) ∧
      (shelfService.directory.Plain → ((∀ ev ∈ took, shelfService.directory.Shapes ev.after) ↔
        ∀ ev ∈ took, shelfService.AddsToNumbers "shelf" thing shelfCaller ev)) := by
  have he : shelfService.directory.get "shelf" = .ok shelfEntity := rfl
  exact ⟨he, shapes_oneThing, runHooks_shapes_iff he .afterUpdate thing shelfCaller shapes_oneThing⟩

/-- An increment can leave a number in a field of texts. -/
theorem not_shapes_of_increment :
    ¬ ∀ (svc : Service) (entity : String) (e : Entity) (l : Lifecycle) (model : Document)
        (req : Request) (w : World), svc.capabilities.codec = Document.reread →
        svc.directory.get entity = .ok e → svc.directory.Plain →
        (∀ h : Handle, ((h.slots w.stores).filterMap Slot.key).Nodup) →
        svc.directory.Shapes w.stores →
        svc.directory.Shapes (runOn (svc.runHooks entity l model req) w).2.stores := by
  intro hall
  have hshapes := hall shelfService "shelf" shelfEntity .afterCreate thing shelfCaller oneThing rfl
    rfl plain_shelf (Handle.nodup_keys_of_events _ shelf _) shapes_oneThing
  have hnumber : ((shelf.held (runOn (shelfService.runHooks "shelf" .afterCreate thing shelfCaller)
      oneThing).2.stores).any fun d => ((d.get? "label").bind Json.double?).isSome) = true := by
    decide +kernel
  obtain ⟨d, hd, hlabel⟩ := List.any_eq_true.mp hnumber
  have hnone : (d.get? "label").bind Json.double? = none :=
    (hshapes "shelf" shelfEntity shelf rfl rfl d hd).double?_eq_none rfl (by decide)
  rw [hnone] at hlabel
  cases hlabel

end Service

end Curator
