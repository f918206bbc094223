/-
The declared hooks of a lifecycle point, one after the other.

A run of hooks is a walk down their list.  Every hook is planned and carried out on the stores that the
one before left, and the first that fails ends the walk: its failure is the answer, and neither a later
hook nor the code hook is run.  `Service.Ends` has these two ends and no third.

What a single hook does is `HookEvent.Step`.  It fails and changes nothing, or has nothing to write, or
writes one field of the one document that its target leads to.  The other fields of that document are
left to the store, and a table keeps documents as text, in which a field may not read back as the value
that it was.  `Service.runHooks_in_turn` says that there is no other way in which a hook could touch more
than its field.
-/
import Curator.Proofs.HookWrite

namespace Curator

open Serving (runOn)

/-! ### One hook -/

/-- A declared hook that was run. -/
structure HookEvent where
  hook : Hook
  /-- What the hook came down to on the stores that it found. -/
  planned : Except Failure (Option HookWrite)
  before : Stores
  after : Stores
  answer : Except Failure Unit

/-- Stores that nothing has happened to. -/
structure Stores.Unchanged (s s' : Stores) : Prop extends Stores.SameDocuments s s' where
  issued : s'.issued = s.issued

theorem Stores.Unchanged.refl (s : Stores) : s.Unchanged s := ⟨⟨fun _ => rfl, rfl⟩, rfl⟩

namespace HookEvent

/-- All that one hook can do. -/
inductive Step (c : Capabilities) (ev : HookEvent) : Prop
  | unplanned {f : Failure} (planned : ev.planned = .error f) (answer : ev.answer = .error f)
      (same : ev.after = ev.before)
  | rests (planned : ev.planned = .ok none) (answer : ev.answer = .ok ())
      (same : ev.after = ev.before)
  | writes {w : HookWrite} (planned : ev.planned = .ok (some w)) (adds : w.AddsNumber)
      (answer : ev.answer = (w.perform c ev.before).1.map fun _ => ())
      (stores : ev.after = (w.perform c ev.before).2)

variable {c : Capabilities} {ev : HookEvent}

/-- A hook that fails changes nothing. -/
theorem Step.unchanged_of_error (hstep : ev.Step c) {f : Failure} (hfailed : ev.answer = .error f) :
    ev.before.Unchanged ev.after := by
  cases hstep with
  | unplanned _ _ same => exact same ▸ .refl _
  | rests _ answer _ =>
      rw [answer] at hfailed
      cases hfailed
  | @writes w _ adds answer stores =>
      rw [stores]
      refine ⟨?_, w.perform_issued c ev.before⟩
      cases w.step adds c ev.before with
      | missing _ same => exact same
      | refused _ same => exact same
      | puts _ step =>
          rw [answer, step] at hfailed
          cases hfailed

/-- What a hook that succeeded has done: it had nothing to write, or found no document, or put what it
makes of the one that it found in its place. -/
inductive Done (c : Capabilities) (ev : HookEvent) : Prop
  | rests (planned : ev.planned = .ok none) (same : ev.after = ev.before)
  | missing {w : HookWrite} (planned : ev.planned = .ok (some w))
      (none : w.handle.found? w.id ev.before = none) (same : ev.before.Unchanged ev.after)
  | puts {w : HookWrite} {d : Document} (planned : ev.planned = .ok (some w))
      (found : w.handle.found? w.id ev.before = some d)
      (step : w.perform c ev.before = (.ok true, ev.after))
      (after : ev.after = w.handle.put c w.id (w.turn d) ev.before)

theorem Step.done (hstep : ev.Step c) (hok : ev.answer = .ok ()) : ev.Done c := by
  cases hstep with
  | unplanned _ answer _ =>
      rw [hok] at answer
      cases answer
  | rests planned _ same => exact .rests planned same
  | @writes w planned adds answer stores =>
      cases w.step adds c ev.before with
      | missing none same =>
          exact .missing planned none (stores ▸ ⟨same, w.perform_issued c ev.before⟩)
      | refused refused _ =>
          rw [hok, refused] at answer
          cases answer
      | puts found step =>
          have hafter := stores.trans (congrArg Prod.snd step)
          exact .puts planned found (hafter ▸ step) hafter

theorem Step.nodup_keys (hstep : ev.Step c)
    (hkeys : ∀ h : Handle, ((h.slots ev.before).filterMap Slot.key).Nodup) (h : Handle) :
    ((h.slots ev.after).filterMap Slot.key).Nodup := by
  cases hstep with
  | unplanned _ _ same => exact same ▸ hkeys h
  | rests _ _ same => exact same ▸ hkeys h
  | writes _ adds _ stores => exact stores ▸ HookWrite.nodup_keys adds c hkeys h

/-- The document that a hook wrote is kept with all fields as they were but the one that it wrote. -/
def KeepsOtherFields (c : Capabilities) (ev : HookEvent) : Prop :=
  ∀ w d, ev.planned = .ok (some w) → w.handle.found? w.id ev.before = some d →
    ∃ k, w.handle.kept c (w.turn d) = .ok k ∧ ∀ name, name ≠ w.key → k.get? name = d.get? name

theorem keepsOtherFields_of_memory (c : Capabilities)
    (hmemory : ∀ w, ev.planned = .ok (some w) → w.handle.backing = .memory) :
    ev.KeepsOtherFields c := by
  intro w d hplanned _
  refine ⟨w.turn d, ?_, fun name hname => w.get?_turn_of_ne d hname⟩
  rw [Handle.kept, hmemory w hplanned]

end HookEvent

/-! ### One field of one document -/

/-- Lists that differ at one place are related if what stands there is. -/
theorem forall₂_middle_iff {α : Type} {R : α → α → Prop} (hrefl : ∀ a, R a a) (before after : List α)
    (x y : α) : List.Forall₂ R (before ++ x :: after) (before ++ y :: after) ↔ R x y := by
  induction before with
  | nil => exact List.forall₂_cons.trans (and_iff_left (List.forall₂_same.mpr fun a _ => hrefl a))
  | cons first before ih =>
      rw [List.cons_append, List.cons_append, List.forall₂_cons, and_iff_right (hrefl first)]
      exact ih

/-- A slot that has the same document as another but for one field. -/
structure Slot.DiffersIn (key : String) (x x' : Slot) : Prop where
  /-- It stays where it is found, unless that is the field. -/
  place : key ≠ idField → x'.key = x.key
  fields : ∃ d d', x.doc = .ok d ∧ x'.doc = .ok d' ∧ ∀ name, name ≠ key → d'.get? name = d.get? name

/-- Stores that are the same but for one field of the document of an id. -/
structure Stores.DiffersIn (h : Handle) (id key : String) (s s' : Stores) : Prop where
  issued : s'.issued = s.issued
  elsewhere : ∀ other : Handle, ¬ h.SameCollection other → other.slots s' = other.slots s
  slots : List.Forall₂ (fun x x' => x' = x ∨ (x.key = some id ∧ x.DiffersIn key x'))
    (h.slots s) (h.slots s')

namespace HookWrite

variable {c : Capabilities} {w : HookWrite} {s : Stores} {d : Document}

theorem slot_differsIn_iff (hmem : (⟨some w.id, .ok d⟩ : Slot) ∈ w.handle.slots s) :
    Slot.DiffersIn w.key ⟨some w.id, .ok d⟩ (w.handle.slot c w.id (w.turn d)) ↔
      ∃ k, w.handle.kept c (w.turn d) = .ok k ∧ ∀ name, name ≠ w.key → k.get? name = d.get? name := by
  constructor
  · rintro ⟨-, d', k, hd, hk, hfields⟩
    obtain rfl := Except.ok.inj hd
    exact ⟨k, (Handle.slot_doc c w.handle w.id _).symm.trans hk, hfields⟩
  · rintro ⟨k, hk, hfields⟩
    refine ⟨fun hkey => ?_, d, k, rfl, (Handle.slot_doc c w.handle w.id _).trans hk, hfields⟩
    have hid : Document.id? (w.turn d) = d.id? := by
      rw [Document.id?, w.get?_turn_of_ne d (Ne.symm hkey), Document.id?]
    exact Handle.slot_key_of_id?_eq c hmem hid

/-- Putting the document changes nothing but the field if it is kept with its other fields. -/
theorem put_differsIn_iff (hkeys : ((w.handle.slots s).filterMap Slot.key).Nodup)
    (hfound : w.handle.found? w.id s = some d)
    (hputs : w.perform c s = (.ok true, w.handle.put c w.id (w.turn d) s)) :
    s.DiffersIn w.handle w.id w.key (w.handle.put c w.id (w.turn d) s) ↔
      ∃ k, w.handle.kept c (w.turn d) = .ok k ∧ ∀ name, name ≠ w.key → k.get? name = d.get? name := by
  have hstores : w.handle.put c w.id (w.turn d) s = (w.perform c s).2 := by rw [hputs]
  have hrewrites := Handle.rewrites_put c hkeys hfound (w.turn d)
  rw [← slot_differsIn_iff hrewrites.mem_slots]
  obtain ⟨before, after, hslots, hslots', -⟩ := hrewrites
  have hmiddle := forall₂_middle_iff
    (R := fun x x' : Slot => x' = x ∨ (x.key = some w.id ∧ x.DiffersIn w.key x'))
    (fun _ => Or.inl rfl) before after ⟨some w.id, .ok d⟩ (w.handle.slot c w.id (w.turn d))
  rw [← hslots, ← hslots'] at hmiddle
  constructor
  · intro hdiffers
    rcases hmiddle.mp hdiffers.slots with hsame | ⟨-, hdiffers⟩
    · rw [hsame]
      exact ⟨fun _ => rfl, d, d, rfl, rfl, fun _ _ => rfl⟩
    · exact hdiffers
  · intro hdiffers
    refine ⟨?_, fun other hother => ?_, hmiddle.mpr (Or.inr ⟨rfl, hdiffers⟩)⟩
    · rw [hstores, perform_issued]
    · rw [hstores, perform_stores, Handle.slots_perform_of_not_sameCollection hother]

end HookWrite

namespace Service

/-- A hook that is run on some stores. -/
def hookEvent (svc : Service) (entity : String) (model : Document) (req : Request) (h : Hook)
    (s : Stores) : HookEvent :=
  let outcome := runOn (svc.runHook entity model req h) ⟨s, []⟩
  ⟨h, h.plan (svc.scope s entity model req.caller), s, outcome.2.stores, outcome.1⟩

section Run

variable (svc : Service) (entity : String) (model : Document) (req : Request)

/-- What a hook did at most: nothing, if it rests or its document is not there, and else it changed one
field of the document that its target leads to. -/
inductive Effect (ev : HookEvent) : Prop
  | nothing
      (idle : ev.hook.Rests (svc.scope ev.before entity model req.caller) ∨
        ∃ h id key, (svc.scope ev.before entity model req.caller).Leads ev.hook.target h id key ∧
          h.found? id ev.before = none)
      (same : ev.before.Unchanged ev.after)
  | field {h : Handle} {id key : String} {d : Document}
      (leads : (svc.scope ev.before entity model req.caller).Leads ev.hook.target h id key)
      (found : h.found? id ev.before = some d)
      (only : ev.before.DiffersIn h id key ev.after)

/-- Hooks that succeeded, each on the stores left by the one before. -/
inductive InTurn : List HookEvent → Stores → Stores → Prop
  | nil (s : Stores) : InTurn [] s s
  | cons {h : Hook} {s s' : Stores} {later : List HookEvent}
      (succeeds : (svc.hookEvent entity model req h s).answer = .ok ())
      (rest : InTurn later (svc.hookEvent entity model req h s).after s') :
      InTurn (svc.hookEvent entity model req h s :: later) s s'

/-- How a run of declared hooks and the code hook ends, once some hooks have come to a world: they were
all, and the code hook decides; or the next one fails, and that is the end. -/
inductive Ends (l : Lifecycle) (hooks : List Hook) (took : List HookEvent) (v : World)
    (outcome : Except Failure Unit × World) : Prop
  | completed (all : hooks = took.map (·.hook))
      (code : outcome = runOn (svc.runCode entity l model req) v)
  | stopped {next : Hook} {later : List Hook} {f : Failure}
      (split : hooks = took.map (·.hook) ++ next :: later)
      (fails : (svc.hookEvent entity model req next v.stores).answer = .error f)
      (unchanged : v.stores.Unchanged (svc.hookEvent entity model req next v.stores).after)
      (ends : outcome = (.error f, ⟨(svc.hookEvent entity model req next v.stores).after, v.calls⟩))

end Run

variable {svc : Service} {entity : String} {model : Document} {req : Request}

theorem runOn_runHook_eq (svc : Service) (entity : String) (model : Document) (req : Request)
    (h : Hook) (w : World) :
    runOn (svc.runHook entity model req h) w =
      match h.plan (svc.scope w.stores entity model req.caller) with
      | .error f => (.error f, w)
      | .ok none => (.ok (), w)
      | .ok (some x) =>
        ((x.perform svc.capabilities w.stores).1.map fun _ => (),
          ⟨(x.perform svc.capabilities w.stores).2, w.calls⟩) := by
  rw [runHook, Serving.runOn_bind, Serving.runOn_look]
  cases h.plan (svc.scope w.stores entity model req.caller) with
  | error f => rfl
  | ok planned =>
      cases planned with
      | none => rfl
      | some x =>
          dsimp only
          rw [Serving.runOn_bind, Serving.runOn_onStores]
          cases (x.perform svc.capabilities w.stores).1 <;> rfl

/-- A hook looks at the stores only, and no code hook is run. -/
theorem runOn_runHook (svc : Service) (entity : String) (model : Document) (req : Request) (h : Hook)
    (w : World) :
    runOn (svc.runHook entity model req h) w =
      ((svc.hookEvent entity model req h w.stores).answer,
        ⟨(svc.hookEvent entity model req h w.stores).after, w.calls⟩) := by
  rw [hookEvent, runOn_runHook_eq, runOn_runHook_eq]
  dsimp only
  rcases h.plan (svc.scope w.stores entity model req.caller) with f | planned | x <;> rfl

theorem hookEvent_step (svc : Service) (entity : String) (model : Document) (req : Request) (h : Hook)
    (s : Stores) : (svc.hookEvent entity model req h s).Step svc.capabilities := by
  rw [hookEvent, runOn_runHook_eq]
  dsimp only
  split
  · rename_i f hplan
    exact .unplanned hplan rfl rfl
  · rename_i hplan
    exact .rests hplan rfl rfl
  · rename_i w hplan
    rcases Hook.plan_cases hplan with ⟨hnone, -⟩ | ⟨w', v, hsome, -, hplans⟩
    · cases hnone
    · cases hsome
      exact .writes hplan hplans.double? rfl rfl

/-- A hook that succeeds has its effect exactly if what it wrote is kept with its other fields. -/
theorem effect_iff_keepsOtherFields {h : Hook} {s : Stores}
    (hkeys : ∀ handle : Handle, ((handle.slots s).filterMap Slot.key).Nodup)
    (hok : (svc.hookEvent entity model req h s).answer = .ok ()) :
    svc.Effect entity model req (svc.hookEvent entity model req h s) ↔
      (svc.hookEvent entity model req h s).KeepsOtherFields svc.capabilities := by
  have hplan : (svc.hookEvent entity model req h s).planned =
      h.plan (svc.scope s entity model req.caller) := rfl
  cases (svc.hookEvent_step entity model req h s).done hok with
  | rests planned same =>
      rcases Hook.plan_cases (hplan.symm.trans planned) with ⟨-, hrests⟩ | ⟨w, v, hsome, -⟩
      · refine iff_of_true (.nothing (Or.inl hrests) (same ▸ .refl _)) fun w d hw _ => ?_
        rw [planned] at hw
        cases hw
      · cases hsome
  | @missing w planned none same =>
      rcases Hook.plan_cases (hplan.symm.trans planned) with ⟨hnone, -⟩ | ⟨w', v, hsome, -, hplans⟩
      · cases hnone
      · cases hsome
        refine iff_of_true (.nothing (Or.inr ⟨_, _, _, hplans.leads, none⟩) same) ?_
        intro w' d hw hfound
        rw [planned] at hw
        cases hw
        exact absurd (hfound.symm.trans none) (Option.some_ne_none d)
  | @puts w d planned found step after =>
      rcases Hook.plan_cases (hplan.symm.trans planned) with ⟨hnone, -⟩ | ⟨w', v, hsome, happlies, hplans⟩
      · cases hnone
      · cases hsome
        have hleads := hplans.leads
        have honly := HookWrite.put_differsIn_iff (hkeys w.handle) found (after ▸ step)
        have hafter : w.handle.put svc.capabilities w.id (w.turn d) s =
            (svc.hookEvent entity model req h s).after := after.symm
        rw [hafter] at honly
        constructor
        · intro heffect w' d' hw hfound
          rw [planned] at hw
          cases hw
          obtain rfl := Option.some.inj (found.symm.trans hfound)
          cases heffect with
          | nothing idle _ =>
              rcases idle with hrests | ⟨_, _, _, hleads', hmissing⟩
              · exact absurd hrests (hplans.not_rests happlies)
              · obtain ⟨rfl, rfl, rfl⟩ := hleads.unique hleads'
                exact absurd (found.symm.trans hmissing) (Option.some_ne_none d)
          | field leads _ only =>
              obtain ⟨rfl, rfl, rfl⟩ := hleads.unique leads
              exact honly.mp only
        · intro hkeeps
          exact .field hleads found (honly.mpr (hkeeps w d planned found))

/-! ### The whole run -/

/-- A run of declared hooks comes to its end after some that succeeded: there is none left, or the next
one fails. -/
theorem exists_inTurn (svc : Service) (entity : String) (model : Document) (req : Request)
    (hooks : List Hook) (w : World) :
    ∃ took s, svc.InTurn entity model req took w.stores s ∧
      ((hooks = took.map (·.hook) ∧
          runOn (svc.runDeclared entity model req hooks) w = (.ok (), ⟨s, w.calls⟩)) ∨
        ∃ next later f, hooks = took.map (·.hook) ++ next :: later ∧
          (svc.hookEvent entity model req next s).answer = .error f ∧
          runOn (svc.runDeclared entity model req hooks) w =
            (.error f, ⟨(svc.hookEvent entity model req next s).after, w.calls⟩)) := by
  induction hooks generalizing w with
  | nil => exact ⟨[], w.stores, .nil _, Or.inl ⟨rfl, rfl⟩⟩
  | cons h hooks ih =>
      rw [runDeclared, Serving.runOn_bind, runOn_runHook]
      cases hanswer : (svc.hookEvent entity model req h w.stores).answer with
      | error f => exact ⟨[], w.stores, .nil _, Or.inr ⟨h, hooks, f, rfl, hanswer, rfl⟩⟩
      | ok _ =>
          obtain ⟨took, s, hturn, hend⟩ :=
            ih ⟨(svc.hookEvent entity model req h w.stores).after, w.calls⟩
          refine ⟨_ :: took, s, .cons hanswer hturn, ?_⟩
          rcases hend with ⟨rfl, hrun⟩ | ⟨next, later, f, rfl, hfails, hrun⟩
          · exact Or.inl ⟨rfl, hrun⟩
          · exact Or.inr ⟨next, later, f, rfl, hfails, hrun⟩

/-- So the hooks of a lifecycle point come to one of their two ends. -/
theorem exists_ends {e : Entity} (he : svc.directory.get entity = .ok e) (l : Lifecycle)
    (model : Document) (req : Request) (w : World) :
    ∃ took s, svc.InTurn entity model req took w.stores s ∧
      svc.Ends entity model req l (e.definition.hooksAt l) took ⟨s, w.calls⟩
        (runOn (svc.runHooks entity l model req) w) := by
  obtain ⟨took, s, hturn, hend⟩ := svc.exists_inTurn entity model req (e.definition.hooksAt l) w
  refine ⟨took, s, hturn, ?_⟩
  rw [runHooks, he, Serving.ofExcept_ok_bind, Serving.runOn_bind]
  rcases hend with ⟨hall, hrun⟩ | ⟨next, later, f, hsplit, hfails, hrun⟩
  · rw [hrun]
    exact .completed hall rfl
  · rw [hrun]
    exact .stopped hsplit hfails
      ((svc.hookEvent_step entity model req next s).unchanged_of_error hfails) rfl

/-- Ids are keys for every hook that took effect if they are at the start. -/
theorem InTurn.forall_mem {took : List HookEvent} {s s' : Stores}
    (hturn : svc.InTurn entity model req took s s')
    (hkeys : ∀ handle : Handle, ((handle.slots s).filterMap Slot.key).Nodup) :
    ∀ ev ∈ took, ∃ h t, ev = svc.hookEvent entity model req h t ∧ ev.answer = .ok () ∧
      ∀ handle : Handle, ((handle.slots t).filterMap Slot.key).Nodup := by
  induction hturn with
  | nil _ => exact List.forall_mem_nil _
  | @cons h s s' later succeeds _ ih =>
      refine List.forall_mem_cons.mpr ⟨⟨h, s, rfl, succeeds, hkeys⟩, ih ?_⟩
      exact (svc.hookEvent_step entity model req h s).nodup_keys hkeys

/--
**Declared hooks take effect one after the other, and the first that fails is the last.**  Some of them,
in order from the first, succeed, each on the stores left by the one before.  Then either these were all
and the code hook runs, or the next one fails, changes nothing, and its failure is the answer.  Each that
succeeded changed at most the one field that its target leads to, exactly if every document that was
written is kept with its other fields as they were.
-/
theorem runHooks_in_turn {e : Entity} (he : svc.directory.get entity = .ok e) (l : Lifecycle)
    (model : Document) (req : Request) {w : World}
    (hkeys : ∀ h : Handle, ((h.slots w.stores).filterMap Slot.key).Nodup) :
    ∃ took s, svc.InTurn entity model req took w.stores s ∧
      svc.Ends entity model req l (e.definition.hooksAt l) took ⟨s, w.calls⟩
        (runOn (svc.runHooks entity l model req) w) ∧
      ((∀ ev ∈ took, svc.Effect entity model req ev) ↔
        ∀ ev ∈ took, ev.KeepsOtherFields svc.capabilities) := by
  obtain ⟨took, s, hturn, hends⟩ := exists_ends he l model req w
  refine ⟨took, s, hturn, hends, ?_⟩
  refine forall_congr' fun ev => forall_congr' fun hev => ?_
  obtain ⟨h, t, rfl, hok, hkeys⟩ := hturn.forall_mem hkeys ev hev
  exact effect_iff_keepsOtherFields hkeys hok

/-! ### A hook that fails among others -/

private def hookSupplies : Capabilities :=
  ⟨fun t _ => .ok t, fun n => String.ofList (List.replicate n 'x'), fun _ => "1001",
    Document.reread⟩

private def counts : Handle := ⟨.memory, "counts", []⟩

/-- Three increments, of which the second multiplies a label. -/
private def countHooks : List Hook :=
  [⟨none, .increment, "this.value", .ofNat 1⟩,
    ⟨none, .increment, "this.value", .string "\x7bthis.label * 2\x7d"⟩,
    ⟨none, .increment, "this.value", .ofNat 100⟩]

private def countEntity : Entity :=
  ⟨{ Definition.ofNames "counts" "counts" with
      attributes := (NameMap.empty.insert "label" (.ofKind (.string none none))).insert "value"
        (.ofKind (.number none none))
      hooks := fun _ => some countHooks },
    some counts⟩

private def countService : Service :=
  ⟨hookSupplies, ⟨[("counts", countEntity)]⟩, fun _ _ => none⟩

/-- One count, still at zero. -/
private def oneCount : Stores :=
  WriteEvent.latest Stores.empty
    (counts.events hookSupplies Stores.empty [.insert [("label", .string "x"), ("value", .ofNat 0)]])

private def countModel : Document := [("id", .string "1001"), ("label", .string "x")]

private def hookRequest : Request := ⟨none, none, 0⟩

theorem runHooks_in_turn_counts :
    countService.directory.get "counts" = .ok countEntity ∧
    (∀ h : Handle, ((h.slots oneCount).filterMap Slot.key).Nodup) ∧
    ∃ took s, countService.InTurn "counts" countModel hookRequest took oneCount s ∧
      countService.Ends "counts" countModel hookRequest .afterCreate
        (countEntity.definition.hooksAt .afterCreate) took ⟨s, []⟩
        (runOn (countService.runHooks "counts" .afterCreate countModel hookRequest) ⟨oneCount, []⟩) ∧
      ((∀ ev ∈ took, countService.Effect "counts" countModel hookRequest ev) ↔
        ∀ ev ∈ took, ev.KeepsOtherFields countService.capabilities) := by
  have he : countService.directory.get "counts" = .ok countEntity := rfl
  have hkeys := Handle.nodup_keys_of_events hookSupplies counts
    [.insert [("label", .string "x"), ("value", .ofNat 0)]]
  exact ⟨he, hkeys, runHooks_in_turn he .afterCreate countModel hookRequest (w := ⟨oneCount, []⟩) hkeys⟩

/-! ### A rate that does not read back -/

/-- Whether a hook wrote a document that is kept with another number in a field. -/
private def shifts (c : Capabilities) (field : String) (ev : HookEvent) : Bool :=
  match ev.planned with
  | .ok (some w) =>
    match w.handle.found? w.id ev.before with
    | some d =>
      field != w.key && ((w.handle.kept c (w.turn d)).toOption.bind fun k =>
        (k.get? field).bind Json.double?) != (d.get? field).bind Json.double?
    | none => false
  | _ => false

private theorem not_keepsOtherFields_of_shifts {c : Capabilities} {field : String} {ev : HookEvent}
    (hshifts : shifts c field ev = true) : ¬ ev.KeepsOtherFields c := by
  intro hkeeps
  unfold shifts at hshifts
  split at hshifts
  · rename_i w hplanned
    split at hshifts
    · rename_i d hfound
      obtain ⟨k, hk, hfields⟩ := hkeeps w d hplanned hfound
      obtain ⟨hfield, hother⟩ := Bool.and_eq_true_iff.mp hshifts
      rw [hk, bne_iff_ne] at hother
      exact hother (congrArg (Option.bind · Json.double?) (hfields field (bne_iff_ne.mp hfield)))
    · cases hshifts
  · cases hshifts

private def titledTable : Handle := ⟨.table, "rates", []⟩

/-- Rates with a title. -/
private def titledService : Service :=
  ⟨hookSupplies, ⟨[("rates",
    ⟨{ Definition.ofNames "rates" "rates" with
        attributes := (NameMap.empty.insert "rate" (.ofKind (.number none none))).insert "title"
          (.ofKind (.string none none)) },
      some titledTable⟩)]⟩, fun _ _ => none⟩

/-- The double nearest to 1.03 * 10 ^ 28.  Its text reads back as its neighbour, and the text of that
one as the number itself. -/
private def shiftedRate : Double := Double.ofInt 10300000000000000000000000000

private def oneRate : Stores :=
  WriteEvent.latest Stores.empty
    (titledTable.events hookSupplies Stores.empty [.insert [("rate", .number (.real shiftedRate))]])

/-- In a table a hook can change more than the field that it aims at. -/
theorem not_effect_of_reread :
    ¬ ∀ (svc : Service) (entity : String) (model : Document) (req : Request) (h : Hook) (s : Stores),
        svc.capabilities.codec = Document.reread →
        (∀ handle : Handle, ((handle.slots s).filterMap Slot.key).Nodup) →
        (svc.hookEvent entity model req h s).answer = .ok () →
        svc.Effect entity model req (svc.hookEvent entity model req h s) := by
  intro hall
  have hkeys := Handle.nodup_keys_of_events hookSupplies titledTable
    [.insert [("rate", .number (.real shiftedRate))]]
  have hok : (titledService.hookEvent "rates" [("id", .string "1001")] hookRequest
      ⟨none, .set, "this.title", .string "x"⟩ oneRate).answer = .ok () := by decide +kernel
  have hshifts : shifts titledService.capabilities "rate"
      (titledService.hookEvent "rates" [("id", .string "1001")] hookRequest
        ⟨none, .set, "this.title", .string "x"⟩ oneRate) = true := by decide +kernel
  have heffect := hall titledService "rates" [("id", .string "1001")] hookRequest
    ⟨none, .set, "this.title", .string "x"⟩ oneRate rfl hkeys hok
  exact not_keepsOtherFields_of_shifts hshifts ((effect_iff_keepsOtherFields hkeys hok).mp heffect)

end Service

end Curator
