/-
What the target of a hook resolves to after the hook has written to it.

A target is resolved twice, to find out what to write to and to read what is there, and the two must mean
the same field of the same document.  `Scope.LooksUp` are the paths for which the store is asked: a field
of the caller, or of the document that a reference leads to, which may be the document at hand itself.
Nothing in such a path depends on the stores but what is found there (`Scope.variableAt_of_looksUp`), and
what is found is the document that was put, as it is kept (`Handle.findById?_put`).

So the target has the new value exactly if the document is kept with it.  In memory it always is.  A table
keeps the text of the document: words, strings and whole numbers are read back from it as they were, if it
can be read at all, but of another number a neighbour may come back.
-/
import Curator.Proofs.Json.ReadBack
import Curator.Proofs.Service.Hooks
import Curator.Proofs.Store.Legible

namespace Curator

open Serving (runOn)

/-! ### Finding what was put -/

theorem Memory.findById_replace {id : String} {d new : Document} {docs : List Document}
    (hfound : findById id docs = some d) (hnew : Document.hasId id new = true) :
    findById id (replace id new docs) = some new := by
  unfold findById at hfound ⊢
  induction docs with
  | nil => cases hfound
  | cons first docs ih =>
      rw [replace]
      split
      · rw [List.find?_cons_of_pos hnew]
      · rename_i hfirst
        rw [List.find?_cons_of_neg hfirst] at hfound ⊢
        exact ih hfound

namespace Handle

variable {h : Handle} {id : String} {s : Stores} {d new : Document}

/-- In memory a document is found under the id that it has. -/
theorem id?_of_found? (hb : h.backing = .memory) (hfound : h.found? id s = some d) :
    Document.id? d = some id := by
  rw [findById_of_found? hb] at hfound
  exact Document.hasId_iff.mp (List.find?_some hfound)

/-- A document that was put in the place of another is found there, as it is kept. -/
theorem findById?_put (c : Capabilities) (hfound : h.found? id s = some d)
    (hid : h.backing = .memory → new.id? = some id) :
    h.findById? id (h.put c id new s) = (h.kept c new).map some := by
  cases hb : h.backing with
  | memory =>
      rw [findById_of_found? hb] at hfound
      have hnew := Document.hasId_iff.mpr (hid hb)
      simp only [findById?, put, kept, hb, Stores.memoryAt_set, Memory.findById_replace hfound hnew]
      rfl
  | table =>
      have hread := (findById_eq_ok_iff hb).mpr hfound
      unfold Table.findById at hread
      have hsame : Table.isAt h.collection id ∘
          (fun r => if Table.isAt h.collection id r then { r with doc := c.codec new } else r) =
          Table.isAt h.collection id := by
        funext r
        rw [Function.comp_apply]
        split
        · rfl
        · rfl
      simp only [findById?, put, kept, hb, Table.findById, List.find?_map, hsame]
      cases hrow : s.rows.find? (Table.isAt h.collection id) with
      | none =>
          rw [hrow] at hread
          cases hread
      | some r =>
          rw [Option.map_some, if_pos (List.find?_some hrow)]

end Handle

/-! ### Paths that the store is asked for -/

namespace Scope

/-- A path to a field of a document that is looked up: the caller's, or the one that a reference leads
to. -/
inductive LooksUp (path key : String) : Prop
  | user (parts : Text.splitAt '.' path = ["user", key])
  | reference {reference : String} (parts : Text.splitAt '.' path = ["this", reference, key])

variable {s : Scope} {path key id : String} {v : Variable} {h : Handle}

theorem lookUp_eq {target : Entity} (hstore : target.store = .ok h) (s : Scope) (id key : String) :
    s.lookUp target (some id) key =
      (h.findById? id s.stores).map fun found => found.bind fun d => d.get? key := by
  unfold lookUp
  dsimp only
  rw [hstore, Outcome.ok_bind]
  cases h.findById? id s.stores <;> rfl

/-- On any stores, such a path comes to the same variable, with the value that is found there. -/
theorem variableAt_of_looksUp (hpath : LooksUp path key) (hkey : key ≠ idField)
    (hv : s.variableAt path = .ok v) (hid : v.id = some id)
    (hstored : ∃ e, s.directory.get v.entity = .ok e ∧ e.handle? = some h) (t : Stores) :
    ({ s with stores := t } : Scope).variableAt path =
      (h.findById? id t).map fun found => { v with value := found.bind fun d => d.get? key } := by
  obtain ⟨e, he, hh⟩ := hstored
  have hstore : e.store = .ok h := Entity.store_eq_ok_iff.mpr hh
  cases hpath with
  | user parts =>
      rw [variableAt, parts] at hv ⊢
      simp only [userVariable, hkey, if_false] at hv ⊢
      obtain ⟨users, husers, hv⟩ := Outcome.bind_eq_ok_iff.mp hv
      obtain ⟨attr, hattr, hv⟩ := Outcome.bind_eq_ok_iff.mp hv
      obtain ⟨value, -, hv⟩ := Outcome.bind_eq_ok_iff.mp hv
      cases hv
      have hentity : users = e := by
        rw [configured_eq_ok_iff, Outcome.toOption_eq_some_iff, he] at husers
        cases husers
        rfl
      have hcaller : s.caller = some id := hid
      rw [husers, Outcome.ok_bind, hattr, Outcome.ok_bind, hcaller, hentity, lookUp_eq hstore]
      cases h.findById? id t <;> rfl
  | reference parts =>
      rw [variableAt, parts] at hv ⊢
      simp only [referencedVariable] at hv ⊢
      obtain ⟨own, hown, hv⟩ := Outcome.bind_eq_ok_iff.mp hv
      obtain ⟨referring, hreferring, hv⟩ := Outcome.bind_eq_ok_iff.mp hv
      obtain ⟨targetName, htargetName, hv⟩ := Outcome.bind_eq_ok_iff.mp hv
      obtain ⟨target, htarget, hv⟩ := Outcome.bind_eq_ok_iff.mp hv
      obtain ⟨attr, hattr, hv⟩ := Outcome.bind_eq_ok_iff.mp hv
      obtain ⟨value, -, hv⟩ := Outcome.bind_eq_ok_iff.mp hv
      cases hv
      have hentity : target = e := Except.ok.inj (htarget.symm.trans he)
      have hreferred : (s.model.get? _).bind scalarText? = some id := hid
      rw [hown, Outcome.ok_bind, hreferring, Outcome.ok_bind, htargetName, Outcome.ok_bind, htarget,
        Outcome.ok_bind, hattr, Outcome.ok_bind, hreferred, hentity, lookUp_eq hstore]
      cases h.findById? id t <;> rfl

end Scope

/-! ### What is read back -/

namespace HookWrite

variable {c : Capabilities} {w : HookWrite} {d : Document}

theorem named_turn (hd : d.Named) : Document.Named (w.turn d) := by
  unfold turn
  cases w.effect with
  | set => exact hd.update _
  | increment => exact hd.increment _

/-- In a table a word, a string or a whole number is kept if the document can be read at all. -/
theorem keepsFields_iff_readable (hb : w.handle.backing = .table) (hc : c.codec = Document.reread)
    (hd : d.Named) {y : Json} (hy : (w.turn d).get? w.key = some y) (hexact : y.isExact = true) :
    w.handle.KeepsFields c [w.key] (w.turn d) ↔ ∃ k, Document.reread (w.turn d) = .ok k := by
  have hkept : w.handle.kept c (w.turn d) = Document.reread (w.turn d) := by rw [Handle.kept, hb, hc]
  constructor
  · rintro ⟨k, hk, -⟩
    exact ⟨k, hkept.symm.trans hk⟩
  · rintro ⟨k, hk⟩
    refine ⟨k, hkept.trans hk, fun field hfield => ?_⟩
    obtain rfl := List.mem_singleton.mp hfield
    have hnamed := w.named_turn hd
    rw [hy]
    exact (Document.get?_of_reread hnamed.distinct hnamed.id hk).2 _ y hy hexact

end HookWrite

namespace Service

variable {svc : Service} {entity : String} {model : Document} {req : Request} {h : Hook}
  {w w' : World} {handle : Handle} {id key : String} {d : Document}

/-- A hook that succeeds puts what it makes of the document that its target leads to in its place. -/
theorem exists_plans_of_runHook
    (happlies : h.applies (svc.scope w.stores entity model req.caller) = .ok true)
    (hleads : (svc.scope w.stores entity model req.caller).Leads h.target handle id key)
    (hfound : handle.found? id w.stores = some d)
    (hok : runOn (svc.runHook entity model req h) w = (.ok (), w')) :
    ∃ x v, h.plan (svc.scope w.stores entity model req.caller) = .ok (some x) ∧
      h.Plans (svc.scope w.stores entity model req.caller) x v ∧
      x.handle = handle ∧ x.id = id ∧ x.key = key ∧
      w'.stores = handle.put svc.capabilities id (x.turn d) w.stores := by
  rw [runOn_runHook_eq] at hok
  cases hplan : h.plan (svc.scope w.stores entity model req.caller) with
  | error f =>
      rw [hplan] at hok
      cases hok
  | ok planned =>
      rw [hplan] at hok
      rcases Hook.plan_cases hplan with ⟨-, hrests⟩ | ⟨x, v, rfl, -, hplans⟩
      · rcases hrests with hfalse | ⟨v, hv, hnone⟩
        · rw [happlies] at hfalse
          cases hfalse
        · obtain ⟨⟨v', e, hv', hid, -⟩, -⟩ := hleads
          obtain rfl := Except.ok.inj (hv.symm.trans hv')
          rw [hnone] at hid
          cases hid
      · obtain ⟨rfl, rfl, rfl⟩ := hplans.leads.unique hleads
        dsimp only at hok
        refine ⟨x, v, rfl, hplans, rfl, rfl, rfl, ?_⟩
        cases x.step hplans.double? svc.capabilities w.stores with
        | missing none _ => exact absurd (hfound.symm.trans none) (Option.some_ne_none d)
        | refused answer _ =>
            rw [answer] at hok
            cases hok
        | puts found step =>
            obtain rfl := Option.some.inj (hfound.symm.trans found)
            rw [step] at hok
            cases hok
            rfl

/-- The target has a value of the document exactly if it is kept with it. -/
theorem variableAt_put_iff {x : HookWrite} {v : Variable}
    (hplans : h.Plans (svc.scope w.stores entity model req.caller) x v)
    (hpath : Scope.LooksUp h.target x.key) (hkey : x.key ≠ idField)
    (hfound : x.handle.found? x.id w.stores = some d) {y : Json} (hy : (x.turn d).get? x.key = some y) :
    (svc.scope (x.handle.put svc.capabilities x.id (x.turn d) w.stores) entity model
        req.caller).variableAt h.target = .ok { v with value := some y } ↔
      x.handle.KeepsFields svc.capabilities [x.key] (x.turn d) := by
  have hid : x.handle.backing = .memory → Document.id? (x.turn d) = some x.id := by
    intro hb
    rw [Document.id?, x.get?_turn_of_ne d hkey.symm]
    exact Handle.id?_of_found? hb hfound
  have hvariable := Scope.variableAt_of_looksUp hpath hkey hplans.target hplans.id hplans.stored
    (x.handle.put svc.capabilities x.id (x.turn d) w.stores)
  rw [Handle.findById?_put svc.capabilities hfound hid] at hvariable
  refine (iff_of_eq (congrArg (· = _) hvariable)).trans ?_
  rw [Handle.KeepsFields]
  cases x.handle.kept svc.capabilities (x.turn d) with
  | error f =>
      constructor
      · intro hsame
        cases hsame
      · rintro ⟨k, hk, -⟩
        cases hk
  | ok k =>
      constructor
      · intro hsame
        refine ⟨k, rfl, fun field hfield => ?_⟩
        rw [List.mem_singleton.mp hfield, hy]
        exact congrArg Variable.value (Except.ok.inj hsame)
      · rintro ⟨k', ⟨⟩, hfields⟩
        have hvalue := (hfields x.key List.mem_cons_self).trans hy
        show Except.ok { v with value := k.get? x.key } = _
        rw [hvalue]

/--
**A target resolves to what the hook wrote, as far as the store keeps it.**  The target of a hook is a field
of the caller or of a document that is referred to, other than the id; the document is there, the condition
holds and the hook succeeds.  After that the target has the converted value if the hook sets it, and the
sum if it adds whole numbers up to 2 ^ 53, exactly if the document is kept with the field.  In memory it is,
and in a table at least all words, strings and whole numbers are, if the document can be read.
-/
theorem target_yields_iff_kept (hpath : Scope.LooksUp h.target key) (hkey : key ≠ idField)
    (happlies : h.applies (svc.scope w.stores entity model req.caller) = .ok true)
    (hleads : (svc.scope w.stores entity model req.caller).Leads h.target handle id key)
    (hfound : handle.found? id w.stores = some d)
    (hok : runOn (svc.runHook entity model req h) w = (.ok (), w')) :
    ∃ x v, h.plan (svc.scope w.stores entity model req.caller) = .ok (some x) ∧
      h.Plans (svc.scope w.stores entity model req.caller) x v ∧
      (h.effect = .set → ∃ resolved converted,
        (svc.scope w.stores entity model req.caller).resolve h.value = .ok resolved ∧
        v.attr.convert resolved = .ok converted ∧ (x.turn d).get? key = some converted ∧
        ((svc.scope w'.stores entity model req.caller).variableAt h.target =
            .ok { v with value := some converted } ↔
          handle.KeepsFields svc.capabilities [key] (x.turn d))) ∧
      (h.effect = .increment → ∀ m n, d.amount? key = some m → x.value.integer? = some n →
        |m| ≤ 2 ^ 53 → |n| ≤ 2 ^ 53 → |m + n| ≤ 2 ^ 53 →
        (x.turn d).get? key = some (.ofInt (m + n)) ∧
        ((svc.scope w'.stores entity model req.caller).variableAt h.target =
            .ok { v with value := some (.ofInt (m + n)) } ↔
          handle.KeepsFields svc.capabilities [key] (x.turn d))) ∧
      (handle.backing = .memory → handle.KeepsFields svc.capabilities [key] (x.turn d)) ∧
      (handle.backing = .table → svc.capabilities.codec = Document.reread → d.Named →
        ∀ y, (x.turn d).get? key = some y → y.isExact = true →
          (handle.KeepsFields svc.capabilities [key] (x.turn d) ↔
            ∃ k, Document.reread (x.turn d) = .ok k)) := by
  obtain ⟨x, v, hplan, hplans, rfl, rfl, rfl, hafter⟩ :=
    exists_plans_of_runHook happlies hleads hfound hok
  have hyields := fun {y} => variableAt_put_iff (y := y) hplans hpath hkey hfound
  rw [← hafter] at hyields
  refine ⟨x, v, hplan, hplans, fun heffect => ?set, fun heffect m n hm hn hstart hdelta hsum => ?increment,
    fun hb => Handle.keepsFields_of_memory hb _ _ _,
    fun hb hc hd y hy hexact => HookWrite.keepsFields_iff_readable hb hc hd hy hexact⟩
  case set =>
    obtain ⟨resolved, converted, hresolved, hconverted, hoperand⟩ := hplans.operand
    have hvalue : converted = x.value := by
      rw [heffect, Effect.operand] at hoperand
      exact Except.ok.inj hoperand
    have hturn := HookWrite.get?_turn_of_set (hplans.effect.trans heffect) d
    rw [if_neg hkey, ← hvalue] at hturn
    exact ⟨resolved, converted, hresolved, hconverted, hturn, hyields hturn⟩
  case increment =>
    obtain ⟨y, hy, hvalue⟩ := Json.exists_double hn hdelta
    have hturn := HookWrite.get?_turn_of_amount (hplans.effect.trans heffect) hy hm hvalue hstart hsum
    exact ⟨hturn, hyields hturn⟩

/-! ### Orders at a rate -/

private def rateHandle : Handle := ⟨.table, "rates", []⟩

private def rateSupplies : Capabilities :=
  ⟨fun t _ => .ok t, fun n => String.ofList (List.replicate n 'x'), fun _ => "1001", Document.reread⟩

private def rateEntity : Entity :=
  ⟨{ Definition.ofNames "rates" "rates" with
      attributes := NameMap.empty.insert "rate" (.ofKind (.number none none)) },
    some rateHandle⟩

private def orderEntity : Entity :=
  ⟨{ Definition.ofNames "orders" "orders" with
      attributes := NameMap.empty.insert "r" (.ofKind (.ref "rates")) },
    some ⟨.memory, "orders", []⟩⟩

private def orderService : Service :=
  ⟨rateSupplies, ⟨[("orders", orderEntity), ("rates", rateEntity)]⟩, fun _ _ => none⟩

/-- A table with one rate, of three. -/
private def oneRateHeld : World :=
  ⟨WriteEvent.latest .empty (rateHandle.events rateSupplies .empty [.insert [("rate", .ofInt 3)]]), []⟩

private def order : Document := [("r", .string "1001")]

private def orderRequest : Request := ⟨none, none, 0⟩

private def orderScope (w : World) : Scope := orderService.scope w.stores "orders" order none

private def ordered (h : Hook) : Except Failure Unit × World :=
  runOn (orderService.runHook "orders" order orderRequest h) oneRateHeld

private theorem rate_leads :
    (orderScope oneRateHeld).Leads "this.r.rate" rateHandle "1001" "rate" := by
  have hread : ((orderScope oneRateHeld).variableAt "this.r.rate").toOption.map
      (fun v => (v.id, v.key, v.entity)) = some (some "1001", "rate", "rates") := by decide +kernel
  obtain ⟨v, hv, hparts⟩ := Option.map_eq_some_iff.mp hread
  simp only [Prod.mk.injEq] at hparts
  obtain ⟨hid, hkey, hentity⟩ := hparts
  exact ⟨⟨v, rateEntity, Outcome.toOption_eq_some_iff.mp hv, hid, hkey, hentity ▸ rfl, rfl⟩, rfl⟩

private def raiseRate : Hook := ⟨none, .increment, "this.r.rate", .ofInt 2⟩

/-- What the hook makes of the rate can be read back. -/
private theorem raised_reads {x : HookWrite} {d : Document}
    (hplan : raiseRate.plan (orderScope oneRateHeld) = .ok (some x))
    (hfound : rateHandle.found? "1001" oneRateHeld.stores = some d) :
    x.value.integer? = some 2 ∧ ∃ k, Document.reread (x.turn d) = .ok k := by
  have hread : ((raiseRate.plan (orderScope oneRateHeld)).toOption.join.bind fun x =>
      (rateHandle.found? "1001" oneRateHeld.stores).map fun d =>
        (x.value.integer?, (Document.reread (x.turn d)).toOption.isSome)) = some (some 2, true) := by
    decide +kernel
  rw [hplan, hfound] at hread
  obtain ⟨hvalue, hsome⟩ := Prod.mk.inj (Option.some.inj hread)
  obtain ⟨k, hk⟩ := Option.isSome_iff_exists.mp hsome
  exact ⟨hvalue, k, Outcome.toOption_eq_some_iff.mp hk⟩

/-- The rate is read back from the table as three and two. -/
theorem target_yields_iff_kept_raised :
    ∃ v : Variable, (orderScope (ordered raiseRate).2).variableAt "this.r.rate" =
      .ok { v with value := some (.ofInt 5) } := by
  have hfields : ((rateHandle.found? "1001" oneRateHeld.stores).map fun d =>
      (d.names, d.amount? "rate")) = some (["rate", "id"], some 3) := by decide +kernel
  obtain ⟨d, hfound, hd⟩ := Option.map_eq_some_iff.mp hfields
  obtain ⟨hnames, hamount⟩ := Prod.mk.inj hd
  have hnamed : d.Named := ⟨hnames ▸ by decide, hnames ▸ by decide⟩
  have hok : runOn (orderService.runHook "orders" order orderRequest raiseRate) oneRateHeld =
      (.ok (), (ordered raiseRate).2) := Prod.ext (by decide +kernel) rfl
  have hpath : Scope.LooksUp raiseRate.target "rate" := .reference rfl
  have happlies : raiseRate.applies
      (orderService.scope oneRateHeld.stores "orders" order orderRequest.caller) = .ok true := rfl
  obtain ⟨x, v, hplan, -, -, hincrement, -, htable⟩ :=
    target_yields_iff_kept hpath (by decide) happlies rate_leads hfound hok
  obtain ⟨hvalue, hreads⟩ := raised_reads hplan hfound
  obtain ⟨hturn, hyields⟩ :=
    hincrement rfl 3 2 hamount hvalue (by decide) (by decide) (by decide)
  exact ⟨v, hyields.mpr ((htable rfl rfl hnamed _ hturn rfl).mpr hreads)⟩

/-- Sets the rate to the double nearest to 3 * 10 ^ 23, whose text reads back as its neighbour. -/
private def setSteepRate : Hook := ⟨none, .set, "this.r.rate", .string "3e23"⟩

/-- In a table a target can come to another number than the one that was written. -/
theorem not_target_yields_of_reread :
    ¬ ∀ (svc : Service) (entity : String) (model : Document) (req : Request) (h : Hook) (w : World)
        (handle : Handle) (id key : String) (d : Document) (v : Variable) (resolved converted : Json),
        svc.capabilities.codec = Document.reread → Scope.LooksUp h.target key → key ≠ idField →
        h.applies (svc.scope w.stores entity model req.caller) = .ok true →
        (svc.scope w.stores entity model req.caller).Leads h.target handle id key →
        handle.found? id w.stores = some d →
        (runOn (svc.runHook entity model req h) w).1 = .ok () → h.effect = .set →
        (svc.scope w.stores entity model req.caller).variableAt h.target = .ok v →
        (svc.scope w.stores entity model req.caller).resolve h.value = .ok resolved →
        v.attr.convert resolved = .ok converted →
        (svc.scope (runOn (svc.runHook entity model req h) w).2.stores entity model
          req.caller).variableAt h.target = .ok { v with value := some converted } := by
  intro hall
  obtain ⟨d, hfound⟩ := Option.isSome_iff_exists.mp
    (show (rateHandle.found? "1001" oneRateHeld.stores).isSome = true by decide +kernel)
  have hwritten : (((orderScope oneRateHeld).variableAt "this.r.rate").toOption.bind fun v =>
      (((orderScope oneRateHeld).resolve (.string "3e23")).toOption.bind fun resolved =>
        (v.attr.convert resolved).toOption.bind Json.double?)) =
      some ⟨false, 8940696716308594, 25, by decide⟩ := by decide +kernel
  obtain ⟨v, hv, hwritten⟩ := Option.bind_eq_some_iff.mp hwritten
  obtain ⟨resolved, hresolved, hwritten⟩ := Option.bind_eq_some_iff.mp hwritten
  obtain ⟨converted, hconverted, hwritten⟩ := Option.bind_eq_some_iff.mp hwritten
  have hok : (runOn (orderService.runHook "orders" order orderRequest setSteepRate) oneRateHeld).1 =
      .ok () := by decide +kernel
  have hyields := hall orderService "orders" order orderRequest setSteepRate oneRateHeld rateHandle
    "1001" "rate" d v resolved converted rfl (.reference rfl) (by decide) rfl rate_leads hfound hok rfl
    (Outcome.toOption_eq_some_iff.mp hv) (Outcome.toOption_eq_some_iff.mp hresolved)
    (Outcome.toOption_eq_some_iff.mp hconverted)
  have hread : (((orderScope (ordered setSteepRate).2).variableAt "this.r.rate").toOption.bind
      fun v => v.value.bind Json.double?) = some ⟨false, 8940696716308593, 25, by decide⟩ := by
    decide +kernel
  have hyields' : (orderScope (ordered setSteepRate).2).variableAt "this.r.rate" =
      .ok { v with value := some converted } := hyields
  rw [hyields'] at hread
  have hsame := hread.symm.trans hwritten
  revert hsame
  decide

end Service

end Curator
