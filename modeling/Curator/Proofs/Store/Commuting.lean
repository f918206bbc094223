/-
No order of patches loses one.

Updates and increments of documents are made in some order, as the calls of several requests come in.
Where no field must be distinct and the patches of one document are free of each other, the documents
that they come to do not depend on the order, and neither do the answers: `Slot.Patched` relates the
slots before and after without one.

For documents in a table there is one condition.  Whatever a patch leaves is written as text and read
back, and the next patch goes on from there.  The documents gather the patches exactly when what every
write leaves reads back with the same fields.  Reading back is not idempotent: a number may come to
drift between two neighbours, and then where it ends depends on how often its document was written.
-/
import Mathlib.Data.List.Forall2
import Mathlib.Data.List.Sublists
import Curator.Proofs.Store.Answers
import Curator.Proofs.Store.Patch

namespace Curator

/-- The write of a patch of the document of an id. -/
def Patch.write (id : String) : Patch → Write
  | set fields => .update id fields
  | add deltas => .increment id deltas

/-- The patches of the document that has a key. -/
def patchesAt (key : Option String) (ws : List (String × Patch)) : List Patch :=
  (ws.filter fun w => some w.1 == key).map (·.2)

theorem patchesAt_cons_of_eq {key : Option String} {w : String × Patch} (hkey : key = some w.1)
    (ws : List (String × Patch)) : patchesAt key (w :: ws) = w.2 :: patchesAt key ws := by
  rw [patchesAt, List.filter_cons_of_pos (by simp [hkey]), List.map_cons, patchesAt]

theorem patchesAt_cons_of_ne {key : Option String} {w : String × Patch} (hkey : key ≠ some w.1)
    (ws : List (String × Patch)) : patchesAt key (w :: ws) = patchesAt key ws := by
  rw [patchesAt, List.filter_cons_of_neg (by simpa using Ne.symm hkey), patchesAt]

theorem mem_of_mem_patchesAt {key : Option String} {ws : List (String × Patch)} {p : Patch}
    (hp : p ∈ patchesAt key ws) : ∃ w ∈ ws, some w.1 = key ∧ w.2 = p := by
  obtain ⟨w, hw, rfl⟩ := List.mem_map.mp hp
  obtain ⟨hw, hkey⟩ := List.mem_filter.mp hw
  exact ⟨w, hw, beq_iff_eq.mp hkey, rfl⟩

/-- Patches of documents that may come in any order. -/
structure Independent (ws : List (String × Patch)) : Prop where
  sound : ∀ w ∈ ws, w.2.Sound
  free : ws.Pairwise fun w w' => w.1 = w'.1 → w.2.Free w'.2

/-- What patches make of a slot: of its document, if it can be read. -/
structure Slot.Patched (ws : List (String × Patch)) (x x' : Slot) : Prop where
  key : x'.key = x.key
  unread : ∀ f, x.doc = .error f → x'.doc = .error f
  read : ∀ d, x.doc = .ok d → ∃ d', x'.doc = .ok d' ∧ Patch.Gathers (patchesAt x.key ws) d d'

/-- Two slots are the same but for the order of fields. -/
structure Slot.Alike (x x' : Slot) : Prop where
  key : x'.key = x.key
  unread : ∀ f, x.doc = .error f → x'.doc = .error f
  read : ∀ d, x.doc = .ok d → ∃ d', x'.doc = .ok d' ∧ ∀ name, d'.get? name = d.get? name

/-! ### Patches in other orders -/

namespace Independent

variable {w : String × Patch} {ws order : List (String × Patch)}

theorem perm (hws : Independent ws) (hperm : order.Perm ws) : Independent order where
  sound w hw := hws.sound w (hperm.mem_iff.mp hw)
  free := (hperm.pairwise_iff fun hfree heq => (hfree heq.symm).symm).mpr hws.free

theorem of_cons (hws : Independent (w :: ws)) : Independent ws where
  sound := (List.forall_mem_cons.mp hws.sound).2
  free := (List.pairwise_cons.mp hws.free).2

theorem sound_at (hws : Independent ws) (key : Option String) : ∀ p ∈ patchesAt key ws, p.Sound := by
  intro p hp
  obtain ⟨w, hw, -, rfl⟩ := mem_of_mem_patchesAt hp
  exact hws.sound w hw

theorem free_at (hws : Independent (w :: ws)) : ∀ p ∈ patchesAt (some w.1) ws, w.2.Free p := by
  intro p hp
  obtain ⟨w', hw', hkey, rfl⟩ := mem_of_mem_patchesAt hp
  exact (List.pairwise_cons.mp hws.free).1 w' hw' (Option.some.inj hkey).symm

end Independent

theorem patchesAt_perm {ws order : List (String × Patch)} (hperm : order.Perm ws)
    (key : Option String) : (patchesAt key order).Perm (patchesAt key ws) :=
  (hperm.filter _).map _

theorem patchesAt_sublist {ws order : List (String × Patch)} (hsub : order.Sublist ws)
    (key : Option String) : (patchesAt key order).Sublist (patchesAt key ws) :=
  (hsub.filter _).map _

/-- The sums of all patches of a collection's documents stay in range. -/
def SumsInRange (slots : List Slot) (ws : List (String × Patch)) : Prop :=
  ∀ x ∈ slots, ∀ d, x.doc = .ok d → Patch.InRange (patchesAt x.key ws) d

theorem SumsInRange.perm {slots : List Slot} {ws order : List (String × Patch)}
    (hrange : SumsInRange slots ws) (hperm : order.Perm ws) : SumsInRange slots order :=
  fun x hx d hd => (hrange x hx d hd).perm (patchesAt_perm hperm.symm x.key)

theorem SumsInRange.of_cons {slots : List Slot} {w : String × Patch} {ws : List (String × Patch)}
    (hrange : SumsInRange slots (w :: ws)) : SumsInRange slots ws :=
  fun x hx d hd => (hrange x hx d hd).sublist (patchesAt_sublist (List.sublist_cons_self _ _) x.key)

namespace Slot

theorem patched_nil (x : Slot) : Patched [] x x where
  key := rfl
  unread _ hf := hf
  read d hd := ⟨d, hd, Patch.gathers_nil d⟩

theorem Patched.perm {ws order : List (String × Patch)} (hperm : order.Perm ws) {x x' : Slot}
    (hx : Patched order x x') : Patched ws x x' where
  key := hx.key
  unread := hx.unread
  read d hd := by
    obtain ⟨d', hd', hgathers⟩ := hx.read d hd
    exact ⟨d', hd', hgathers.perm (patchesAt_perm hperm x.key)⟩

/-- Slots that are patched alike are alike. -/
theorem Patched.alike {ws : List (String × Patch)} (hws : Independent ws) {x y z : Slot}
    (hy : Patched ws x y) (hz : Patched ws x z) : Alike y z where
  key := hz.key.trans hy.key.symm
  unread f hf := by
    cases hx : x.doc with
    | error g =>
        obtain rfl := Except.error.inj ((hy.unread g hx).symm.trans hf)
        exact hz.unread g hx
    | ok d =>
        obtain ⟨d', hd', -⟩ := hy.read d hx
        rw [hf] at hd'
        cases hd'
  read d hd := by
    cases hx : x.doc with
    | error g =>
        rw [hy.unread g hx] at hd
        cases hd
    | ok start =>
        obtain ⟨d', hd', hgathers⟩ := hy.read start hx
        obtain ⟨d'', hd'', hgathers'⟩ := hz.read start hx
        obtain rfl := Except.ok.inj (hd'.symm.trans hd)
        exact ⟨d'', hd'', hgathers'.get?_eq (hws.sound_at x.key) hgathers⟩

theorem forall₂_alike {ws : List (String × Patch)} (hws : Independent ws) {slots ys zs : List Slot}
    (hys : List.Forall₂ (Patched ws) slots ys) (hzs : List.Forall₂ (Patched ws) slots zs) :
    List.Forall₂ Alike ys zs := by
  induction hys generalizing zs with
  | nil =>
      cases hzs
      exact .nil
  | cons hy _ ih =>
      cases hzs with
      | cons hz hzs => exact .cons (hy.alike hws hz) (ih hzs)

/-- Slots that are related one by one, and keep their ids, are found one for the other. -/
theorem find?_forall₂ {R : Slot → Slot → Prop} (hkey : ∀ x x', R x x' → x'.key = x.key)
    {slots slots' : List Slot} (hslots : List.Forall₂ R slots slots') (id : String) :
    Option.Rel R (slots.find? fun x => x.key == some id) (slots'.find? fun x => x.key == some id) := by
  induction hslots with
  | nil => exact .none
  | @cons x x' _ _ hx _ ih =>
      rw [List.find?_cons, List.find?_cons, hkey x x' hx]
      cases x.key == some id with
      | false => exact ih
      | true => exact .some hx

section Step

variable {w : String × Patch} {ws : List (String × Patch)} {x x' x'' : Slot}

/-- A patch of another document changes nothing. -/
theorem Patched.of_ne (hx : Patched ws x x') (hkey : x'.key ≠ some w.1) : Patched (w :: ws) x x' where
  key := hx.key
  unread := hx.unread
  read d hd := by
    rw [patchesAt_cons_of_ne (hx.key ▸ hkey)]
    exact hx.read d hd

/-- A document that cannot be read is not patched. -/
theorem Patched.of_unread (hx : Patched ws x x') (hunread : ∀ d, x'.doc ≠ .ok d) :
    Patched (w :: ws) x x' where
  key := hx.key
  unread := hx.unread
  read d hd := by
    obtain ⟨d', hd', -⟩ := hx.read d hd
    exact absurd hd' (hunread d')

/-- What one more patch makes of a document gathers it with those before. -/
theorem Patched.gathers_apply (hx : Patched ws x x') (hws : Independent (w :: ws))
    (hrange : ∀ d, x.doc = .ok d → Patch.InRange (patchesAt x.key (w :: ws)) d)
    (hkey : x'.key = some w.1) {old d : Document} (hold : x'.doc = .ok old) (hd : x.doc = .ok d) :
    Patch.Gathers (patchesAt x.key (w :: ws)) d (w.2.apply old) := by
  have hkey : x.key = some w.1 := hx.key.symm.trans hkey
  obtain ⟨d', hd', hgathers⟩ := hx.read d hd
  obtain rfl := Except.ok.inj (hd'.symm.trans hold)
  have hsound := hws.sound_at x.key
  have hrange := hrange d hd
  rw [patchesAt_cons_of_eq hkey] at hsound hrange ⊢
  refine hgathers.apply hsound ?_ hrange
  rw [hkey]
  exact hws.free_at

/-- A slot gathers one more patch exactly when what the patch makes of its document reads back with
the same fields. -/
theorem Patched.cons_iff (hx : Patched ws x x') (hws : Independent (w :: ws))
    (hrange : ∀ d, x.doc = .ok d → Patch.InRange (patchesAt x.key (w :: ws)) d)
    (hkey : x'.key = some w.1) {old : Document} (hold : x'.doc = .ok old) (hkey' : x''.key = x'.key) :
    Patched (w :: ws) x x'' ↔
      ∃ k, x''.doc = .ok k ∧ ∀ name, k.get? name = (w.2.apply old).get? name := by
  obtain ⟨d, hd⟩ : ∃ d, x.doc = .ok d := by
    cases hdoc : x.doc with
    | error f =>
        rw [hx.unread f hdoc] at hold
        cases hold
    | ok d => exact ⟨d, rfl⟩
  have hgathers := hx.gathers_apply hws hrange hkey hold hd
  constructor
  · intro hafter
    obtain ⟨k, hk, hgathers'⟩ := hafter.read d hd
    exact ⟨k, hk, hgathers'.get?_eq (hws.sound_at x.key) hgathers⟩
  · rintro ⟨k, hk, hsame⟩
    refine ⟨hkey'.trans hx.key, ?_, ?_⟩
    · intro f hf
      rw [hd] at hf
      cases hf
    · intro start hstart
      obtain rfl := Except.ok.inj (hd.symm.trans hstart)
      exact ⟨k, hk, hgathers.of_get? hsame⟩

/-- Slots of which one is rewritten gather one more patch exactly when that slot does. -/
theorem forall₂_patched_rewrite_iff {slots slots' : List Slot} {new : Slot} {old : Document}
    (hws : Independent (w :: ws)) (hrange : SumsInRange slots (w :: ws))
    (hbefore : List.Forall₂ (Patched ws) slots slots') (hkeys : (slots'.filterMap Slot.key).Nodup)
    (hold : ⟨some w.1, .ok old⟩ ∈ slots') (hnew : new.key = some w.1) :
    List.Forall₂ (Patched (w :: ws)) slots
        (slots'.map fun x => if x.key = some w.1 then new else x) ↔
      ∃ k, new.doc = .ok k ∧ ∀ name, k.get? name = (w.2.apply old).get? name := by
  obtain ⟨hlength, hpairs⟩ := List.forall₂_iff_zip.mp hbefore
  rw [List.forall₂_map_right_iff, List.forall₂_iff_zip]
  constructor
  · rintro ⟨-, hafter⟩
    rw [← List.map_snd_zip hlength.ge] at hold
    obtain ⟨⟨x, x'⟩, hpair, rfl⟩ := List.mem_map.mp hold
    have hx := hafter hpair
    rw [if_pos rfl] at hx
    exact ((hpairs hpair).cons_iff hws (hrange x (List.of_mem_zip hpair).1) rfl rfl hnew).mp hx
  · refine fun hread => ⟨hlength, fun {x x'} hpair => ?_⟩
    by_cases hkey : x'.key = some w.1
    · obtain rfl := eq_of_key hkeys hold (List.of_mem_zip hpair).2 rfl hkey
      rw [if_pos hkey]
      exact ((hpairs hpair).cons_iff hws (hrange x (List.of_mem_zip hpair).1) rfl rfl hnew).mpr hread
    · rw [if_neg hkey]
      exact (hpairs hpair).of_ne hkey

end Step

end Slot

namespace Handle

/-! ### One patch -/

/-- The events of patches that are made in turn on some stores.  The newest comes first. -/
def patched (c : Capabilities) (h : Handle) (s : Stores) (ws : List (String × Patch)) :
    List WriteEvent :=
  h.events c s (ws.map fun w => w.2.write w.1)

/-- The stores that patches come to. -/
def afterPatches (c : Capabilities) (h : Handle) (s : Stores) (ws : List (String × Patch)) : Stores :=
  WriteEvent.latest s (h.patched c s ws)

/-- What a write left in the collection reads back with the same fields. -/
def ReadsAlike (c : Capabilities) (h : Handle) (ev : WriteEvent) : Prop :=
  ∀ id d, h.written ev = some (id, d) →
    ∃ k, h.kept c d = .ok k ∧ ∀ name, k.get? name = d.get? name

theorem readsAlike_of_memory {h : Handle} (hb : h.backing = .memory) (c : Capabilities)
    (ev : WriteEvent) : h.ReadsAlike c ev :=
  fun _ d _ => ⟨d, by rw [kept, hb], fun _ => rfl⟩

section Patch

variable {c : Capabilities} {h : Handle} {s : Stores} {p : Patch}

/-- A patch is answered with whether its document was there. -/
theorem perform_patch_answer (hunique : h.unique = []) (hp : p.Sound) (id : String) (s : Stores) :
    (h.perform c s (p.write id)).1 = ((h.findById? id s).map Option.isSome).map .found := by
  cases p with
  | set fields =>
      rw [Patch.write, perform, update_answer]
      cases h.findById? id s with
      | error f => rfl
      | ok found =>
          cases found with
          | none => rfl
          | some d =>
              dsimp only
              rw [check_of_unique_nil hunique]
              rfl
  | add deltas =>
      have hnumbers : ∀ e ∈ deltas, e.2.double?.isSome := fun e he =>
        Json.double?_isSome (hp.whole deltas rfl e he)
      rw [Patch.write, perform,
        increment_answer c h id hnumbers s fun _ _ _ => check_of_unique_nil hunique _ s]

theorem findById?_eq_some_iff {id : String} {d : Document} :
    h.findById? id s = .ok (some d) ↔ h.found? id s = some d := by
  rw [found?]
  cases h.findById? id s with
  | error f => simp [Except.toOption]
  | ok found => cases found <;> simp [Except.toOption]

/-- A patch rewrites the document that is found. -/
theorem rewrites_of_patch (hunique : h.unique = []) (hkeys : ((h.slots s).filterMap Slot.key).Nodup)
    (hp : p.Sound) {id : String} {d : Document} (hfound : h.found? id s = some d) :
    h.Rewrites c id d (p.apply d) s (h.perform c s (p.write id)).2 ∧
      h.written (h.writeEvent c s (p.write id)) = some (id, p.apply d) := by
  have hanswer := perform_patch_answer (c := c) hunique hp id s
  rw [findById?_eq_some_iff.mpr hfound] at hanswer
  cases p with
  | set fields =>
      rw [Patch.write, perform] at hanswer
      have hwritten : h.written (h.writeEvent c s (.update id fields)) =
          some (id, Document.update d fields) := by
        simp only [written, writeEvent, perform, hanswer, hfound]
        rfl
      rcases update_cases c hkeys hfound fields with ⟨f, s', hupdate, -⟩ | ⟨s', hupdate, -, hrewrites⟩
      · rw [hupdate] at hanswer
        cases hanswer
      · rw [Patch.write, perform, hupdate]
        exact ⟨hrewrites, hwritten⟩
  | add deltas =>
      rw [Patch.write, perform] at hanswer
      have hwritten : h.written (h.writeEvent c s (.increment id deltas)) =
          some (id, (Document.increment d deltas).2) := by
        simp only [written, writeEvent, perform, hanswer, hfound]
        rfl
      refine ⟨?_, hwritten⟩
      rw [Patch.write, perform]
      cases hb : h.backing with
      | memory =>
          obtain ⟨s', hincrement, hrewrites⟩ := increment_of_memory hb c hkeys hfound deltas
          rw [hincrement]
          exact hrewrites
      | table =>
          rcases increment_of_table hb c hkeys hfound deltas with
            ⟨f, s', hincrement, -⟩ | ⟨s', hincrement, -, hrewrites⟩
          · rw [hincrement] at hanswer
            cases hanswer
          · rw [hincrement]
            exact hrewrites

/-- A patch of a document that is not found changes nothing. -/
theorem slots_of_patch_missing {id : String} (hmissing : h.found? id s = none) :
    h.slots (h.perform c s (p.write id)).2 = h.slots s ∧
      h.written (h.writeEvent c s (p.write id)) = none := by
  cases p with
  | set fields =>
      refine ⟨(slots_of_missing c hmissing fields []).1, ?_⟩
      simp only [Patch.write, written, writeEvent, hmissing, Option.map_none, ite_self]
  | add deltas =>
      refine ⟨(slots_of_missing c hmissing [] deltas).2, ?_⟩
      simp only [Patch.write, written, writeEvent, hmissing, Option.map_none, ite_self]

/-- Among slots that take no id twice, a document that can be read is found under its id. -/
theorem found?_of_mem (hkeys : ((h.slots s).filterMap Slot.key).Nodup) {x : Slot}
    (hx : x ∈ h.slots s) {id : String} (hkey : x.key = some id) {d : Document} (hd : x.doc = .ok d) :
    h.found? id s = some d := by
  rw [found?, findById?_of_mem hkeys hx hkey, hd]
  rfl

/-- A patched document is kept under the id of the one before. -/
theorem slot_key_of_patch (hp : p.Sound) (c : Capabilities) {id : String} {d : Document}
    (hmem : (⟨some id, .ok d⟩ : Slot) ∈ h.slots s) : (h.slot c id (p.apply d)).key = some id := by
  refine slot_key_of_id?_eq c hmem ?_
  rw [Document.id?, Patch.get?_apply_of_not_mem hp d hp.spares]
  rfl

end Patch

/-! ### Patches in turn -/

section Runs

variable {c : Capabilities} {h : Handle} {past : List WriteEvent} {s s' : Stores}
  {w : String × Patch} {ws order : List (String × Patch)}

/-- A document that was patched is still found, and one that was missing is still missing. -/
theorem findById?_of_patched (hpatched : List.Forall₂ (Slot.Patched ws) (h.slots s) (h.slots s'))
    (id : String) :
    (h.findById? id s').map Option.isSome = (h.findById? id s).map Option.isSome := by
  rw [findById?_eq_slot, findById?_eq_slot]
  have hfound := Slot.find?_forall₂ (fun _ _ hx => Slot.Patched.key hx) hpatched id
  generalize (h.slots s).find? _ = found, (h.slots s').find? _ = found' at hfound ⊢
  cases hfound with
  | none => rfl
  | @some x x' hx =>
      dsimp only
      cases hdoc : x.doc with
      | error f => rw [hx.unread f hdoc]
      | ok d =>
          obtain ⟨d', hd', -⟩ := hx.read d hdoc
          rw [hd']
          rfl

/-- Where slots are alike, the documents that are found have the same fields. -/
theorem get?_of_alike (halike : List.Forall₂ Slot.Alike (h.slots s) (h.slots s')) (id name : String) :
    (h.found? id s').map (fun d => d.get? name) = (h.found? id s).map fun d => d.get? name := by
  rw [found?, found?, findById?_eq_slot, findById?_eq_slot]
  have hfound := Slot.find?_forall₂ (fun _ _ hx => Slot.Alike.key hx) halike id
  generalize (h.slots s).find? _ = found, (h.slots s').find? _ = found' at hfound ⊢
  cases hfound with
  | none => rfl
  | @some x x' hx =>
      dsimp only
      cases hdoc : x.doc with
      | error f => rw [hx.unread f hdoc]
      | ok d =>
          obtain ⟨d', hd', hsame⟩ := hx.read d hdoc
          rw [hd']
          exact congrArg some (hsame name)

/-- The slots gather one more patch exactly when what it left reads back with the same fields. -/
theorem patched_cons_iff (hunique : h.unique = []) (hkeys : ((h.slots s').filterMap Slot.key).Nodup)
    (hws : Independent (w :: ws)) (hrange : SumsInRange (h.slots s) (w :: ws))
    (hbefore : List.Forall₂ (Slot.Patched ws) (h.slots s) (h.slots s')) :
    List.Forall₂ (Slot.Patched (w :: ws)) (h.slots s)
        (h.slots (h.perform c s' (w.2.write w.1)).2) ↔
      h.ReadsAlike c (h.writeEvent c s' (w.2.write w.1)) := by
  have hp : w.2.Sound := hws.sound w List.mem_cons_self
  have hzip := List.forall₂_iff_zip.mp hbefore
  cases hfound : h.found? w.1 s' with
  | none =>
      obtain ⟨hsame, hnothing⟩ := slots_of_patch_missing (c := c) (p := w.2) hfound
      refine iff_of_true ?_ fun id d hwritten => ?_
      · rw [hsame, List.forall₂_iff_zip]
        refine ⟨hzip.1, fun {x x'} hpair => ?_⟩
        have hx := hzip.2 hpair
        by_cases hkey : x'.key = some w.1
        · refine hx.of_unread fun d hd => ?_
          rw [found?_of_mem hkeys (List.of_mem_zip hpair).2 hkey hd] at hfound
          cases hfound
        · exact hx.of_ne hkey
      · rw [hnothing] at hwritten
        cases hwritten
  | some d =>
      obtain ⟨hrewrites, hwritten⟩ := rewrites_of_patch (c := c) hunique hkeys hp hfound
      have hslot := slot_key_of_patch hp c hrewrites.mem_slots
      rw [hrewrites.slots_eq, Slot.forall₂_patched_rewrite_iff hws hrange hbefore hkeys
        hrewrites.mem_slots hslot, slot_doc]
      constructor
      · rintro hread id new hnew
        obtain ⟨rfl, rfl⟩ := Prod.mk.inj (Option.some.inj (hwritten.symm.trans hnew))
        exact hread
      · exact fun hread => hread _ _ hwritten

theorem Run.afterPatches (hr : Run c h past s) (ws : List (String × Patch)) :
    ∃ past', Run c h past' (h.afterPatches c s ws) := by
  induction ws with
  | nil => exact ⟨past, hr⟩
  | cons w ws ih =>
      obtain ⟨past', hrun⟩ := ih
      exact ⟨_, hrun.write (w.2.write w.1)⟩

/-- All along a run of patches the slots gather them exactly when what every one left reads back with
the same fields. -/
theorem Run.patched_iff (hr : Run c h past s) (hunique : h.unique = []) (hws : Independent ws)
    (hrange : SumsInRange (h.slots s) ws) :
    (∀ done, done <:+ ws →
        List.Forall₂ (Slot.Patched done) (h.slots s) (h.slots (h.afterPatches c s done))) ↔
      ∀ ev ∈ h.patched c s ws, h.ReadsAlike c ev := by
  induction ws with
  | nil =>
      refine iff_of_true ?_ nofun
      intro done hdone
      obtain rfl := List.suffix_nil.mp hdone
      exact List.forall₂_same.mpr fun x _ => Slot.patched_nil x
  | cons w ws ih =>
      have hearlier := ih hws.of_cons hrange.of_cons
      obtain ⟨past', hrun⟩ := hr.afterPatches ws
      have hlast := patched_cons_iff (c := c) hunique hrun.keys hws hrange
      constructor
      · intro hall
        have hbefore := fun done hdone => hall done (List.suffix_cons_iff.mpr (Or.inr hdone))
        exact List.forall_mem_cons.mpr ⟨(hlast (hbefore ws (List.suffix_refl ws))).mp
          (hall _ (List.suffix_refl _)), hearlier.mp hbefore⟩
      · intro hall done hdone
        obtain ⟨hnewest, hall⟩ := List.forall_mem_cons.mp hall
        have hbefore := hearlier.mpr hall
        rcases List.suffix_cons_iff.mp hdone with rfl | hdone
        · exact (hlast (hbefore ws (List.suffix_refl ws))).mpr hnewest
        · exact hbefore done hdone

theorem Run.patched_of_readsAlike (hr : Run c h past s) (hunique : h.unique = [])
    (hws : Independent ws) (hrange : SumsInRange (h.slots s) ws)
    (hread : h.backing = .table → ∀ ev ∈ h.patched c s ws, h.ReadsAlike c ev) :
    ∀ done, done <:+ ws →
      List.Forall₂ (Slot.Patched done) (h.slots s) (h.slots (h.afterPatches c s done)) := by
  refine (hr.patched_iff hunique hws hrange).mpr fun ev hev => ?_
  cases hb : h.backing with
  | memory => exact readsAlike_of_memory hb c ev
  | table => exact hread hb ev hev

/-- Every patch is answered with whether its document was there at the start. -/
theorem patched_answers (hunique : h.unique = []) (hws : Independent ws)
    (hall : ∀ done, done <:+ ws →
      List.Forall₂ (Slot.Patched done) (h.slots s) (h.slots (h.afterPatches c s done))) :
    (h.patched c s ws).map (·.answer) =
      ws.map fun w => ((h.findById? w.1 s).map Option.isSome).map .found := by
  induction ws with
  | nil => rfl
  | cons w ws ih =>
      have hearlier := fun done hdone => hall done (List.suffix_cons_iff.mpr (Or.inr hdone))
      have hbefore := hearlier ws (List.suffix_refl ws)
      have hanswer := perform_patch_answer (c := c) hunique (hws.sound w List.mem_cons_self) w.1
        (h.afterPatches c s ws)
      rw [findById?_of_patched hbefore] at hanswer
      rw [List.map_cons, ← ih hws.of_cons hearlier, ← hanswer]
      rfl

end Runs

/-- **Patches that are free of each other come to the same in any order.**  The slots gather them all
along exactly when what every patch leaves reads back with the same fields, as it always does in
memory.  Then each patch is answered with whether its document was there at the start, all patches are
gathered in the end, and any other such order comes to the same documents. -/
theorem patches_commute {c : Capabilities} {h : Handle} {past : List WriteEvent} {s : Stores}
    {ws order : List (String × Patch)} (hr : Run c h past s) (hunique : h.unique = [])
    (hws : Independent ws) (hrange : SumsInRange (h.slots s) ws) (horder : order.Perm ws) :
    ((∀ done, done <:+ order →
        List.Forall₂ (Slot.Patched done) (h.slots s) (h.slots (h.afterPatches c s done))) ↔
      ∀ ev ∈ h.patched c s order, h.ReadsAlike c ev) ∧
    ((h.backing = .table → ∀ ev ∈ h.patched c s order, h.ReadsAlike c ev) →
      (h.patched c s order).map (·.answer) =
        order.map (fun w => ((h.findById? w.1 s).map Option.isSome).map .found) ∧
      List.Forall₂ (Slot.Patched ws) (h.slots s) (h.slots (h.afterPatches c s order)) ∧
      ∀ order' : List (String × Patch), order'.Perm ws →
        (h.backing = .table → ∀ ev ∈ h.patched c s order', h.ReadsAlike c ev) →
        List.Forall₂ Slot.Alike (h.slots (h.afterPatches c s order))
          (h.slots (h.afterPatches c s order'))) := by
  refine ⟨hr.patched_iff hunique (hws.perm horder) (hrange.perm horder), fun hread => ?_⟩
  have hall := hr.patched_of_readsAlike hunique (hws.perm horder) (hrange.perm horder) hread
  have hgathered := hall order (List.suffix_refl order)
  refine ⟨patched_answers hunique (hws.perm horder) hall, ?_, ?_⟩
  · exact hgathered.imp fun _ _ hx => hx.perm horder
  · intro order' horder' hread'
    have hall' := hr.patched_of_readsAlike hunique (hws.perm horder') (hrange.perm horder') hread'
    have hgathered' := hall' order' (List.suffix_refl order')
    exact Slot.forall₂_alike hws (hgathered.imp fun _ _ hx => hx.perm horder)
      (hgathered'.imp fun _ _ hx => hx.perm horder')

/-! ### Two requests that patch one document -/

private def patchSupplies : Capabilities :=
  ⟨fun t _ => .ok t, fun n => String.ofList (List.replicate n 'x'), fun _ => "1001",
    Document.reread⟩

private def articles (backing : Backing) : Handle := ⟨backing, "articles", []⟩

/-- An article that was read once. -/
private def articleEvents (backing : Backing) : List WriteEvent :=
  (articles backing).events patchSupplies Stores.empty [.insert [("reads", .ofNat 1)]]

private def articleStores (backing : Backing) : Stores :=
  WriteEvent.latest Stores.empty (articleEvents backing)

private theorem run_articles (backing : Backing) :
    Run patchSupplies (articles backing) (articleEvents backing) (articleStores backing) :=
  run_events patchSupplies (by cases backing <;> rfl) _

/-- Two more readers, a title, and three more readers. -/
private def readersAndTitle : List (String × Patch) :=
  [("1001", .add [("reads", .ofNat 2)]), ("1001", .set [("title", .string "On order")]),
    ("1001", .add [("reads", .ofNat 3)])]

private theorem sound_set {name : String} (hname : name ≠ idField) (v : Json) :
    (Patch.set [(name, v)]).Sound where
  distinct := List.nodup_singleton name
  spares hmem := hname (List.mem_singleton.mp hmem).symm
  whole := nofun

private theorem sound_add {name : String} (hname : name ≠ idField) {v : Json}
    (hv : v.integer?.isSome) : (Patch.add [(name, v)]).Sound where
  distinct := List.nodup_singleton name
  spares hmem := hname (List.mem_singleton.mp hmem).symm
  whole := by
    rintro _ ⟨⟩
    exact List.forall_mem_singleton.mpr hv

private theorem independent_readersAndTitle : Independent readersAndTitle where
  sound := by
    refine List.forall_mem_cons.mpr ⟨sound_add (by decide) rfl, List.forall_mem_cons.mpr
      ⟨sound_set (by decide) _, List.forall_mem_singleton.mpr (sound_add (by decide) rfl)⟩⟩
  free := by
    simp [readersAndTitle, Patch.Free, Patch.names]

/-- All that can be added to the readers of the article stays in range. -/
private theorem sumsInRange_readersAndTitle :
    SumsInRange ((articles .memory).slots (articleStores .memory)) readersAndTitle := by
  intro x hx d hd p hp name n hn
  obtain rfl := List.mem_singleton.mp hx
  obtain rfl := Except.ok.inj hd
  have hname : name = "reads" := by
    have hp : p ∈ readersAndTitle.map (·.2) := (List.filter_sublist.map _).subset hp
    simp only [readersAndTitle, List.map_cons, List.map_nil, List.mem_cons, List.not_mem_nil,
      or_false] at hp
    rcases hp with rfl | rfl | rfl
    · exact List.mem_singleton.mp (Patch.mem_names_of_delta? hn)
    · cases hn
    · exact List.mem_singleton.mp (Patch.mem_names_of_delta? hn)
  subst hname
  refine ⟨fun v hv => ?_, fun part hpart => ?_⟩
  · obtain rfl := Option.some.inj hv
    rfl
  · have hall : ∀ part ∈ (patchesAt (some "1001") readersAndTitle).sublists,
        |Patch.total "reads" part| ≤ 2 ^ 53 ∧
          |(1 : Int) + Patch.total "reads" part| ≤ 2 ^ 53 := by decide +kernel
    exact hall part (List.mem_sublists.mpr hpart)

theorem patches_commute_articles :
    Run patchSupplies (articles .memory) (articleEvents .memory) (articleStores .memory) ∧
    (articles .memory).unique = [] ∧ Independent readersAndTitle ∧
    SumsInRange ((articles .memory).slots (articleStores .memory)) readersAndTitle ∧
    readersAndTitle.reverse.Perm readersAndTitle ∧
    List.Forall₂ Slot.Alike
      ((articles .memory).slots
        ((articles .memory).afterPatches patchSupplies (articleStores .memory)
          readersAndTitle.reverse))
      ((articles .memory).slots
        ((articles .memory).afterPatches patchSupplies (articleStores .memory) readersAndTitle)) := by
  have hperm : readersAndTitle.reverse.Perm readersAndTitle := List.reverse_perm _
  refine ⟨run_articles _, rfl, independent_readersAndTitle, sumsInRange_readersAndTitle, hperm, ?_⟩
  exact ((patches_commute (run_articles .memory) rfl independent_readersAndTitle
    sumsInRange_readersAndTitle hperm).2 nofun).2.2 readersAndTitle (.refl _) nofun

/-- The double nearest to 1.03 * 10 ^ 28.  Its text reads back as its neighbour, and the text of that
one as the number itself. -/
private def steepRate : Double := ⟨false, 4683897714130580, 41, by decide⟩

/-- A rate, and a year. -/
private def rateAndYear : List (String × Patch) :=
  [("1001", .set [("rate", .number (.real steepRate))]), ("1001", .set [("year", .ofNat 1)])]

private theorem independent_rateAndYear : Independent rateAndYear where
  sound := List.forall_mem_cons.mpr ⟨sound_set (by decide) _,
    List.forall_mem_singleton.mpr (sound_set (by decide) _)⟩
  free := by
    simp [rateAndYear, Patch.Free, Patch.names]

/-- In a table the order of two updates of different fields shows in the documents. -/
theorem not_patches_commute_of_reread :
    ¬ ∀ (c : Capabilities) (h : Handle) (past : List WriteEvent) (s : Stores)
        (ws order : List (String × Patch)),
        h.backing = .table → c.codec = Document.reread → h.unique = [] → Run c h past s →
        Independent ws → SumsInRange (h.slots s) ws → order.Perm ws →
        List.Forall₂ Slot.Alike (h.slots (h.afterPatches c s ws))
          (h.slots (h.afterPatches c s order)) := by
  intro hall
  have hrange : SumsInRange ((articles .table).slots (articleStores .table)) rateAndYear := by
    intro x _ d _ p hp name n hn
    have hp : p ∈ rateAndYear.map (·.2) := (List.filter_sublist.map _).subset hp
    simp only [rateAndYear, List.map_cons, List.map_nil, List.mem_cons, List.not_mem_nil,
      or_false] at hp
    rcases hp with rfl | rfl <;> cases hn
  have halike := hall _ _ _ _ rateAndYear rateAndYear.reverse rfl rfl rfl (run_articles .table)
    independent_rateAndYear hrange (List.reverse_perm _)
  have hsame := get?_of_alike halike "1001" "rate"
  have hshown : ((((articles .table).found? "1001" ((articles .table).afterPatches patchSupplies
        (articleStores .table) rateAndYear.reverse)).map
        fun d => d.get? "rate").join.bind Json.double?) ≠
      ((((articles .table).found? "1001" ((articles .table).afterPatches patchSupplies
        (articleStores .table) rateAndYear)).map fun d => d.get? "rate").join.bind
        Json.double?) := by
    decide +kernel
  exact hshown (congrArg (fun v => v.join.bind Json.double?) hsame)

end Handle

end Curator
