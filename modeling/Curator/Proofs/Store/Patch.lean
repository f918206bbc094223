/-
Patches of one document come to the same in any order.

A patch sets fields or adds whole numbers to them, and does not look at the rest of the document.  Two
patches are free of each other when they have no field in common, or when both only add.  What patches
that are free of each other come to can then be said without an order, and `Patch.Gathers` says it:
fields that are set hold what they were set to, fields that are added to hold what they started with
and the sum of all that is added, and the others hold what they held.

The sums are exact because no part of them leaves the range in which doubles are whole numbers.
-/
import Mathlib.Algebra.BigOperators.Group.List.Basic
import Curator.Proofs.Number.Whole
import Curator.Proofs.Store.Document

namespace Curator

/-- A change of a document that does not depend on the fields that it does not name. -/
inductive Patch where
  | set (fields : Document)
  | add (deltas : Document)

namespace Patch

/-- The fields that a patch names. -/
def names : Patch → List String
  | set fields => fields.names
  | add deltas => deltas.names

/-- The document that a patch makes of another one. -/
def apply (d : Document) : Patch → Document
  | set fields => Document.update d fields
  | add deltas => (Document.increment d deltas).2

/-- What a patch sets a field to. -/
def value? (name : String) : Patch → Option Json
  | set fields => fields.get? name
  | add _ => none

/-- What a patch adds to a field. -/
def delta? (name : String) : Patch → Option Int
  | set _ => none
  | add deltas => (deltas.get? name).bind Json.integer?

/-- All that patches add to a field. -/
def total (name : String) (ps : List Patch) : Int := (ps.map fun p => (p.delta? name).getD 0).sum

/-- What a field starts with when it is added to; a missing one starts at zero. -/
def start (d : Document) (name : String) : Int := ((d.get? name).bind Json.integer?).getD 0

/-- A patch names every field once and never the id, and adds whole numbers only. -/
structure Sound (p : Patch) : Prop where
  distinct : p.names.Nodup
  spares : idField ∉ p.names
  whole : ∀ deltas, p = add deltas → ∀ e ∈ deltas, e.2.integer?.isSome

/-- Two patches name no field in common, unless both only add. -/
def Free : Patch → Patch → Prop
  | add _, add _ => True
  | p, q => p.names.Disjoint q.names

/-- The fields that are added to are missing or hold whole numbers, and all sums of any of the deltas
are at most 2 ^ 53 in size, with what the field holds and without. -/
def InRange (ps : List Patch) (d : Document) : Prop :=
  ∀ p ∈ ps, ∀ name n, p.delta? name = some n →
    (∀ v, d.get? name = some v → v.integer?.isSome) ∧
    ∀ part : List Patch, part.Sublist ps →
      |total name part| ≤ 2 ^ 53 ∧ |start d name + total name part| ≤ 2 ^ 53

/-- What patches make of a document, in whatever order they come. -/
structure Gathers (ps : List Patch) (d d' : Document) : Prop where
  values : ∀ p ∈ ps, ∀ name v, p.value? name = some v → d'.get? name = some v
  sums : ∀ p ∈ ps, ∀ name n, p.delta? name = some n →
    d'.get? name = some (Json.ofInt (start d name + total name ps))
  others : ∀ name, (∀ p ∈ ps, name ∉ p.names) → d'.get? name = d.get? name

/-! ### Fields that are named -/

theorem mem_names_of_value? {p : Patch} {name : String} {v : Json} (hv : p.value? name = some v) :
    name ∈ p.names := by
  cases p with
  | set fields => exact Dict.mem_names_of_mem (Dict.mem_of_get?_eq_some hv)
  | add deltas => cases hv

theorem mem_names_of_delta? {p : Patch} {name : String} {n : Int} (hn : p.delta? name = some n) :
    name ∈ p.names := by
  cases p with
  | set fields => cases hn
  | add deltas =>
      obtain ⟨v, hv, -⟩ := Option.bind_eq_some_iff.mp hn
      exact Dict.mem_names_of_mem (Dict.mem_of_get?_eq_some hv)

theorem Sound.exists_of_mem_names {p : Patch} (hp : p.Sound) {name : String}
    (hname : name ∈ p.names) : (∃ v, p.value? name = some v) ∨ ∃ n, p.delta? name = some n := by
  cases p with
  | set fields =>
      refine Or.inl (Option.ne_none_iff_exists'.mp fun hnone => ?_)
      exact (Dict.get?_eq_none_iff fields name).mp hnone hname
  | add deltas =>
      refine Or.inr ?_
      obtain ⟨v, hv⟩ := Option.ne_none_iff_exists'.mp fun hnone =>
        (Dict.get?_eq_none_iff deltas name).mp hnone hname
      obtain ⟨n, hn⟩ := Option.isSome_iff_exists.mp
        (hp.whole deltas rfl _ (Dict.mem_of_get?_eq_some hv))
      exact ⟨n, by rw [delta?, hv, Option.bind_some, hn]⟩

theorem Free.symm {p q : Patch} (h : p.Free q) : q.Free p := by
  cases p with
  | set fields => cases q <;> exact List.Disjoint.symm h
  | add deltas =>
      cases q with
      | set fields => exact List.Disjoint.symm h
      | add deltas => trivial

/-- A field that one of two free patches sets is not named by the other. -/
theorem Free.not_mem_of_value? {p q : Patch} (h : p.Free q) {name : String} {v : Json}
    (hv : p.value? name = some v) : name ∉ q.names := by
  cases p with
  | set fields => cases q <;> exact h (mem_names_of_value? hv)
  | add deltas => cases hv

/-! ### Sums -/

@[simp] theorem total_nil (name : String) : total name [] = 0 := rfl

@[simp] theorem total_cons (name : String) (p : Patch) (ps : List Patch) :
    total name (p :: ps) = (p.delta? name).getD 0 + total name ps := by
  simp [total]

theorem total_perm {ps qs : List Patch} (hperm : ps.Perm qs) (name : String) :
    total name ps = total name qs :=
  (hperm.map _).sum_eq

theorem total_of_not_named {ps : List Patch} {name : String} (h : ∀ p ∈ ps, name ∉ p.names) :
    total name ps = 0 := by
  refine List.sum_eq_zero fun n hn => ?_
  obtain ⟨p, hp, rfl⟩ := List.mem_map.mp hn
  have hnone : p.delta? name = none :=
    Option.eq_none_iff_forall_ne_some.mpr fun n hn => h p hp (mem_names_of_delta? hn)
  rw [hnone, Option.getD_none]

theorem InRange.sublist {ps qs : List Patch} {d : Document} (h : InRange qs d)
    (hsub : ps.Sublist qs) : InRange ps d := by
  intro p hp name n hn
  obtain ⟨hwhole, hsums⟩ := h p (hsub.subset hp) name n hn
  exact ⟨hwhole, fun part hpart => hsums part (hpart.trans hsub)⟩

theorem InRange.perm {ps qs : List Patch} {d : Document} (hperm : ps.Perm qs) (h : InRange ps d) :
    InRange qs d := by
  intro p hp name n hn
  obtain ⟨hwhole, hsums⟩ := h p (hperm.mem_iff.mpr hp) name n hn
  refine ⟨hwhole, fun part hpart => ?_⟩
  obtain ⟨part', hsame, hpart'⟩ := hpart.subperm.trans hperm.symm.subperm
  rw [← total_perm hsame]
  exact hsums part' hpart'

/-! ### What is gathered -/

variable {ps : List Patch} {d d' : Document}

theorem gathers_nil (d : Document) : Gathers [] d d where
  values := nofun
  sums := nofun
  others _ _ := rfl

theorem Gathers.perm {qs : List Patch} (hperm : ps.Perm qs) (hg : Gathers ps d d') :
    Gathers qs d d' where
  values p hp := hg.values p (hperm.mem_iff.mpr hp)
  sums p hp name n hn := by
    rw [← total_perm hperm]
    exact hg.sums p (hperm.mem_iff.mpr hp) name n hn
  others name hnone := hg.others name fun p hp => hnone p (hperm.mem_iff.mp hp)

theorem Gathers.of_get? {k : Document} (hg : Gathers ps d d')
    (hsame : ∀ name, k.get? name = d'.get? name) : Gathers ps d k where
  values p hp name v hv := (hsame name).trans (hg.values p hp name v hv)
  sums p hp name n hn := (hsame name).trans (hg.sums p hp name n hn)
  others name hnone := (hsame name).trans (hg.others name hnone)

/-- There is only one document, up to the order of its fields, that gathers given patches. -/
theorem Gathers.get?_eq {d'' : Document} (hsound : ∀ p ∈ ps, p.Sound) (hg : Gathers ps d d')
    (hg' : Gathers ps d d'') (name : String) : d'.get? name = d''.get? name := by
  by_cases hnamed : ∃ p ∈ ps, name ∈ p.names
  · obtain ⟨p, hp, hname⟩ := hnamed
    rcases (hsound p hp).exists_of_mem_names hname with ⟨v, hv⟩ | ⟨n, hn⟩
    · rw [hg.values p hp name v hv, hg'.values p hp name v hv]
    · rw [hg.sums p hp name n hn, hg'.sums p hp name n hn]
  · have hnone : ∀ p ∈ ps, name ∉ p.names := fun p hp hname => hnamed ⟨p, hp, hname⟩
    rw [hg.others name hnone, hg'.others name hnone]

/-- A field that only additions name holds what it started with and all that was added so far. -/
theorem Gathers.exists_double (hg : Gathers ps d d') (hsound : ∀ p ∈ ps, p.Sound) {name : String}
    (hvalues : ∀ p ∈ ps, ∀ v, p.value? name ≠ some v)
    (hwhole : ∀ v, d.get? name = some v → v.integer?.isSome)
    (hstart : |start d name| ≤ 2 ^ 53) (hsum : |start d name + total name ps| ≤ 2 ^ 53) :
    (((d'.get? name).bind Json.double?).getD (Double.zero false)).value =
      ((start d name + total name ps : Int) : ℚ) := by
  by_cases hnamed : ∃ p ∈ ps, name ∈ p.names
  · obtain ⟨p, hp, hname⟩ := hnamed
    rcases (hsound p hp).exists_of_mem_names hname with ⟨v, hv⟩ | ⟨n, hn⟩
    · exact absurd hv (hvalues p hp v)
    · obtain ⟨x, hx, hvalue⟩ := Json.exists_double (Json.integer?_ofInt hsum) hsum
      rw [hg.sums p hp name n hn, Option.bind_some, hx, Option.getD_some, hvalue]
  · have hnone : ∀ p ∈ ps, name ∉ p.names := fun p hp hname => hnamed ⟨p, hp, hname⟩
    rw [hg.others name hnone, total_of_not_named hnone, add_zero]
    cases hv : d.get? name with
    | none =>
        have hzero : start d name = 0 := by rw [start, hv]; rfl
        rw [hzero]
        exact Double.value_zero false
    | some v =>
        obtain ⟨n, hn⟩ := Option.isSome_iff_exists.mp (hwhole v hv)
        have hheld : start d name = n := by rw [start, hv, Option.bind_some, hn, Option.getD_some]
        rw [hheld] at hstart ⊢
        obtain ⟨x, hx, hvalue⟩ := Json.exists_double hn hstart
        rw [Option.bind_some, hx, Option.getD_some, hvalue]

/-! ### One more patch -/

theorem get?_apply_of_not_mem {p : Patch} (hp : p.Sound) (d : Document) {name : String}
    (hname : name ∉ p.names) : (p.apply d).get? name = d.get? name := by
  cases p with
  | set fields =>
      rw [apply, Document.get?_update d hp.distinct, (Dict.get?_eq_none_iff fields name).mpr hname,
        Option.none_or, ite_self]
  | add deltas => exact Document.get?_increment_of_not_mem_names d hname

theorem get?_apply_of_value? {p : Patch} (hp : p.Sound) (d : Document) {name : String} {v : Json}
    (hv : p.value? name = some v) : (p.apply d).get? name = some v := by
  have hname : name ≠ idField := by
    rintro rfl
    exact hp.spares (mem_names_of_value? hv)
  cases p with
  | set fields =>
      rw [value?] at hv
      rw [apply, Document.get?_update d hp.distinct, if_neg hname, hv, Option.some_or]
  | add deltas => cases hv

/-- Adding a whole number to a field that holds one yields their sum. -/
theorem get?_apply_of_delta? {p : Patch} (hp : p.Sound) {name : String} {n a : Int}
    (hn : p.delta? name = some n)
    (hcurrent : (((d.get? name).bind Json.double?).getD (Double.zero false)).value = a)
    (hdelta : |n| ≤ 2 ^ 53) (hsum : |a + n| ≤ 2 ^ 53) :
    (p.apply d).get? name = some (Json.ofInt (a + n)) := by
  cases p with
  | set fields => cases hn
  | add deltas =>
      obtain ⟨v, hv, hinteger⟩ := Option.bind_eq_some_iff.mp hn
      obtain ⟨x, hx, hvalue⟩ := Json.exists_double hinteger hdelta
      have hnumbers : ∀ e ∈ deltas, e.2.double?.isSome := fun e he =>
        Json.double?_isSome (hp.whole deltas rfl e he)
      rw [apply, Document.get?_increment d hp.distinct hnumbers hv hx,
        Json.ofDouble?_add hcurrent hvalue hsum]

/-- A patch that does not add to a field, and is free of one that does, does not name it. -/
theorem Free.not_mem_of_delta? {p q : Patch} (hfree : p.Free q) (hp : p.Sound) {name : String}
    {n : Int} (hn : q.delta? name = some n) (hnone : p.delta? name = none) : name ∉ p.names := by
  intro hname
  rcases hp.exists_of_mem_names hname with ⟨v, hv⟩ | ⟨m, hm⟩
  · exact hfree.not_mem_of_value? hv (mem_names_of_delta? hn)
  · rw [hnone] at hm
    cases hm

/-- A field that a patch adds to holds the sum that has come together so far. -/
theorem Gathers.get?_apply_sum {p : Patch} (hg : Gathers ps d d') (hp : p.Sound)
    (hps : ∀ q ∈ ps, q.Sound) (hfree : ∀ q ∈ ps, p.Free q) {name : String} {m : Int}
    (hdelta : p.delta? name = some m) (hwhole : ∀ v, d.get? name = some v → v.integer?.isSome)
    (hsums : ∀ part : List Patch, part.Sublist (p :: ps) →
      |total name part| ≤ 2 ^ 53 ∧ |start d name + total name part| ≤ 2 ^ 53) :
    (p.apply d').get? name = some (Json.ofInt (start d name + total name ps + m)) := by
  have hvalues : ∀ r ∈ ps, ∀ v, r.value? name ≠ some v := fun r hr v hv =>
    (hfree r hr).symm.not_mem_of_value? hv (mem_names_of_delta? hdelta)
  have hstart : |start d name| ≤ 2 ^ 53 := by
    simpa using (hsums [] (List.nil_sublist _)).2
  have hm : |m| ≤ 2 ^ 53 := by
    simpa [hdelta] using (hsums [p] (List.singleton_sublist.mpr List.mem_cons_self)).1
  have hbefore : |start d name + total name ps| ≤ 2 ^ 53 :=
    (hsums ps (List.sublist_cons_self _ _)).2
  have hafter : |start d name + total name ps + m| ≤ 2 ^ 53 := by
    have hall := (hsums (p :: ps) (List.Sublist.refl _)).2
    rw [total_cons, hdelta, Option.getD_some] at hall
    rwa [add_assoc, add_comm (total name ps)]
  exact get?_apply_of_delta? hp hdelta (hg.exists_double hps hvalues hwhole hstart hbefore) hm hafter

/-- A patch that is free of those before is gathered with them. -/
theorem Gathers.apply {p : Patch} (hg : Gathers ps d d') (hsound : ∀ q ∈ p :: ps, q.Sound)
    (hfree : ∀ q ∈ ps, p.Free q) (hrange : InRange (p :: ps) d) :
    Gathers (p :: ps) d (p.apply d') := by
  obtain ⟨hp, hps⟩ := List.forall_mem_cons.mp hsound
  refine ⟨?_, ?_, ?_⟩
  · intro q hq name v hv
    rcases List.mem_cons.mp hq with rfl | hq
    · exact get?_apply_of_value? hp d' hv
    · rw [get?_apply_of_not_mem hp d' ((hfree q hq).symm.not_mem_of_value? hv)]
      exact hg.values q hq name v hv
  · intro q hq name n hn
    obtain ⟨hwhole, hsums⟩ := hrange q hq name n hn
    rw [total_cons]
    cases hdelta : p.delta? name with
    | none =>
        have hq : q ∈ ps := by
          rcases List.mem_cons.mp hq with rfl | hq
          · rw [hdelta] at hn
            cases hn
          · exact hq
        have hname : name ∉ p.names := (hfree q hq).not_mem_of_delta? hp hn hdelta
        rw [get?_apply_of_not_mem hp d' hname, hg.sums q hq name n hn, Option.getD_none, zero_add]
    | some m =>
        rw [hg.get?_apply_sum hp hps hfree hdelta hwhole hsums, Option.getD_some, add_assoc,
          add_comm (total name ps)]
  · intro name hnone
    obtain ⟨hname, hnone⟩ := List.forall_mem_cons.mp hnone
    rw [get?_apply_of_not_mem hp d' hname]
    exact hg.others name hnone

end Patch

end Curator
