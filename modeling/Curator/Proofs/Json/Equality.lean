/-
Equality of values does not depend on which of the two is looked at first.

Two objects are compared by going through the fields of the first and looking each up in the second,
and by counting.  That is symmetric only because no name repeats in an object: then every name of the
first is one of the second, there are as many, and so they are the same names.  `Json.Settled` says
that no name repeats at any depth.  Among settled values equality is an equivalence.  Values that were
read are settled, and writing settled fields over a settled document leaves it settled.
-/
import Curator.Capabilities
import Curator.Proofs.Dict
import Curator.Proofs.Serving
import Curator.Store.Document
import Mathlib.Data.List.Perm.Subperm

namespace Curator

/-! ### Lists with the same names -/

namespace Dict

variable {α β : Type}

/-- Where each entry of a list has its like under its name in another of the same length, each of the
other has its like in the first. -/
theorem exists_get?_of_forall {R : α → β → Prop} {d : Dict α} {other : Dict β}
    (hd : d.names.Nodup) (hlength : d.length = other.length)
    (hall : ∀ e ∈ d, ∃ b, other.get? e.1 = some b ∧ R e.2 b) :
    ∀ e ∈ other, ∃ a, d.get? e.1 = some a ∧ R a e.2 := by
  have hsubset : d.names ⊆ other.names := by
    intro name hname
    obtain ⟨e, he, rfl⟩ := List.mem_map.mp hname
    obtain ⟨b, hb, -⟩ := hall e he
    exact mem_names_of_mem (mem_of_get?_eq_some hb)
  have hnames : d.names.Perm other.names := by
    have hless : other.names.length ≤ d.names.length := by simp [names, hlength]
    exact (List.subperm_of_subset hd hsubset).perm_of_length_le hless
  intro e he
  obtain ⟨first, hfirst, hname⟩ := List.mem_map.mp (hnames.mem_iff.mpr (mem_names_of_mem he))
  obtain ⟨b, hb, hR⟩ := hall first hfirst
  rw [hname, get?_of_mem (hnames.nodup_iff.mp hd) he] at hb
  obtain rfl := Option.some.inj hb
  exact ⟨first.2, hname ▸ get?_of_mem hd hfirst, hR⟩

end Dict

namespace Json

/-- No object in a value repeats a name. -/
inductive Settled : Json → Prop where
  | null : Settled .null
  | bool (b : Bool) : Settled (.bool b)
  | number (n : Number) : Settled (.number n)
  | string (s : String) : Settled (.string s)
  | array {items : List Json} (settled : ∀ v ∈ items, Settled v) : Settled (.array items)
  | object {fields : Document} (distinct : fields.names.Nodup)
      (settled : ∀ e ∈ fields, Settled e.2) : Settled (.object fields)

/-! ### Symmetry -/

theorem same_number_comm (a b : Number) : a.same b = b.same a := by
  cases a with
  | whole m =>
      cases b with
      | whole n => exact BEq.comm
      | real y => rfl
  | real x =>
      cases b with
      | whole n => rfl
      | real y => exact BEq.comm

theorem sameFields_iff {fs gs : Document} :
    sameFields fs gs = true ↔ ∀ e ∈ fs, ∃ w, gs.get? e.1 = some w ∧ e.2.same w = true := by
  induction fs with
  | nil => simp [sameFields]
  | cons e fs ih =>
      rw [sameFields, Bool.and_eq_true, ih, List.forall_mem_cons]
      refine and_congr_left fun _ => ?_
      cases gs.get? e.1 with
      | none => simp
      | some w => simp

theorem sameItems_symm {xs ys : List Json}
    (hxs : ∀ x ∈ xs, ∀ w, x.same w = true → w.same x = true) (h : sameItems xs ys = true) :
    sameItems ys xs = true := by
  induction xs generalizing ys with
  | nil =>
      cases ys with
      | nil => rfl
      | cons y ys => simp [sameItems] at h
  | cons x xs ih =>
      cases ys with
      | nil => simp [sameItems] at h
      | cons y ys =>
          obtain ⟨hx, hxs⟩ := List.forall_mem_cons.mp hxs
          rw [sameItems, Bool.and_eq_true] at h ⊢
          exact ⟨hx y h.1, ih hxs h.2⟩

theorem Settled.same_symm {v : Json} (hv : v.Settled) :
    ∀ w, v.same w = true → w.same v = true := by
  induction hv with
  | null =>
      intro w h
      cases w <;> simp [same] at h ⊢
  | bool b =>
      intro w h
      cases w <;> simp [same] at h ⊢
      exact h.symm
  | number n =>
      intro w h
      cases w <;> simp [same] at h ⊢
      rwa [same_number_comm]
  | string s =>
      intro w h
      cases w <;> simp [same] at h ⊢
      exact h.symm
  | array settled ih =>
      intro w h
      cases w <;> simp [same] at h ⊢
      exact sameItems_symm ih h
  | object distinct settled ih =>
      intro w h
      cases w <;> simp [same] at h ⊢
      obtain ⟨hlength, hfields⟩ := h
      refine ⟨hlength.symm, sameFields_iff.mpr ?_⟩
      intro e he
      obtain ⟨v, hv, hsame⟩ := Dict.exists_get?_of_forall
        (R := fun v w => w.same v = true) distinct hlength
        (fun e he => by
          obtain ⟨w, hw, hsame⟩ := sameFields_iff.mp hfields e he
          exact ⟨w, hw, ih e he w hsame⟩) e he
      exact ⟨v, hv, hsame⟩

/-- Settled values agree both ways or neither. -/
theorem Settled.agrees_comm {v w : Json} (hv : v.Settled) (hw : w.Settled) :
    v.agrees w = w.agrees v := by
  have hsame : v.same w = w.same v :=
    Bool.eq_iff_iff.mpr ⟨hv.same_symm w, hw.same_symm v⟩
  cases v with
  | number a =>
      cases w with
      | number b => exact BEq.comm
      | _ => exact hsame
  | _ => cases w <;> exact hsame

theorem isNull_eq_of_agrees {v w : Json} (h : v.agrees w = true) : v.isNull = w.isNull := by
  cases v <;> cases w <;> first | rfl | simp [agrees, same] at h

/-! ### Reflexivity and transitivity -/

theorem same_number_self (n : Number) : n.same n = true := by
  cases n with
  | whole w => exact BEq.rfl
  | real x => exact (Double.same_iff x x).mpr rfl

theorem same_number_trans {a b c : Number} (hab : a.same b = true) (hbc : b.same c = true) :
    a.same c = true := by
  cases a with
  | whole m =>
      cases b with
      | whole n =>
          cases c with
          | whole k => exact BEq.trans hab hbc
          | real z => cases hbc
      | real y => cases hab
  | real x =>
      cases b with
      | whole n => cases hab
      | real y =>
          cases c with
          | whole k => cases hbc
          | real z => exact BEq.trans hab hbc

/-- A field finds itself under its name because no other field has the name. -/
theorem Settled.same_self {v : Json} (hv : v.Settled) : v.same v = true := by
  induction hv with
  | null => rfl
  | bool b => simp [same]
  | number n => exact same_number_self n
  | string s => simp [same]
  | @array items settled ih =>
      rw [same]
      clear settled
      induction items with
      | nil => rfl
      | cons x xs ihs =>
          obtain ⟨hx, hxs⟩ := List.forall_mem_cons.mp ih
          rw [sameItems, hx, ihs hxs, Bool.and_self]
  | object distinct settled ih =>
      rw [same, beq_self_eq_true, Bool.true_and, sameFields_iff]
      intro e he
      exact ⟨e.2, Dict.get?_of_mem distinct he, ih e he⟩

theorem Settled.agrees_self {v : Json} (hv : v.Settled) : v.agrees v = true := by
  cases v with
  | number n => exact (Double.same_iff _ _).mpr rfl
  | _ => exact hv.same_self

theorem sameItems_trans {xs ys zs : List Json}
    (hxs : ∀ x ∈ xs, ∀ y z, x.same y = true → y.same z = true → x.same z = true)
    (hxy : sameItems xs ys = true) (hyz : sameItems ys zs = true) : sameItems xs zs = true := by
  induction xs generalizing ys zs with
  | nil =>
      cases ys with
      | nil => exact hyz
      | cons y ys => cases hxy
  | cons x xs ih =>
      cases ys with
      | nil => cases hxy
      | cons y ys =>
          cases zs with
          | nil => cases hyz
          | cons z zs =>
              obtain ⟨hx, hxs⟩ := List.forall_mem_cons.mp hxs
              rw [sameItems, Bool.and_eq_true] at hxy hyz ⊢
              exact ⟨hx y z hxy.1 hyz.1, ih hxs hxy.2 hyz.2⟩

theorem Settled.same_trans {u : Json} (hu : u.Settled) :
    ∀ v w, u.same v = true → v.same w = true → u.same w = true := by
  induction hu with
  | null =>
      intro v w huv hvw
      cases v <;> simp [same] at huv
      exact hvw
  | bool b =>
      intro v w huv hvw
      cases v <;> simp [same] at huv
      exact huv ▸ hvw
  | number n =>
      intro v w huv hvw
      cases v <;> simp [same] at huv
      cases w <;> simp [same] at hvw ⊢
      exact same_number_trans huv hvw
  | string s =>
      intro v w huv hvw
      cases v <;> simp [same] at huv
      exact huv ▸ hvw
  | array settled ih =>
      intro v w huv hvw
      cases v <;> simp [same] at huv
      cases w <;> simp [same] at hvw ⊢
      exact sameItems_trans ih huv hvw
  | object distinct settled ih =>
      intro v w huv hvw
      cases v <;> simp [same] at huv
      cases w <;> simp [same] at hvw ⊢
      obtain ⟨hlength, hfields⟩ := huv
      obtain ⟨hlength', hfields'⟩ := hvw
      refine ⟨hlength.trans hlength', sameFields_iff.mpr fun e he => ?_⟩
      obtain ⟨v, hv, hsame⟩ := sameFields_iff.mp hfields e he
      obtain ⟨w, hw, hsame'⟩ := sameFields_iff.mp hfields' _ (Dict.mem_of_get?_eq_some hv)
      exact ⟨w, hw, ih e he v w hsame hsame'⟩

/-! ### Settled values -/

theorem Settled.ofDouble? (x : Option Double) : (Json.ofDouble? x).Settled := by
  cases x with
  | none => exact .null
  | some x => exact .number _

mutual

theorem settle_settled : ∀ v : Json, v.settle.Settled
  | .null => .null
  | .bool b => .bool b
  | .number n => .number n
  | .string s => .string s
  | .array xs => .array (settleItems_settled xs)
  | .object fs =>
      .object (Dict.nodup_names_merge .nil) (Dict.forall_mem_merge nofun (settleFields_settled fs))

theorem settleItems_settled : ∀ xs : List Json, ∀ v ∈ settleItems xs, v.Settled
  | [] => nofun
  | x :: xs => List.forall_mem_cons.mpr ⟨settle_settled x, settleItems_settled xs⟩

theorem settleFields_settled :
    ∀ fs : List (String × Json), ∀ e ∈ settleFields fs, e.2.Settled
  | [] => nofun
  | (_, v) :: fs => List.forall_mem_cons.mpr ⟨settle_settled v, settleFields_settled fs⟩

end

end Json

/-! ### Documents -/

namespace Document

/-- No name repeats in a document, at any depth. -/
def Settled (d : Document) : Prop := (Json.object d).Settled

namespace Settled

variable {d : Document}

theorem distinct (hd : Settled d) : d.names.Nodup := by
  cases hd with
  | object distinct _ => exact distinct

theorem values (hd : Settled d) : ∀ e ∈ d, e.2.Settled := by
  cases hd with
  | object _ settled => exact settled

theorem value (hd : Settled d) {name : String} {v : Json} (hv : d.get? name = some v) : v.Settled :=
  hd.values _ (Dict.mem_of_get?_eq_some hv)

theorem set (hd : Settled d) (name : String) {v : Json} (hv : v.Settled) :
    Settled (d.set name v) :=
  .object (Dict.nodup_names_set hd.distinct name v) (Dict.forall_mem_set hd.values hv)

theorem update (hd : Settled d) {fields : Document} (hfields : Settled fields) :
    Settled (Document.update d fields) :=
  .object (Dict.nodup_names_merge hd.distinct)
    (Dict.forall_mem_merge hd.values fun e he => hfields.values e (List.mem_filter.mp he).1)

theorem increment (hd : Settled d) (deltas : Document) :
    Settled (Document.increment d deltas).2 := by
  induction deltas generalizing d with
  | nil => exact hd
  | cons e deltas ih =>
      rw [Document.increment]
      split
      · exact hd
      · exact ih (hd.set e.1 (.ofDouble? _))

end Settled

/-- What is read back from text is settled. -/
theorem settled_of_reread {d k : Document} (hk : d.reread = .ok k) : Settled k := by
  unfold reread at hk
  split at hk
  · rename_i fields hfields
    cases hk
    rw [Json.read, Outcome.map_eq_ok_iff] at hfields
    obtain ⟨v, -, hv⟩ := hfields
    rw [Settled, ← hv]
    exact Json.settle_settled v
  · cases hk
  · cases hk

/-- Settled documents collide in a field both ways or neither. -/
theorem collides_comm {d other : Document} (hd : Settled d) (hother : Settled other)
    (field : String) : collides d other field = collides other d field := by
  unfold collides
  cases hv : d.get? field with
  | none => cases other.get? field <;> rfl
  | some v =>
      cases hw : other.get? field with
      | none => rfl
      | some w =>
          have hagrees : v.agrees w = w.agrees v := (hd.value hv).agrees_comm (hother.value hw)
          dsimp only
          rw [← hagrees]
          cases h : v.agrees w with
          | false => rw [Bool.and_false, Bool.and_false]
          | true => rw [Json.isNull_eq_of_agrees h]

end Document

end Curator
