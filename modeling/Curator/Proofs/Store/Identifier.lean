/-
The ids that a node issues.

An id is the time and sequence number that were issued last, with the number of the node put between the
two.  So everything hangs on that one number, the stamp.  Whatever the clock reads, a stamp that is
issued is greater than the one before: a later reading starts a new millisecond, and any other only
counts on, which never carries into the time because a sequence that is used up waits instead.  Stamps
stay below 2 ^ 54 as long as readings stay below 2 ^ 42, and below that bound no part of an id spills
into another.
-/
import Curator.Proofs.Number.Text
import Curator.Store.Identifier
import Mathlib.Data.Nat.Digits.Defs

namespace Curator

namespace IdGenerator

/-! ### Stamps -/

/-- What one reading of the clock can do to a stamp. -/
theorem advance?_eq_some_iff {last stamp : Nat} {reading : Int} :
    advance? last reading = some stamp ↔
      (last / sequenceCount < reading.toNat ∧ stamp = reading.toNat * sequenceCount) ∨
      (reading.toNat ≤ last / sequenceCount ∧ last % sequenceCount < sequenceCount - 1 ∧
        stamp = last + 1) := by
  unfold advance?
  dsimp only
  split
  · rename_i hlater
    simp only [Option.some.injEq]
    omega
  · rename_i hnotLater
    split
    · simp only [Option.some.injEq]
      omega
    · simp only [reduceCtorEq, false_iff]
      omega

/-- A reading gives no stamp when it is not later and the sequence is used up. -/
theorem advance?_eq_none_iff {last : Nat} {reading : Int} :
    advance? last reading = none ↔
      reading.toNat ≤ last / sequenceCount ∧ last % sequenceCount = sequenceCount - 1 := by
  have hlt : last % sequenceCount < sequenceCount := Nat.mod_lt _ (by decide)
  unfold advance?
  dsimp only
  split
  · simp only [reduceCtorEq, false_iff]
    omega
  · split
    · simp only [reduceCtorEq, false_iff]
      omega
    · simp only [true_iff]
      omega

/-- A stamp is greater than the one before, whatever the clock reads. -/
theorem lt_of_advance? {last stamp : Nat} {reading : Int}
    (h : advance? last reading = some stamp) : last < stamp := by
  rcases advance?_eq_some_iff.mp h with ⟨hlater, rfl⟩ | ⟨-, -, rfl⟩
  · unfold sequenceCount at *
    omega
  · omega

/-- A stamp fits its fields when the last one did and the reading does. -/
theorem advance?_lt {last stamp : Nat} {reading : Int} (hlast : last < 2 ^ 54)
    (hreading : reading < 2 ^ 42) (h : advance? last reading = some stamp) : stamp < 2 ^ 54 := by
  rcases advance?_eq_some_iff.mp h with ⟨-, rfl⟩ | ⟨-, hfree, rfl⟩
  · unfold sequenceCount
    omega
  · unfold sequenceCount at hfree
    omega

/-- A call takes the first reading that gives a stamp and passes over those before it. -/
theorem next?_eq_some_iff {g g' : IdGenerator} {readings rest : List Int} {id : Nat} :
    g.next? readings = some (id, g', rest) ↔
      ∃ passed reading stamp, readings = passed ++ reading :: rest ∧
        (∀ r ∈ passed, advance? g.last r = none) ∧ advance? g.last reading = some stamp ∧
        id = compose g.node stamp ∧ g' = ⟨g.node, stamp⟩ := by
  induction readings with
  | nil => simp [next?]
  | cons r readings ih =>
      rw [next?]
      cases hr : advance? g.last r with
      | some stamp =>
          constructor
          · intro h
            cases h
            exact ⟨[], r, stamp, rfl, nofun, hr, rfl, rfl⟩
          · rintro ⟨passed, reading, stamp', hsplit, hpassed, hstamp, rfl, rfl⟩
            cases passed with
            | nil =>
                cases hsplit
                rw [hr] at hstamp
                cases hstamp
                rfl
            | cons first passed =>
                cases hsplit
                rw [hpassed _ List.mem_cons_self] at hr
                cases hr
      | none =>
          dsimp only
          rw [ih]
          constructor
          · rintro ⟨passed, reading, stamp, rfl, hpassed, hrest⟩
            exact ⟨r :: passed, reading, stamp, rfl, List.forall_mem_cons.mpr ⟨hr, hpassed⟩, hrest⟩
          · rintro ⟨passed, reading, stamp, hsplit, hpassed, hstamp, hrest⟩
            cases passed with
            | nil =>
                cases hsplit
                rw [hr] at hstamp
                cases hstamp
            | cons first passed =>
                cases hsplit
                exact ⟨passed, reading, stamp, rfl, (List.forall_mem_cons.mp hpassed).2, hstamp,
                  hrest⟩

/-- A call goes without an id only when the sequence is used up and no reading is later. -/
theorem next?_eq_none_iff {g : IdGenerator} {readings : List Int} :
    g.next? readings = none ↔ ∀ r ∈ readings,
      r.toNat ≤ g.last / sequenceCount ∧ g.last % sequenceCount = sequenceCount - 1 := by
  induction readings with
  | nil => simp [next?]
  | cons r readings ih =>
      rw [next?, List.forall_mem_cons, ← ih, ← advance?_eq_none_iff]
      cases advance? g.last r with
      | some stamp => simp
      | none => simp

/-- The ids of successive calls are those of stamps that grow and fit their fields. -/
theorem exists_stamps {g : IdGenerator} (hlast : g.last < 2 ^ 54) (count : Nat) {readings : List Int}
    (hreadings : ∀ r ∈ readings, r < 2 ^ 42) :
    ∃ stamps : List Nat, g.take readings count = stamps.map (compose g.node) ∧
      (g.last :: stamps).Pairwise (· < ·) ∧ ∀ stamp ∈ stamps, stamp < 2 ^ 54 := by
  induction count generalizing g readings with
  | zero => exact ⟨[], rfl, by simp, nofun⟩
  | succ count ih =>
      rw [take]
      cases hnext : g.next? readings with
      | none => exact ⟨[], rfl, by simp, nofun⟩
      | some found =>
          obtain ⟨id, g', rest⟩ := found
          obtain ⟨passed, reading, stamp, rfl, -, hstamp, rfl, rfl⟩ := next?_eq_some_iff.mp hnext
          have hreading : reading < 2 ^ 42 :=
            hreadings reading (List.mem_append_right _ List.mem_cons_self)
          have hfits : stamp < 2 ^ 54 := advance?_lt hlast hreading hstamp
          obtain ⟨stamps, htake, hgrow, hall⟩ := ih (g := ⟨g.node, stamp⟩) hfits fun r hr =>
            hreadings r (List.mem_append_right _ (List.mem_cons_of_mem _ hr))
          refine ⟨stamp :: stamps, ?_, ?_, List.forall_mem_cons.mpr ⟨hfits, hall⟩⟩
          · exact congrArg (compose g.node stamp :: ·) htake
          · have hlt := lt_of_advance? hstamp
            refine List.pairwise_cons.mpr ⟨?_, hgrow⟩
            intro later hlater
            rcases List.mem_cons.mp hlater with rfl | hlater
            · exact hlt
            · exact hlt.trans ((List.pairwise_cons.mp hgrow).1 later hlater)

/-! ### Ids of stamps -/

theorem start_node_lt (node : Nat) : (start node).node < nodeCount :=
  Nat.mod_lt _ (by decide)

/-- The node can be read off an id, since the sequence number does not reach into it. -/
theorem nodeOfId_compose {node : Nat} (hnode : node < nodeCount) (stamp : Nat) :
    nodeOfId (compose node stamp) = node := by
  unfold nodeCount at hnode
  unfold nodeOfId compose sequenceCount nodeCount
  omega

theorem compose_lt {node : Nat} (hnode : node < nodeCount) (stamp : Nat) :
    compose node stamp < 2 ^ 64 := by
  unfold nodeCount at hnode
  unfold compose sequenceCount
  omega

theorem compose_pos (node : Nat) {stamp : Nat} (hpos : 0 < stamp) (hstamp : stamp < 2 ^ 54) :
    0 < compose node stamp := by
  unfold compose sequenceCount
  omega

/-- Ids of one node are in the order of their stamps. -/
theorem compose_lt_compose (node : Nat) {stamp later : Nat} (hlt : stamp < later)
    (hlater : later < 2 ^ 54) : compose node stamp < compose node later := by
  unfold compose sequenceCount
  omega

end IdGenerator

/-- The decimal text of a number in range is an id. -/
theorem isValidId_toString {n : Nat} (hpos : 0 < n) (hlt : n < 2 ^ 64) :
    isValidId (toString n) = true ∧ Decimal.ofDigits (toString n).toList = n := by
  have htext : (toString n).toList = Nat.toDigits 10 n := by
    rw [Nat.toString_eq_repr, Nat.repr, String.toList_ofList]
  have hdigits : Decimal.ofDigits (Nat.toDigits 10 n) = n := Decimal.ofDigits_toDigits n
  refine ⟨?_, htext ▸ hdigits⟩
  have hlength : (Nat.toDigits 10 n).length ≤ 20 := by
    refine Nat.toDigits_length 10 n 20 (by decide) ?_
    omega
  have hne : Nat.toDigits 10 n ≠ [] := by
    intro hnil
    rw [hnil] at hdigits
    exact hpos.ne hdigits
  have hall : (Nat.toDigits 10 n).all Char.isDigit = true :=
    List.all_eq_true.mpr fun c hc => Decimal.isDigit_of_mem_toDigits hc
  have hbound : n < 18446744073709551616 := hlt
  simp [isValidId, hdigits, hlength, hne, hall, hpos, hbound]

namespace IdGenerator

/--
**A node issues each id once, whatever its clock reads.**  The ids of successive calls grow.  Each is a
positive number below 2 ^ 64 whose decimal text is an id and writes it, and names the node that issued
it; so nodes with different numbers have no id in common.
-/
theorem issued_ids_ascend (node : Nat) {readings : List Int} (hreadings : ∀ r ∈ readings, r < 2 ^ 42)
    (count : Nat) :
    ((start node).take readings count).Pairwise (· < ·) ∧
      (∀ id ∈ (start node).take readings count, 0 < id ∧ id < 2 ^ 64 ∧
        isValidId (toString id) = true ∧ Decimal.ofDigits (toString id).toList = id ∧
        nodeOfId id = node % 1024) ∧
      ∀ other, other % 1024 ≠ node % 1024 → ∀ readings' : List Int, (∀ r ∈ readings', r < 2 ^ 42) →
        ∀ count', ((start node).take readings count).Disjoint ((start other).take readings' count') := by
  obtain ⟨stamps, htake, hgrow, hfits⟩ :=
    exists_stamps (g := start node) (Nat.two_pow_pos 54) count hreadings
  obtain ⟨hpos, hgrow⟩ := List.pairwise_cons.mp hgrow
  rw [htake]
  refine ⟨?ascending, ?each, ?disjoint⟩
  case ascending =>
    refine List.pairwise_map.mpr (hgrow.imp_of_mem ?_)
    exact fun _ hlater hlt => compose_lt_compose _ hlt (hfits _ hlater)
  case each =>
    intro id hid
    obtain ⟨stamp, hstamp, rfl⟩ := List.mem_map.mp hid
    have hpos : 0 < compose (start node).node stamp := compose_pos _ (hpos _ hstamp) (hfits _ hstamp)
    have hlt : compose (start node).node stamp < 2 ^ 64 := compose_lt (start_node_lt node) stamp
    obtain ⟨hvalid, hwrites⟩ := isValidId_toString hpos hlt
    exact ⟨hpos, hlt, hvalid, hwrites, nodeOfId_compose (start_node_lt node) stamp⟩
  case disjoint =>
    intro other hother readings' hreadings' count' id hid hid'
    obtain ⟨stamps', htake', -, -⟩ :=
      exists_stamps (g := start other) (Nat.two_pow_pos 54) count' hreadings'
    rw [htake'] at hid'
    -- an id that both issued would name two nodes
    obtain ⟨stamp, -, rfl⟩ := List.mem_map.mp hid
    obtain ⟨stamp', -, hsame⟩ := List.mem_map.mp hid'
    have hnode := congrArg nodeOfId hsame
    rw [nodeOfId_compose (start_node_lt other), nodeOfId_compose (start_node_lt node)] at hnode
    exact hother hnode

/--
A clock that repeats itself, steps back before the epoch and jumps ahead, and two nodes that read it.
-/
theorem issued_ids_ascend_stepping_back :
    (start 1027).take [5, 5, 3, -1, 9] 5 = [20983808, 20983809, 20983810, 20983811, 37761024] ∧
      (∀ r ∈ [(5 : Int), 5, 3, -1, 9], r < 2 ^ 42) ∧
      ((start 1027).take [5, 5, 3, -1, 9] 5).Pairwise (· < ·) ∧
      ((start 1027).take [5, 5, 3, -1, 9] 5).Disjoint ((start 7).take [5, 5, 3, -1, 9] 5) := by
  have hreadings : ∀ r ∈ [(5 : Int), 5, 3, -1, 9], r < 2 ^ 42 := by decide
  obtain ⟨hgrow, -, hdisjoint⟩ := issued_ids_ascend 1027 hreadings 5
  exact ⟨by decide, hreadings, hgrow, hdisjoint 7 (by decide) _ hreadings 5⟩

end IdGenerator

end Curator
