/-
Conditions tell ids apart as far as doubles do.

An id is opaque to the stores, which match it as a text.  A condition reads it as the number that it
writes, rounded to a double.  Numbers up to 2 ^ 53 are not rounded and numbers more than 2 ^ 12 apart
stay apart, so what conditions confuse are ids that differ only in zeros in front, and large ids close
to each other, such as a node issues within a millisecond.
-/
import Curator.HookWrite
import Curator.Proofs.Comparison.Laws
import Curator.Proofs.Number.Text
import Curator.Proofs.Number.Whole
import Curator.Proofs.Store.Identifier

namespace Curator

/-- The number that an id writes. -/
def idNumber (id : String) : Nat := Decimal.ofDigits id.toList

/-- The value that a condition reads an id as. -/
def idValue (id : String) : Rat := (Double.ofInt (idNumber id)).value

variable {a b : String}

/-! ### Reading an id -/

/-- An id is a text of digits, and its number is positive and below 2 ^ 64. -/
structure WritesId (id : String) : Prop where
  nonempty : id.toList ≠ []
  digits : ∀ c ∈ id.toList, c.isDigit = true
  pos : 0 < idNumber id
  lt : idNumber id < 2 ^ 64

theorem writesId_of_isValidId (h : isValidId a = true) : WritesId a := by
  simp only [isValidId, Bool.and_eq_true, Bool.not_eq_true', List.isEmpty_eq_false_iff, ne_eq,
    decide_eq_true_eq, List.all_eq_true] at h
  obtain ⟨⟨⟨⟨hne, -⟩, hdigits⟩, hpos⟩, hlt⟩ := h
  exact ⟨hne, hdigits, hpos, hlt⟩

/-- An id stands for the double nearest to its number. -/
theorem WritesId.comparable?_eq (h : WritesId a) :
    comparable? (.string a) = some (Double.ofInt (idNumber a)) := by
  obtain ⟨hsign, hcell⟩ := Double.inCell_ofInt h.pos h.lt
  have hone : (1 : ℚ) ≤ idNumber a := by exact_mod_cast h.pos
  have hwrites := Decimal.writes_digits h.nonempty h.digits
  obtain ⟨digits, exponent, hvalue, hread⟩ := Decimal.numberOfText_eq hwrites false
  have hdouble := Double.ofDecimal?_eq (hcell.mantissa_ne_zero hone) (hvalue ▸ hcell)
  rw [hsign] at hdouble
  have hnumber : toNumber (.string a) = .number (Double.ofInt (idNumber a)) :=
    (toNumber_of_writes rfl hwrites).trans (hread _ hdouble)
  rw [comparable?, hnumber]

theorem WritesId.order?_eq (ha : WritesId a) (hb : WritesId b) :
    order? (.string a) (.string b) =
      some ((Double.ofInt (idNumber a)).order (Double.ofInt (idNumber b))) := by
  rw [order?, ha.comparable?_eq, hb.comparable?_eq]

theorem WritesId.equal_holds_iff (ha : WritesId a) (hb : WritesId b) :
    Comparator.equal.holds (.string a) (.string b) = true ↔ idValue a = idValue b := by
  rw [Comparator.equal_holds_iff, ha.order?_eq hb, Option.some.injEq, Double.order_eq_eq_iff]
  rfl

theorem WritesId.less_holds_iff (ha : WritesId a) (hb : WritesId b) :
    Comparator.less.holds (.string a) (.string b) = true ↔ idValue a < idValue b := by
  rw [Comparator.less_holds_iff, ha.order?_eq hb, Option.some.injEq, Double.order_eq_lt_iff]
  rfl

/-! ### Rounding ids -/

/-- Numbers up to 2 ^ 53 are read as they are. -/
theorem idValue_of_le (h : idNumber a ≤ 2 ^ 53) : idValue a = idNumber a := by
  have habs : |((idNumber a : Nat) : Int)| ≤ 2 ^ 53 := by
    rw [Nat.abs_cast]
    exact_mod_cast h
  rw [idValue, Double.value_ofInt habs, Int.cast_natCast]

/-- Numbers far from each other stay in their order. -/
theorem WritesId.idValue_lt (ha : WritesId a) (hb : WritesId b)
    (hfar : idNumber a + 2 ^ 12 < idNumber b) : idValue a < idValue b := by
  have hfar' : (idNumber a : ℚ) + 2 ^ 12 < idNumber b := by exact_mod_cast hfar
  have hleft := (abs_le.mp (Double.abs_value_ofInt_sub_le ha.pos ha.lt)).2
  have hright := (abs_le.mp (Double.abs_value_ofInt_sub_le hb.pos hb.lt)).1
  show (Double.ofInt (idNumber a)).value < (Double.ofInt (idNumber b)).value
  norm_num at hfar' hleft hright
  linarith

namespace IdGenerator

/-- Ids that a node issues in different milliseconds are ordered by conditions as they were issued. -/
theorem less_holds_of_issued {node : Nat} (hnode : node < nodeCount) {stamp later : Nat}
    (hpos : 0 < stamp) (hlater : later < 2 ^ 54)
    (htime : stamp / sequenceCount < later / sequenceCount) :
    Comparator.less.holds (.string (toString (compose node stamp)))
      (.string (toString (compose node later))) = true := by
  have hlt : stamp < later := Nat.lt_of_div_lt_div htime
  have hvalid (n : Nat) (hn : 0 < n) (hn' : n < 2 ^ 54) := isValidId_toString
    (compose_pos node hn hn') (compose_lt hnode n)
  obtain ⟨hleft, hnumber⟩ := hvalid stamp hpos (hlt.trans hlater)
  obtain ⟨hright, hnumber'⟩ := hvalid later (hpos.trans hlt) hlater
  have hleft := writesId_of_isValidId hleft
  have hright := writesId_of_isValidId hright
  refine (hleft.less_holds_iff hright).mpr (hleft.idValue_lt hright ?_)
  rw [idNumber, idNumber, hnumber, hnumber']
  unfold compose sequenceCount at *
  omega

end IdGenerator

/-! ### Telling ids apart -/

/--
**Conditions tell ids apart as far as doubles do.**  Two ids are equal in a condition if their numbers
round to doubles of one value; so a condition agrees with the stores on two ids unless different ids
round to one value.  Up to 2 ^ 53 only ids of one number are equal, and ids more than 2 ^ 12 apart are
ordered by their numbers.
-/
theorem ids_told_apart_iff (ha : isValidId a = true) (hb : isValidId b = true) :
    (Comparator.equal.holds (.string a) (.string b) = true ↔ idValue a = idValue b) ∧
    (Comparator.equal.holds (.string a) (.string b) = (Json.string a).agrees (.string b) ↔
      (idValue a = idValue b → a = b)) ∧
    (∀ (s : Scope) (c : Condition), c.comparator = .equal → s.resolve c.left = .ok (.string a) →
      s.resolve c.right = .ok (.string b) → c.check s = .ok (decide (idValue a = idValue b))) ∧
    (idNumber a ≤ 2 ^ 53 → idNumber b ≤ 2 ^ 53 →
      (Comparator.equal.holds (.string a) (.string b) = true ↔ idNumber a = idNumber b)) ∧
    (idNumber a + 2 ^ 12 < idNumber b →
      Comparator.less.holds (.string a) (.string b) = true) := by
  have ha := writesId_of_isValidId ha
  have hb := writesId_of_isValidId hb
  have hequal := ha.equal_holds_iff hb
  refine ⟨hequal, ?stores, ?conditions, ?small, ?far⟩
  case stores =>
    have hsame : (Json.string a).agrees (.string b) = true ↔ a = b := by
      show (a == b) = true ↔ a = b
      exact beq_iff_eq
    rw [Bool.eq_iff_iff, hequal, hsame]
    constructor
    · exact Iff.mp
    · intro h
      exact ⟨h, fun heq => congrArg idValue heq⟩
  case conditions =>
    intro s c hcomparator hleft hright
    rw [Condition.check, hleft, hright, hcomparator]
    exact congrArg Except.ok (Bool.eq_iff_iff.mpr (hequal.trans (decide_eq_true_iff).symm))
  case small =>
    intro hsmall hsmall'
    rw [hequal, idValue_of_le hsmall, idValue_of_le hsmall', Nat.cast_inj]
  case far =>
    intro hfar
    exact (ha.less_holds_iff hb).mpr (ha.idValue_lt hb hfar)

/-- The caller with the id 1001, whatever there is. -/
private def reader : Scope := ⟨.empty, .empty, "posts", [], some "1001"⟩

/-- Whether the caller is the one with the id 1002. -/
private def ofSecond : Condition := ⟨.string "\x7buser.id\x7d", .string "1002", .equal⟩

private theorem reader_resolves : reader.resolve ofSecond.left = .ok (.string "1001") := by
  have htext : (reader.resolve ofSecond.left).toOption.bind Json.string? = some "1001" := by
    decide +kernel
  cases h : reader.resolve ofSecond.left with
  | error f =>
      rw [h] at htext
      cases htext
  | ok v =>
      rw [h] at htext
      cases v <;> cases htext
      rfl

theorem ids_told_apart_iff_reader :
    isValidId "1001" = true ∧ isValidId "1002" = true ∧
      Comparator.equal.holds (.string "1001") (.string "1002") ≠ true ∧
      idValue "1001" ≠ idValue "1002" ∧ ofSecond.check reader = .ok false := by
  have hfirst : isValidId "1001" = true := by decide
  have hsecond : isValidId "1002" = true := by decide
  obtain ⟨hequal, -, hcheck, hsmall, -⟩ := ids_told_apart_iff hfirst hsecond
  have hother : Comparator.equal.holds (.string "1001") (.string "1002") ≠ true := by
    rw [Ne, hsmall (by decide) (by decide)]
    decide
  have hvalues : idValue "1001" ≠ idValue "1002" := fun h => hother (hequal.mpr h)
  have hholds := hcheck reader ofSecond rfl reader_resolves rfl
  rw [decide_eq_false hvalues] at hholds
  exact ⟨hfirst, hsecond, hother, hvalues, hholds⟩

/-- Two ids that one node issues after another are one id to a condition. -/
theorem not_told_apart_of_issued :
    (IdGenerator.start 0).take [1700000000000, 1700000000000] 2 =
        [7130316800000000000, 7130316800000000001] ∧
      ¬ ∀ a b : String, isValidId a = true → isValidId b = true →
        (Comparator.equal.holds (.string a) (.string b) = true ↔ a = b) := by
  refine ⟨by decide +kernel, fun hall => ?_⟩
  have hequal : Comparator.equal.holds (.string "7130316800000000000")
      (.string "7130316800000000001") = true := by decide +kernel
  have hsame := (hall _ _ (by decide +kernel) (by decide +kernel)).mp hequal
  exact absurd hsame (by decide)

end Curator
