/-
Literals in base 16, 8 and 2 are read as long as they are below 2 ^ 64.

A zero and the letter of a base are no start of a decimal number, so a text that starts with them has one
reading or none.  It is read if digits of the base follow, at least one, and their value is below 2 ^ 64;
how many digits there are, and how many of them are zeros in front, makes no difference.  What is read is
the double closest to the value.  Values from 2 ^ 64 on are no numbers, although all of them below 2 ^ 1023
round to a double.
-/
import Curator.Proofs.Coercion.Projection
import Curator.Proofs.Number.Closest
import Mathlib.Data.Nat.Digits.Defs

namespace Curator

namespace Radix

/-! ### Digits and their value -/

/-- The letters that stand for a base. -/
def letters : List (Char × Nat) :=
  [('x', 16), ('X', 16), ('o', 8), ('O', 8), ('b', 2), ('B', 2)]

/-- A text consists of digits of a base with these values. -/
def Spells (base : Nat) : List Char → List Nat → Prop :=
  List.Forall₂ fun c d => digit? c = some d ∧ d < base

/-- The number that digits write in a base, the last one with the lowest place. -/
def value (base : Nat) (digits : List Nat) : Nat := Nat.ofDigits base digits.reverse

variable {base : Nat} {letter : Char} {cs rest : List Char} {ds : List Nat}

theorem base?_of_mem_letters (h : (letter, base) ∈ letters) : base? letter = some base := by
  simp only [letters, List.mem_cons, Prod.mk.injEq, List.not_mem_nil, or_false] at h
  rcases h with ⟨rfl, rfl⟩ | ⟨rfl, rfl⟩ | ⟨rfl, rfl⟩ | ⟨rfl, rfl⟩ | ⟨rfl, rfl⟩ | ⟨rfl, rfl⟩ <;> rfl

theorem ofDigits_eq_value (base : Nat) (ds : List Nat) : ofDigits base ds = value base ds := by
  have hstep : (fun n d : Nat => base * n + d) = fun n d => d + base * n := by
    funext n d
    exact Nat.add_comm _ _
  rw [value, Nat.ofDigits_eq_foldr, List.foldr_reverse, ofDigits, hstep]
  rfl

theorem digits?_eq_some_iff : digits? base cs = some ds ↔ Spells base cs ds := by
  induction cs generalizing ds with
  | nil => simp [digits?, Spells, eq_comm]
  | cons c cs ih =>
      rw [Spells, List.forall₂_cons_left_iff]
      constructor
      · intro h
        rw [digits?] at h
        split at h
        · rename_i d es hd hes
          split at h
          · rename_i hsmall
            cases h
            exact ⟨d, es, ⟨hd, hsmall⟩, ih.mp hes, rfl⟩
          · cases h
        · cases h
      · rintro ⟨d, es, ⟨hd, hsmall⟩, hes, rfl⟩
        rw [digits?, hd, ih.mpr hes]
        exact if_pos hsmall

theorem Spells.digit {c : Char} (h : Spells base cs ds) (hc : c ∈ cs) :
    ∃ d, digit? c = some d ∧ d < base := by
  induction h with
  | nil => cases hc
  | cons hfirst _ ih =>
      rcases List.mem_cons.mp hc with rfl | hc
      · exact ⟨_, hfirst⟩
      · exact ih hc

/-! ### Reading literals -/

/-- A literal has the value of its digits, if that is below 2 ^ 64. -/
theorem literal?_of_spells (hletter : (letter, base) ∈ letters) (hne : rest ≠ [])
    (h : Spells base rest ds) :
    literal? ('0' :: letter :: rest) =
      if value base ds < 2 ^ 64 then some (value base ds) else none := by
  have hds : ds ≠ [] := by
    rintro rfl
    exact hne (List.forall₂_nil_right_iff.mp h)
  obtain ⟨d, es, rfl⟩ := List.exists_cons_of_ne_nil hds
  rw [literal?, base?_of_mem_letters hletter]
  dsimp only
  rw [digits?_eq_some_iff.mpr h]
  dsimp only
  rw [ofDigits_eq_value]

theorem literal?_of_not_spells (hletter : (letter, base) ∈ letters)
    (h : ∀ ds, ds ≠ [] → ¬ Spells base rest ds) : literal? ('0' :: letter :: rest) = none := by
  rw [literal?, base?_of_mem_letters hletter]
  dsimp only
  split
  · rfl
  · rfl
  · rename_i ds hne hds
    exact absurd (digits?_eq_some_iff.mp hds) (h ds fun hnil => hne (by rw [hnil]))

/-- The letter of a base is part of no decimal number. -/
theorem read?_eq_none (hletter : (letter, base) ∈ letters) :
    Decimal.read? ('0' :: letter :: rest) = none := by
  have hchar : letter.isDigit = false ∧ letter ≠ '.' ∧ letter ≠ 'e' ∧ letter ≠ 'E' := by
    have hall : ∀ e ∈ letters, e.1.isDigit = false ∧ e.1 ≠ '.' ∧ e.1 ≠ 'e' ∧ e.1 ≠ 'E' := by decide
    exact hall _ hletter
  obtain ⟨hdigit, hpoint, he, hE⟩ := hchar
  have hfirst : Decimal.NoDigitFirst (letter :: rest) := by
    rintro c ⟨⟩
    exact hdigit
  have hexponent : Decimal.exponent? (letter :: rest) = none := by
    simp [Decimal.exponent?, he, hE]
  have hunsigned : Decimal.unsigned? (['0'] ++ letter :: rest) = none := by
    rw [Decimal.unsigned?_noPoint (by simp) (by simp) hfirst (by simpa using hpoint), hexponent]
    rfl
  have hsign : Decimal.sign ('0' :: letter :: rest) = (false, '0' :: letter :: rest) := rfl
  rw [Decimal.read?, hsign]
  dsimp only
  rw [Decimal.not_unboundedWord rfl, if_neg Bool.false_ne_true]
  exact congrArg (Option.map _) hunsigned

theorem numberOfText_literal (hletter : (letter, base) ∈ letters) :
    numberOfText ('0' :: letter :: rest) =
      match literal? ('0' :: letter :: rest) with
      | some n => .number (Double.ofInt n)
      | none => .notNumber := by
  rw [numberOfText, if_neg (by simp), read?_eq_none hletter]
  rfl

/-! ### Blanks around literals -/

theorem isBlank_eq_false_of_digit? {c : Char} {d : Nat} (h : digit? c = some d) :
    Text.isBlank c = false := by
  have hranges : (48 ≤ c.toNat ∧ c.toNat ≤ 57) ∨ (97 ≤ c.toNat ∧ c.toNat ≤ 102) ∨
      (65 ≤ c.toNat ∧ c.toNat ≤ 70) := by
    unfold digit? at h
    simp only [Bool.and_eq_true, decide_eq_true_eq, Char.le_def, UInt32.le_iff_toNat_le] at h
    split at h
    · rename_i hdigit
      exact Or.inl (Char.isDigit_iff_toNat.mp hdigit)
    · split at h
      · rename_i hlower
        exact Or.inr (Or.inl hlower)
      · split at h
        · rename_i hupper
          exact Or.inr (Or.inr hupper)
        · cases h
  have hapart : ∀ r ∈ Text.blank.ranges, r.2 < 48 ∨ (57 < r.1 ∧ r.2 < 65) ∨
      (70 < r.1 ∧ r.2 < 97) ∨ 102 < r.1 := by
    decide
  rw [Bool.eq_false_iff, Text.isBlank, Ne, Text.CharSet.contains_iff]
  rintro ⟨r, hr, hlow, hhigh⟩
  have hout := hapart r hr
  omega

/-- Blanks around a literal make no difference. -/
theorem toNumber_literal (hletter : (letter, base) ∈ letters) {front back : List Char}
    (hfront : ∀ c ∈ front, Text.isBlank c = true) (hback : ∀ c ∈ back, Text.isBlank c = true)
    (hlast : ∀ c ∈ rest.getLast?, Text.isBlank c = false) :
    toNumber (.string (String.ofList (front ++ '0' :: letter :: rest ++ back))) =
      numberOfText ('0' :: letter :: rest) := by
  have htrimmed : Text.IsTrimmed ('0' :: letter :: rest) := by
    refine ⟨fun c hc => ?_, fun c hc => ?_⟩
    · obtain rfl := Option.some.inj hc
      decide
    · rw [List.getLast?_cons_cons] at hc
      cases rest with
      | nil =>
          have hall : ∀ e ∈ letters, Text.isBlank e.1 = false := by decide
          obtain rfl := Option.some.inj hc
          exact hall _ hletter
      | cons d rest =>
          rw [List.getLast?_cons_cons] at hc
          exact hlast c hc
  rw [toNumber, String.toList_ofList, Text.trimChars_surrounded hfront hback htrimmed]

/-- Digits of the base are a number below 2 ^ 64 and none above, whatever blanks are around them. -/
theorem toNumber_of_spells (hletter : (letter, base) ∈ letters) {front back : List Char}
    (hfront : ∀ c ∈ front, Text.isBlank c = true) (hback : ∀ c ∈ back, Text.isBlank c = true)
    (hne : rest ≠ []) (h : Spells base rest ds) :
    toNumber (.string (String.ofList (front ++ '0' :: letter :: rest ++ back))) =
      if value base ds < 2 ^ 64 then .number (Double.ofInt (value base ds)) else .notNumber := by
  have hlast : ∀ c ∈ rest.getLast?, Text.isBlank c = false := by
    intro c hc
    obtain ⟨d, hd, -⟩ := h.digit (List.mem_of_getLast? hc)
    exact isBlank_eq_false_of_digit? hd
  rw [toNumber_literal hletter hfront hback hlast, numberOfText_literal hletter,
    literal?_of_spells hletter hne h]
  by_cases hsmall : value base ds < 2 ^ 64
  · rw [if_pos hsmall, if_pos hsmall]
  · rw [if_neg hsmall, if_neg hsmall]

/-! ### Attributes -/

variable {s : Surroundings} {data : Document} {label : String} {a : Attribute} {v : Json} {x : Double}

theorem coerce_of_toNumber (ha : a.kind = .number none none) (hv : v.isNull = false)
    (h : toNumber v = .number x) :
    a.coerce s data label (some v) = .ok (some (.number (Number.ofDouble x))) := by
  rw [a.coerce_some hv, ha, Kind.coerce, Option.getD_some, h]
  rfl

theorem coerce_of_notNumber (ha : a.kind = .number none none) (hv : v.isNull = false)
    (h : toNumber v = .notNumber) :
    a.coerce s data label (some v) = .error (.invalid label .notNumber) := by
  rw [a.coerce_some hv, ha, Kind.coerce, Option.getD_some, h]

end Radix

section Literals

open Radix

/--
**Literals are read below 2 ^ 64.**  A zero, the letter of a base in either case, and digits of that base,
with blanks around them, are read as a number exactly if their value is below 2 ^ 64, however many digits
there are.  The number is then the double closest to the value, and an attribute without bounds accepts it.
All other literals are no numbers: those of 2 ^ 64 and more, those without a digit, and those with a
character that is no digit of the base.
-/
theorem literal_reads_iff {letter : Char} {base : Nat} (hletter : (letter, base) ∈ letters)
    {front rest back : List Char} (hfront : ∀ c ∈ front, Text.isBlank c = true)
    (hback : ∀ c ∈ back, Text.isBlank c = true) {v : Json}
    (hv : v = .string (String.ofList (front ++ '0' :: letter :: rest ++ back))) :
    (∀ (ds : List Nat) (x : Double), rest ≠ [] → Spells base rest ds →
      Double.nearest false (value base ds) 1 = some x →
      (toNumber v = .number x ↔ value base ds < 2 ^ 64) ∧
      (toNumber v = .notNumber ↔ 2 ^ 64 ≤ value base ds) ∧
      (value base ds < 2 ^ 64 → x.IsClosest (value base ds)) ∧
      ∀ (s : Surroundings) (data : Document) (label : String) (a : Attribute),
        a.kind = .number none none →
        (a.coerce s data label (some v) = .ok (some (.number (Number.ofDouble x))) ↔
          value base ds < 2 ^ 64)) ∧
    ((∀ c ∈ rest.getLast?, Text.isBlank c = false) →
      (rest = [] ∨ ∃ c ∈ rest, ∀ d, digit? c = some d → base ≤ d) → toNumber v = .notNumber) := by
  subst hv
  refine ⟨fun ds x hne hspells hnearest => ?digits, fun hlast hbad => ?others⟩
  case digits =>
    have hread := toNumber_of_spells hletter hfront hback hne hspells
    by_cases hsmall : value base ds < 2 ^ 64
    · obtain ⟨hsome, hclosest⟩ := Double.isClosest_ofInt hsmall
      obtain rfl := Option.some.inj (hsome.symm.trans hnearest)
      rw [if_pos hsmall] at hread
      refine ⟨iff_of_true hread hsmall, ?_, fun _ => hclosest, fun s data label a ha => ?_⟩
      · rw [hread]
        exact iff_of_false nofun (Nat.not_le.mpr hsmall)
      · exact iff_of_true (coerce_of_toNumber ha rfl hread) hsmall
    · rw [if_neg hsmall] at hread
      refine ⟨?_, iff_of_true hread (Nat.le_of_not_lt hsmall), fun h => absurd h hsmall,
        fun s data label a ha => ?_⟩
      · rw [hread]
        exact iff_of_false nofun hsmall
      · rw [coerce_of_notNumber ha rfl hread]
        exact iff_of_false nofun hsmall
  case others =>
    rw [toNumber_literal hletter hfront hback hlast, numberOfText_literal hletter,
      literal?_of_not_spells hletter]
    intro ds hds hspells
    rcases hbad with rfl | ⟨c, hc, hno⟩
    · exact hds (List.forall₂_nil_left_iff.mp hspells)
    · obtain ⟨d, hd, hsmall⟩ := hspells.digit hc
      exact absurd hsmall (Nat.not_lt.mpr (hno d hd))

/-- A literal among blanks, in mixed case, and one with a digit of another base. -/
theorem literal_reads_iff_mixed :
    ('X', 16) ∈ letters ∧ Spells 16 ['f', 'F'] [15, 15] ∧
    toNumber (.string "\u3000 0XfF ") = .number (Double.ofInt 255) ∧
    (Double.ofInt 255).IsClosest 255 ∧
    ('b', 2) ∈ letters ∧ toNumber (.string "0b12") = .notNumber := by
  have hhex : ('X', 16) ∈ letters := by decide
  have hbinary : ('b', 2) ∈ letters := by decide
  have hspells : Spells 16 ['f', 'F'] [15, 15] :=
    .cons ⟨rfl, by decide⟩ (.cons ⟨rfl, by decide⟩ .nil)
  have hfront : ∀ c ∈ ['\u3000', ' '], Text.isBlank c = true := List.all_eq_true.mp (by decide)
  have hback : ∀ c ∈ [' '], Text.isBlank c = true := List.all_eq_true.mp (by decide)
  have hnone : ∀ c ∈ ([] : List Char), Text.isBlank c = true := nofun
  have hvalue : value 16 [15, 15] = 255 := by decide
  have hsmall : value 16 [15, 15] < 2 ^ 64 := by decide
  have hnearest : Double.nearest false (value 16 [15, 15]) 1 = some (Double.ofInt 255) := by
    decide +kernel
  have htext : Json.string "\u3000 0XfF " =
      .string (String.ofList (['\u3000', ' '] ++ '0' :: 'X' :: ['f', 'F'] ++ [' '])) := rfl
  have htext' : Json.string "0b12" =
      .string (String.ofList ([] ++ '0' :: 'b' :: ['1', '2'] ++ [])) := rfl
  obtain ⟨hmixed, -⟩ := literal_reads_iff hhex hfront hback htext
  obtain ⟨hread, -, hclosest, -⟩ := hmixed [15, 15] _ (by simp) hspells hnearest
  obtain ⟨-, hbad⟩ := literal_reads_iff hbinary hnone hnone htext'
  have hclosest' := hclosest hsmall
  rw [hvalue] at hclosest'
  have hlast : ∀ c ∈ ['1', '2'].getLast?, Text.isBlank c = false := by
    rintro c ⟨⟩
    decide
  refine ⟨hhex, hspells, hread.mpr hsmall, hclosest', hbinary, hbad hlast (Or.inr ?_)⟩
  exact ⟨'2', by simp, fun d hd => by cases hd; decide⟩

/-- The number 2 ^ 64 rounds to a double, and its literal in base 16 is no number. -/
theorem not_reads_of_long_literal :
    toNumber (.string "0x10000000000000000") = .notNumber ∧
    ¬ ∀ (letter : Char) (base : Nat) (rest : List Char) (ds : List Nat) (x : Double),
        (letter, base) ∈ letters → rest ≠ [] → Spells base rest ds →
        Double.nearest false (value base ds) 1 = some x →
        toNumber (.string (String.ofList ('0' :: letter :: rest))) = .number x := by
  have hread : toNumber (.string "0x10000000000000000") = .notNumber := by decide +kernel
  refine ⟨hread, fun hall => ?_⟩
  have hspells : Spells 16 "10000000000000000".toList (1 :: List.replicate 16 0) :=
    digits?_eq_some_iff.mp (by decide +kernel)
  obtain ⟨x, hx⟩ := Option.isSome_iff_exists.mp
    (by decide +kernel : (Double.nearest false (value 16 (1 :: List.replicate 16 0)) 1).isSome = true)
  have hliteral := hall 'x' 16 _ _ x (by decide) (by decide) hspells hx
  have htext : String.ofList ('0' :: 'x' :: "10000000000000000".toList) = "0x10000000000000000" :=
    rfl
  rw [htext, hread] at hliteral
  cases hliteral

end Literals

end Curator
