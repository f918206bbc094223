/-
What the text of a number is read as.

A number is read part by part: digits, a fraction, an exponent.  Each part is read the same way whatever
follows the number, as long as that ends a value (`Local`), so the text of a number can be looked at by
itself.  It is a numeral from end to end, and of such a text nothing is left.  So the number that it is read
as, if it is read at all, is a function of the number that was written (`Number.reread?`).  For whole numbers
it is the number itself.  A double comes back as a double, but what its digits are computed as is rounded
more than once, and may be the next one.
-/
import Mathlib.Data.List.TakeWhile
import Curator.Json.Reading
import Curator.Proofs.Number.Text
import Curator.Proofs.Serving

namespace Curator

namespace Json

namespace Reading

open Decimal (NoDigitFirst)

/-! ### Reading part by part -/

/-- What can stand behind a value: nothing, or a sign that ends it. -/
def EndsValue (rest : List Char) : Prop := ∀ c ∈ rest.head?, c ∈ [',', ']', '}']

theorem EndsValue.cases {rest : List Char} (hrest : EndsValue rest) :
    rest = [] ∨ ∃ c more, rest = c :: more ∧ (c = ',' ∨ c = ']' ∨ c = '}') := by
  cases rest with
  | nil => exact .inl rfl
  | cons c more =>
      have hsign := hrest c rfl
      simp only [List.mem_cons, List.not_mem_nil, or_false] at hsign
      exact .inr ⟨c, more, rfl, hsign⟩

theorem EndsValue.noDigitFirst {rest : List Char} (hrest : EndsValue rest) : NoDigitFirst rest := by
  intro c hc
  have hsign := hrest c hc
  simp only [List.mem_cons, List.not_mem_nil, or_false] at hsign
  rcases hsign with rfl | rfl | rfl <;> rfl

/-- What was read, with more text behind what is left. -/
def Front.before {α : Type} (rest : List Char) (r : Front α) : Front α := (r.1, r.2 ++ rest)

/-- A reader that takes the same off the front of a text whatever value ends there. -/
def Local {α : Type} (read : List Char → Except Stop (Front α)) : Prop :=
  ∀ cs rest, EndsValue rest →
    (read (cs ++ rest)).toOption = (read cs).toOption.map (Front.before rest)

section Digits

variable {rest : List Char}

theorem takeWhile_isDigit_append (hrest : EndsValue rest) (cs : List Char) :
    (cs ++ rest).takeWhile Char.isDigit = cs.takeWhile Char.isDigit := by
  have hnothing : ([] ++ rest).takeWhile Char.isDigit = [] :=
    Decimal.takeWhile_digits nofun hrest.noDigitFirst
  rw [List.nil_append] at hnothing
  rw [List.takeWhile_append, hnothing, List.append_nil]
  split
  · rename_i hall
    exact ((List.takeWhile_prefix _).eq_of_length hall).symm
  · rfl

theorem dropWhile_isDigit_append (hrest : EndsValue rest) (cs : List Char) :
    (cs ++ rest).dropWhile Char.isDigit = cs.dropWhile Char.isDigit ++ rest := by
  have hall : ([] ++ rest).dropWhile Char.isDigit = rest :=
    Decimal.dropWhile_digits nofun hrest.noDigitFirst
  rw [List.nil_append] at hall
  rw [List.dropWhile_append, hall]
  split
  · rename_i hnone
    rw [List.isEmpty_iff.mp hnone, List.nil_append]
  · rfl

end Digits

theorem toOption_noDigit {α : Type} (cs : List Char) :
    (noDigit cs : Except Stop (Front α)).toOption = none := by
  unfold noDigit
  split <;> rfl

theorem local_wholePart : Local wholePart := by
  intro cs rest hrest
  unfold wholePart
  dsimp only
  rw [takeWhile_isDigit_append hrest, dropWhile_isDigit_append hrest]
  split
  · rw [toOption_noDigit, toOption_noDigit]
    rfl
  · split <;> rfl

theorem local_fraction : Local fraction := by
  intro cs rest hrest
  cases cs with
  | nil =>
      rcases hrest.cases with rfl | ⟨c, more, rfl, rfl | rfl | rfl⟩ <;> rfl
  | cons c cs =>
      rw [List.cons_append]
      by_cases hpoint : c = '.'
      · subst hpoint
        rw [fraction, fraction, takeWhile_isDigit_append hrest, dropWhile_isDigit_append hrest]
        split
        · rw [toOption_noDigit, toOption_noDigit]
          rfl
        · rfl
      · have hother : ∀ body, fraction (c :: body) = .ok ([], c :: body) := by
          intro body
          unfold fraction
          split
          · rename_i heq
            exact absurd (List.cons.inj heq).1 hpoint
          · rfl
        rw [hother, hother]
        rfl

theorem sign_append {rest : List Char} (hrest : EndsValue rest) (cs : List Char) :
    Decimal.sign (cs ++ rest) = ((Decimal.sign cs).1, (Decimal.sign cs).2 ++ rest) := by
  cases cs with
  | nil => rcases hrest.cases with rfl | ⟨c, more, rfl, rfl | rfl | rfl⟩ <;> rfl
  | cons c cs =>
      rw [List.cons_append]
      by_cases hminus : c = '-'
      · subst hminus
        rfl
      by_cases hplus : c = '+'
      · subst hplus
        rfl
      have hother : ∀ body, Decimal.sign (c :: body) = (false, c :: body) := by
        intro body
        unfold Decimal.sign
        split
        · rename_i heq
          exact absurd (List.cons.inj heq).1 hminus
        · rename_i heq
          exact absurd (List.cons.inj heq).1 hplus
        · rfl
      rw [hother, hother]
      rfl

theorem local_power : Local power := by
  intro cs rest hrest
  cases cs with
  | nil => rcases hrest.cases with rfl | ⟨c, more, rfl, rfl | rfl | rfl⟩ <;> rfl
  | cons c cs =>
      rw [List.cons_append, power, power]
      split
      · rw [sign_append hrest]
        dsimp only
        rw [takeWhile_isDigit_append hrest, dropWhile_isDigit_append hrest]
        split
        · rw [toOption_noDigit, toOption_noDigit]
          rfl
        · rfl
      · rfl

/-- The number of some digits, a fraction and an exponent, if they are in range. -/
def assembled? (negative : Bool) (front back : List Char) (power : Option (Bool × List Char)) :
    Option Number :=
  let (n, dropped) := appendDigits 0 front
  let (m, unread) := appendDigits n back
  let exponent : Int :=
    match power with
    | some (minus, digits) =>
      if minus then -(Decimal.ofDigits digits : Int) else Decimal.ofDigits digits
    | none => 0
  match if back.isEmpty && power.isNone && dropped == 0 then whole? negative n else none with
  | some w => some (.whole w)
  | none =>
    (scaled? m (dropped - (back.length - unread : Nat) + exponent)).map fun x =>
      .real (signed negative x)

/-- A number is read part by part, and then put together. -/
theorem toOption_unsigned (negative : Bool) (cs : List Char) :
    (unsigned negative cs).toOption =
      (wholePart cs).toOption.bind fun front =>
        (fraction front.2).toOption.bind fun back =>
          (power back.2).toOption.bind fun exponent =>
            (assembled? negative front.1 back.1 exponent.1).map fun n => (n, exponent.2) := by
  unfold unsigned assembled?
  simp only [Outcome.toOption_bind]
  congr 1
  funext front
  congr 1
  funext back
  congr 1
  funext exponent
  generalize (if back.1.isEmpty && exponent.1.isNone && (appendDigits 0 front.1).2 == 0 then
    whole? negative (appendDigits 0 front.1).1 else none) = w?
  cases w? with
  | some w => rfl
  | none =>
      dsimp only
      generalize scaled? _ _ = x?
      cases x? with
      | some x => rfl
      | none => rfl

theorem local_unsigned (negative : Bool) : Local (unsigned negative) := by
  intro cs rest hrest
  rw [toOption_unsigned, toOption_unsigned, local_wholePart cs rest hrest]
  cases (wholePart cs).toOption with
  | none => rfl
  | some front =>
      dsimp only [Option.map_some, Option.bind_some, Front.before]
      rw [local_fraction front.2 rest hrest]
      cases (fraction front.2).toOption with
      | none => rfl
      | some back =>
          dsimp only [Option.map_some, Option.bind_some, Front.before]
          rw [local_power back.2 rest hrest]
          cases (power back.2).toOption with
          | none => rfl
          | some exponent =>
              dsimp only [Option.map_some, Option.bind_some, Front.before]
              rw [Option.map_map]
              rfl

theorem local_number : Local (number true) := by
  intro cs rest hrest
  cases cs with
  | nil =>
      have hnone : (number true []).toOption = none := rfl
      rw [List.nil_append, hnone]
      rcases hrest.cases with rfl | ⟨c, more, rfl, rfl | rfl | rfl⟩ <;> rfl
  | cons c cs =>
      rw [List.cons_append]
      by_cases hminus : c = '-'
      · subst hminus
        exact local_unsigned true cs rest hrest
      · have hother : ∀ body, number true (c :: body) = unsigned false (c :: body) := by
          intro body
          unfold number
          split
          rename_i negative body' hsplit
          split at hsplit
          · rename_i heq
            exact absurd (List.cons.inj heq).1 hminus
          · cases hsplit
            rfl
        rw [hother, hother]
        exact local_unsigned false (c :: cs) rest hrest

/-! ### The text of a number -/

theorem eq_of_wholePart {cs : List Char} {r : Front (List Char)} (h : wholePart cs = .ok r) :
    r = (cs.takeWhile Char.isDigit, cs.dropWhile Char.isDigit) := by
  unfold wholePart at h
  dsimp only at h
  split at h
  · have hnone := toOption_noDigit (α := List Char) cs
    rw [h] at hnone
    cases hnone
  · split at h
    · cases h
    · cases h
      rfl

theorem eq_of_fraction {cs : List Char} {r : Front (List Char)} (h : fraction cs = .ok r) :
    (∃ body, cs = '.' :: body ∧ body.takeWhile Char.isDigit ≠ [] ∧
      r = (body.takeWhile Char.isDigit, body.dropWhile Char.isDigit)) ∨
      (∀ body, cs ≠ '.' :: body) ∧ r = ([], cs) := by
  unfold fraction at h
  split at h
  · rename_i body
    dsimp only at h
    split at h
    · have hnone := toOption_noDigit (α := List Char) body
      rw [h] at hnone
      cases hnone
    · rename_i hsome
      cases h
      exact .inl ⟨body, rfl, fun hnone => hsome (List.isEmpty_iff.mpr hnone), rfl⟩
  · rename_i hpoint
    cases h
    exact .inr ⟨hpoint, rfl⟩

/-- Of an exponent that ends the text nothing is left. -/
theorem nothing_left_of_power {cs : List Char} {e : Int} {r : Front (Option (Bool × List Char))}
    (hcs : Decimal.exponent? cs = some e) (h : power cs = .ok r) :
    r.2 = [] ∧ (r.1 = none → cs = []) := by
  cases cs with
  | nil =>
      cases h
      exact ⟨rfl, fun _ => rfl⟩
  | cons c cs =>
      rw [Decimal.exponent?] at hcs
      rw [power] at h
      split at hcs
      · rename_i hletter
        rw [if_pos hletter] at h
        dsimp only at hcs h
        split at hcs
        · cases hcs
        · rename_i hdigits
          have hall : ∀ d ∈ (Decimal.sign cs).2, d.isDigit = true := by
            simp only [Bool.or_eq_true, Bool.not_eq_true', not_or, Bool.not_eq_false,
              List.all_eq_true] at hdigits
            exact hdigits.2
          split at h
          · have hnone := toOption_noDigit (α := Option (Bool × List Char)) (Decimal.sign cs).2
            rw [h] at hnone
            cases hnone
          · cases h
            exact ⟨List.dropWhile_eq_nil_iff.mpr hall, fun h => absurd h (Option.some_ne_none _)⟩
      · cases hcs

/-- A numeral that ends the text is read to its end, and one that is read as a whole number is nothing but
digits. -/
theorem nothing_left_of_unsigned {cs left : List Char} {digits : Nat} {exponent : Int}
    {negative : Bool} {n : Number} (hcs : Decimal.unsigned? cs = some (digits, exponent))
    (h : unsigned negative cs = .ok (n, left)) :
    left = [] ∧ ((∃ w, n = .whole w) → ∀ c ∈ cs, c.isDigit = true) := by
  have hread := toOption_unsigned negative cs
  rw [h] at hread
  obtain ⟨front, hfront, hread⟩ := Option.bind_eq_some_iff.mp hread.symm
  obtain ⟨back, hback, hread⟩ := Option.bind_eq_some_iff.mp hread
  obtain ⟨found, hpower, hread⟩ := Option.bind_eq_some_iff.mp hread
  obtain ⟨m, hm, hsame⟩ := Option.map_eq_some_iff.mp hread
  cases hsame
  rw [Outcome.toOption_eq_some_iff] at hfront hback hpower
  obtain rfl := eq_of_wholePart hfront
  have hexponent : ∃ e, Decimal.exponent? back.2 = some e := by
    unfold Decimal.unsigned? at hcs
    rcases eq_of_fraction hback with ⟨body, hbody, -, rfl⟩ | ⟨hpoint, rfl⟩
    · dsimp only at hbody
      simp only [hbody] at hcs
      split at hcs
      · cases hcs
      · obtain ⟨e, he, -⟩ := Option.map_eq_some_iff.mp hcs
        exact ⟨e, he⟩
    · dsimp only at hpoint hcs
      split at hcs
      · rename_i hbody
        exact absurd hbody (hpoint _)
      · split at hcs
        · cases hcs
        · obtain ⟨e, he, -⟩ := Option.map_eq_some_iff.mp hcs
          exact ⟨e, he⟩
  obtain ⟨e, he⟩ := hexponent
  obtain ⟨hleft, hnone⟩ := nothing_left_of_power he hpower
  refine ⟨hleft, ?_⟩
  rintro ⟨w, rfl⟩
  -- Only without a fraction and an exponent a number is whole.
  have hparts : back.1 = [] ∧ found.1 = none := by
    unfold assembled? at hm
    dsimp only at hm
    split at hm
    · rename_i hw
      split at hw
      · rename_i hwhole
        simp only [Bool.and_eq_true, List.isEmpty_iff, Option.isNone_iff_eq_none] at hwhole
        exact hwhole.1
      · cases hw
    · obtain ⟨x, -, hx⟩ := Option.map_eq_some_iff.mp hm
      cases hx
  rcases eq_of_fraction hback with ⟨body, -, hbody, rfl⟩ | ⟨-, rfl⟩
  · exact absurd hparts.1 hbody
  · exact List.dropWhile_eq_nil_iff.mp (hnone hparts.2)

/-! ### Whole numbers -/

theorem appendDigits_eq {cs : List Char} {n : Nat} (hbound : Nat.ofDigitChars 10 cs n < 2 ^ 64) :
    appendDigits n cs = (Nat.ofDigitChars 10 cs n, 0) := by
  induction cs generalizing n with
  | nil => rfl
  | cons c cs ih =>
      rw [Nat.ofDigitChars_cons] at hbound ⊢
      have hgrows : ∀ m, m ≤ Nat.ofDigitChars 10 cs m := by
        intro m
        rw [Nat.ofDigitChars_eq_ofDigitChars_zero]
        exact Nat.le_add_right_of_le (Nat.le_mul_of_pos_left m (by positivity))
      rw [appendDigits]
      exact (if_pos ((hgrows _).trans_lt hbound)).trans (ih hbound)

theorem wholePart_toDigits (k : Nat) :
    wholePart (Nat.toDigits 10 k) = .ok (Nat.toDigits 10 k, []) := by
  have hdigits : ∀ c ∈ Nat.toDigits 10 k, c.isDigit = true := fun c => Decimal.isDigit_of_mem_toDigits
  have hzero : ((Nat.toDigits 10 k).head? == some '0' && 1 < (Nat.toDigits 10 k).length) = false := by
    by_contra hlong
    obtain ⟨hhead, hlength⟩ := Bool.and_eq_true_iff.mp (Bool.not_eq_false _ ▸ hlong)
    obtain rfl := Decimal.eq_zero_of_head?_toDigits (beq_iff_eq.mp hhead)
    exact absurd hlength (by decide)
  unfold wholePart
  dsimp only
  rw [List.takeWhile_eq_self_iff.mpr hdigits, List.dropWhile_eq_nil_iff.mpr hdigits, hzero,
    if_neg (by simp [Nat.toDigits_ne_nil]), if_neg Bool.false_ne_true]

theorem unsigned_toDigits {negative : Bool} {k : Nat} {n : Whole} (hk : k < 2 ^ 64)
    (hn : whole? negative k = some n) :
    unsigned negative (Nat.toDigits 10 k) = .ok (.whole n, []) := by
  have happend : appendDigits 0 (Nat.toDigits 10 k) = (k, 0) := by
    have hvalue := Nat.ofDigitChars_ten_toDigits (n := k)
    rw [appendDigits_eq (by rwa [hvalue]), hvalue]
  simp only [unsigned, wholePart_toDigits, Outcome.ok_bind, fraction, power, happend, appendDigits,
    List.isEmpty_nil, Option.isNone_none, beq_self_eq_true, Bool.and_self, if_true, hn]
  rfl

theorem whole?_natAbs (n : Whole) : whole? (decide (n.val < 0)) n.val.natAbs = some n := by
  have hval : Whole.ofInt? n.val = some n := dif_pos ⟨n.lower, n.upper⟩
  by_cases hneg : n.val < 0
  · have hzero : (n.val.natAbs == 0) = false := beq_eq_false_iff_ne.mpr (by omega)
    have habs : -(n.val.natAbs : Int) = n.val := by omega
    rw [whole?, decide_eq_true hneg, hzero, if_neg (by decide), if_pos rfl, habs, hval]
  · have habs : (n.val.natAbs : Int) = n.val := by omega
    rw [whole?, decide_eq_false hneg, Bool.false_and, if_neg Bool.false_ne_true,
      if_neg Bool.false_ne_true, habs, hval]

/-- The text of a number is a numeral, with a minus in front of it if the number is negative. -/
theorem exists_writes_numberText (n : Number) :
    ∃ negative body r, (numberText n).toList = Decimal.signChars negative ++ body ∧
      Decimal.Writes body r := by
  cases n with
  | whole n => exact ⟨_, _, _, Layout.toList_toString n.val, Decimal.writes_toDigits _⟩
  | real x =>
      obtain ⟨body, htext, hbody⟩ := Layout.text_document x
      exact ⟨_, body, _, htext, hbody⟩

theorem exists_cons_numberText (n : Number) :
    ∃ c cs, (numberText n).toList = c :: cs ∧ (c = '-' ∨ c.isDigit = true) := by
  obtain ⟨negative, body, r, htext, hbody⟩ := exists_writes_numberText n
  obtain ⟨c, cs, rfl, hc⟩ := hbody.first
  cases negative with
  | true => exact ⟨'-', _, htext, .inl rfl⟩
  | false => exact ⟨c, cs, htext, .inr hc⟩

theorem number_signChars (negative : Bool) {body : List Char} {r : ℚ}
    (hbody : Decimal.Writes body r) :
    number true (Decimal.signChars negative ++ body) = unsigned negative body := by
  obtain ⟨c, cs, rfl, hc⟩ := hbody.first
  cases negative with
  | true => rfl
  | false =>
      show number true (c :: cs) = unsigned false (c :: cs)
      unfold number
      split
      rename_i negative body hsplit
      split at hsplit
      · rename_i heq
        obtain ⟨rfl, -⟩ := List.cons.inj heq
        cases hc
      · cases hsplit
        rfl

/-- Of the text of a number nothing is left, and only without a fraction and an exponent it is read as a
whole number. -/
theorem nothing_left_of_numberText {n m : Number} {left : List Char}
    (h : number true (numberText n).toList = .ok (m, left)) :
    left = [] ∧ ((∃ w, m = .whole w) → ∀ c ∈ (numberText n).toList, c = '-' ∨ c.isDigit = true) := by
  obtain ⟨negative, body, r, htext, hbody⟩ := exists_writes_numberText n
  obtain ⟨digits, exponent, hread, -⟩ := hbody.read
  rw [htext, number_signChars negative hbody] at h
  obtain ⟨hleft, hwhole⟩ := nothing_left_of_unsigned hread h
  refine ⟨hleft, fun hw c hc => ?_⟩
  rw [htext] at hc
  rcases List.mem_append.mp hc with hsign | hdigit
  · cases negative with
    | true => exact .inl (List.mem_singleton.mp hsign)
    | false => cases hsign
  · exact .inr (hwhole hw c hdigit)

end Reading

end Json

/-- What the text of a number is read as, if it is read as one at all. -/
def Number.reread? (n : Number) : Option Number :=
  (Json.Reading.number true (Json.numberText n).toList).toOption.map (·.1)

namespace Number

open Json.Reading

/-- Whole numbers come back. -/
theorem reread?_whole (n : Whole) : (whole n).reread? = some (whole n) := by
  have hbound : n.val.natAbs < 2 ^ 64 := by
    have hlower := n.lower
    have hupper := n.upper
    omega
  have hread := unsigned_toDigits hbound (whole?_natAbs n)
  rw [reread?, Json.numberText, Layout.toList_toString,
    number_signChars _ (Decimal.writes_toDigits n.val.natAbs), hread]
  rfl

/-- A double is read as a double, whichever. -/
theorem exists_real_of_reread? {x : Double} {m : Number} (h : (real x).reread? = some m) :
    ∃ y, m = real y := by
  obtain ⟨⟨m', left⟩, hread, rfl⟩ := Option.map_eq_some_iff.mp h
  cases m' with
  | real y => exact ⟨y, rfl⟩
  | whole w =>
      obtain ⟨-, hdigits⟩ := nothing_left_of_numberText (Outcome.toOption_eq_some_iff.mp hread)
      obtain ⟨c, hc, hmark⟩ := Layout.exists_mark_text_document x
      rcases hdigits ⟨w, rfl⟩ c hc with rfl | hdigit
      · rcases hmark with hmark | hmark <;> cases hmark
      · rcases hmark with rfl | rfl <;> cases hdigit

end Number

namespace Json

namespace Reading

/-- The text of a number is read to its end, if it is read. -/
theorem toOption_number_text {rest : List Char} (hrest : EndsValue rest) (n : Number) :
    (number true ((numberText n).toList ++ rest)).toOption =
      n.reread?.map fun m => (m, rest) := by
  rw [local_number _ _ hrest, Number.reread?, Option.map_map]
  cases hread : number true (numberText n).toList with
  | error e => rfl
  | ok r =>
      obtain ⟨m, left⟩ := r
      obtain ⟨rfl, -⟩ := nothing_left_of_numberText hread
      rfl

theorem scalar_of_sign_or_digit {c : Char} (hc : c = '-' ∨ c.isDigit = true) (cs : List Char) :
    scalar true (c :: cs) = (number true (c :: cs)).map fun r => (.number r.1, r.2) := by
  have hword : c ≠ 'n' ∧ c ≠ 't' ∧ c ≠ 'f' := by
    rcases hc with rfl | hdigit
    · decide
    · refine ⟨?_, ?_, ?_⟩ <;>
        · rintro rfl
          cases hdigit
  have hnumber : (c == '-' || c.isDigit) = true := by
    rcases hc with rfl | hdigit
    · rfl
    · rw [hdigit, Bool.or_true]
  rw [scalar]
  simp only [beq_iff_eq, hword.1, hword.2.1, hword.2.2, if_false, hnumber, if_true]
  cases number true (c :: cs) <;> rfl

end Reading

end Json

end Curator
