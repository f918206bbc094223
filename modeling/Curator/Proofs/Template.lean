/-
What a template stands for.

`Template.Reads` reads a text from the left, span by span.  Every text has just one reading, and it
does not depend on any value.  The insides of its spans are what `Template.spans` finds; and a span,
which starts with a brace, is found again behind the text before it, which has no brace, so that
`Scope.fill` goes through the same pieces.  From that a template has the value that its reading says,
where `Template.Displays` tells what a value shows as and `Scope.Renders` what the pieces turn into.
-/
import Curator.Template

namespace Curator

/-- A part of a template. -/
inductive Piece where
  | literal (cs : List Char)
  | span (inner : List Char)

namespace Template

/-- How a text reads from the left.  A brace with a closing brace after it opens a span, which ends at
the first of these, and reading goes on behind it; all else is literal. -/
inductive Reads : List Char → List Piece → Prop
  | literal {cs : List Char}
      (unclosed : ∀ before after, cs = before ++ '{' :: after → '}' ∉ after) :
      Reads cs [.literal cs]
  | span {before inner after : List Char} {ps : List Piece} (plain : '{' ∉ before)
      (first : '}' ∉ inner) (reads : Reads after ps) :
      Reads (before ++ span inner ++ after) (.literal before :: .span inner :: ps)

/-- The insides of the spans among some pieces. -/
def insides : List Piece → List (List Char)
  | [] => []
  | .literal _ :: ps => insides ps
  | .span inner :: ps => inner :: insides ps

/-- Whether a text is one span and nothing else. -/
def IsSpan (cs inner : List Char) : Prop := '}' ∉ inner ∧ cs = span inner

/-! ### Every text has one reading -/

/-- Where a text is cut at a character that did not occur before, it is cut at one place only. -/
theorem append_cons_inj_of_not_mem {c : Char} {xs xs' ys ys' : List Char} (hxs : c ∉ xs)
    (hxs' : c ∉ xs') (h : xs ++ c :: ys = xs' ++ c :: ys') : xs = xs' ∧ ys = ys' := by
  induction xs generalizing xs' with
  | nil =>
      cases xs' with
      | nil => exact ⟨rfl, (List.cons.inj h).2⟩
      | cons d xs' =>
          have hd : c = d := (List.cons.inj h).1
          exact absurd (hd ▸ List.mem_cons_self) hxs'
  | cons d xs ih =>
      cases xs' with
      | nil =>
          have hd : d = c := (List.cons.inj h).1
          exact absurd (hd ▸ List.mem_cons_self) hxs
      | cons d' xs' =>
          obtain ⟨rfl, htail⟩ := List.cons.inj h
          obtain ⟨rfl, rfl⟩ := ih (fun hc => hxs (List.mem_cons_of_mem _ hc))
            (fun hc => hxs' (List.mem_cons_of_mem _ hc)) htail
          exact ⟨rfl, rfl⟩

theorem span_append (inner rest : List Char) :
    span inner ++ rest = '{' :: (inner ++ '}' :: rest) := by
  simp [span]

/-- A text in which some span opens starts with plain text and a span. -/
theorem exists_span {cs before after : List Char} (h : cs = before ++ '{' :: after)
    (hclosed : '}' ∈ after) :
    ∃ plain inner rest, cs = plain ++ span inner ++ rest ∧ '{' ∉ plain ∧ '}' ∉ inner := by
  have hopen : '{' ∈ cs := by simp [h]
  obtain ⟨plain, opened, hcs, hplain⟩ := List.eq_append_cons_of_mem hopen
  have hlater : '}' ∈ opened := by
    rw [hcs] at h
    rcases List.append_eq_append_iff.mp h with ⟨more, rfl, htail⟩ | ⟨more, rfl, htail⟩
    · cases more with
      | nil =>
          rw [List.nil_append] at htail
          rw [(List.cons.inj htail).2]
          exact hclosed
      | cons c more =>
          rw [(List.cons.inj htail).2]
          exact List.mem_append_right _ (List.mem_cons_of_mem _ hclosed)
    · cases more with
      | nil =>
          rw [List.nil_append] at htail
          rw [← (List.cons.inj htail).2]
          exact hclosed
      | cons c more =>
          have hc : '{' = c := (List.cons.inj htail).1
          exact absurd (hc ▸ List.mem_append_right _ List.mem_cons_self) hplain
  obtain ⟨inner, rest, rfl, hinner⟩ := List.eq_append_cons_of_mem hlater
  refine ⟨plain, inner, rest, ?_, hplain, hinner⟩
  rw [hcs, List.append_assoc, span_append]

theorem exists_reads (cs : List Char) : ∃ ps, Reads cs ps := by
  induction hn : cs.length using Nat.strongRecOn generalizing cs with
  | _ n ih =>
      by_cases hspan : ∃ before after, cs = before ++ '{' :: after ∧ '}' ∈ after
      · obtain ⟨before, after, hcs, hclosed⟩ := hspan
        obtain ⟨plain, inner, rest, rfl, hplain, hinner⟩ := exists_span hcs hclosed
        have hlt : rest.length < n := by
          simp only [List.length_append, span, List.length_cons] at hn
          omega
        obtain ⟨ps, hps⟩ := ih rest.length hlt rest rfl
        exact ⟨_, .span hplain hinner hps⟩
      · exact ⟨_, .literal fun before after hcs hclosed => hspan ⟨before, after, hcs, hclosed⟩⟩

theorem Reads.unique {cs : List Char} {ps qs : List Piece} (hps : Reads cs ps)
    (hqs : Reads cs qs) : qs = ps := by
  induction hps generalizing qs with
  | @literal cs unclosed =>
      generalize hcs : cs = cs' at hqs
      cases hqs with
      | literal _ => rfl
      | @span before inner after ps _ _ _ =>
          rw [List.append_assoc, span_append] at hcs
          exact absurd (List.mem_append_right _ List.mem_cons_self) (unclosed _ _ hcs)
  | @span before inner after ps plain first reads ih =>
      generalize hcs : before ++ Template.span inner ++ after = cs' at hqs
      rw [List.append_assoc, span_append] at hcs
      cases hqs with
      | literal unclosed =>
          exact absurd (List.mem_append_right _ List.mem_cons_self) (unclosed _ _ hcs.symm)
      | @span before' inner' after' qs plain' first' reads' =>
          rw [List.append_assoc, span_append] at hcs
          obtain ⟨rfl, htail⟩ := append_cons_inj_of_not_mem plain plain' hcs
          obtain ⟨rfl, rfl⟩ := append_cons_inj_of_not_mem first first' htail
          rw [ih reads']

/-! ### The spans that are found are those of the reading -/

theorem spansAfter_plain {before : List Char} (hbefore : '{' ∉ before) (rest : List Char) :
    spansAfter none (before ++ rest) = spansAfter none rest := by
  induction before with
  | nil => rfl
  | cons c before ih =>
      simp only [List.mem_cons, not_or] at hbefore
      rw [List.cons_append, spansAfter, if_neg (Ne.symm hbefore.1), ih hbefore.2]

theorem spansAfter_unclosed {cs : List Char} (hcs : '}' ∉ cs) (opened : List Char) :
    spansAfter (some opened) cs = [] := by
  induction cs generalizing opened with
  | nil => rfl
  | cons c cs ih =>
      simp only [List.mem_cons, not_or] at hcs
      rw [spansAfter, if_neg (Ne.symm hcs.1), ih hcs.2]

theorem spansAfter_closed {inner : List Char} (hinner : '}' ∉ inner) (opened rest : List Char) :
    spansAfter (some opened) (inner ++ '}' :: rest) =
      (opened ++ inner) :: spansAfter none rest := by
  induction inner generalizing opened with
  | nil => rw [List.nil_append, spansAfter, if_pos rfl, List.append_nil]
  | cons c inner ih =>
      simp only [List.mem_cons, not_or] at hinner
      rw [List.cons_append, spansAfter, if_neg (Ne.symm hinner.1), ih hinner.2,
        List.append_assoc, List.singleton_append]

theorem spans_append_span {before inner : List Char} (hbefore : '{' ∉ before)
    (hinner : '}' ∉ inner) (after : List Char) :
    spans (before ++ span inner ++ after) = inner :: spans after := by
  rw [spans, List.append_assoc, spansAfter_plain hbefore, span_append, spansAfter, if_pos rfl,
    spansAfter_closed hinner, List.nil_append, spans]

theorem Reads.spans_eq {cs : List Char} {ps : List Piece} (h : Reads cs ps) :
    spans cs = insides ps := by
  induction h with
  | @literal cs unclosed =>
      by_cases hopen : '{' ∈ cs
      · obtain ⟨before, after, hcs, hbefore⟩ := List.eq_append_cons_of_mem hopen
        have hafter : '}' ∉ after := unclosed before after hcs
        rw [hcs, spans, spansAfter_plain hbefore, spansAfter, if_pos rfl,
          spansAfter_unclosed hafter]
        rfl
      · have hplain : spansAfter none (cs ++ []) = spansAfter none [] := spansAfter_plain hopen []
        rw [List.append_nil] at hplain
        rw [spans, hplain]
        rfl
  | span plain first reads ih =>
      rw [spans_append_span plain first, ih]
      rfl

theorem Reads.not_mem_of_mem_insides {cs inner : List Char} {ps : List Piece}
    (h : Reads cs ps) (hinner : inner ∈ insides ps) : '}' ∉ inner := by
  induction h with
  | literal unclosed => cases hinner
  | span plain first reads ih =>
      rcases List.mem_cons.mp hinner with rfl | hmem
      · exact first
      · exact ih hmem

/-- A span with only blanks around it is the one span of the text. -/
theorem spans_of_trimChars {cs inner : List Char} (h : IsSpan (Text.trimChars cs) inner) :
    spans cs = [inner] := by
  obtain ⟨front, back, hcs, hfront, hback⟩ := Text.exists_trimChars cs
  have hbrace : Text.isBlank '{' = false := by decide
  have hnone : ∀ {blanks : List Char}, (∀ c ∈ blanks, Text.isBlank c = true) → '{' ∉ blanks := by
    intro blanks hblanks hmem
    rw [hblanks _ hmem] at hbrace
    cases hbrace
  have hrest : spans back = [] := by
    have hplain := spansAfter_plain (hnone hback) []
    rw [List.append_nil] at hplain
    exact hplain
  rw [hcs, h.2, spans_append_span (hnone hfront) h.1, hrest]

end Template

/-! ### What a value shows as -/

namespace Template

/-- What a value shows as inside a text.  Null is empty and a string is itself; a number without a
fraction and below 10 ^ 15 in size is an integer, and any other number is as in documents; lists and
objects are compact text. -/
inductive Displays : Json → String → Prop
  | null : Displays .null ""
  | string (s : String) : Displays (.string s) s
  | true : Displays (.bool true) "true"
  | false : Displays (.bool false) "false"
  | integer {n : Number} {k : Int} (whole : n.toDouble.whole? = some k) (small : k.natAbs < 10 ^ 15) :
      Displays (.number n) (toString k)
  | number {n : Number} (other : ∀ k, n.toDouble.whole? = some k → 10 ^ 15 ≤ k.natAbs) :
      Displays (.number n) (Json.numberText n)
  | array (items : List Json) : Displays (.array items) (Json.text (.array items))
  | object (fields : List (String × Json)) :
      Displays (.object fields) (Json.text (.object fields))

theorem numberScalarText_of_small {n : Number} {k : Int} (whole : n.toDouble.whole? = some k)
    (small : k.natAbs < 10 ^ 15) : numberScalarText n = toString k := by
  rw [numberScalarText, whole]
  exact if_pos (by omega)

theorem numberScalarText_of_other {n : Number}
    (other : ∀ k, n.toDouble.whole? = some k → 10 ^ 15 ≤ k.natAbs) :
    numberScalarText n = Json.numberText n := by
  rw [numberScalarText]
  split
  · rename_i k hk
    have hlarge := other k hk
    exact if_neg (by omega)
  · rfl

theorem displays_display (v : Json) : Displays v (display v) := by
  cases v with
  | null => exact .null
  | string s => exact .string s
  | bool b =>
      cases b with
      | true => exact .true
      | false => exact .false
  | number n =>
      rw [display_number]
      by_cases hsmall : ∃ k, n.toDouble.whole? = some k ∧ k.natAbs < 10 ^ 15
      · obtain ⟨k, hk, hbound⟩ := hsmall
        rw [numberScalarText_of_small hk hbound]
        exact .integer hk hbound
      · have hother : ∀ k, n.toDouble.whole? = some k → 10 ^ 15 ≤ k.natAbs :=
          fun k hk => Nat.not_lt.mp fun hbound => hsmall ⟨k, hk, hbound⟩
        rw [numberScalarText_of_other hother]
        exact .number hother
  | array items => exact .array items
  | object fields => exact .object fields

/-- A value shows as one text only. -/
theorem Displays.eq_display {v : Json} {t : String} (h : Displays v t) : t = display v := by
  cases h with
  | integer whole small => exact (numberScalarText_of_small whole small).symm
  | number other => exact (numberScalarText_of_other other).symm
  | _ => rfl

end Template

/-! ### The value of a template -/

namespace Scope

variable (s : Scope)

/-- What some pieces of a template turn into, one after the other: literal text stands as it is, and a
span as its value shows.  The first span that has no value is the failure of all. -/
inductive Renders : List Piece → Except Failure String → Prop
  | nil : Renders [] (.ok "")
  | literal {cs : List Char} {ps : List Piece} {r : Except Failure String} (rest : Renders ps r) :
      Renders (.literal cs :: ps) (r.map fun t => String.ofList cs ++ t)
  | span {inner : List Char} {v : Json} {shown : String} {ps : List Piece}
      {r : Except Failure String} (value : s.evaluate (String.ofList inner) = .ok v)
      (displays : Template.Displays v shown) (rest : Renders ps r) :
      Renders (.span inner :: ps) (r.map fun t => shown ++ t)
  | failed {inner : List Char} {f : Failure} {ps : List Piece}
      (failure : s.evaluate (String.ofList inner) = .error f) :
      Renders (.span inner :: ps) (.error f)

variable {s}

/-- Pieces turn into one text or failure only. -/
theorem Renders.unique {ps : List Piece} {r r' : Except Failure String} (h : s.Renders ps r)
    (h' : s.Renders ps r') : r' = r := by
  induction h generalizing r' with
  | nil =>
      cases h'
      rfl
  | literal rest ih =>
      cases h' with
      | literal rest' => rw [ih rest']
  | span value displays rest ih =>
      cases h' with
      | span value' displays' rest' =>
          cases value.symm.trans value'
          rw [ih rest', displays.eq_display, displays'.eq_display]
      | failed failure => cases value.symm.trans failure
  | failed failure =>
      cases h' with
      | span value' _ _ => cases failure.symm.trans value'
      | failed failure' =>
          cases failure.symm.trans failure'
          rfl

variable (s)

/-- Looking for the spans one after the other fills just the pieces of the reading. -/
theorem renders_fill {cs : List Char} {ps : List Piece} (h : Template.Reads cs ps) :
    s.Renders ps (s.fill cs (Template.insides ps)) := by
  induction h with
  | @literal cs unclosed =>
      have hrenders : s.Renders [.literal cs] (.ok (String.ofList cs ++ "")) := .literal .nil
      rw [String.append_empty] at hrenders
      exact hrenders
  | @span before inner after ps plain first reads ih =>
      have hfound : Text.cut? (Template.span inner) (before ++ Template.span inner ++ after) =
          some (before, after) := Text.cut?_append plain _ _
      simp only [Template.insides, fill, hfound]
      cases hv : s.evaluate (String.ofList inner) with
      | error f => exact .literal (.failed hv)
      | ok v =>
          have hrenders : s.Renders (.literal before :: .span inner :: ps) _ :=
            .literal (.span hv (Template.displays_display v) ih)
          cases hrest : s.fill after (Template.insides ps) with
          | error f =>
              rw [hrest] at hrenders
              exact hrenders
          | ok t =>
              rw [hrest] at hrenders
              exact hrenders

end Scope

/--
**A template has the value of its reading.**  Every text has one reading.  Without spans the template
is its own value; a single span with nothing but blanks around it has the typed value of its
expression; and otherwise the value is the string of the literal texts and of what the values of the
spans show as, in order, or the failure of the first span that has no value.  The reading is that of
the template alone, for whatever scope: no value is ever read for spans.
-/
theorem Template.template_follows_reading (t : String) :
    ∃ ps, Template.Reads t.toList ps ∧ (∀ qs, Template.Reads t.toList qs → qs = ps) ∧
      ∀ s : Scope,
        (Template.insides ps = [] → s.template t = .ok (.string t)) ∧
        (∀ inner, Template.IsSpan (Text.trimChars t.toList) inner →
          s.template t = s.evaluate (String.ofList inner)) ∧
        (Template.insides ps ≠ [] →
          (∀ inner, ¬ Template.IsSpan (Text.trimChars t.toList) inner) →
          ∃ r, s.Renders ps r ∧ (∀ r', s.Renders ps r' → r' = r) ∧
            s.template t = r.map .string) := by
  obtain ⟨ps, hps⟩ := exists_reads t.toList
  have hspans : spans t.toList = insides ps := hps.spans_eq
  refine ⟨ps, hps, fun qs hqs => hps.unique hqs, fun s => ⟨?_, ?_, ?_⟩⟩
  · intro hnone
    rw [Scope.template, hspans, hnone]
  · intro inner hinner
    rw [Scope.template, spans_of_trimChars hinner]
    exact if_pos hinner.2
  · intro hsome hmixed
    have hrenders := s.renders_fill hps
    refine ⟨_, hrenders, fun r' hr' => hrenders.unique hr', ?_⟩
    rw [Scope.template, hspans]
    split
    · rename_i hnone
      exact absurd hnone hsome
    · rename_i inner hone
      have hinner : '}' ∉ inner :=
        hps.not_mem_of_mem_insides (hone ▸ List.mem_singleton_self inner)
      rw [if_neg fun htrim => hmixed inner ⟨hinner, htrim⟩, hone]
    · rfl

end Curator
