/-
Where a text can be cut without changing its tokens.

All that is remembered between one character and the next is the number or the path that is being read.
A blank, a sign or a parenthesis belongs to neither, so it ends what is being read and then counts by
itself.  Such a separator does not ask what was read before it, and leaves nothing behind to go on with:
a text can be cut in front of it and after it.  The tokens of the two parts are then those of the whole,
and of the errors the first one shows.
-/
import Curator.Expression.Token
import Curator.Proofs.Text.CharSet

namespace Curator

namespace Token

/-- A blank, a sign or a parenthesis: none of them belongs to a number or a path. -/
def isSeparator (c : Char) : Bool := Text.isBlank c || (ofChar? c).isSome

/-- A text ends with a separator, or the one after it starts with one. -/
def Separated (cs ds : List Char) : Prop :=
  (∃ c ∈ cs.getLast?, isSeparator c = true) ∨ ∃ d ∈ ds.head?, isSeparator d = true

/-! ### One reading after the other -/

/-- The tokens of one reading and then those of another, or the first of their errors. -/
def inTurn : Except ExpressionError (List Token) → Except ExpressionError (List Token) →
    Except ExpressionError (List Token)
  | .error e, _ => .error e
  | .ok _, .error e => .error e
  | .ok ts, .ok us => .ok (ts ++ us)

@[simp] theorem inTurn_error (e : ExpressionError) (r : Except ExpressionError (List Token)) :
    inTurn (.error e) r = .error e := rfl

@[simp] theorem inTurn_nothing (r : Except ExpressionError (List Token)) :
    inTurn (.ok []) r = r := by
  cases r with
  | error e => rfl
  | ok ts => rfl

theorem inTurn_assoc (r s t : Except ExpressionError (List Token)) :
    inTurn (inTurn r s) t = inTurn r (inTurn s t) := by
  cases r with
  | error e => rfl
  | ok ts =>
      cases s with
      | error e => rfl
      | ok us =>
          cases t with
          | error e => rfl
          | ok vs => simp [inTurn]

theorem tokensAfter_cons_of_step {p q : Pending} {c : Char} {ts : List Token}
    (h : step p c = .ok (ts, q)) (cs : List Char) :
    tokensAfter p (c :: cs) = inTurn (.ok ts) (tokensAfter q cs) := by
  rw [tokensAfter, h]
  dsimp only
  cases tokensAfter q cs with
  | error e => rfl
  | ok us => rfl

/-! ### What a separator does -/

/-- The characters of numbers are characters of paths as well. -/
theorem isPathChar_of_isNumberChar {c : Char} (h : isNumberChar c = true) :
    isPathChar c = true := by
  unfold isNumberChar at h
  unfold isPathChar
  by_cases hpoint : c = '.'
  · simp [hpoint]
  · have hdigit : c.isDigit = true := by simpa [hpoint] using h
    have hrange := Char.isDigit_iff_toNat.mp hdigit
    have hmem : Text.alphanumeric.contains c = true :=
      (Text.CharSet.contains_iff _ c).mpr ⟨(0x30, 0x39), List.mem_cons_self, hrange⟩
    simp [hmem]

theorem isPathChar_of_isSeparator {c : Char} (h : isSeparator c = true) : isPathChar c = false := by
  unfold isSeparator at h
  by_cases hblank : Text.isBlank c = true
  · -- The tables of the two classes have no range in common.
    have hapart : Text.blank.Apart Text.alphanumeric := by decide +kernel
    have hmark : ∀ d, Text.isBlank d = false → c ≠ d := by
      intro d hd hcd
      rw [hcd, hd] at hblank
      cases hblank
    have hunderscore := hmark '_' (by decide)
    have hpoint := hmark '.' (by decide)
    simp [isPathChar, hapart.contains_eq_false hblank, hunderscore, hpoint]
  · have hown : (ofChar? c).isSome = true := by simpa [hblank] using h
    unfold ofChar? at hown
    split at hown
    all_goals first | decide +kernel | cases hown

/-- A separator belongs to nothing that is being read. -/
theorem extend?_of_isSeparator {c : Char} (h : isSeparator c = true) (p : Pending) :
    p.extend? c = none := by
  have hpath := isPathChar_of_isSeparator h
  have hnumber : isNumberChar c = false := by
    rw [Bool.eq_false_iff]
    intro hn
    rw [isPathChar_of_isNumberChar hn] at hpath
    cases hpath
  cases p with
  | nothing => rfl
  | number run => simp [Pending.extend?, hnumber]
  | path run => simp [Pending.extend?, hpath]

theorem exists_start_of_isSeparator {c : Char} (h : isSeparator c = true) :
    ∃ ts, start c = .ok (ts, .nothing) := by
  unfold isSeparator at h
  unfold start
  by_cases hblank : Text.isBlank c = true
  · exact ⟨[], if_pos hblank⟩
  · obtain ⟨t, ht⟩ := Option.isSome_iff_exists.mp (by simpa [hblank] using h)
    exact ⟨[t], by rw [if_neg hblank, ht]⟩

/-- A separator has the same tokens whatever is being read, and after it nothing is. -/
theorem exists_step_of_isSeparator {c : Char} (h : isSeparator c = true) :
    ∃ ts, ∀ p : Pending, step p c = match p.finish with
      | .error e => .error e
      | .ok before => .ok (before ++ ts, .nothing) := by
  obtain ⟨ts, hts⟩ := exists_start_of_isSeparator h
  refine ⟨ts, ?_⟩
  intro p
  have hnone := extend?_of_isSeparator h p
  cases hp : p.finish with
  | error e => simp [step, hnone, hp]
  | ok before => simp [step, hnone, hp, hts]

/-! ### Cutting at a separator -/

/-- A separator ends what is being read, and is read as if nothing had been. -/
theorem tokensAfter_separator {d : Char} (h : isSeparator d = true) (p : Pending) (ds : List Char) :
    tokensAfter p (d :: ds) = inTurn p.finish (tokensAfter .nothing (d :: ds)) := by
  obtain ⟨ts, hstep⟩ := exists_step_of_isSeparator h
  have hfresh : step .nothing d = .ok (ts, .nothing) := hstep .nothing
  rw [tokensAfter_cons_of_step hfresh]
  cases hp : p.finish with
  | error e =>
      have hfails : step p d = .error e := by rw [hstep, hp]
      rw [tokensAfter, hfails]
      rfl
  | ok before =>
      have hends : step p d = .ok (before ++ ts, .nothing) := by rw [hstep, hp]
      rw [tokensAfter_cons_of_step hends, ← inTurn_assoc]
      rfl

theorem tokensAfter_append_separator {d : Char} (h : isSeparator d = true) (cs ds : List Char) :
    ∀ p, tokensAfter p (cs ++ d :: ds) =
      inTurn (tokensAfter p cs) (tokensAfter .nothing (d :: ds)) := by
  -- What is being read changes with every character, so the induction keeps it general.
  induction cs with
  | nil =>
      intro p
      exact tokensAfter_separator h p ds
  | cons c cs ih =>
      intro p
      cases hstep : step p c with
      | error e => simp [tokensAfter, hstep]
      | ok r =>
          obtain ⟨ts, q⟩ := r
          rw [List.cons_append, tokensAfter_cons_of_step hstep, tokensAfter_cons_of_step hstep, ih,
            inTurn_assoc]

/-- A text can be cut in front of a separator and after one. -/
theorem tokensAfter_append {cs ds : List Char} (h : Separated cs ds) (p : Pending) :
    tokensAfter p (cs ++ ds) = inTurn (tokensAfter p cs) (tokensAfter .nothing ds) := by
  rcases h with ⟨c, hlast, hc⟩ | ⟨d, hfirst, hd⟩
  · obtain ⟨front, rfl⟩ := List.getLast?_eq_some_iff.mp hlast
    obtain ⟨ts, hstep⟩ := exists_step_of_isSeparator hc
    have hfresh : step .nothing c = .ok (ts, .nothing) := hstep .nothing
    -- The separator is cut off in front of it, and what it leaves is a fresh start.
    have hsplit : tokensAfter .nothing (c :: ds) =
        inTurn (tokensAfter .nothing [c]) (tokensAfter .nothing ds) := by
      rw [tokensAfter_cons_of_step hfresh, tokensAfter_cons_of_step hfresh, inTurn_assoc,
        tokensAfter, Pending.finish, inTurn_nothing]
    rw [List.append_assoc, List.singleton_append, tokensAfter_append_separator hc,
      tokensAfter_append_separator hc, hsplit, inTurn_assoc]
  · obtain ⟨rest, rfl⟩ := List.head?_eq_some_iff.mp hfirst
    exact tokensAfter_append_separator hd cs rest p

/-- Blanks have no tokens. -/
theorem tokensAfter_blanks {ws : List Char} (h : ∀ c ∈ ws, Text.isBlank c = true) :
    tokensAfter .nothing ws = .ok [] := by
  induction ws with
  | nil => rfl
  | cons c ws ih =>
      have hstep : step .nothing c = .ok ([], .nothing) := by
        simp [step, Pending.extend?, Pending.finish, start, h c List.mem_cons_self]
      rw [tokensAfter_cons_of_step hstep, inTurn_nothing]
      exact ih fun d hd => h d (List.mem_cons_of_mem c hd)

theorem isSeparator_of_isBlank {c : Char} (h : Text.isBlank c = true) : isSeparator c = true := by
  simp [isSeparator, h]

/--
**Texts are read apart across blanks and separators.**  With blanks between two texts, or with nothing
between them if the first ends with a separator or the second starts with one, the tokens of the whole are
those of the first and then those of the second.  If the first cannot be read, its error is that of the
whole, and otherwise the error of the second is.
-/
theorem ofString_append_of_separated {a blanks b : String}
    (hblanks : ∀ c ∈ blanks.toList, Text.isBlank c = true)
    (hapart : blanks ≠ "" ∨ Separated a.toList b.toList) :
    ofString (a ++ blanks ++ b) = inTurn (ofString a) (ofString b) := by
  unfold ofString
  rw [String.toList_append, String.toList_append]
  by_cases hnone : blanks.toList = []
  · have hempty : blanks = "" := String.toList_inj.mp hnone
    have hcut := hapart.resolve_left fun hne => hne hempty
    rw [hnone, List.append_nil]
    exact tokensAfter_append hcut .nothing
  · have hfront : Separated a.toList (blanks.toList ++ b.toList) := by
      refine Or.inr ⟨blanks.toList.head hnone, ?_, ?_⟩
      · rw [List.head?_append, List.head?_eq_some_head hnone]
        rfl
      · exact isSeparator_of_isBlank (hblanks _ (List.head_mem hnone))
    have hback : Separated blanks.toList b.toList := by
      refine Or.inl ⟨blanks.toList.getLast hnone, ?_, ?_⟩
      · rw [List.getLast?_eq_some_getLast hnone]
        rfl
      · exact isSeparator_of_isBlank (hblanks _ (List.getLast_mem hnone))
    rw [List.append_assoc, tokensAfter_append hfront, tokensAfter_append hback,
      tokensAfter_blanks hblanks, inTurn_nothing]

/-- Two paths with an ideographic space between them. -/
theorem ofString_append_of_separated_paths :
    (∀ c ∈ "\u3000".toList, Text.isBlank c = true) ∧ "\u3000" ≠ "" ∧
    ofString ("price" ++ "\u3000" ++ "tax") = .ok [.path "price", .path "tax"] := by
  have hblanks : ∀ c ∈ "\u3000".toList, Text.isBlank c = true :=
    List.all_eq_true.mp (by decide)
  have hne : "\u3000" ≠ "" := by decide
  refine ⟨hblanks, hne, ?_⟩
  rw [ofString_append_of_separated hblanks (Or.inl hne)]
  rfl

example : ofString ("price" ++ "tax") = .ok [.path "pricetax"] := rfl

end Token

end Curator
