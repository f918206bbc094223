/-
The singular of a name, cut off in bytes.

The ending is looked for in the lowercased name, but it is the name itself that is cut, so many bytes before its
end.  The letters of the endings are plain ones, so the name has the ending that was found, in as many bytes
as there are letters, and the cut lies between two of its characters.

The rules overlap, but whichever of them applies, what it leaves ends with a `y`, with a sibilant or with a
letter other than `s`, and no rule finds a plural there (`Plural.singular?_eq_none`).
-/
import Curator.Proofs.Text.Endings

namespace Curator.Text

/-! ### Cuts in bytes -/

/-- What is done to a name: so many bytes at its end go, and something is added in their place. -/
structure Clipping where
  bytes : Nat
  added : String
deriving DecidableEq

namespace Clipping

/-- The place where a name is cut. -/
def place (c : Clipping) (name : String) : String.Pos.Raw := ⟨name.utf8ByteSize - c.bytes⟩

/-- Whether a name has the bytes that are to go, and they begin where a character begins. -/
def BetweenCharacters (c : Clipping) (name : String) : Prop :=
  c.bytes ≤ name.utf8ByteSize ∧ (c.place name).IsValid name

instance (c : Clipping) (name : String) : Decidable (c.BetweenCharacters name) :=
  inferInstanceAs (Decidable (_ ∧ _))

/-- The name clipped; there is none if that would cut a character in two. -/
def clip? (c : Clipping) (name : String) : Option String :=
  if h : c.BetweenCharacters name then
    some ((name.sliceTo (name.pos (c.place name) h.2)).copy ++ c.added)
  else none

theorem betweenCharacters_append (stem tail added : String) :
    (⟨tail.utf8ByteSize, added⟩ : Clipping).BetweenCharacters (stem ++ tail) := by
  refine ⟨?_, String.Pos.Raw.isValid_iff_exists_append.mpr ⟨stem, tail, rfl, ?_⟩⟩
  · rw [String.utf8ByteSize_append]
    exact Nat.le_add_left _ _
  · rw [place, String.utf8ByteSize_append, Nat.add_sub_cancel]
    rfl

/-- What goes with the bytes of a name's end is that end. -/
theorem clip?_append (stem tail added : String) :
    (⟨tail.utf8ByteSize, added⟩ : Clipping).clip? (stem ++ tail) = some (stem ++ added) := by
  have hbetween := betweenCharacters_append stem tail added
  have hplace : ((stem ++ tail).pos _ hbetween.2).Splits stem tail := by
    refine ⟨rfl, ?_⟩
    rw [String.offset_pos, place, String.utf8ByteSize_append, Nat.add_sub_cancel]
    rfl
  rw [clip?, dif_pos hbetween, hplace.copy_sliceTo_eq]

end Clipping

/-- How a name is clipped to its singular, with all lengths in bytes; a singular is left alone. -/
def clipping? (name : String) : Option Clipping :=
  let lower := lowercase name.toList
  if endsWith "ies" lower && 3 < name.utf8ByteSize then some ⟨3, "y"⟩
  else if sibilantEndings.any (endsWith · lower) then some ⟨2, ""⟩
  else if endsWith "s" lower && !endsWith "ss" lower && !endsWith "us" lower &&
      1 < name.utf8ByteSize then
    some ⟨1, ""⟩
  else none

/-! ### The rules -/

/-- The sibilants that are followed by `es` in the plural. -/
def sibilants : List String := ["ss", "sh", "ch", "x", "z"]

/-- What marks a plural: the ending behind a stem, and what the singular has in its place. -/
inductive Plural (stem : String) : (ending added : String) → Prop
  | ies (hstem : stem ≠ "") : Plural stem "ies" "y"
  | es {sibilant : String} (hsibilant : sibilant ∈ sibilants)
      (hstem : endsWith sibilant (stem.toList.map Char.toLower) = true) : Plural stem "es" ""
  | s (hstem : stem ≠ "") (hsingle : endsWith "s" (stem.toList.map Char.toLower) = false) :
      Plural stem "s" ""

/-- A name that ends neither in `es` nor in a single `s` is singular. -/
theorem singularChars?_eq_none {cs : List Char} (hes : endsWith "es" (cs.map Char.toLower) = false)
    (hs : endsWith "s" (cs.map Char.toLower) = true → endsWith "ss" (cs.map Char.toLower) = true) :
    singularChars? cs = none := by
  have hlong : ∀ ending ∈ "ies" :: sibilantEndings, endsWith ending (lowercase cs) = false := by
    have hendings : ∀ ending ∈ "ies" :: sibilantEndings,
        AllPlain ending ∧ endsWith "es" ending.toList = true := by decide
    intro ending hmem
    obtain ⟨hplain, hlast⟩ := hendings ending hmem
    rw [endsWith_lowercase hplain, Bool.eq_false_iff]
    intro h
    rw [endsWith_of_endsWith hlast h] at hes
    cases hes
  have hsibilant : sibilantEndings.any (endsWith · (lowercase cs)) = false :=
    List.any_eq_false.mpr fun ending hmem => by simp [hlong ending (List.mem_cons_of_mem _ hmem)]
  have hsingle : (endsWith "s" (lowercase cs) && !endsWith "ss" (lowercase cs)) = false := by
    rw [endsWith_lowercase (by decide), endsWith_lowercase (by decide)]
    simpa using hs
  simp [singularChars?, hlong "ies" List.mem_cons_self, hsibilant, hsingle]

/-- A name that ends in a `y` or in a sibilant is singular. -/
theorem singularChars?_of_endsWith {last : String} (hlast : last ∈ "y" :: sibilants)
    {cs : List Char} (h : endsWith last (cs.map Char.toLower) = true) :
    singularChars? cs = none := by
  -- an ending that the name has besides would be an ending of `last`, or the other way round
  have hapart : ∀ last ∈ "y" :: sibilants,
      ¬ (endsWith "es" last.toList = true ∨ endsWith last "es".toList = true) ∧
      (endsWith "s" last.toList = true ∨ endsWith last "s".toList = true → last = "ss") := by
    decide
  obtain ⟨hes, hs⟩ := hapart last hlast
  refine singularChars?_eq_none ?_ fun hsingle => ?_
  · rw [Bool.eq_false_iff]
    exact fun hplural => hes (endsWith_or_endsWith hplural h)
  · exact hs (endsWith_or_endsWith hsingle h) ▸ h

namespace Plural

variable {stem ending added : String}

theorem allPlain (h : Plural stem ending added) : AllPlain ending := by
  cases h with
  | ies => decide
  | es => decide
  | s => decide

/-- Less is added than taken off. -/
theorem length_lt (h : Plural stem ending added) : added.length < ending.length := by
  cases h with
  | ies => decide
  | es => decide
  | s => decide

/-- Something is left of a plural. -/
theorem append_ne_empty (h : Plural stem ending added) : stem ++ added ≠ "" := by
  cases h with
  | ies hstem => simp
  | @es sibilant hsibilant hstem =>
      rw [String.append_empty]
      rintro rfl
      have hnowhere : ∀ sibilant ∈ sibilants, endsWith sibilant [] = false := by decide
      exact absurd hstem (Bool.eq_false_iff.mp (hnowhere sibilant hsibilant))
  | s hstem => simpa using hstem

/-- No rule finds a plural in what another has left. -/
theorem singular?_eq_none (h : Plural stem ending added) : singular? (stem ++ added) = none := by
  rw [singular?, Option.map_eq_none_iff]
  cases h with
  | ies =>
      refine singularChars?_of_endsWith List.mem_cons_self (endsWith_iff.mpr ?_)
      rw [String.toList_append, List.map_append]
      exact List.suffix_append _ _
  | es hsibilant hstem =>
      rw [String.append_empty]
      exact singularChars?_of_endsWith (List.mem_cons_of_mem _ hsibilant) hstem
  | s _ hsingle =>
      rw [String.append_empty]
      refine singularChars?_eq_none ?_ fun h => ?_
      · rw [Bool.eq_false_iff] at hsingle ⊢
        exact fun hes => hsingle (endsWith_of_endsWith (by decide) hes)
      · rw [hsingle] at h
        cases h

end Plural

/-! ### Which rule applies -/

/-- Whether a name is longer than its ending can be told from the bytes as from the characters. -/
theorem and_lt_utf8ByteSize (ending : String) (n : Nat) (hn : ending.length = n)
    (hplain : AllPlain ending) {name : String} {b : Bool}
    (hb : b = true → endsWith ending (lowercase name.toList) = true) :
    (b && decide (n < name.utf8ByteSize)) = (b && decide (n < name.toList.length)) := by
  cases b with
  | false => rfl
  | true =>
      have hending := hb rfl
      rw [endsWith_lowercase hplain] at hending
      obtain ⟨stem, tail, rfl, htail⟩ := exists_append_of_endsWith hending
      have hempty : stem.utf8ByteSize = 0 ↔ stem.length = 0 := by
        rw [String.utf8ByteSize_eq_zero_iff, ← String.length_toList, List.length_eq_zero_iff,
          String.toList_eq_nil_iff]
      rw [Bool.true_and, Bool.true_and, decide_eq_decide, String.length_toList,
        String.length_append, String.utf8ByteSize_append, htail.length_eq,
        htail.utf8ByteSize_eq hplain]
      omega

theorem exists_plural_ies {name : String} (h : endsWith "ies" (lowercase name.toList) = true)
    (hlength : 3 < name.toList.length) :
    ∃ stem tail, name = stem ++ tail ∧ Spells tail "ies" ∧ Plural stem "ies" "y" := by
  rw [endsWith_lowercase (by decide)] at h
  obtain ⟨stem, tail, rfl, htail⟩ := exists_append_of_endsWith h
  exact ⟨stem, tail, rfl, htail, .ies (htail.ne_empty hlength)⟩

theorem exists_plural_es {name : String}
    (h : sibilantEndings.any (endsWith · (lowercase name.toList)) = true) :
    ∃ stem tail, name = stem ++ tail ∧ Spells tail "es" ∧ Plural stem "es" "" := by
  have hendings : ∀ ending ∈ sibilantEndings, AllPlain ending ∧
      ∃ sibilant ∈ sibilants, ending.toList = sibilant.toList ++ "es".toList := by decide
  obtain ⟨ending, hmem, hending⟩ := List.any_eq_true.mp h
  obtain ⟨hplain, sibilant, hsibilant, hparts⟩ := hendings ending hmem
  rw [endsWith_lowercase hplain, endsWith_iff, hparts] at hending
  obtain ⟨front, hfront⟩ := hending
  rw [← List.append_assoc] at hfront
  obtain ⟨stem, tail, rfl, hstem, htail⟩ := exists_append_of_map hfront.symm
  refine ⟨stem, tail, rfl, htail, .es hsibilant ?_⟩
  rw [hstem]
  exact endsWith_iff.mpr (List.suffix_append _ _)

theorem exists_plural_s {name : String} (h : endsWith "s" (lowercase name.toList) = true)
    (hdouble : endsWith "ss" (lowercase name.toList) = false) (hlength : 1 < name.toList.length) :
    ∃ stem tail, name = stem ++ tail ∧ Spells tail "s" ∧ Plural stem "s" "" := by
  rw [endsWith_lowercase (by decide)] at h hdouble
  obtain ⟨stem, tail, rfl, htail⟩ := exists_append_of_endsWith h
  refine ⟨stem, tail, rfl, htail, .s (htail.ne_empty hlength) ?_⟩
  rw [Bool.eq_false_iff] at hdouble ⊢
  intro hstem
  obtain ⟨front, hfront⟩ := endsWith_iff.mp hstem
  refine hdouble (endsWith_iff.mpr ⟨front, ?_⟩)
  rw [String.toList_append, List.map_append, ← hfront, htail, List.append_assoc]
  rfl

theorem singular?_append {stem tail ending added : String} (h : Spells tail ending)
    (hchars : singularChars? (stem ++ tail).toList =
      some (dropEnd ending.length (stem ++ tail).toList ++ added.toList)) :
    singular? (stem ++ tail) = some (stem ++ added) := by
  have hstem : dropEnd ending.length (stem ++ tail).toList = stem.toList := by
    rw [dropEnd, String.toList_append, List.length_append, String.length_toList (s := tail),
      h.length_eq, Nat.add_sub_cancel, List.take_left]
  rw [singular?, hchars, hstem, ← String.toList_append, Option.map_some, String.ofList_toList]

/-- A name is left alone, or one of the rules applies to it; which one can be told from the bytes. -/
theorem clipping?_cases (name : String) :
    clipping? name = none ∧ singular? name = none ∨
    ∃ stem tail ending added, name = stem ++ tail ∧ Spells tail ending ∧
      Plural stem ending added ∧ clipping? name = some ⟨ending.length, added⟩ ∧
      singular? name = some (stem ++ added) := by
  unfold clipping?
  dsimp only
  rw [and_lt_utf8ByteSize "ies" 3 rfl (by decide) id,
    and_lt_utf8ByteSize "s" 1 rfl (by decide) fun h =>
      (Bool.and_eq_true_iff.mp (Bool.and_eq_true_iff.mp h).1).1]
  -- with lengths in characters, both definitions put the same three questions in the same order
  by_cases hies : (endsWith "ies" (lowercase name.toList) && 3 < name.toList.length) = true
  · obtain ⟨hending, hlength⟩ := Bool.and_eq_true_iff.mp hies
    obtain ⟨stem, tail, rfl, htail, hplural⟩ :=
      exists_plural_ies hending (of_decide_eq_true hlength)
    exact Or.inr ⟨stem, tail, _, _, rfl, htail, hplural, if_pos hies,
      singular?_append htail (if_pos hies)⟩
  by_cases hes : sibilantEndings.any (endsWith · (lowercase name.toList)) = true
  · obtain ⟨stem, tail, rfl, htail, hplural⟩ := exists_plural_es hes
    refine Or.inr ⟨stem, tail, _, _, rfl, htail, hplural, (if_neg hies).trans (if_pos hes),
      singular?_append htail ?_⟩
    rw [String.toList_empty, List.append_nil]
    exact (if_neg hies).trans (if_pos hes)
  by_cases hs : (endsWith "s" (lowercase name.toList) && !endsWith "ss" (lowercase name.toList) &&
      !endsWith "us" (lowercase name.toList) && 1 < name.toList.length) = true
  · have hall := hs
    simp only [Bool.and_eq_true, Bool.not_eq_true', decide_eq_true_eq] at hall
    obtain ⟨⟨⟨hending, hdouble⟩, -⟩, hlength⟩ := hall
    obtain ⟨stem, tail, rfl, htail, hplural⟩ := exists_plural_s hending hdouble hlength
    refine Or.inr ⟨stem, tail, _, _, rfl, htail, hplural,
      (if_neg hies).trans ((if_neg hes).trans (if_pos hs)), singular?_append htail ?_⟩
    rw [String.toList_empty, List.append_nil]
    exact (if_neg hies).trans ((if_neg hes).trans (if_pos hs))
  · refine Or.inl ⟨(if_neg hies).trans ((if_neg hes).trans (if_neg hs)), ?_⟩
    rw [singular?, Option.map_eq_none_iff]
    exact (if_neg hies).trans ((if_neg hes).trans (if_neg hs))

/-! ### Singulars -/

/-- The singular form of a name, which is the name itself if it is singular already. -/
def singularForm (name : String) : String := (singular? name).getD name

/--
**A singular is cut off between characters, once and for all.**  The bytes that a plural ending stands for begin
where a character begins, so what is cut in bytes is the singular.  It is what stands in front of the ending,
with less added than was taken off; there is something left of the name, and nothing more to take off.
-/
theorem singular_clipped (name : String) :
    (∀ c, clipping? name = some c → c.BetweenCharacters name) ∧
    singular? name = (clipping? name).bind (·.clip? name) ∧
    (∀ t, singular? name = some t → ∃ stem tail added, name = stem ++ tail ∧ t = stem ++ added ∧
      clipping? name = some ⟨tail.utf8ByteSize, added⟩ ∧
      t ≠ "" ∧ t.length < name.length ∧ singular? t = none) ∧
    singularForm (singularForm name) = singularForm name := by
  rcases clipping?_cases name with ⟨hclip, hsingular⟩ |
    ⟨stem, tail, ending, added, rfl, htail, hplural, hclip, hsingular⟩
  · have hform : singularForm name = name := by rw [singularForm, hsingular]; rfl
    rw [hclip, hsingular, hform, hform]
    exact ⟨nofun, rfl, nofun, rfl⟩
  · have hform : singularForm (stem ++ tail) = stem ++ added := by
      rw [singularForm, hsingular]; rfl
    have hagain : singularForm (stem ++ added) = stem ++ added := by
      rw [singularForm, hplural.singular?_eq_none]; rfl
    rw [← htail.utf8ByteSize_eq hplural.allPlain] at hclip
    rw [hclip, hsingular, hform, hagain]
    refine ⟨?_, ?_, ?_, rfl⟩
    · rintro c ⟨⟩
      exact Clipping.betweenCharacters_append stem tail added
    · exact (Clipping.clip?_append stem tail added).symm
    · rintro t ⟨⟩
      refine ⟨stem, tail, added, rfl, rfl, rfl, hplural.append_ne_empty, ?_,
        hplural.singular?_eq_none⟩
      rw [String.length_append, String.length_append, htail.length_eq]
      exact Nat.add_lt_add_left hplural.length_lt _

/-- The capital I with a dot takes another byte in lowercase; the name is cut where its own bytes say. -/
theorem singular_clipped_boxes :
    (⟨2, ""⟩ : Clipping).BetweenCharacters "İBOXES" ∧ singular? "İBOXES" = some "İBOX" ∧
      singular? "İBOX" = none := by
  obtain ⟨hbetween, -, hcut, -⟩ := singular_clipped "İBOXES"
  have hclip : clipping? "İBOXES" = some ⟨2, ""⟩ := by decide +kernel
  have hsingular : singular? "İBOXES" = some "İBOX" := by decide +kernel
  obtain ⟨-, -, -, -, -, -, -, -, hagain⟩ := hcut "İBOX" hsingular
  exact ⟨hbetween _ hclip, hsingular, hagain⟩

example : ["users", "categories", "boxes", "addresses", "status", "ies"].map singular? =
    [some "user", some "category", some "box", some "address", none, some "ie"] := by
  decide +kernel

end Curator.Text
