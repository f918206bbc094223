/-
Where a lowercased text ends with ASCII letters.

Lowercasing may change how many characters and how many bytes a text has, and for a sigma it looks at what
stands around it.  None of this is seen at the end of a text as long as only `IsPlain` letters are looked for
there: a letter like that is the lowercase form of an ASCII letter and of nothing else.  So a lowercased text
ends with such letters exactly if the text itself ends with them, each in either case
(`endsWith_lowercase`), and there it has as many bytes as characters.
-/
import Curator.Proofs.Text.Lowercase
import Curator.Text.Singular

namespace Curator.Text

/-! ### The end of a lowercased text -/

/-- A lowercase ASCII letter that is the lowercase form of ASCII letters only; `k` is the form of the Kelvin
sign as well. -/
def IsPlain (d : Char) : Prop := 'a' ≤ d ∧ d ≤ 'z' ∧ d ≠ 'k'

instance : DecidablePred IsPlain := fun d => inferInstanceAs (Decidable ('a' ≤ d ∧ d ≤ 'z' ∧ d ≠ 'k'))

theorem IsPlain.toNat {d : Char} (hd : IsPlain d) :
    97 ≤ d.toNat ∧ d.toNat ≤ 122 ∧ d.toNat ≠ 107 := by
  obtain ⟨hlow, hhigh, hk⟩ := hd
  exact ⟨UInt32.le_iff_toNat_le.mp hlow, UInt32.le_iff_toNat_le.mp hhigh,
    fun h => hk (Char.toNat_inj.mp h)⟩

/-- What has a plain letter as its ASCII lowercase form is an ASCII letter. -/
theorem lt_of_isPlain_toLower {c : Char} (h : IsPlain c.toLower) : c.toNat < 128 := by
  unfold Char.toLower at h
  split at h
  · rename_i hupper
    have hle : c.toNat ≤ 90 := UInt32.le_iff_toNat_le.mp hupper.2
    omega
  · have hbounds := h.toNat
    omega

/-- A run of shifts that leads to ASCII letters starts from ASCII, but for the run of the Kelvin sign. -/
theorem lowerShifts_ascii : ∀ s ∈ lowerShifts,
    s.last < 128 ∨ s.high < 97 ∨ 122 < s.low ∨ s.low = 107 ∧ s.high = 107 := by
  decide +kernel

theorem lowerChar_of_lt {c : Char} (hc : c.toNat < 128) : lowerChar c = [c.toLower] := by
  have hascii : ∀ n < 128, lowerChar (Char.ofNat n) = [(Char.ofNat n).toLower] := by decide +kernel
  have hform := hascii c.toNat hc
  rwa [Char.ofNat_toNat] at hform

/-- Only an ASCII letter is lowercased to a plain letter. -/
theorem lt_of_lowerChar {c d : Char} (hd : IsPlain d) (h : lowerChar c = [d]) : c.toNat < 128 := by
  have hletter := hd.toNat
  unfold lowerChar at h
  split at h
  · cases h
  · split at h
    · rename_i s hfind
      have hs := List.mem_of_find?_eq_some hfind
      have hcovers := List.find?_some hfind
      have hform := LowerShift.toNat_form hs hcovers
      rw [List.singleton_inj.mp h] at hform
      obtain ⟨hfirst, hlast, -⟩ := LowerShift.covers_iff.mp hcovers
      have hruns := lowerShifts_ascii s hs
      unfold LowerShift.low LowerShift.high at hruns
      omega
    · rw [List.singleton_inj.mp h]
      omega

theorem lowerChar_eq_singleton_iff {c d : Char} (hd : IsPlain d) :
    lowerChar c = [d] ↔ c.toLower = d := by
  constructor
  · intro h
    rw [lowerChar_of_lt (lt_of_lowerChar hd h)] at h
    exact List.singleton_inj.mp h
  · rintro rfl
    exact lowerChar_of_lt (lt_of_isPlain_toLower hd)

/-- A lowercased text begins with one character, or with the two that the capital I with a dot becomes.  Either
way it begins with a plain letter only if ASCII lowercasing says so. -/
theorem lowercaseAfter_cons (before : List Char) (c : Char) (cs : List Char) :
    (∃ d, lowercaseAfter before (c :: cs) = d :: lowercaseAfter (c :: before) cs ∧
      ∀ e, IsPlain e → (d = e ↔ c.toLower = e)) ∨
    lowercaseAfter before (c :: cs) = 'i' :: '\u0307' :: lowercaseAfter (c :: before) cs ∧
      ¬ IsPlain c.toLower := by
  rw [lowercaseAfter]
  by_cases hsigma : c = 'Σ'
  · subst hsigma
    have hforms : ¬ IsPlain 'ς' ∧ ¬ IsPlain 'σ' ∧ ¬ IsPlain 'Σ'.toLower := by decide
    refine Or.inl ⟨_, rfl, fun e he => iff_of_false ?_ fun h => hforms.2.2 (h ▸ he)⟩
    rintro rfl
    split at he
    · exact hforms.1 he
    · exact hforms.2.1 he
  · rw [if_neg (by simpa using hsigma)]
    by_cases hdot : c = 'İ'
    · subst hdot
      exact Or.inr ⟨rfl, by decide⟩
    · obtain ⟨d, hd⟩ : ∃ d, lowerChar c = [d] := by
        unfold lowerChar
        rw [if_neg (by simpa using hdot)]
        split
        · exact ⟨_, rfl⟩
        · exact ⟨_, rfl⟩
      rw [hd]
      refine Or.inl ⟨d, rfl, fun e he => ?_⟩
      rw [← lowerChar_eq_singleton_iff he, hd, List.singleton_inj]

variable {e : List Char}

/-- A text whose lowercase form is made of plain letters is made of ASCII letters. -/
theorem lowercaseAfter_eq_iff (he : ∀ d ∈ e, IsPlain d) (before cs : List Char) :
    lowercaseAfter before cs = e ↔ cs.map Char.toLower = e := by
  induction cs generalizing before e with
  | nil => rfl
  | cons c cs ih =>
      rcases lowercaseAfter_cons before c cs with ⟨f, hform, hf⟩ | ⟨hform, hc⟩
      · rw [hform, List.map_cons]
        cases e with
        | nil => simp
        | cons d e =>
            have hrest := fun a ha => he a (List.mem_cons_of_mem d ha)
            rw [List.cons.injEq, List.cons.injEq, hf d (he d List.mem_cons_self), ih hrest]
      · refine iff_of_false ?_ ?_
        · rw [hform]
          rintro rfl
          exact absurd (he '\u0307' (by simp)) (by decide)
        · rintro rfl
          exact hc (he _ List.mem_cons_self)

/-- A lowercased text ends with plain letters exactly if the text does, each letter in either case. -/
theorem suffix_lowercaseAfter_iff (he : ∀ d ∈ e, IsPlain d) (before cs : List Char) :
    e <:+ lowercaseAfter before cs ↔ e <:+ cs.map Char.toLower := by
  induction cs generalizing before with
  | nil => rfl
  | cons c cs ih =>
      have hwhole := lowercaseAfter_eq_iff he before (c :: cs)
      rw [eq_comm, eq_comm (b := e), List.map_cons] at hwhole
      rcases lowercaseAfter_cons before c cs with ⟨f, hform, -⟩ | ⟨hform, -⟩
      · rw [hform] at hwhole ⊢
        rw [List.map_cons, List.suffix_cons_iff, List.suffix_cons_iff, hwhole, ih]
      · -- an ending that begins in between the two characters begins with the dot
        have hdot : e ≠ '\u0307' :: lowercaseAfter (c :: before) cs := by
          rintro rfl
          exact absurd (he _ List.mem_cons_self) (by decide)
        rw [hform] at hwhole ⊢
        rw [List.map_cons, List.suffix_cons_iff, List.suffix_cons_iff, List.suffix_cons_iff, hwhole,
          or_iff_right hdot, ih]

/-! ### Endings -/

theorem endsWith_iff {ending : String} {cs : List Char} :
    endsWith ending cs = true ↔ ending.toList <:+ cs := List.isSuffixOf_iff_suffix

/-- Of two endings of one text the one is an ending of the other. -/
theorem endsWith_or_endsWith {one other : String} {cs : List Char} (h : endsWith one cs = true)
    (h' : endsWith other cs = true) :
    endsWith one other.toList = true ∨ endsWith other one.toList = true := by
  rw [endsWith_iff, endsWith_iff]
  exact List.suffix_or_suffix_of_suffix (endsWith_iff.mp h) (endsWith_iff.mp h')

/-- What ends with an ending ends with the endings of it. -/
theorem endsWith_of_endsWith {one other : String} {cs : List Char}
    (h : endsWith one other.toList = true) (h' : endsWith other cs = true) :
    endsWith one cs = true := endsWith_iff.mpr ((endsWith_iff.mp h).trans (endsWith_iff.mp h'))

/-- An ending is made of plain letters. -/
def AllPlain (ending : String) : Prop := ∀ d ∈ ending.toList, IsPlain d

instance (ending : String) : Decidable (AllPlain ending) :=
  List.decidableBAll IsPlain ending.toList

/-- For an ending of plain letters it makes no difference how other characters are lowercased. -/
theorem endsWith_lowercase {ending : String} (h : AllPlain ending) (cs : List Char) :
    endsWith ending (lowercase cs) = endsWith ending (cs.map Char.toLower) := by
  rw [Bool.eq_iff_iff, endsWith_iff, endsWith_iff]
  exact suffix_lowercaseAfter_iff h [] cs

/-- Plain letters are as many bytes as characters, in either case. -/
theorem utf8ByteSize_ofList_of_isPlain {cs : List Char} (h : ∀ c ∈ cs, IsPlain c.toLower) :
    (String.ofList cs).utf8ByteSize = cs.length := by
  induction cs with
  | nil => rfl
  | cons c cs ih =>
      have hc : c.toNat < 128 := lt_of_isPlain_toLower (h c List.mem_cons_self)
      have hbyte : c.utf8Size = 1 := by
        have hle : c.val ≤ 0x7F := UInt32.le_iff_toNat_le.mpr (Nat.le_of_lt_succ hc)
        exact if_pos hle
      rw [String.ofList_cons, String.utf8ByteSize_append, String.utf8ByteSize_singleton, hbyte,
        ih fun d hd => h d (List.mem_cons_of_mem c hd), List.length_cons, Nat.add_comm]

/-- A text is an ending, but for the case of its letters. -/
def Spells (tail ending : String) : Prop := tail.toList.map Char.toLower = ending.toList

namespace Spells

variable {tail ending : String}

theorem length_eq (h : Spells tail ending) : tail.length = ending.length := by
  have hlength := congrArg List.length h
  rwa [List.length_map, String.length_toList, String.length_toList] at hlength

theorem utf8ByteSize_eq (h : Spells tail ending) (hplain : AllPlain ending) :
    tail.utf8ByteSize = ending.length := by
  have hletters : ∀ c ∈ tail.toList, IsPlain c.toLower :=
    fun c hc => hplain _ (h ▸ List.mem_map_of_mem hc)
  have hbytes := utf8ByteSize_ofList_of_isPlain hletters
  rw [String.ofList_toList, String.length_toList] at hbytes
  rw [hbytes, h.length_eq]

/-- Something stands in front of an ending that is shorter than the text. -/
theorem ne_empty {stem : String} (h : Spells tail ending)
    (hlength : ending.length < (stem ++ tail).toList.length) : stem ≠ "" := by
  rintro rfl
  rw [String.empty_append, String.length_toList, h.length_eq] at hlength
  exact Nat.lt_irrefl _ hlength

end Spells

/-- A text whose ASCII lowercase form comes in two parts comes in two parts. -/
theorem exists_append_of_map {s : String} {front back : List Char}
    (h : s.toList.map Char.toLower = front ++ back) :
    ∃ stem tail : String, s = stem ++ tail ∧ stem.toList.map Char.toLower = front ∧
      tail.toList.map Char.toLower = back := by
  obtain ⟨stem, tail, hs, hstem, htail⟩ := List.map_eq_append_iff.mp h
  refine ⟨String.ofList stem, String.ofList tail, ?_, by simpa using hstem, by simpa using htail⟩
  rw [← String.ofList_append, ← hs, String.ofList_toList]

theorem exists_append_of_endsWith {s ending : String}
    (h : endsWith ending (s.toList.map Char.toLower) = true) :
    ∃ stem tail : String, s = stem ++ tail ∧ Spells tail ending := by
  obtain ⟨front, hfront⟩ := endsWith_iff.mp h
  obtain ⟨stem, tail, hs, -, htail⟩ := exists_append_of_map hfront.symm
  exact ⟨stem, tail, hs, htail⟩

end Curator.Text
