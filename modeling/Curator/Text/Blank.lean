/-
Blank characters, and texts with their blank ends taken off.

A character is blank when it has the White_Space property.  Everything that trims or splits a text
at blanks uses this one set, so a no-break space or an ideographic space counts as much as a space.
-/
import Curator.Text.CharSet

namespace Curator.Text

/-- The characters with the White_Space property. -/
def blank : CharSet where
  ranges :=
    [(0x9, 0xD), (0x20, 0x20), (0x85, 0x85), (0xA0, 0xA0), (0x1680, 0x1680), (0x2000, 0x200A),
     (0x2028, 0x2029), (0x202F, 0x202F), (0x205F, 0x205F), (0x3000, 0x3000)]

/-- Whether a character is blank. -/
def isBlank (c : Char) : Bool := blank.contains c

/-- A text without the blanks it starts with. -/
def trimStart (cs : List Char) : List Char := cs.dropWhile isBlank

/-- A text without the blanks it ends with. -/
def trimEnd (cs : List Char) : List Char := (cs.reverse.dropWhile isBlank).reverse

/-- A text without the blanks at either end. -/
def trimChars (cs : List Char) : List Char := trimEnd (trimStart cs)

/-- A string without the blanks at either end. -/
def trim (s : String) : String := String.ofList (trimChars s.toList)

/-- Trimming the end leaves no blank there. -/
theorem trimEnd_getLast {cs : List Char} {c : Char} (h : (trimEnd cs).getLast? = some c) :
    isBlank c = false := by
  rw [trimEnd, List.getLast?_reverse] at h
  have := List.head?_dropWhile_not isBlank cs.reverse
  rw [h] at this
  simpa using this

/-- Trimming takes nothing but blanks off a text. -/
theorem exists_trimChars (cs : List Char) :
    ∃ front back, cs = front ++ trimChars cs ++ back ∧ (∀ c ∈ front, isBlank c = true) ∧
      ∀ c ∈ back, isBlank c = true := by
  refine ⟨cs.takeWhile isBlank, ((trimStart cs).reverse.takeWhile isBlank).reverse, ?_, ?_, ?_⟩
  · rw [List.append_assoc, trimChars, trimEnd, ← List.reverse_append,
      List.takeWhile_append_dropWhile, List.reverse_reverse, trimStart,
      List.takeWhile_append_dropWhile]
  · intro c hc
    exact List.all_eq_true.mp List.all_takeWhile c hc
  · intro c hc
    exact List.all_eq_true.mp List.all_takeWhile c (List.mem_reverse.mp hc)

/-- A text that does not start with a blank still does not after its end is trimmed. -/
theorem head?_trimChars {cs : List Char} {c : Char} (h : (trimChars cs).head? = some c) :
    isBlank c = false := by
  have hfront := List.head?_dropWhile_not isBlank cs
  obtain ⟨t, ht⟩ : ∃ t, trimStart cs = trimChars cs ++ t := by
    refine ⟨((trimStart cs).reverse.takeWhile isBlank).reverse, ?_⟩
    rw [trimChars, trimEnd, ← List.reverse_append, List.takeWhile_append_dropWhile,
      List.reverse_reverse]
  have : (trimStart cs).head? = some c := by
    rw [ht, List.head?_append, h]; rfl
  rw [trimStart] at this
  rw [this] at hfront
  simpa using hfront

/-! ### Texts that trimming leaves alone -/

/-- Whether a text has no blank at either end. -/
def IsTrimmed (cs : List Char) : Prop :=
  (∀ c ∈ cs.head?, isBlank c = false) ∧ ∀ c ∈ cs.getLast?, isBlank c = false

theorem isTrimmed_trimChars (cs : List Char) : IsTrimmed (trimChars cs) :=
  ⟨fun _ h => head?_trimChars h, fun _ h => trimEnd_getLast h⟩

theorem dropWhile_isBlank {cs : List Char} (h : ∀ c ∈ cs.head?, isBlank c = false) :
    cs.dropWhile isBlank = cs := by
  cases cs with
  | nil => rfl
  | cons c cs => rw [List.dropWhile_cons, h c rfl]; rfl

/-- Blanks around a text are what trimming takes off. -/
theorem trimChars_surrounded {front cs back : List Char} (hfront : ∀ c ∈ front, isBlank c = true)
    (hback : ∀ c ∈ back, isBlank c = true) (h : IsTrimmed cs) :
    trimChars (front ++ cs ++ back) = cs := by
  have hreverse : ∀ c ∈ back.reverse, isBlank c = true :=
    fun c hc => hback c (List.mem_reverse.mp hc)
  have hend : trimEnd (cs ++ back) = cs := by
    rw [trimEnd, List.reverse_append, List.dropWhile_append_of_pos hreverse,
      dropWhile_isBlank (by rw [List.head?_reverse]; exact h.2), List.reverse_reverse]
  rw [trimChars, trimStart, List.append_assoc, List.dropWhile_append_of_pos hfront]
  cases cs with
  | nil => rw [List.nil_append, ← List.append_nil back, List.dropWhile_append_of_pos hback]; rfl
  | cons c cs => rw [dropWhile_isBlank (fun d hd => h.1 d (by simpa using hd)), hend]

theorem trimChars_eq_self {cs : List Char} (h : IsTrimmed cs) : trimChars cs = cs := by
  have htrim := @trimChars_surrounded [] cs [] nofun nofun h
  rwa [List.nil_append, List.append_nil] at htrim

/-- Trimming leaves nothing of a text exactly if all of it is blank. -/
theorem trimChars_eq_nil_iff (cs : List Char) : trimChars cs = [] ↔ ∀ c ∈ cs, isBlank c = true := by
  constructor
  · intro htrim c hc
    obtain ⟨front, back, hcs, hfront, hback⟩ := exists_trimChars cs
    rw [hcs, htrim, List.append_nil] at hc
    exact (List.mem_append.mp hc).elim (hfront c) (hback c)
  · intro hblank
    have htrim := @trimChars_surrounded cs [] [] hblank nofun ⟨nofun, nofun⟩
    rwa [List.append_nil, List.append_nil] at htrim

end Curator.Text
