/-
Lowercasing a text.

Every character has a lowercase form of its own, with one exception: a capital sigma at the end of
a word becomes the final form.  A sigma ends a word when, passing over the characters that do not
interrupt a word, a cased character stands before it and none stands after it.  The only character
whose lowercase form has two characters is the capital I with a dot above.
-/
import Curator.Text.Casing

namespace Curator.Text

/-- Whether a run of shifts says where the lowercase form of `c` lies. -/
def LowerShift.covers (s : LowerShift) (c : Char) : Bool :=
  s.first ≤ c.toNat && c.toNat ≤ s.last && (c.toNat - s.first) % s.step == 0

/-- The lowercase form of a character that stands alone. -/
def lowerChar (c : Char) : List Char :=
  if c == 'İ' then ['i', '\u0307']
  else
    match lowerShifts.find? fun s => s.covers c with
    | some s => [Char.ofNat ((c.toNat : Int) + s.shift).toNat]
    | none => [c]

/-- Whether the first character that interrupts a word is a cased one. -/
def meetsCased (cs : List Char) : Bool :=
  match cs.dropWhile caseIgnorable.contains with
  | [] => false
  | c :: _ => cased.contains c

/-- The lowercase form of a text that follows `before`, which is written backwards. -/
def lowercaseAfter (before : List Char) : List Char → List Char
  | [] => []
  | c :: cs =>
    (if c == 'Σ' then [if meetsCased before && !meetsCased cs then 'ς' else 'σ'] else lowerChar c)
      ++ lowercaseAfter (c :: before) cs

/-- The lowercase form of a text. -/
def lowercase (cs : List Char) : List Char := lowercaseAfter [] cs

end Curator.Text
