/-
The singular of an entity's name.

The ending decides, whatever its case: `ies` becomes `y`, the `es` of a sibilant plural goes, and so
does a plain `s` that is not part of `ss` or `us`.  A name with none of these endings is singular
already.  The endings are ASCII and only ASCII letters lowercase to them, so the number of
characters taken off the name is the number of characters of the ending.
-/
import Curator.Text.Lowercase

namespace Curator.Text

/-- The endings whose last two characters mark the plural. -/
def sibilantEndings : List String := ["sses", "shes", "ches", "xes", "zes"]

/-- Whether a text ends with a given ending. -/
def endsWith (ending : String) (cs : List Char) : Bool := ending.toList.isSuffixOf cs

/-- A text without its last `n` characters. -/
def dropEnd (n : Nat) (cs : List Char) : List Char := cs.take (cs.length - n)

/-- The singular of a name, or nothing when the name is singular already. -/
def singularChars? (name : List Char) : Option (List Char) :=
  let lower := lowercase name
  if endsWith "ies" lower && 3 < name.length then some (dropEnd 3 name ++ ['y'])
  else if sibilantEndings.any (endsWith · lower) then some (dropEnd 2 name)
  else if endsWith "s" lower && !endsWith "ss" lower && !endsWith "us" lower && 1 < name.length then
    some (dropEnd 1 name)
  else none

/-- The singular of a name, or nothing when the name is singular already. -/
def singular? (name : String) : Option String :=
  (singularChars? name.toList).map String.ofList

end Curator.Text
