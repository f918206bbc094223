/-
Slugs: the words of a text in lowercase, joined by hyphens.
-/
import Curator.Text.Lowercase
import Curator.Text.Words

namespace Curator.Text

/-- The words of the lowercased text, joined by single hyphens. -/
def slugChars (cs : List Char) : List Char :=
  ['-'].intercalate (words (lowercase (trimChars cs)))

/-- The slug of a string. -/
def slug (s : String) : String := String.ofList (slugChars s.toList)

end Curator.Text
