/-
Values of request headers.

A header may hold any text without control characters, tabs excepted.  It is only understood when it
is plain: visible characters of ASCII, spaces and tabs.
-/
import Curator.Text.Blank

namespace Curator.Http.Header

/-- Whether a text can be sent as the value of a header. -/
def isSendable (s : String) : Bool :=
  s.toList.all fun c => c == '\t' || (32 ≤ c.toNat && c.toNat != 127)

/-- Whether the value of a header is plain. -/
def isPlain (s : String) : Bool := s.toList.all fun c => c == '\t' || (32 ≤ c.toNat && c.toNat < 127)

/-- The identity in the header that names the caller: none when the header is missing or blank, and
nothing at all when its value is not plain. -/
def caller? : Option String → Option (Option String)
  | none => some none
  | some value =>
    if isPlain value then
      match Text.trimChars value.toList with
      | [] => some none
      | cs => some (some (String.ofList cs))
    else none

end Curator.Http.Header
