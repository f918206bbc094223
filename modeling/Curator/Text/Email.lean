/-
The shape of email addresses.

An address is a name of ASCII letters, digits and certain signs, an at sign, and a domain of at least
two labels between dots.  A label has at most 63 letters, digits and hyphens, with no hyphen at either
end.
-/
import Curator.Text.Words

namespace Curator.Text

/-- The signs that the name of an address may hold beside letters and digits. -/
def addressSigns : List Char := ".!#$%&'*+/=?^_\x60\x7b|\x7d~-".toList

/-- A character of the name of an address. -/
def isAddressChar (c : Char) : Bool := c.isAlphanum || addressSigns.contains c

/-- A label of a domain. -/
def isDomainLabel (cs : List Char) : Bool :=
  !cs.isEmpty && cs.length ≤ 63 && cs.all (fun c => c.isAlphanum || c == '-') &&
    cs.head? != some '-' && cs.getLast? != some '-'

/-- Whether a text has the shape of an email address. -/
def isEmail (cs : List Char) : Bool :=
  match pieces (· == '@') cs with
  | [name, domain] =>
    let labels := pieces (· == '.') domain
    !name.isEmpty && name.all isAddressChar && 2 ≤ labels.length && labels.all isDomainLabel
  | _ => false

end Curator.Text
