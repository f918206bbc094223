/-
Request targets.

A target is a path with a query, an absolute one with a scheme and a host in front of it, a host
alone, or an asterisk.  Only the path and the query count.  A fragment is dropped unread.  Escapes
are left as they are.
-/
import Curator.Number.Power

namespace Curator.Http

/-- The parts of a request target that count. -/
structure Target where
  /-- The path; a host alone has an empty one. -/
  path : List Char
  /-- What follows the question mark; empty when there is none. -/
  query : List Char
deriving DecidableEq

namespace Target

/-- The greatest number of bytes in a target. -/
def maxBytes : Nat := 2 ^ 16 - 2

/-- The greatest number of characters in a scheme. -/
def maxScheme : Nat := 64

/-- The characters that may stand in a path. -/
def isPathChar (c : Char) : Bool :=
  let n := c.toNat
  n == 0x21 || n == 0x22 || (0x24 ≤ n && n ≤ 0x3B) || n == 0x3D || (0x40 ≤ n && n ≤ 0x5F) ||
    (0x61 ≤ n && n != 0x7F)

/-- The characters that may stand in a query. -/
def isQueryChar (c : Char) : Bool :=
  let n := c.toNat
  n == 0x21 || (0x24 ≤ n && n ≤ 0x3B) || n == 0x3D || (0x3F ≤ n && n != 0x7F)

/-- Reads a path and a query.  An empty path is the root. -/
def pathAndQuery? (cs : List Char) : Option Target :=
  let inPath := fun c : Char => c != '?' && c != '#'
  let path := cs.takeWhile inPath
  if path.all isPathChar then
    let query :=
      match cs.dropWhile inPath with
      | '?' :: rest => rest.takeWhile (· != '#')
      | _ => []
    if query.all isQueryChar then some ⟨if path.isEmpty then ['/'] else path, query⟩ else none
  else none

/-! ### Hosts -/

/-- What has been seen of a host. -/
structure HostScan where
  /-- The colons since the last bracket or user. -/
  colons : Nat
  opened : Bool
  closed : Bool
  /-- Whether there was a percent sign since the last bracket or user. -/
  escaped : Bool
  /-- Whether a user was the last thing seen. -/
  afterUser : Bool

/-- The characters of hosts that have no role of their own. -/
def isHostChar (c : Char) : Bool := c.isAlphanum || "!$&'()*+,-.;=_~".contains c

/-- Looks at one more character of a host. -/
def HostScan.step? (s : HostScan) (c : Char) : Option HostScan :=
  if c == ':' then
    if s.colons < 8 then some { s with colons := s.colons + 1, afterUser := false } else none
  else if c == '[' then
    if s.escaped || s.opened then none else some { s with opened := true, afterUser := false }
  else if c == ']' then
    if s.opened && !s.closed then some ⟨0, true, true, false, false⟩ else none
  else if c == '@' then some { s with colons := 0, escaped := false, afterUser := true }
  else if c == '%' then some { s with escaped := true, afterUser := false }
  else if isHostChar c then some { s with afterUser := false }
  else none

/-- Whether a text is a host, with a user in front and a port behind it if they are there. -/
def isHost (cs : List Char) : Bool :=
  match cs.foldlM HostScan.step? ⟨0, false, false, false, false⟩ with
  | none => false
  | some s => s.opened == s.closed && s.colons ≤ 1 && !s.afterUser && !s.escaped

/-- The characters of schemes. -/
def isSchemeChar (c : Char) : Bool := c.isAlphanum || c == '+' || c == '-' || c == '.' || c == '~'

/-- Reads a target that does not start with a slash. -/
def absolute? (cs : List Char) : Option Target :=
  match cs.dropWhile isSchemeChar with
  | ':' :: '/' :: '/' :: rest =>
    if (cs.takeWhile isSchemeChar).length ≤ maxScheme then
      let inHost := fun c : Char => c != '/' && c != '?' && c != '#'
      let host := rest.takeWhile inHost
      if isHost host && !host.isEmpty then pathAndQuery? (rest.dropWhile inHost) else none
    else none
  | _ => if isHost cs then some ⟨[], []⟩ else none

/-- Reads a target. -/
def read? (s : String) : Option Target :=
  if maxBytes < s.utf8ByteSize then none
  else
    match s.toList with
    | [] => none
    | ['*'] => some ⟨['*'], []⟩
    | '/' :: cs => pathAndQuery? ('/' :: cs)
    | cs => absolute? cs

end Target

end Curator.Http
