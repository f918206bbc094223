/-
Password hashes.

A hash text is a mark for the algorithm, the number of rounds in two digits, and 53 characters of salt
and digest.  Only four to 31 rounds are accepted; ten are used when none are asked for.
-/
import Curator.Failure

namespace Curator

/-- A password hash. -/
structure PasswordHash where
  rounds : Nat
  /-- The salt and the digest. -/
  body : List Char

namespace PasswordHash

/-- The number of rounds when none is asked for. -/
def defaultRounds : Nat := 10

/-- How many characters salt and digest take. -/
def bodyLength : Nat := 53

/-- The number of rounds that a hash is made with. -/
def rounds? (asked : Option Nat) : Except Failure Nat :=
  let n := asked.getD defaultRounds
  if 4 ≤ n ∧ n ≤ 31 then .ok n else .error ⟨.internal, "Failed to hash value"⟩

/-- The text of a hash. -/
def text (h : PasswordHash) : String :=
  "$2b$" ++ (if h.rounds < 10 then "0" else "") ++ toString h.rounds ++ "$" ++ String.ofList h.body

end PasswordHash

end Curator
