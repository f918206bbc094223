/-
Ids of documents, and the generator that issues them.

An id is the decimal text of a positive number below 2 ^ 64, at most twenty digits.  A generated
number holds a time in milliseconds, the number of the issuing node and a sequence number, from the
highest bits to the lowest.  The generator keeps the time and sequence it issued last; a reading of
the clock that is not later only advances the sequence, and when that is used up the reading is
passed over and the next one tried.
-/
import Curator.Number.Decimal

namespace Curator

/-- Whether a text has the shape of an id. -/
def isValidId (s : String) : Bool :=
  let cs := s.toList
  let n := Decimal.ofDigits cs
  !cs.isEmpty && cs.length ≤ 20 && cs.all Char.isDigit && 0 < n && n < 2 ^ 64

/-- How many nodes can issue ids. -/
def nodeCount : Nat := 2 ^ 10

/-- How many ids a node can issue in a millisecond. -/
def sequenceCount : Nat := 2 ^ 12

/-- The node that issued an id. -/
def nodeOfId (id : Nat) : Nat := id / sequenceCount % nodeCount

/-- A node that issues ids. -/
structure IdGenerator where
  node : Nat
  /-- The last time and sequence number issued, as one number. -/
  last : Nat

namespace IdGenerator

/-- A node that has issued nothing yet; node numbers wrap. -/
def start (node : Nat) : IdGenerator := ⟨node % nodeCount, 0⟩

/-- The id for a time and a sequence number given as one number. -/
def compose (node stamp : Nat) : Nat :=
  stamp / sequenceCount % 2 ^ 42 * 2 ^ 22 + node * sequenceCount + stamp % sequenceCount

/-- The time and sequence number that follow `last` at a reading of the clock, if there are any. -/
def advance? (last : Nat) (reading : Int) : Option Nat :=
  let now := reading.toNat
  if last / sequenceCount < now then some (now * sequenceCount)
  else if last % sequenceCount < sequenceCount - 1 then some (last + 1)
  else none

/-- The next id, from as many readings of the clock as it takes, and the readings left over. -/
def next? (g : IdGenerator) : List Int → Option (Nat × IdGenerator × List Int)
  | [] => none
  | reading :: rest =>
    match advance? g.last reading with
    | some stamp => some (compose g.node stamp, { g with last := stamp }, rest)
    | none => next? g rest

/-- The next `count` ids, as far as the readings of the clock go. -/
def take (g : IdGenerator) (readings : List Int) : Nat → List Nat
  | 0 => []
  | count + 1 =>
    match g.next? readings with
    | some (id, g, rest) => id :: take g rest count
    | none => []

end IdGenerator

end Curator
