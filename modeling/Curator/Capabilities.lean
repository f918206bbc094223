/-
What a running service is supplied with from outside.

Hashing, random text and the issue of ids are not computed here; a `Capabilities` value says what they
yield.  `codec` is what a document of a table reads back as after it was stored as text.
-/
import Curator.Json.Reading
import Curator.Failure

namespace Curator

/-- The supplies of a running service. -/
structure Capabilities where
  /-- The hash of a text with an optional number of rounds. -/
  hash : String → Option Nat → Except Failure String
  /-- Random text of a number of characters. -/
  randomText : Nat → String
  /-- The id that is issued after a number of others. -/
  issueId : Nat → String
  /-- What a stored document reads back as, or the failure to read it. -/
  codec : Document → Except Failure Document

/-- What a document reads back as when it is stored as compact text. -/
def Document.reread (d : Document) : Except Failure Document :=
  match Json.read (Json.object d).text with
  | .ok (.object fields) => .ok fields
  | .ok _ => .error ⟨.database, "Stored document is not an object"⟩
  | .error f => .error ⟨.serialization, f.text⟩

end Curator
