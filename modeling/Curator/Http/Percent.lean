/-
Percent escapes in request targets.

A percent sign and two hexadecimal digits stand for a byte; a percent sign without them stands for
itself.  All other characters stand for their own bytes.
-/
import Curator.Number.Radix
import Curator.Text.Utf8

namespace Curator.Http.Percent

/-- The byte of an escape with two given digits. -/
def escaped? (high low : Char) : Option UInt8 :=
  match Radix.digit? high, Radix.digit? low with
  | some h, some l => some (UInt8.ofNat (16 * h + l))
  | _, _ => none

/-- The bytes of a text with its escapes undone. -/
def decode : List Char → List UInt8
  | '%' :: high :: low :: rest =>
    match escaped? high low with
    | some b => b :: decode rest
    | none => Text.Utf8.encode '%' ++ decode (high :: low :: rest)
  | c :: rest => Text.Utf8.encode c ++ decode rest
  | [] => []

/-- A part of a path with its escapes undone; the bytes must be text. -/
def segment? (cs : List Char) : Option String := Text.Utf8.strict? (decode cs)

/-- A name or value of a query with its escapes undone: a plus sign is a space. -/
def component (cs : List Char) : String :=
  Text.Utf8.lossy (decode (cs.map fun c => if c == '+' then ' ' else c))

end Curator.Http.Percent
