/-
Characters as bytes.

A character takes one to four bytes, and its first byte says how many follow and in which range the
next one lies.  `decode` reads bytes one at a time; where they stop making sense it yields no
character for what was read so far and starts again at the byte that did not fit.  A text is read
either strictly, when every part is a character, or with a replacement for each part that is none.
-/
namespace Curator.Text.Utf8

/-- A character whose bytes have been read in part. -/
structure Pending where
  /-- The bits that are known. -/
  bits : Nat
  /-- How many bytes are still to come. -/
  more : Nat
  /-- The least value of the next byte. -/
  low : Nat
  /-- The greatest value of the next byte. -/
  high : Nat

/-- What the first byte of a character of several bytes announces. -/
def lead? (b : Nat) : Option Pending :=
  if 0xC2 ≤ b ∧ b ≤ 0xDF then some ⟨b - 0xC0, 1, 0x80, 0xBF⟩
  else if b = 0xE0 then some ⟨0, 2, 0xA0, 0xBF⟩
  else if b = 0xED then some ⟨0xD, 2, 0x80, 0x9F⟩
  else if 0xE1 ≤ b ∧ b ≤ 0xEF then some ⟨b - 0xE0, 2, 0x80, 0xBF⟩
  else if b = 0xF0 then some ⟨0, 3, 0x90, 0xBF⟩
  else if 0xF1 ≤ b ∧ b ≤ 0xF3 then some ⟨b - 0xF0, 3, 0x80, 0xBF⟩
  else if b = 0xF4 then some ⟨4, 3, 0x80, 0x8F⟩
  else none

/-- Reads a byte where a character starts: what it yields at once, and what it leaves open. -/
def start (b : Nat) : List (Option Char) × Option Pending :=
  if b < 0x80 then ([some (Char.ofNat b)], none)
  else
    match lead? b with
    | some p => ([], some p)
    | none => ([none], none)

/-- Reads a byte. -/
def step (pending : Option Pending) (b : Nat) : List (Option Char) × Option Pending :=
  match pending with
  | none => start b
  | some p =>
    if p.low ≤ b ∧ b ≤ p.high then
      let bits := p.bits * 64 + b % 64
      if p.more = 1 then ([some (Char.ofNat bits)], none)
      else ([], some ⟨bits, p.more - 1, 0x80, 0xBF⟩)
    else
      let (out, next) := start b
      (none :: out, next)

/-- The characters of bytes that follow a character read in part; `none` where there is none. -/
def decodeAfter (pending : Option Pending) : List UInt8 → List (Option Char)
  | [] => if pending.isSome then [none] else []
  | b :: bs =>
    let (out, next) := step pending b.toNat
    out ++ decodeAfter next bs

/-- The characters of bytes; `none` for each part that is no character. -/
def decode (bs : List UInt8) : List (Option Char) := decodeAfter none bs

/-- The text of bytes all of which are characters. -/
def strict? (bs : List UInt8) : Option String := ((decode bs).mapM id).map String.ofList

/-- The text of bytes, with the replacement character for each part that is none. -/
def lossy (bs : List UInt8) : String := String.ofList ((decode bs).map fun c => c.getD '\ufffd')

/-- The bytes of a character. -/
def encode (c : Char) : List UInt8 := String.utf8EncodeChar c

end Curator.Text.Utf8
