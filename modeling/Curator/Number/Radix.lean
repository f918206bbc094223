/-
Whole numbers written in base 16, 8 or 2.

A literal is a zero, a letter for the base in either case, and at least one digit of that base.  Only
literals below 2 ^ 64 are read this way.
-/
import Curator.Number.Power

namespace Curator.Radix

/-- The base that the letter of a literal stands for. -/
def base? (letter : Char) : Option Nat :=
  if letter == 'x' || letter == 'X' then some 16
  else if letter == 'o' || letter == 'O' then some 8
  else if letter == 'b' || letter == 'B' then some 2
  else none

/-- The value of a digit of bases up to sixteen. -/
def digit? (c : Char) : Option Nat :=
  if c.isDigit then some (c.toNat - '0'.toNat)
  else if 'a' ≤ c && c ≤ 'f' then some (c.toNat - 'a'.toNat + 10)
  else if 'A' ≤ c && c ≤ 'F' then some (c.toNat - 'A'.toNat + 10)
  else none

/-- The number that digits of a base write, most significant first. -/
def ofDigits (base : Nat) (digits : List Nat) : Nat :=
  digits.foldl (fun n d => base * n + d) 0

/-- The digits of a text, if all of them belong to the base. -/
def digits? (base : Nat) : List Char → Option (List Nat)
  | [] => some []
  | c :: cs =>
    match digit? c, digits? base cs with
    | some d, some ds => if d < base then some (d :: ds) else none
    | _, _ => none

/-- The value of a literal below 2 ^ 64. -/
def literal? (cs : List Char) : Option Nat :=
  match cs with
  | '0' :: letter :: rest =>
    match base? letter with
    | none => none
    | some base =>
      match digits? base rest with
      | none => none
      | some [] => none
      | some ds =>
        let n := ofDigits base ds
        if n < 2 ^ 64 then some n else none
  | _ => none

end Curator.Radix
