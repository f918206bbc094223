/-
Random texts of letters and digits.

Each random number picks one character, so a text has as many characters as there are numbers.
-/
namespace Curator.Text

/-- The characters that random texts are made of. -/
def alphabet : List Char := "ABCDEFGHIJKLMNOPQRSTUVWXYZabcdefghijklmnopqrstuvwxyz0123456789".toList

/-- The character that a random number picks. -/
def pick (n : Nat) : Char := alphabet.get ⟨n % alphabet.length, Nat.mod_lt n (by decide)⟩

/-- The text that random numbers pick. -/
def randomText (picks : List Nat) : String := String.ofList (picks.map pick)

end Curator.Text
