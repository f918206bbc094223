/-
Powers of whole numbers.

A power of a natural number or an integer is the one that core defines, also where a theory brings
powers of its own for whatever can be multiplied.  What runs and what is proved about it then mean
the same numbers by `2 ^ n`.
-/
namespace Curator

@[default_instance 20000]
instance (priority := 20000) instPow {α : Type} [NatPow α] : Pow α Nat := instPowNat

end Curator
