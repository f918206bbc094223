/-
Lists of named entries.

Documents keep their fields in the order in which they were first written: a list of pairs with
distinct names.  `set` overwrites in place or appends, and `get?` finds the first entry of a name,
which in a list built by `set` is the only one.
-/
namespace Curator

/-- Entries in order, each with a name. -/
abbrev Dict (α : Type) := List (String × α)

namespace Dict

variable {α β : Type}

/-- The entry of a name. -/
def get? (d : Dict α) (name : String) : Option α :=
  (d.find? fun e => e.1 == name).map (·.2)

/-- Whether there is an entry of a name. -/
def has (d : Dict α) (name : String) : Bool := d.any fun e => e.1 == name

/-- The names in order. -/
def names (d : Dict α) : List String := d.map (·.1)

/-- Overwrites the entry of a name in its place, or appends it. -/
def set : Dict α → String → α → Dict α
  | [], name, a => [(name, a)]
  | e :: rest, name, a => if e.1 = name then (name, a) :: rest else e :: set rest name a

/-- Sets all entries of the second list in turn. -/
def merge (d : Dict α) (more : Dict α) : Dict α := more.foldl (fun d e => d.set e.1 e.2) d

/-- The entries of a list; a repeated name keeps its first place and its last value. -/
def ofList (entries : List (String × α)) : Dict α := merge [] entries

/-- One entry, or none when there is no value. -/
def ofOption (name : String) : Option α → Dict α
  | some a => [(name, a)]
  | none => []

/-- The same names with other values. -/
def mapValues (f : α → β) (d : Dict α) : Dict β := d.map fun e => (e.1, f e.2)

/-! ### What a lookup finds after a write -/

@[simp] theorem get?_nil (name : String) : get? ([] : Dict α) name = none := rfl

theorem get?_cons (e : String × α) (d : Dict α) (name : String) :
    get? (e :: d) name = if e.1 = name then some e.2 else get? d name := by
  unfold get?
  rw [List.find?_cons]
  by_cases h : e.1 = name
  · simp [h]
  · have hb : (e.1 == name) = false := by simpa using h
    simp [h, hb]

@[simp] theorem get?_set_self (d : Dict α) (name : String) (a : α) :
    (d.set name a).get? name = some a := by
  induction d with
  | nil => simp [set, get?_cons]
  | cons e d ih =>
    rw [set]
    split
    · simp [get?_cons]
    · next h => rw [get?_cons, if_neg h, ih]

theorem get?_set_of_ne (d : Dict α) {name other : String} (a : α) (h : name ≠ other) :
    (d.set name a).get? other = d.get? other := by
  induction d with
  | nil => simp [set, get?_cons, h]
  | cons e d ih =>
    rw [set]
    split
    · next he => rw [get?_cons, get?_cons, if_neg h, he, if_neg h]
    · rw [get?_cons, get?_cons, ih]

theorem get?_eq_none_iff (d : Dict α) (name : String) :
    d.get? name = none ↔ name ∉ d.names := by
  induction d with
  | nil => simp [names]
  | cons e d ih =>
    rw [get?_cons]
    split
    · next h => simp [names, h]
    · next h => rw [ih]; simp [names, Ne.symm h]

end Dict

end Curator
