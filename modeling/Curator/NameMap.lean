/-
Entries sorted by name.

Schemas keep their attributes and joins in the order of their names, whatever order a file lists
them in.  The order is part of the type, so two maps with the same entries are the same map.
-/
import Curator.Dict

namespace Curator

/-- Entries with distinct names, in the order of the names. -/
structure NameMap (α : Type) where
  entries : List (String × α)
  sorted : entries.Pairwise fun a b => a.1 < b.1

namespace NameMap

variable {α : Type}

/-- Puts an entry where its name belongs, in place of one of the same name. -/
def place (name : String) (a : α) : List (String × α) → List (String × α)
  | [] => [(name, a)]
  | e :: rest =>
    if name < e.1 then (name, a) :: e :: rest
    else if e.1 = name then (name, a) :: rest
    else e :: place name a rest

theorem lt_of_mem_place {name low : String} {a : α} {es : List (String × α)} (h : low < name)
    (hes : ∀ e ∈ es, low < e.1) : ∀ e ∈ place name a es, low < e.1 := by
  induction es with
  | nil => simpa [place] using h
  | cons e es ih =>
    have he := hes e List.mem_cons_self
    have hrest : ∀ x ∈ es, low < x.1 := fun x hx => hes x (List.mem_cons_of_mem _ hx)
    rw [place]
    split
    · intro x hx
      rcases List.mem_cons.1 hx with rfl | hx
      · exact h
      · exact hes x hx
    · split
      · intro x hx
        rcases List.mem_cons.1 hx with rfl | hx
        · exact h
        · exact hrest x hx
      · intro x hx
        rcases List.mem_cons.1 hx with rfl | hx
        · exact he
        · exact ih hrest x hx

theorem sorted_place (name : String) (a : α) {es : List (String × α)}
    (h : es.Pairwise fun a b => a.1 < b.1) : (place name a es).Pairwise fun a b => a.1 < b.1 := by
  induction es with
  | nil => simp [place]
  | cons e es ih =>
    obtain ⟨he, hes⟩ := List.pairwise_cons.1 h
    rw [place]
    split
    · next hlt =>
      refine List.pairwise_cons.2 ⟨fun x hx => ?_, h⟩
      rcases List.mem_cons.1 hx with rfl | hx
      · exact hlt
      · exact String.lt_trans hlt (he x hx)
    · next hnlt =>
      split
      · next heq => exact List.pairwise_cons.2 ⟨fun x hx => heq ▸ he x hx, hes⟩
      · next hne =>
        have hlt : e.1 < name :=
          Std.lt_of_le_of_ne (String.not_lt.1 hnlt) hne
        exact List.pairwise_cons.2 ⟨lt_of_mem_place hlt he, ih hes⟩

/-- The map without entries. -/
def empty : NameMap α := ⟨[], List.Pairwise.nil⟩

/-- The map with one more entry, in place of one of the same name. -/
def insert (m : NameMap α) (name : String) (a : α) : NameMap α :=
  ⟨place name a m.entries, sorted_place name a m.sorted⟩

/-- The map with one more entry, unless the name has one already. -/
def insertNew (m : NameMap α) (name : String) (a : α) : NameMap α :=
  if Dict.has m.entries name then m else m.insert name a

/-- The entries of a list; of a repeated name the last. -/
def ofList (entries : List (String × α)) : NameMap α :=
  entries.foldl (fun m e => m.insert e.1 e.2) empty

/-- The entry of a name. -/
def get? (m : NameMap α) (name : String) : Option α := Dict.get? m.entries name

theorem get?_place_self (name : String) (a : α) (es : List (String × α)) :
    Dict.get? (place name a es) name = some a := by
  induction es with
  | nil => simp [place, Dict.get?_cons]
  | cons e es ih =>
    rw [place]
    split
    · simp [Dict.get?_cons]
    · split
      · simp [Dict.get?_cons]
      · next h => rw [Dict.get?_cons, if_neg h, ih]

theorem get?_place_of_ne {name other : String} (a : α) (h : name ≠ other)
    (es : List (String × α)) : Dict.get? (place name a es) other = Dict.get? es other := by
  induction es with
  | nil => simp [place, Dict.get?_cons, h]
  | cons e es ih =>
    rw [place]
    split
    · rw [Dict.get?_cons, if_neg h]
    · split
      · next he => rw [Dict.get?_cons, Dict.get?_cons, if_neg h, he, if_neg h]
      · rw [Dict.get?_cons, Dict.get?_cons, ih]

@[simp] theorem get?_insert_self (m : NameMap α) (name : String) (a : α) :
    (m.insert name a).get? name = some a := get?_place_self name a m.entries

theorem get?_insert_of_ne (m : NameMap α) {name other : String} (a : α) (h : name ≠ other) :
    (m.insert name a).get? other = m.get? other := get?_place_of_ne a h m.entries

end NameMap

end Curator
