/-
What lookups find in lists of entries that are put together from others.

Where names repeat a lookup finds the first entry, so an appended list only answers for names that
the list before it does not have.  `Dict.merge` writes in turn and lets the last entry win; with
distinct names that is the same as looking in the written list first.
-/
import Curator.NameMap

namespace Curator

namespace Dict

variable {α β : Type}

@[simp] theorem names_nil : names ([] : Dict α) = [] := rfl

@[simp] theorem names_cons (e : String × α) (d : Dict α) : names (e :: d) = e.1 :: names d := rfl

@[simp] theorem names_append (d more : Dict α) : names (d ++ more) = names d ++ names more :=
  List.map_append

@[simp] theorem names_mapValues (f : α → β) (d : Dict α) : names (d.mapValues f) = names d := by
  simp [names, mapValues, Function.comp_def]

theorem mem_names_of_mem {e : String × α} {d : Dict α} (h : e ∈ d) : e.1 ∈ names d :=
  List.mem_map_of_mem h

theorem get?_append (d more : Dict α) (name : String) :
    get? (d ++ more) name = (get? d name).or (get? more name) := by
  induction d with
  | nil => simp
  | cons e d ih =>
      rw [List.cons_append, get?_cons, get?_cons, ih]
      split
      · rfl
      · rfl

theorem get?_mapValues (f : α → β) (d : Dict α) (name : String) :
    get? (d.mapValues f) name = (get? d name).map f := by
  induction d with
  | nil => rfl
  | cons e d ih =>
      rw [mapValues, List.map_cons, get?_cons, get?_cons]
      split
      · rfl
      · exact ih

/-- Keeping entries by their names keeps a lookup whole or empties it. -/
theorem get?_filter (keep : String → Bool) (d : Dict α) (name : String) :
    get? (d.filter fun e => keep e.1) name = if keep name then get? d name else none := by
  induction d with
  | nil => simp
  | cons e d ih =>
      rw [List.filter_cons, get?_cons]
      by_cases he : e.1 = name
      · subst he
        by_cases hk : keep e.1 = true
        · simp [hk, get?_cons]
        · simp [hk, ih]
      · by_cases hk : keep e.1 = true
        · simp [hk, get?_cons, he, ih]
        · simp [hk, he, ih]

theorem has_eq_isSome_get? (d : Dict α) (name : String) : d.has name = (d.get? name).isSome := by
  rw [has, get?, Option.isSome_map, List.isSome_find?]

theorem mem_of_get?_eq_some {d : Dict α} {name : String} {a : α} (h : get? d name = some a) :
    (name, a) ∈ d := by
  induction d with
  | nil => cases h
  | cons e d ih =>
      rw [get?_cons] at h
      split at h
      · rename_i he
        cases h
        exact he ▸ List.mem_cons_self
      · exact List.mem_cons_of_mem _ (ih h)

theorem get?_of_mem {d : Dict α} (hd : d.names.Nodup) {e : String × α} (he : e ∈ d) :
    d.get? e.1 = some e.2 := by
  induction d with
  | nil => cases he
  | cons first d ih =>
      obtain ⟨hfirst, hd⟩ := List.nodup_cons.mp hd
      rw [get?_cons]
      rcases List.mem_cons.mp he with rfl | he
      · rw [if_pos rfl]
      · have hne : first.1 ≠ e.1 := by
          intro heq
          have hmem := mem_names_of_mem he
          rw [← heq] at hmem
          exact hfirst hmem
        rw [if_neg hne, ih hd he]

theorem get?_merge (d : Dict α) {more : Dict α} (hmore : more.names.Nodup) (name : String) :
    (d.merge more).get? name = (more.get? name).or (d.get? name) := by
  induction more generalizing d with
  | nil => rfl
  | cons e more ih =>
      obtain ⟨he, hmore⟩ := List.nodup_cons.mp hmore
      have hstep : d.merge (e :: more) = (d.set e.1 e.2).merge more := rfl
      rw [hstep, ih _ hmore, get?_cons]
      split
      · rename_i heq
        subst heq
        rw [(get?_eq_none_iff more e.1).mpr he]
        simp
      · rename_i hne
        rw [get?_set_of_ne _ _ hne]

theorem get?_merge_of_not_mem_names (d : Dict α) {more : Dict α} {name : String}
    (h : name ∉ more.names) : (d.merge more).get? name = d.get? name := by
  induction more generalizing d with
  | nil => rfl
  | cons e more ih =>
      simp only [names_cons, List.mem_cons, not_or] at h
      have hstep : d.merge (e :: more) = (d.set e.1 e.2).merge more := rfl
      rw [hstep, ih _ h.2, get?_set_of_ne _ _ (Ne.symm h.1)]

theorem set_of_not_mem_names (d : Dict α) {name : String} (a : α) (h : name ∉ d.names) :
    d.set name a = d ++ [(name, a)] := by
  induction d with
  | nil => rfl
  | cons e d ih =>
      simp only [names_cons, List.mem_cons, not_or] at h
      rw [set, if_neg (Ne.symm h.1), ih h.2, List.cons_append]

theorem names_set_of_mem {d : Dict α} {name : String} (a : α) (h : name ∈ d.names) :
    (d.set name a).names = d.names := by
  induction d with
  | nil => simp at h
  | cons e d ih =>
      rw [set]
      split
      · rename_i he
        rw [names_cons, names_cons, he]
      · rename_i he
        rw [names_cons, names_cons, ih ((List.mem_cons.mp h).resolve_left (Ne.symm he))]

theorem mem_names_set {d : Dict α} {name other : String} {a : α} :
    other ∈ (d.set name a).names ↔ other = name ∨ other ∈ d.names := by
  by_cases h : name ∈ d.names
  · rw [names_set_of_mem a h]
    constructor
    · exact Or.inr
    · rintro (rfl | hother)
      · exact h
      · exact hother
  · simp [set_of_not_mem_names d a h, or_comm]

theorem nodup_names_set {d : Dict α} (hd : d.names.Nodup) (name : String) (a : α) :
    (d.set name a).names.Nodup := by
  by_cases h : name ∈ d.names
  · rwa [names_set_of_mem a h]
  · rw [set_of_not_mem_names d a h, names_append, List.nodup_append]
    refine ⟨hd, by simp, ?_⟩
    rintro other hother _ (_ | ⟨_, ⟨⟩⟩) rfl
    exact h hother

theorem forall_mem_set {d : Dict α} {P : String × α → Prop} {name : String} {a : α}
    (hd : ∀ e ∈ d, P e) (ha : P (name, a)) : ∀ e ∈ d.set name a, P e := by
  induction d with
  | nil => simpa [set]
  | cons e d ih =>
      obtain ⟨he, hrest⟩ := List.forall_mem_cons.mp hd
      rw [set]
      split
      · exact List.forall_mem_cons.mpr ⟨ha, hrest⟩
      · exact List.forall_mem_cons.mpr ⟨he, ih hrest⟩

/-- Entries of other names are appended. -/
theorem merge_eq_append {d more : Dict α} (h : (d.names ++ more.names).Nodup) :
    d.merge more = d ++ more := by
  induction more generalizing d with
  | nil => exact (List.append_nil d).symm
  | cons e more ih =>
      have hfresh : e.1 ∉ d.names := fun hmem =>
        (List.nodup_append.mp h).2.2 e.1 hmem e.1 List.mem_cons_self rfl
      have hstep : d.merge (e :: more) = (d.set e.1 e.2).merge more := rfl
      rw [hstep, set_of_not_mem_names d e.2 hfresh, ih, List.append_assoc, List.singleton_append]
      rw [names_append, List.append_assoc]
      exact h

theorem ofList_eq_self {entries : Dict α} (h : entries.names.Nodup) : ofList entries = entries :=
  merge_eq_append (d := []) h

theorem nodup_names_merge {d more : Dict α} (hd : d.names.Nodup) : (d.merge more).names.Nodup := by
  induction more generalizing d with
  | nil => exact hd
  | cons e more ih => exact ih (nodup_names_set hd e.1 e.2)

theorem forall_mem_merge {d more : Dict α} {P : String × α → Prop} (hd : ∀ e ∈ d, P e)
    (hmore : ∀ e ∈ more, P e) : ∀ e ∈ d.merge more, P e := by
  induction more generalizing d with
  | nil => exact hd
  | cons e more ih =>
      obtain ⟨he, hmore⟩ := List.forall_mem_cons.mp hmore
      exact ih (forall_mem_set hd he) hmore

theorem nodup_names_ofList (entries : List (String × α)) : (ofList entries).names.Nodup :=
  nodup_names_merge List.nodup_nil

/-- The first name stays the first one. -/
theorem head?_names_merge {d : Dict α} (hd : d ≠ []) (more : Dict α) :
    (d.merge more).names.head? = d.names.head? := by
  induction more generalizing d with
  | nil => rfl
  | cons e more ih =>
      have hset : (d.set e.1 e.2).names.head? = d.names.head? := by
        cases d with
        | nil => exact absurd rfl hd
        | cons first d =>
            rw [set]
            split
            · rename_i h
              rw [names_cons, names_cons, List.head?_cons, List.head?_cons, h]
            · rfl
      have hsome : d.set e.1 e.2 ≠ [] := by
        cases d with
        | nil => exact absurd rfl hd
        | cons first d =>
            rw [set]
            split <;> exact List.cons_ne_nil _ _
      exact (ih hsome).trans hset

theorem head?_names_ofList (entries : Dict α) :
    (ofList entries).names.head? = entries.names.head? := by
  cases entries with
  | nil => rfl
  | cons e entries => exact head?_names_merge (List.cons_ne_nil _ _) entries

/-! ### Entries that meet under one name -/

theorem length_set (d : Dict α) (name : String) (a : α) :
    (d.set name a).length = if name ∈ d.names then d.length else d.length + 1 := by
  split
  · rename_i h
    have hnames := congrArg List.length (names_set_of_mem a h)
    rwa [names, names, List.length_map, List.length_map] at hnames
  · rename_i h
    rw [set_of_not_mem_names d a h, List.length_append, List.length_singleton]

theorem length_merge_le (d more : Dict α) : (d.merge more).length ≤ d.length + more.length := by
  induction more generalizing d with
  | nil => exact Nat.le_refl _
  | cons e more ih =>
      have hset := length_set d e.1 e.2
      have hmerge : (d.merge (e :: more)).length ≤ (d.set e.1 e.2).length + more.length := ih _
      rw [List.length_cons]
      split at hset <;> omega

/-- As many entries are left as were there and were set, exactly if no name is met again. -/
theorem length_merge_eq_iff {d : Dict α} (hd : d.names.Nodup) (more : Dict α) :
    (d.merge more).length = d.length + more.length ↔ (d.names ++ more.names).Nodup := by
  constructor
  · intro h
    induction more generalizing d with
    | nil => rwa [names_nil, List.append_nil]
    | cons e more ih =>
        have hstep : d.merge (e :: more) = (d.set e.1 e.2).merge more := rfl
        have hle := length_merge_le (d.set e.1 e.2) more
        have hset := length_set d e.1 e.2
        rw [hstep, List.length_cons] at h
        split at hset
        · omega
        · rename_i hfresh
          have happend := set_of_not_mem_names d e.2 hfresh
          have hnames := ih (nodup_names_set hd e.1 e.2) (by omega)
          rwa [happend, names_append, List.append_assoc] at hnames
  · intro h
    rw [merge_eq_append h, List.length_append]

theorem length_ofList_le (entries : List (String × α)) :
    (ofList entries).length ≤ entries.length := by
  have h := length_merge_le [] entries
  rwa [List.length_nil, Nat.zero_add] at h

theorem length_ofList_eq_iff (entries : List (String × α)) :
    (ofList entries).length = entries.length ↔ (names entries).Nodup := by
  have h := length_merge_eq_iff (d := []) List.nodup_nil entries
  rwa [List.length_nil, Nat.zero_add] at h

/-! ### Entries that may be left out -/

theorem get?_ofOption (name : String) (a : Option α) (other : String) :
    get? (ofOption name a) other = if name = other then a else none := by
  cases a with
  | none => rw [ofOption, get?_nil, ite_self]
  | some a => rw [ofOption, get?_cons, get?_nil]

theorem mem_ofOption {name : String} {x : Option α} {e : String × α} :
    e ∈ ofOption name x ↔ name = e.1 ∧ e.2 ∈ x := by
  obtain ⟨other, a⟩ := e
  cases x <;> simp [ofOption, eq_comm]

theorem names_ofOption_sublist (name : String) (a : Option α) :
    (names (ofOption name a)).Sublist [name] := by
  cases a with
  | none => exact List.nil_sublist _
  | some a => exact List.Sublist.refl _

end Dict

namespace NameMap

variable {α : Type}

theorem nodup_names (m : NameMap α) : (Dict.names m.entries).Nodup :=
  List.pairwise_map.mpr (m.sorted.imp fun h => Std.ne_of_lt h)

theorem mem_place {name : String} {a : α} {entries : List (String × α)} {e : String × α}
    (h : e ∈ place name a entries) : e = (name, a) ∨ e ∈ entries := by
  induction entries with
  | nil => exact Or.inl (List.mem_singleton.mp h)
  | cons first rest ih =>
      rw [place] at h
      split at h
      · exact List.mem_cons.mp h
      · split at h
        · exact (List.mem_cons.mp h).imp_right (List.mem_cons_of_mem first)
        · rcases List.mem_cons.mp h with rfl | h
          · exact Or.inr List.mem_cons_self
          · exact (ih h).imp_right (List.mem_cons_of_mem first)

/-- An entry whose name comes after all others is placed last. -/
theorem place_of_forall_lt {name : String} (a : α) {entries : List (String × α)}
    (h : ∀ e ∈ entries, e.1 < name) : place name a entries = entries ++ [(name, a)] := by
  induction entries with
  | nil => rfl
  | cons first rest ih =>
      obtain ⟨hfirst, hrest⟩ := List.forall_mem_cons.mp h
      rw [place, if_neg (String.lt_asymm hfirst), if_neg (Std.ne_of_lt hfirst), ih hrest,
        List.cons_append]

theorem entries_foldl_insert {m : NameMap α} {more : List (String × α)}
    (h : (m.entries ++ more).Pairwise fun a b => a.1 < b.1) :
    (more.foldl (fun m e => m.insert e.1 e.2) m).entries = m.entries ++ more := by
  induction more generalizing m with
  | nil => exact (List.append_nil _).symm
  | cons e more ih =>
      have hlast : (m.insert e.1 e.2).entries = m.entries ++ [e] :=
        place_of_forall_lt e.2 fun x hx =>
          (List.pairwise_append.mp h).2.2 x hx e List.mem_cons_self
      rw [List.append_cons] at h
      rw [List.foldl_cons, ih (hlast ▸ h), hlast, List.append_assoc, List.singleton_append]

/-- Sorted entries make the map that they are the entries of. -/
theorem ofList_entries (m : NameMap α) : ofList m.entries = m := by
  have hentries : (ofList m.entries).entries = m.entries := entries_foldl_insert m.sorted
  cases h : ofList m.entries
  cases m
  rw [h] at hentries
  cases hentries
  rfl

/-- A map has no entries but those that it is made of. -/
theorem mem_of_mem_ofList {entries : List (String × α)} {e : String × α}
    (h : e ∈ (ofList entries).entries) : e ∈ entries := by
  have hfold : ∀ {more : List (String × α)} {m : NameMap α},
      e ∈ (more.foldl (fun m e => m.insert e.1 e.2) m).entries → e ∈ m.entries ∨ e ∈ more := by
    intro more
    induction more with
    | nil => exact Or.inl
    | cons first more ih =>
        intro m h
        rcases ih h with h | h
        · rcases mem_place h with rfl | h
          · exact Or.inr List.mem_cons_self
          · exact Or.inl h
        · exact Or.inr (List.mem_cons_of_mem first h)
  exact (hfold h).resolve_left List.not_mem_nil

end NameMap

end Curator
