/-
What becomes of a value whose numbers are exchanged.

Where values are wanted as they are written, a text changes nothing about a value but its numbers, and
nothing but the nesting of its containers keeps it from being read.  So most of what is said here holds
of any exchange of numbers: the value keeps its shape, and it stays the same if all of its numbers do.
A value that comes back from the exchange, after the texts in it were read and repeated names merged,
came through the exchange as it was.
-/
import Curator.Proofs.Json.Echo
import Curator.Proofs.Dict

namespace Curator

namespace Json

mutual

/-- How deep containers nest in a value. -/
def depth : Json → Nat
  | array xs => depthItems xs + 1
  | object fs => depthFields fs + 1
  | _ => 0

def depthItems : List Json → Nat
  | [] => 0
  | x :: xs => max (depth x) (depthItems xs)

def depthFields : List (String × Json) → Nat
  | [] => 0
  | (_, v) :: fs => max (depth v) (depthFields fs)

end

mutual

/-- The numbers in a value. -/
def numbers : Json → List Number
  | number n => [n]
  | array xs => numbersItems xs
  | object fs => numbersFields fs
  | _ => []

def numbersItems : List Json → List Number
  | [] => []
  | x :: xs => numbers x ++ numbersItems xs

def numbersFields : List (String × Json) → List Number
  | [] => []
  | (_, v) :: fs => numbers v ++ numbersFields fs

end

mutual

/-- The value with other numbers, if there is one for each. -/
def exchange? (f : Number → Option Number) : Json → Option Json
  | number n => (f n).map number
  | array xs => (exchangeItems? f xs).map array
  | object fs => (exchangeFields? f fs).map object
  | v => some v

def exchangeItems? (f : Number → Option Number) : List Json → Option (List Json)
  | [] => some []
  | x :: xs => (exchange? f x).bind fun w => (exchangeItems? f xs).map fun ws => w :: ws

def exchangeFields? (f : Number → Option Number) :
    List (String × Json) → Option (List (String × Json))
  | [] => some []
  | (name, v) :: fs =>
    (exchange? f v).bind fun w => (exchangeFields? f fs).map fun gs => (name, w) :: gs

end

/-! ### Reading as written -/

mutual

/-- As it is written, a value is read with the numbers that its digits are read as, if its containers do
not nest too deep. -/
theorem echo?_none : ∀ (v : Json) (limit : Nat),
    echo? none limit v = if v.depth ≤ limit then v.exchange? Number.reread? else none
  | .null, limit | .bool _, limit | .string _, limit | .number _, limit => by
      simp [echo?, depth, exchange?]
  | .array xs, 0 => by
      rw [echo?, depth, if_neg (Nat.not_succ_le_zero _)]
  | .array xs, limit + 1 => by
      rw [echo?, echoItems?_none xs limit, depth, exchange?]
      by_cases h : depthItems xs ≤ limit
      · rw [if_pos h, if_pos (Nat.succ_le_succ h)]
      · rw [if_neg h, if_neg fun hle => h (Nat.le_of_succ_le_succ hle)]
        rfl
  | .object fs, 0 => by
      rw [echo?, depth, if_neg (Nat.not_succ_le_zero _)]
  | .object fs, limit + 1 => by
      rw [echo?, echoFields?_none fs limit, depth, exchange?]
      by_cases h : depthFields fs ≤ limit
      · rw [if_pos h, if_pos (Nat.succ_le_succ h)]
        rfl
      · rw [if_neg h, if_neg fun hle => h (Nat.le_of_succ_le_succ hle)]
        rfl

theorem echoItems?_none : ∀ (xs : List Json) (limit : Nat),
    echoItems? none limit xs = if depthItems xs ≤ limit then exchangeItems? Number.reread? xs else none
  | [], limit => by
      rw [echoItems?, depthItems, if_pos (Nat.zero_le limit), exchangeItems?]
  | x :: xs, limit => by
      rw [echoItems?, echo?_none x limit, echoItems?_none xs limit, depthItems, exchangeItems?]
      by_cases hx : depth x ≤ limit <;> by_cases hxs : depthItems xs ≤ limit <;>
        simp [hx, hxs]

theorem echoFields?_none : ∀ (fs : List (String × Json)) (limit : Nat),
    echoFields? none limit fs =
      if depthFields fs ≤ limit then exchangeFields? Number.reread? fs else none
  | [], limit => by
      rw [echoFields?, depthFields, if_pos (Nat.zero_le limit), exchangeFields?]
  | (name, v) :: fs, limit => by
      rw [echoFields?, echo?_none v limit, echoFields?_none fs limit, depthFields, exchangeFields?]
      by_cases hv : depth v ≤ limit <;> by_cases hfs : depthFields fs ≤ limit <;>
        simp [hv, hfs]

end

/-- What the text of a value is read as where all of it is wanted as it is written. -/
theorem wanted_asWritten {o : Outline} {v : Json} (h : Reading.Wants false o v) :
    (wanted o (text v)).toOption =
      if v.depth ≤ maxDepth then v.exchange? Number.reread? else none := by
  obtain ⟨enclosed, hread⟩ := Reading.wanted_text h (text v).length
  rw [wanted, hread]
  exact echo?_none v maxDepth

/-! ### Kept values -/

variable {f : Number → Option Number}

mutual

theorem exchange?_eq_self_iff : ∀ v : Json,
    v.exchange? f = some v ↔ ∀ n ∈ v.numbers, f n = some n
  | .null | .bool _ | .string _ => by
      simp [exchange?, numbers]
  | .number n => by
      simp [exchange?, numbers]
  | .array xs => by
      simpa [exchange?, numbers] using exchangeItems?_eq_self_iff xs
  | .object fs => by
      simpa [exchange?, numbers] using exchangeFields?_eq_self_iff fs

theorem exchangeItems?_eq_self_iff : ∀ xs : List Json,
    exchangeItems? f xs = some xs ↔ ∀ n ∈ numbersItems xs, f n = some n
  | [] => by simp [exchangeItems?, numbersItems]
  | x :: xs => by
      simp [exchangeItems?, numbersItems, or_imp, forall_and, Option.bind_eq_some_iff,
        ← exchange?_eq_self_iff x, ← exchangeItems?_eq_self_iff xs]

theorem exchangeFields?_eq_self_iff : ∀ fs : List (String × Json),
    exchangeFields? f fs = some fs ↔ ∀ n ∈ numbersFields fs, f n = some n
  | [] => by simp [exchangeFields?, numbersFields]
  | (name, v) :: fs => by
      simp [exchangeFields?, numbersFields, or_imp, forall_and, Option.bind_eq_some_iff,
        ← exchange?_eq_self_iff v, ← exchangeFields?_eq_self_iff fs]

end

/-! ### Fields -/

theorem forall₂_of_exchangeFields? {fs gs : List (String × Json)}
    (h : exchangeFields? f fs = some gs) :
    List.Forall₂ (fun e g => g.1 = e.1 ∧ e.2.exchange? f = some g.2) fs gs := by
  induction fs generalizing gs with
  | nil =>
      rw [exchangeFields?] at h
      cases h
      exact .nil
  | cons e fs ih =>
      obtain ⟨name, v⟩ := e
      rw [exchangeFields?] at h
      obtain ⟨w, hw, h⟩ := Option.bind_eq_some_iff.mp h
      obtain ⟨gs, hgs, rfl⟩ := Option.map_eq_some_iff.mp h
      exact .cons ⟨rfl, hw⟩ (ih hgs)

theorem mem_of_exchangeFields? {fs gs : List (String × Json)} (h : exchangeFields? f fs = some gs)
    {name : String} {w : Json} (hw : (name, w) ∈ gs) :
    ∃ e ∈ fs, e.1 = name ∧ e.2.exchange? f = some w := by
  have hall := forall₂_of_exchangeFields? h
  clear h
  induction hall with
  | nil => cases hw
  | cons hg _ ih =>
      rcases List.mem_cons.mp hw with rfl | hw
      · exact ⟨_, List.mem_cons_self, hg.1.symm, hg.2⟩
      · obtain ⟨e, he, hsame⟩ := ih hw
        exact ⟨e, List.mem_cons_of_mem _ he, hsame⟩

theorem exchange?_object_eq_self_iff {fs : List (String × Json)} :
    exchange? f (.object fs) = some (.object fs) ↔ ∀ e ∈ fs, e.2.exchange? f = some e.2 := by
  simp only [exchange?_eq_self_iff, numbers]
  induction fs with
  | nil => simp [numbersFields]
  | cons e fs ih =>
      rw [List.forall_mem_cons, ← ih]
      simp [numbersFields, or_imp, forall_and]

theorem exchange?_array_eq_self_iff {xs : List Json} :
    exchange? f (.array xs) = some (.array xs) ↔ ∀ x ∈ xs, x.exchange? f = some x := by
  simp only [exchange?_eq_self_iff, numbers]
  induction xs with
  | nil => simp [numbersItems]
  | cons x xs ih =>
      rw [List.forall_mem_cons, ← ih]
      simp [numbersItems, or_imp, forall_and]

theorem names_of_exchangeFields? {fs gs : Document} (h : exchangeFields? f fs = some gs) :
    gs.names = fs.names := by
  have hall := forall₂_of_exchangeFields? h
  clear h
  induction hall with
  | nil => rfl
  | cons hg _ ih => exact congrArg₂ List.cons hg.1 ih

/-- What stands under a name is what stood there, exchanged. -/
theorem exchange?_of_mem {fs gs : Document} (h : exchangeFields? f fs = some gs)
    (hnames : fs.names.Nodup) {name : String} {v w : Json} (hv : (name, v) ∈ fs)
    (hw : (name, w) ∈ gs) : v.exchange? f = some w := by
  obtain ⟨e, he, hname, hexchange⟩ := mem_of_exchangeFields? h hw
  have hfirst : fs.get? name = some v := Dict.get?_of_mem hnames hv
  rw [← hname, Dict.get?_of_mem hnames he] at hfirst
  rw [← Option.some.inj hfirst]
  exact hexchange

/-! ### Values that come back -/

theorem eq_of_enclosed? {gs : List (String × Json)} {s : String}
    (h : enclosed? gs = some (some s)) : gs = [(enclosingName, .string s)] := by
  cases gs with
  | nil => cases h
  | cons e gs =>
      obtain ⟨name, v⟩ := e
      rw [enclosed?] at h
      split at h
      · rename_i hname
        split at h
        · rename_i hnone
          obtain rfl := eq_of_beq hname
          obtain rfl := List.isEmpty_iff.mp hnone
          cases v with
          | string t =>
              cases h
              rfl
          | _ => cases h
        · cases h
      · cases h

theorem names_of_meaningFields? {gs hs : Document} (h : meaningFields? gs = some hs) :
    hs.names = gs.names := by
  induction gs generalizing hs with
  | nil =>
      rw [meaningFields?] at h
      cases h
      rfl
  | cons e gs ih =>
      obtain ⟨name, v⟩ := e
      rw [meaningFields?] at h
      split at h
      · rename_i hgs
        cases h
        exact congrArg (name :: ·) (ih hgs)
      · cases h

theorem eq_string_of_exchange? {v : Json} {s : String} (h : v.exchange? f = some (.string s)) :
    v = .string s := by
  cases v with
  | number n =>
      rw [exchange?] at h
      obtain ⟨m, -, hm⟩ := Option.map_eq_some_iff.mp h
      cases hm
  | array xs =>
      rw [exchange?] at h
      obtain ⟨ws, -, hws⟩ := Option.map_eq_some_iff.mp h
      cases hws
  | object fs =>
      rw [exchange?] at h
      obtain ⟨gs, -, hgs⟩ := Option.map_eq_some_iff.mp h
      cases hgs
  | string t => simpa [exchange?] using h
  | null | bool b => cases h

mutual

/-- What stands for the value that was exchanged is that value. -/
theorem eq_of_meaning? : ∀ {v w : Json}, v.exchange? f = some w → w.meaning? = some v → w = v
  | .null, w, hw, _ | .bool _, w, hw, _ | .string _, w, hw, _ => by
      simpa [exchange?, eq_comm] using hw
  | .number n, w, hw, h => by
      rw [exchange?] at hw
      obtain ⟨m, -, rfl⟩ := Option.map_eq_some_iff.mp hw
      simpa [meaning?] using h
  | .array xs, w, hw, h => by
      rw [exchange?] at hw
      obtain ⟨ws, hws, rfl⟩ := Option.map_eq_some_iff.mp hw
      rw [meaning?] at h
      obtain ⟨ys, hys, hsame⟩ := Option.map_eq_some_iff.mp h
      cases hsame
      rw [eq_of_meaningItems? hws hys]
  | .object fs, w, hw, h => by
      rw [exchange?] at hw
      obtain ⟨gs, hgs, rfl⟩ := Option.map_eq_some_iff.mp hw
      rw [meaning?] at h
      split at h
      · rename_i text henclosed
        obtain ⟨s, rfl, -⟩ := Option.bind_eq_some_iff.mp h
        obtain rfl := eq_of_enclosed? henclosed
        cases forall₂_of_exchangeFields? hgs with
        | @cons e _ _ _ hg hrest =>
            obtain ⟨name, v⟩ := e
            cases hrest
            obtain rfl : enclosingName = name := hg.1
            obtain rfl : v = .string s := eq_string_of_exchange? hg.2
            rfl
      · obtain ⟨hs, hhs, hsame⟩ := Option.map_eq_some_iff.mp h
        have hfs : Dict.ofList hs = fs := Json.object.inj hsame
        -- Merging left the names alone, so it left everything alone.
        have hnames : Dict.names hs = Dict.names fs :=
          (names_of_meaningFields? hhs).trans (names_of_exchangeFields? hgs)
        have hnodup : (Dict.names hs).Nodup := by
          rw [hnames, ← hfs]
          exact Dict.nodup_names_ofList hs
        rw [Dict.ofList_eq_self hnodup] at hfs
        subst hfs
        rw [eq_of_meaningFields? hgs hhs]

theorem eq_of_meaningItems? : ∀ {xs ws : List Json}, exchangeItems? f xs = some ws →
    meaningItems? ws = some xs → ws = xs
  | [], ws, hws, _ => by
      simpa [exchangeItems?, eq_comm] using hws
  | x :: xs, ws, hws, h => by
      rw [exchangeItems?] at hws
      obtain ⟨w, hw, hws⟩ := Option.bind_eq_some_iff.mp hws
      obtain ⟨rest, hrest, rfl⟩ := Option.map_eq_some_iff.mp hws
      rw [meaningItems?] at h
      split at h
      · rename_i hx hxs
        cases h
        rw [eq_of_meaning? hw hx, eq_of_meaningItems? hrest hxs]
      · cases h

theorem eq_of_meaningFields? : ∀ {fs gs : List (String × Json)}, exchangeFields? f fs = some gs →
    meaningFields? gs = some fs → gs = fs
  | [], gs, hgs, _ => by
      simpa [exchangeFields?, eq_comm] using hgs
  | (name, v) :: fs, gs, hgs, h => by
      rw [exchangeFields?] at hgs
      obtain ⟨w, hw, hgs⟩ := Option.bind_eq_some_iff.mp hgs
      obtain ⟨rest, hrest, rfl⟩ := Option.map_eq_some_iff.mp hgs
      rw [meaningFields?] at h
      split at h
      · rename_i hv hfs
        cases h
        rw [eq_of_meaning? hw hv, eq_of_meaningFields? hrest hfs]
      · cases h

end

end Json

end Curator
