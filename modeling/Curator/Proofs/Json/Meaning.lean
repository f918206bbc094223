/-
What was read stands for itself.

An object that encloses a text stands for the value of that text.  No such object is left in a value that
was read, since reading follows the enclosed texts as deep as they go, and merging repeated names leaves
the first name of an object where it is.  So what a written value stands for stands for itself.
-/
import Curator.Proofs.Json.Equality

namespace Curator

namespace Json

/-- No object in a value encloses a text. -/
inductive Bare : Json → Prop where
  | null : Bare .null
  | bool (b : Bool) : Bare (.bool b)
  | number (n : Number) : Bare (.number n)
  | string (s : String) : Bare (.string s)
  | array {items : List Json} (bare : ∀ v ∈ items, Bare v) : Bare (.array items)
  | object {fields : Document} (outer : enclosed? fields = none) (bare : ∀ e ∈ fields, Bare e.2) :
      Bare (.object fields)

theorem enclosed?_eq_none_iff {fs : Document} :
    enclosed? fs = none ↔ fs.names.head? ≠ some enclosingName := by
  cases fs with
  | nil => simp [enclosed?]
  | cons e fs => simp [enclosed?]

/-! ### Bare values stand for themselves -/

theorem meaningItems?_eq_self {xs : List Json} (h : ∀ x ∈ xs, x.meaning? = some x) :
    meaningItems? xs = some xs := by
  induction xs with
  | nil => rw [meaningItems?]
  | cons x xs ih =>
      obtain ⟨hx, hxs⟩ := List.forall_mem_cons.mp h
      rw [meaningItems?, hx, ih hxs]

theorem meaningFields?_eq_self {fs : List (String × Json)} (h : ∀ e ∈ fs, e.2.meaning? = some e.2) :
    meaningFields? fs = some fs := by
  induction fs with
  | nil => rw [meaningFields?]
  | cons e fs ih =>
      obtain ⟨he, hfs⟩ := List.forall_mem_cons.mp h
      rw [meaningFields?, he, ih hfs]

theorem Settled.meaning?_eq_self {v : Json} (hv : v.Settled) (hbare : v.Bare) :
    v.meaning? = some v := by
  induction hv with
  | array settled ih =>
      cases hbare with
      | array bare =>
          rw [meaning?, meaningItems?_eq_self fun x hx => ih x hx (bare x hx)]
          rfl
  | object distinct settled ih =>
      cases hbare with
      | object outer bare =>
          rw [meaning?, outer, meaningFields?_eq_self fun e he => ih e he (bare e he)]
          exact congrArg (fun fs => some (Json.object fs)) (Dict.ofList_eq_self distinct)
  | _ => simp [meaning?]

/-! ### What is read is bare -/

mutual

theorem Bare.settle : ∀ {v : Json}, v.Bare → v.settle.Bare
  | .null, _ | .bool _, _ | .number _, _ | .string _, _ => by assumption
  | .array xs, .array bare => .array (bare_settleItems bare)
  | .object fs, .object outer bare => by
      have hnames : ∀ fs : List (String × Json), Dict.names (settleFields fs) = Dict.names fs := by
        intro fs
        induction fs with
        | nil => rfl
        | cons e fs ih => exact congrArg (e.1 :: ·) ih
      refine .object ?_ (Dict.forall_mem_merge nofun (bare_settleFields bare))
      rw [enclosed?_eq_none_iff, Dict.head?_names_ofList, hnames]
      exact enclosed?_eq_none_iff.mp outer

theorem bare_settleItems : ∀ {xs : List Json}, (∀ x ∈ xs, x.Bare) → ∀ v ∈ settleItems xs, v.Bare
  | [], _ => nofun
  | _ :: _, h => List.forall_mem_cons.mpr
      ⟨(List.forall_mem_cons.mp h).1.settle, bare_settleItems (List.forall_mem_cons.mp h).2⟩

theorem bare_settleFields : ∀ {fs : List (String × Json)}, (∀ e ∈ fs, e.2.Bare) →
    ∀ e ∈ settleFields fs, e.2.Bare
  | [], _ => nofun
  | (_, _) :: _, h => List.forall_mem_cons.mpr
      ⟨(List.forall_mem_cons.mp h).1.settle, bare_settleFields (List.forall_mem_cons.mp h).2⟩

end

namespace Reading

variable {enclosed : String → Except Fault Json}

theorem bare_of_scalar {cs rest : List Char} {v : Json} (h : scalar true cs = .ok (v, rest)) :
    v.Bare := by
  have hword : ∀ {u : Json} {es cs : List Char}, u.Bare → word u es cs = .ok (v, rest) → v.Bare := by
    intro u es
    induction es with
    | nil =>
        intro cs hu h
        cases h
        exact hu
    | cons e es ih =>
        intro cs hu h
        cases cs with
        | nil => cases h
        | cons c cs =>
            rw [word] at h
            split at h
            · exact ih hu h
            · cases h
  cases cs with
  | nil => cases h
  | cons c cs =>
      rw [scalar] at h
      split at h
      · exact hword .null h
      split at h
      · exact hword (.bool true) h
      split at h
      · exact hword (.bool false) h
      split at h
      · obtain ⟨⟨n, more⟩, -, h⟩ := Outcome.bind_eq_ok_iff.mp h
        cases h
        exact .number n
      · cases h

theorem bare_of_enclosedValue (henclosed : ∀ s v, enclosed s = .ok v → v.Bare)
    {cs rest : List Char} {v : Json} (h : enclosedValue enclosed cs = .ok (v, rest)) : v.Bare := by
  rw [enclosedValue] at h
  obtain ⟨r, -, h⟩ := Outcome.bind_eq_ok_iff.mp h
  dsimp only at h
  split at h
  · cases h
  · cases h
  · obtain ⟨r, -, h⟩ := Outcome.bind_eq_ok_iff.mp h
    split at h
    · cases h
    · rename_i hread
      split at h
      · cases h
      · cases h
        exact henclosed _ _ hread
      · cases h
      · cases h
  · obtain ⟨r, -, h⟩ := Outcome.bind_eq_ok_iff.mp h
    cases h

/-- With this much fuel only bare values are read, and objects that start with the name at hand. -/
structure ReadsBare (enclosed : String → Except Fault Json) (fuel : Nat) : Prop where
  ofValue : ∀ {depth cs r}, value enclosed fuel depth .value cs = .ok r → r.1.Bare
  ofItems : ∀ {depth place cs r}, items enclosed fuel depth .value place cs = .ok r →
    ∀ x ∈ r.1, x.Bare
  ofFields : ∀ {depth name cs r}, fields enclosed fuel depth .value name cs = .ok r →
    (Dict.names r.1).head? = some name ∧ ∀ e ∈ r.1, e.2.Bare

namespace ReadsBare

variable {fuel depth : Nat} {cs : List Char}

theorem zero : ReadsBare enclosed 0 where
  ofValue h := by
    rw [value] at h
    cases h
  ofItems h := by
    rw [items] at h
    cases h
  ofFields h := by
    rw [fields] at h
    cases h

/-- An object whose first name is not the one that marks an enclosed text is bare. -/
theorem value_succ (hbare : ReadsBare enclosed fuel)
    (henclosed : ∀ s v, enclosed s = .ok v → v.Bare) {r : Front Json}
    (h : value enclosed (fuel + 1) depth .value cs = .ok r) : r.1.Bare := by
  unfold value at h
  split at h
  · obtain ⟨t, -, rfl⟩ := Outcome.map_eq_ok_iff.mp h
    exact .string _
  · split at h
    · cases h
    split at h
    · cases h
    · cases h
      exact .array (List.forall_mem_nil _)
    · obtain ⟨t, ht, rfl⟩ := Outcome.map_eq_ok_iff.mp h
      exact .array (hbare.ofItems ht)
  · split at h
    · cases h
    split at h
    · cases h
    · cases h
      exact .object rfl (List.forall_mem_nil _)
    · split at h
      · cases h
      split at h
      · exact bare_of_enclosedValue henclosed h
      · rename_i hname
        obtain ⟨t, ht, rfl⟩ := Outcome.map_eq_ok_iff.mp h
        obtain ⟨hfirst, hall⟩ := hbare.ofFields ht
        refine .object (enclosed?_eq_none_iff.mpr ?_) hall
        rw [hfirst]
        rintro ⟨⟩
        exact hname rfl
    · cases h
  · exact bare_of_scalar h

theorem items_succ (hbare : ReadsBare enclosed fuel) {place : Nat} {r : Front (List Json)}
    (h : items enclosed (fuel + 1) depth .value place cs = .ok r) : ∀ x ∈ r.1, x.Bare := by
  unfold items at h
  split at h
  · cases h
  rename_i x more hx
  have hfirst := hbare.ofValue hx
  split at h
  · cases h
  · cases h
    exact List.forall_mem_singleton.mpr hfirst
  · split at h
    · cases h
    · cases h
    · obtain ⟨t, ht, rfl⟩ := Outcome.map_eq_ok_iff.mp h
      exact List.forall_mem_cons.mpr ⟨hfirst, hbare.ofItems ht⟩
  · cases h

theorem fields_succ (hbare : ReadsBare enclosed fuel) {name : String}
    {r : Front (List (String × Json))}
    (h : fields enclosed (fuel + 1) depth .value name cs = .ok r) :
    (Dict.names r.1).head? = some name ∧ ∀ e ∈ r.1, e.2.Bare := by
  unfold fields at h
  split at h
  · cases h
  split at h
  · cases h
  rename_i x more hx
  have hfirst := hbare.ofValue hx
  dsimp only [Outline.field, Outline.isNothing] at h
  split at h
  · cases h
  · cases h
    exact ⟨rfl, List.forall_mem_singleton.mpr hfirst⟩
  · split at h
    · cases h
    · cases h
    · split at h
      · cases h
      · obtain ⟨t, ht, rfl⟩ := Outcome.map_eq_ok_iff.mp h
        exact ⟨rfl, List.forall_mem_cons.mpr ⟨hfirst, (hbare.ofFields ht).2⟩⟩
    · cases h
  · cases h

end ReadsBare

theorem readsBare (henclosed : ∀ s v, enclosed s = .ok v → v.Bare) (fuel : Nat) :
    ReadsBare enclosed fuel := by
  induction fuel with
  | zero => exact .zero
  | succ fuel ih => exact ⟨ih.value_succ henclosed, ih.items_succ, ih.fields_succ⟩

/-- Enclosed texts are read as deep as they go. -/
theorem bare_of_wanted (levels : Nat) :
    ∀ {s : String} {v : Json}, wanted levels .value s = .ok v → v.Bare := by
  have hwhole : ∀ {enclosed : String → Except Fault Json} {cs : List Char} {r : Front Json},
      (∀ s v, enclosed s = .ok v → v.Bare) → whole enclosed .value cs = .ok r → r.1.Bare := by
    intro enclosed cs r henclosed h
    rw [whole] at h
    obtain ⟨t, ht, h⟩ := Outcome.bind_eq_ok_iff.mp h
    dsimp only at h
    split at h
    · have hbare := (readsBare henclosed _).ofValue ht
      cases h
      exact hbare
    · cases h
  induction levels with
  | zero =>
      intro s v h
      rw [wanted] at h
      split at h
      · rename_i hread
        cases h
        refine hwhole ?_ hread
        rintro _ _ ⟨⟩
        exact .null
      · cases h
  | succ levels ih =>
      intro s v h
      rw [wanted] at h
      split at h
      · rename_i hread
        cases h
        exact hwhole (fun _ _ => ih) hread
      · cases h

end Reading

theorem read?_eq_some {s : String} {v : Json} (h : read? s = some v) : v.Settled ∧ v.Bare := by
  rw [read?, Outcome.toOption_eq_some_iff, read, Outcome.map_eq_ok_iff] at h
  obtain ⟨u, hu, rfl⟩ := h
  exact ⟨settle_settled u, (Reading.bare_of_wanted _ hu).settle⟩

/-! ### What a written value stands for -/

mutual

theorem meaning?_eq_some : ∀ {w v : Json}, w.meaning? = some v → v.Settled ∧ v.Bare
  | .null, v, h | .bool _, v, h | .number _, v, h | .string _, v, h => by
      simp only [meaning?, Option.some.injEq] at h
      subst h
      constructor <;> constructor
  | .array xs, v, h => by
      rw [meaning?] at h
      obtain ⟨vs, hvs, rfl⟩ := Option.map_eq_some_iff.mp h
      have hall := meaningItems?_eq_some hvs
      exact ⟨.array fun v hv => (hall v hv).1, .array fun v hv => (hall v hv).2⟩
  | .object fs, v, h => by
      rw [meaning?] at h
      split at h
      · obtain ⟨s, -, h⟩ := Option.bind_eq_some_iff.mp h
        exact read?_eq_some h
      · rename_i outer
        obtain ⟨gs, hgs, rfl⟩ := Option.map_eq_some_iff.mp h
        obtain ⟨hnames, hall⟩ := meaningFields?_eq_some hgs
        refine ⟨.object (Dict.nodup_names_ofList gs)
          (Dict.forall_mem_merge nofun fun e he => (hall e he).1), .object ?_
          (Dict.forall_mem_merge nofun fun e he => (hall e he).2)⟩
        rw [enclosed?_eq_none_iff, Dict.head?_names_ofList, hnames]
        exact enclosed?_eq_none_iff.mp outer

theorem meaningItems?_eq_some : ∀ {xs vs : List Json}, meaningItems? xs = some vs →
    ∀ v ∈ vs, v.Settled ∧ v.Bare
  | [], vs, h => by
      rw [meaningItems?] at h
      cases h
      exact List.forall_mem_nil _
  | x :: xs, vs, h => by
      rw [meaningItems?] at h
      split at h
      · rename_i hx hxs
        cases h
        exact List.forall_mem_cons.mpr ⟨meaning?_eq_some hx, meaningItems?_eq_some hxs⟩
      · cases h

theorem meaningFields?_eq_some : ∀ {fs gs : List (String × Json)}, meaningFields? fs = some gs →
    Dict.names gs = Dict.names fs ∧ ∀ e ∈ gs, e.2.Settled ∧ e.2.Bare
  | [], gs, h => by
      rw [meaningFields?] at h
      cases h
      exact ⟨rfl, List.forall_mem_nil _⟩
  | (name, v) :: fs, gs, h => by
      rw [meaningFields?] at h
      split at h
      · rename_i hv hfs
        cases h
        obtain ⟨hnames, hall⟩ := meaningFields?_eq_some hfs
        exact ⟨congrArg (name :: ·) hnames, List.forall_mem_cons.mpr ⟨meaning?_eq_some hv, hall⟩⟩
      · cases h

end

/-- What a written value stands for stands for itself. -/
theorem meaning?_meaning? {w v : Json} (h : w.meaning? = some v) : v.meaning? = some v := by
  obtain ⟨hsettled, hbare⟩ := meaning?_eq_some h
  exact hsettled.meaning?_eq_self hbare

end Json

end Curator
