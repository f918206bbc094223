/-
What is certain to come back from the text of a document.

Words, strings and whole numbers come back as they were, whatever becomes of the fractions beside them; and
an object comes back with its names, unless it does nothing but enclose a text.  A document with an id is
never such an object.  So it comes back with its names, and with the words, strings and whole numbers among
its values.
-/
import Curator.Proofs.Json.Echo
import Curator.Proofs.Json.Equality

namespace Curator

namespace Json

/-- Words and strings. -/
def isPlain : Json → Bool
  | null | bool _ | string _ => true
  | _ => false

/-- Words, strings and whole numbers: the values that are read back as they were written. -/
def isExact : Json → Bool
  | null | bool _ | string _ | number (.whole _) => true
  | _ => false

theorem isExact_of_isPlain {v : Json} (hv : v.isPlain = true) : v.isExact = true := by
  cases v with
  | number n => cases hv
  | array xs => cases hv
  | object fs => cases hv
  | _ => rfl

theorem echo?_of_isExact {v : Json} (hv : v.isExact = true)
    (enclosed : Option (String → Except Fault Json)) (depth : Nat) :
    echo? enclosed depth v = some v := by
  cases v with
  | number n =>
      cases n with
      | whole n => rw [echo?, Number.reread?_whole, Option.map_some]
      | real x => cases hv
  | array xs => cases hv
  | object fs => cases hv
  | _ => rw [echo?]

/-- A field of the same name, and of the same value if that is an exact one. -/
def Echo (e g : String × Json) : Prop := g.1 = e.1 ∧ (e.2.isExact = true → g.2 = e.2)

theorem forall₂_of_echoFields? {enclosed : Option (String → Except Fault Json)} {depth : Nat}
    {fs gs : List (String × Json)} (h : echoFields? enclosed depth fs = some gs) :
    List.Forall₂ Echo fs gs := by
  induction fs generalizing gs with
  | nil =>
      rw [echoFields?] at h
      cases h
      exact .nil
  | cons e fs ih =>
      obtain ⟨name, v⟩ := e
      rw [echoFields?] at h
      obtain ⟨w, hw, h⟩ := Option.bind_eq_some_iff.mp h
      obtain ⟨gs, hgs, rfl⟩ := Option.map_eq_some_iff.mp h
      refine .cons ⟨rfl, fun hexact => ?_⟩ (ih hgs)
      rw [echo?_of_isExact hexact] at hw
      exact (Option.some.inj hw).symm

/-- An object that was written reads back as one, unless it only encloses a value. -/
theorem object_of_echo? {enclosed : Option (String → Except Fault Json)} {depth : Nat}
    {fs : List (String × Json)} {w : Json} (hother : ∀ u, fs ≠ [(enclosingName, u)])
    (h : echo? enclosed depth (.object fs) = some w) :
    ∃ gs, w = .object gs ∧ List.Forall₂ Echo fs gs := by
  cases depth with
  | zero =>
      rw [echo?] at h
      cases h
  | succ depth =>
      rw [echo?] at h
      split at h
      · rename_i text henclosed
        obtain ⟨read, -, henclosed⟩ := Option.bind_eq_some_iff.mp henclosed
        obtain ⟨read, -, h⟩ := Option.bind_eq_some_iff.mp h
        obtain ⟨s, rfl, -⟩ := Option.bind_eq_some_iff.mp h
        cases fs with
        | nil => cases henclosed
        | cons e fs =>
            obtain ⟨name, v⟩ := e
            rw [enclosed?] at henclosed
            split at henclosed
            · rename_i hname
              split at henclosed
              · rename_i hnone
                obtain rfl := List.isEmpty_iff.mp hnone
                obtain rfl := eq_of_beq hname
                exact absurd rfl (hother v)
              · cases henclosed
            · cases henclosed
      · obtain ⟨gs, hgs, rfl⟩ := Option.map_eq_some_iff.mp h
        exact ⟨gs, rfl, forall₂_of_echoFields? hgs⟩

theorem settle_of_isExact {v : Json} (hv : v.isExact = true) : v.settle = v := by
  cases v with
  | array xs => cases hv
  | object fs => cases hv
  | _ => rfl

end Json

namespace Document

open Json (settleFields)

/-- Fields that were written and read keep their names, and their values if these are exact. -/
theorem settleFields_of_echo {fs gs : Document} (h : List.Forall₂ Json.Echo fs gs) :
    Dict.names (settleFields gs) = fs.names ∧ ∀ name v, fs.get? name = some v → v.isExact = true →
      Dict.get? (settleFields gs) name = some v := by
  induction h with
  | nil => exact ⟨rfl, nofun⟩
  | @cons e g fs gs hecho _ ih =>
      obtain ⟨field, w⟩ := e
      obtain ⟨field', w'⟩ := g
      obtain ⟨rfl, hexact⟩ := hecho
      refine ⟨congrArg (field' :: ·) ih.1, fun name v hv hvexact => ?_⟩
      rw [settleFields, Dict.get?_cons]
      rw [Dict.get?_cons] at hv
      by_cases hname : field' = name
      · rw [if_pos hname] at hv ⊢
        cases hv
        exact congrArg some ((congrArg Json.settle (hexact hvexact)).trans
          (Json.settle_of_isExact hvexact))
      · rw [if_neg hname] at hv ⊢
        exact ih.2 name v hv hvexact

/-- A document with an id that reads back from its text does so with its names, and with the words,
strings and whole numbers among its values. -/
theorem get?_of_reread {d k : Document} (hnames : d.names.Nodup) (hid : idField ∈ d.names)
    (hk : d.reread = .ok k) :
    k.names = d.names ∧ ∀ name v, d.get? name = some v → v.isExact = true → k.get? name = some v := by
  rw [reread] at hk
  split at hk
  · rename_i fields hread
    cases hk
    obtain ⟨w, hwanted, hsettle⟩ := Outcome.map_eq_ok_iff.mp hread
    obtain ⟨enclosed, htext⟩ := Json.Reading.wanted_text (Json.Reading.wants_value (.object d))
      (Json.text (.object d)).length
    have hother : ∀ u, d ≠ [(Json.enclosingName, u)] := by
      rintro u rfl
      have hsame : idField = Json.enclosingName := List.mem_singleton.mp hid
      exact absurd hsame (by decide)
    rw [Json.wanted] at hwanted
    rw [hwanted] at htext
    obtain ⟨gs, rfl, hall⟩ := Json.object_of_echo? hother htext.symm
    obtain ⟨hkept, hexact⟩ := settleFields_of_echo hall
    cases hsettle
    rw [Dict.ofList_eq_self (hkept ▸ hnames)]
    exact ⟨hkept, hexact⟩
  · cases hk
  · cases hk

end Document

/-- Documents with an id come back from their texts with their names, and with the words and strings
among their values. -/
def Capabilities.Legible (c : Capabilities) : Prop :=
  ∀ {d k : Document}, d.names.Nodup → idField ∈ d.names → c.codec d = .ok k →
    k.names = d.names ∧ ∀ name v, d.get? name = some v → v.isPlain = true → k.get? name = some v

/-- Documents stored as compact text are legible. -/
theorem Capabilities.legible_of_reread {c : Capabilities} (hc : c.codec = Document.reread) :
    c.Legible := by
  intro d k hnames hid hk
  rw [hc] at hk
  obtain ⟨hkept, hexact⟩ := Document.get?_of_reread hnames hid hk
  exact ⟨hkept, fun name v hv hplain => hexact name v hv (Json.isExact_of_isPlain hplain)⟩

end Curator
