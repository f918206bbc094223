/-
What the answers to calls give away.

A document is stored whole and shown in part.  Each call comes to its answer by a way of its own: a
creation and an update read again what they wrote, a find goes through a list, a deletion keeps the
document that it took out.  In the end all of them show a document through `Service.present`, or
through `Entity.visible` where it is gone and its joins are not looked up.  `Service.Rendered` has these
two ends, and `rendered_of_serve` leads every call to one of them.

What an answer gives away is then a matter of the two ends alone: declared fields that the caller is
granted, and the finds of joins, which are cut down by the fields of their own entity.
-/
import Curator.Proofs.Service.History
import Curator.Proofs.Service.Joining

namespace Curator

open Serving (runOn)

/-- Whether a call shows the joins of its entity. -/
def Call.showsJoins : Call → Bool
  | .delete _ => false
  | _ => true

namespace Service

variable {svc : Service} {entity : String} {e : Entity} {req : Request} {w w' : World}

/-! ### The ways to an answer -/

/-- How a document is shown, with the joins of its entity or without. -/
inductive Rendered (svc : Service) (e : Entity) (caller : Option String) (shown : Document) :
    Bool → Prop
  | joined {d : Document} {stores : Stores} (presented : svc.present e d caller stores = .ok shown) :
      Rendered svc e caller shown true
  | plain (d : Document) (visible : shown = e.visible caller d) : Rendered svc e caller shown false

theorem rendered_of_showWritten {l : Lifecycle} {d : Document} {id : String} {shown : Document}
    (h : runOn (svc.showWritten entity e l d id req) w = (.ok shown, w')) :
    svc.Rendered e req.caller shown true := by
  rw [showWritten] at h
  obtain ⟨_, _, _, h⟩ := Serving.bind_eq_ok_iff.mp h
  obtain ⟨current, _, _, h⟩ := Serving.bind_eq_ok_iff.mp h
  rw [Serving.runOn_look] at h
  exact .joined (Prod.mk.inj h).1

theorem rendered_of_create {input : Json} {shown : Document}
    (he : svc.directory.get entity = .ok e)
    (h : runOn (svc.create entity input req) w = (.ok shown, w')) :
    svc.Rendered e req.caller shown true := by
  rw [create_eq he] at h
  obtain ⟨d, _, _, h⟩ := Serving.bind_eq_ok_iff.mp h
  rw [storeDraft] at h
  obtain ⟨_, _, _, h⟩ := Serving.bind_eq_ok_iff.mp h
  obtain ⟨_, _, _, h⟩ := Serving.bind_eq_ok_iff.mp h
  obtain ⟨stored, _, _, h⟩ := Serving.bind_eq_ok_iff.mp h
  split at h
  · cases h
  · exact rendered_of_showWritten h

theorem rendered_of_update {id : String} {input : Json} {shown : Document}
    (he : svc.directory.get entity = .ok e)
    (h : runOn (svc.update entity id input req) w = (.ok shown, w')) :
    svc.Rendered e req.caller shown true := by
  rw [update_eq he] at h
  obtain ⟨fields, _, _, h⟩ := Serving.bind_eq_ok_iff.mp h
  obtain ⟨existing, _, _, h⟩ := Serving.bind_eq_ok_iff.mp h
  rw [storeChanges] at h
  obtain ⟨_, _, _, h⟩ := Serving.bind_eq_ok_iff.mp h
  obtain ⟨_, _, _, h⟩ := Serving.bind_eq_ok_iff.mp h
  obtain ⟨found, _, _, h⟩ := Serving.bind_eq_ok_iff.mp h
  split at h
  · obtain ⟨_, _, _, h⟩ := Serving.bind_eq_ok_iff.mp h
    exact rendered_of_showWritten h
  · cases h

theorem rendered_of_delete {id : String} {shown : Document}
    (he : svc.directory.get entity = .ok e)
    (h : runOn (svc.delete entity id req) w = (.ok shown, w')) :
    svc.Rendered e req.caller shown false := by
  rw [delete_eq he] at h
  obtain ⟨existing, _, _, h⟩ := Serving.bind_eq_ok_iff.mp h
  rw [takeOut] at h
  obtain ⟨_, _, _, h⟩ := Serving.bind_eq_ok_iff.mp h
  obtain ⟨_, _, _, h⟩ := Serving.bind_eq_ok_iff.mp h
  obtain ⟨found, _, _, h⟩ := Serving.bind_eq_ok_iff.mp h
  split at h
  · obtain ⟨_, _, _, h⟩ := Serving.bind_eq_ok_iff.mp h
    rw [Serving.runOn_pure] at h
    exact .plain existing (Except.ok.inj (Prod.mk.inj h).1).symm
  · cases h

theorem rendered_of_shows {shown : Document} (he : svc.directory.get entity = .ok e)
    (h : svc.Shows entity req w shown) : svc.Rendered e req.caller shown true := by
  obtain ⟨d, stores, hpresent⟩ := h.presents he
  exact .joined hpresent

/-- A call that returns a document returns it from a single operation. -/
theorem eq_singleton_of_return {m : Serving Document} {docs : List Document}
    (h : runOn (do return [← m]) w = (.ok docs, w')) :
    ∃ shown, docs = [shown] ∧ runOn m w = (.ok shown, w') := by
  obtain ⟨shown, v, hm, h⟩ := Serving.bind_eq_ok_iff.mp h
  simp only [Serving.runOn_pure, Prod.mk.injEq, Except.ok.injEq] at h
  obtain ⟨rfl, rfl⟩ := h
  exact ⟨shown, rfl, hm⟩

/-- Every document of an answer was shown in one of the two ways. -/
theorem rendered_of_serve {call : Call} {docs : List Document}
    (he : svc.directory.get entity = .ok e)
    (h : runOn (svc.serve entity call req) w = (.ok docs, w')) :
    ∀ shown ∈ docs, svc.Rendered e req.caller shown call.showsJoins := by
  intro shown hmem
  cases call with
  | find query => exact rendered_of_shows he (.find query h hmem)
  | create input =>
      obtain ⟨only, rfl, hrun⟩ := eq_singleton_of_return h
      obtain rfl := List.mem_singleton.mp hmem
      exact rendered_of_create he hrun
  | get id =>
      obtain ⟨only, rfl, hrun⟩ := eq_singleton_of_return h
      obtain rfl := List.mem_singleton.mp hmem
      exact rendered_of_shows he (.get id hrun)
  | update id input =>
      obtain ⟨only, rfl, hrun⟩ := eq_singleton_of_return h
      obtain rfl := List.mem_singleton.mp hmem
      exact rendered_of_update he hrun
  | delete id =>
      obtain ⟨only, rfl, hrun⟩ := eq_singleton_of_return h
      obtain rfl := List.mem_singleton.mp hmem
      exact rendered_of_delete he hrun

/-! ### What is given away at the end -/

theorem grants_of_mem_names_visible {caller : Option String} {d : Document} {field : String}
    (h : field ∈ Dict.names (e.visible caller d)) : e.Grants .get caller field :=
  Entity.shows_iff.mp (Entity.shows_of_mem_names_visible h)

/-- Joins bring no names but their own. -/
theorem addJoins_names {stores : Stores} {model : Document} {caller : Option String} :
    ∀ {joins : List (String × Join)} {base shown : Document},
      svc.addJoins stores model caller joins base = .ok shown →
      ∀ field ∈ shown.names, field ∈ Dict.names joins ∨ field ∈ base.names := by
  intro joins
  induction joins with
  | nil =>
      intro base shown h field hfield
      cases h
      exact Or.inr hfield
  | cons nj rest ih =>
      intro base shown h field hfield
      rw [addJoins] at h
      split at h
      · cases h
      · split at h
        · cases h
        · rcases ih h field hfield with hrest | hset
          · exact Or.inl (List.mem_cons_of_mem _ hrest)
          · rcases Dict.mem_names_set.mp hset with rfl | hbase
            · exact Or.inl List.mem_cons_self
            · exact Or.inr hbase

/-- A shown document has no fields but the joins that were shown and those that the caller is granted. -/
theorem Rendered.names {caller : Option String} {shown : Document} {joins : Bool}
    (h : svc.Rendered e caller shown joins) :
    ∀ field ∈ shown.names,
      (joins = true ∧ field ∈ Dict.names e.definition.joins.entries) ∨
        e.Grants .get caller field := by
  intro field hfield
  cases h with
  | joined presented =>
      rcases addJoins_names presented field hfield with hjoin | hvisible
      · exact Or.inl ⟨rfl, hjoin⟩
      · exact Or.inr (grants_of_mem_names_visible hvisible)
  | plain d visible =>
      subst visible
      exact Or.inr (grants_of_mem_names_visible hfield)

/-- Under the name of a join stand documents of its entity, with fields that the caller is granted. -/
theorem Rendered.joins {caller : Option String} {shown : Document}
    (h : svc.Rendered e caller shown true) :
    ∀ nj ∈ e.definition.joins.entries, ∃ target found,
      svc.directory.get nj.2.entity = .ok target ∧ shown.get? nj.1 = some (Joined.toJson found) ∧
      ∀ d ∈ found.documents, ∀ field ∈ d.names, target.Grants .get caller field := by
  intro nj hnj
  cases h with
  | joined presented =>
      have hdistinct : e.definition.joins.entries.Pairwise fun a b => a.1 ≠ b.1 :=
        e.definition.joins.sorted.imp fun hlt => Std.ne_of_lt hlt
      obtain ⟨found, target, -, htarget, hshown⟩ := addJoins_spec hdistinct presented nj hnj
      refine ⟨target, _, htarget, hshown, fun d hd field hfield => ?_⟩
      rw [Joined.documents_map] at hd
      obtain ⟨stored, -, rfl⟩ := List.mem_map.mp hd
      exact grants_of_mem_names_visible hfield

/--
**Every field of an answer is granted.**  A field of a document that a call answers with is the name of
a join, where the call shows joins, or a declared field that the caller is granted.  Under the name of
each join stand documents of the joined entity, and the same holds of every field of theirs.
-/
theorem fields_of_answer_granted {call : Call} {docs : List Document}
    (he : svc.directory.get entity = .ok e)
    (h : runOn (svc.serve entity call req) w = (.ok docs, w')) :
    ∀ shown ∈ docs,
      (∀ field ∈ shown.names,
        (call.showsJoins = true ∧ field ∈ Dict.names e.definition.joins.entries) ∨
          e.Grants .get req.caller field) ∧
      (call.showsJoins = true → ∀ nj ∈ e.definition.joins.entries, ∃ target found,
        svc.directory.get nj.2.entity = .ok target ∧
        shown.get? nj.1 = some (Joined.toJson found) ∧
        ∀ d ∈ found.documents, ∀ field ∈ d.names, target.Grants .get req.caller field) := by
  intro shown hmem
  have hrendered := rendered_of_serve he h shown hmem
  refine ⟨hrendered.names, fun hjoins => ?_⟩
  rw [hjoins] at hrendered
  exact hrendered.joins

/-! ### A person with a password -/

/-- People that anyone may read, but for their passwords, each shown with all notes. -/
private def people : Entity :=
  ⟨{ Definition.ofNames "people" "people" with
      permissions := some ⟨some (.one .anyone), none, none, none⟩
      attributes := ⟨[("name", .ofKind (.string none none)),
        ("password", { Attribute.ofKind (.string none none) with
          permissions := some (.uniform (.one .nobody)) })], by decide⟩
      joins := NameMap.empty.insert "notes" ⟨.findMany, "remarks", []⟩ },
    some ⟨.memory, "people", []⟩⟩

/-- Remarks with a text, and an author that only callers with an identity may read. -/
private def remarks : Entity :=
  ⟨{ Definition.ofNames "remarks" "remarks" with
      attributes := ⟨[("author", { Attribute.ofKind (.string none none) with
          permissions := some (.uniform (.one .user)) }),
        ("text", .ofKind (.string none none))], by decide⟩ },
    some ⟨.memory, "remarks", []⟩⟩

private def peopleService : Service :=
  ⟨⟨fun t _ => .ok t, fun n => String.ofList (List.replicate n 'x'), toString, .ok⟩,
    ⟨[("people", people), ("remarks", remarks)]⟩, fun _ _ => none⟩

/-- One person with a password and a field that is not declared any more, and one remark. -/
private def onePerson : World :=
  ⟨⟨[("people", [[("name", .string "Ann"), ("password", .string "secret"), ("nick", .string "A"),
        ("id", .string "1")]]),
      ("remarks", [[("text", .string "hello"), ("author", .string "Bob"), ("id", .string "2")]])],
    [], 2⟩, []⟩

private def passerby : Request := ⟨none, none, 0⟩

private def shownPerson : Document :=
  [("name", .string "Ann"), ("notes", .array [.object [("text", .string "hello")]])]

theorem fields_of_answer_granted_people :
    peopleService.directory.get "people" = .ok people ∧
    runOn (peopleService.serve "people" (.get "1") passerby) onePerson =
      (.ok [shownPerson], onePerson) ∧
    ∀ shown ∈ [shownPerson],
      (∀ field ∈ shown.names,
        ((Call.get "1").showsJoins = true ∧
          field ∈ Dict.names people.definition.joins.entries) ∨ people.Grants .get none field) ∧
      ((Call.get "1").showsJoins = true → ∀ nj ∈ people.definition.joins.entries, ∃ target found,
        peopleService.directory.get nj.2.entity = .ok target ∧
        shown.get? nj.1 = some (Joined.toJson found) ∧
        ∀ d ∈ found.documents, ∀ field ∈ d.names, target.Grants .get none field) := by
  have hrun : runOn (peopleService.serve "people" (.get "1") passerby) onePerson =
      (.ok [shownPerson], onePerson) := rfl
  exact ⟨rfl, hrun, fields_of_answer_granted rfl hrun⟩

end Service

end Curator
