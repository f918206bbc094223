/-
What the calls on an entity come to.

A call that writes has two halves.  Everything that it checks and computes before it writes is
`Service.draft` for a creation, `Service.changes` for an update and `Service.doomed` for a deletion; what
it does with that is `Service.storeDraft`, `Service.storeChanges` and `Service.takeOut`.  Without hooks
the second half is one write, and the document of the id read again and shown, which is `Service.shown`.
Without joins either, showing it cannot fail.

The fields of a draft and of changes are told by name: the two times, and what each attribute comes to
for the fields of the input that the caller may write.
-/
import Curator.Proofs.Dict
import Curator.Proofs.Serving
import Curator.Service.Operations

namespace Curator

open Serving (runOn runOn_bind)

/-- The value that an attribute comes to for an input, if any. -/
def Attribute.value? (a : Attribute) (s : Surroundings) (data : Document) (name : String) :
    Option Json :=
  (a.coerce s data name (data.get? name)).toOption.join

/-- A field is declared, and permissions of its own, if it has any, allow a caller an action. -/
def Entity.Grants (e : Entity) (action : Action) (caller : Option String) (field : String) : Prop :=
  ∃ a, e.attribute? field = some a ∧ ∀ p, a.permissions = some p → p.allows action caller = true

theorem Entity.grants_iff {e : Entity} {action : Action} {caller : Option String} {field : String} :
    e.Grants action caller field ↔
      (match e.attribute? field with
        | some a => fieldAllowed a.permissions action caller
        | none => false) = true := by
  unfold Entity.Grants
  cases e.attribute? field with
  | none => simp
  | some a => cases hp : a.permissions <;> simp [fieldAllowed, hp]

instance (e : Entity) (action : Action) (caller : Option String) (field : String) :
    Decidable (e.Grants action caller field) := decidable_of_iff _ Entity.grants_iff.symm

theorem Entity.shows_iff {e : Entity} {caller : Option String} {field : String} :
    e.shows caller field = true ↔ e.Grants .get caller field := Entity.grants_iff.symm

/-- The fields of an input that a caller may write. -/
def Entity.accepted (e : Entity) (action : Action) (caller : Option String) (input : Json) :
    Document :=
  (e.writable action caller input).toOption.getD []

theorem Entity.writable_object (e : Entity) (action : Action) (caller : Option String)
    (fields : Document) :
    e.writable action caller (.object fields) = .ok (e.accepted action caller (.object fields)) := rfl

theorem Entity.get?_accepted (e : Entity) (action : Action) (caller : Option String)
    (fields : Document) (name : String) :
    (e.accepted action caller (.object fields)).get? name =
      if e.Grants action caller name then fields.get? name else none := by
  have hkeep : e.accepted action caller (.object fields) =
      fields.filter fun field => e.Grants action caller field.1 := by
    refine List.filter_congr fun field _ => ?_
    rw [Bool.eq_iff_iff, decide_eq_true_iff]
    exact Entity.grants_iff.symm
  rw [hkeep, Dict.get?_filter fun name => decide (e.Grants action caller name)]
  simp only [decide_eq_true_eq]

namespace Service

/-! ### What is written -/

/-- The document that a creation stores, or why it comes to none. -/
def draft (svc : Service) (e : Entity) (input : Json) (req : Request) (stores : Stores) :
    Except Failure Document := do
  e.ensureAllowed .create req.caller
  let data ← e.writable .create req.caller input
  let fields ← newFields (svc.surroundings req.caller false stores) data
    e.definition.attributes.entries
  return fields ++ [(createdAtField, Json.ofInt req.now), (updatedAtField, Json.ofInt req.now)]

/-- The fields that an update writes, or why it writes none. -/
def changes (svc : Service) (e : Entity) (id : String) (input : Json) (req : Request)
    (stores : Stores) : Except Failure Document := do
  e.ensureAllowed .update req.caller
  let _ ← e.load id stores
  let data ← e.writable .update req.caller input
  let fields ← changedFields (svc.surroundings req.caller true stores) data
    e.definition.attributes.entries
  return fields ++ [(updatedAtField, Json.ofInt req.now)]

/-- The document that a deletion takes out, or why it takes out none. -/
def doomed (e : Entity) (id : String) (req : Request) (stores : Stores) :
    Except Failure Document := do
  e.ensureAllowed .delete req.caller
  e.load id stores

/-- What a creation gives a field other than the id. -/
def created (svc : Service) (e : Entity) (input : Json) (req : Request) (stores : Stores)
    (name : String) : Option Json :=
  if name = createdAtField ∨ name = updatedAtField then some (Json.ofInt req.now)
  else if isManaged name then none
  else
    (e.attribute? name).bind fun a =>
      a.value? (svc.surroundings req.caller false stores) (e.accepted .create req.caller input) name

/-- What an update gives a field that it writes; null where a value comes to nothing. -/
def changed (svc : Service) (e : Entity) (input : Json) (req : Request) (stores : Stores)
    (name : String) : Option Json :=
  if name = updatedAtField then some (Json.ofInt req.now)
  else if isManaged name then none
  else
    (e.attribute? name).bind fun a =>
      let data := e.accepted .update req.caller input
      if touches data name a then
        some ((a.value? (svc.surroundings req.caller true stores) data name).getD .null)
      else none

/-! ### Its fields -/

theorem newFields_get? {s : Surroundings} {data : Document} :
    ∀ {entries : List (String × Attribute)} {fields : Document},
      newFields s data entries = .ok fields → (Dict.names entries).Nodup → ∀ name,
      fields.get? name =
        if isManaged name then none
        else (Dict.get? entries name).bind fun a => a.value? s data name := by
  intro entries
  induction entries with
  | nil =>
      intro fields h _ name
      cases h
      simp
  | cons entry rest ih =>
      obtain ⟨n, a⟩ := entry
      intro fields h hnames name
      obtain ⟨hn, hnames⟩ := List.nodup_cons.mp hnames
      have hnone : Dict.get? rest n = none := (Dict.get?_eq_none_iff rest n).mpr hn
      rw [newFields] at h
      split at h
      · rename_i hmanaged
        rw [ih h hnames name, Dict.get?_cons]
        by_cases hname : n = name
        · subst hname
          simp [hmanaged]
        · simp [hname]
      · rename_i hmanaged
        split at h
        · cases h
        · rename_i v hv
          obtain ⟨more, hmore, rfl⟩ := Outcome.map_eq_ok_iff.mp h
          rw [Dict.get?_append, ih hmore hnames name, Dict.get?_cons]
          by_cases hname : n = name
          · subst hname
            cases v with
            | none => simp [Dict.ofOption, hmanaged, hnone, Attribute.value?, hv, Except.toOption]
            | some v =>
                simp [Dict.ofOption, Dict.get?_cons, hmanaged, Attribute.value?, hv,
                  Except.toOption]
          · cases v with
            | none => simp [Dict.ofOption, hname]
            | some v => simp [Dict.ofOption, Dict.get?_cons, hname]

/-- Every field of a new document that is not managed could be coerced. -/
theorem newFields_coerced {s : Surroundings} {data : Document} :
    ∀ {entries : List (String × Attribute)} {fields : Document},
      newFields s data entries = .ok fields → ∀ e ∈ entries, isManaged e.1 = false →
      ∃ v, e.2.coerce s data e.1 (data.get? e.1) = .ok v := by
  intro entries
  induction entries with
  | nil => nofun
  | cons entry rest ih =>
      intro fields h
      rw [newFields] at h
      split at h
      · rename_i hmanaged
        refine List.forall_mem_cons.mpr ⟨fun hname => ?_, ih h⟩
        rw [hmanaged] at hname
        cases hname
      · split at h
        · cases h
        · rename_i v hv
          obtain ⟨more, hmore, -⟩ := Outcome.map_eq_ok_iff.mp h
          exact List.forall_mem_cons.mpr ⟨fun _ => ⟨v, hv⟩, ih hmore⟩

theorem newFields_names {s : Surroundings} {data : Document} :
    ∀ {entries : List (String × Attribute)} {fields : Document},
      newFields s data entries = .ok fields → fields.names.Sublist (Dict.names entries) := by
  intro entries
  induction entries with
  | nil =>
      intro fields h
      cases h
      exact .slnil
  | cons entry rest ih =>
      intro fields h
      rw [newFields] at h
      split at h
      · exact (ih h).cons _
      · split at h
        · cases h
        · rename_i v _
          obtain ⟨more, hmore, rfl⟩ := Outcome.map_eq_ok_iff.mp h
          cases v with
          | none => exact (ih hmore).cons _
          | some v => exact (ih hmore).cons_cons _

/-- Every field that an update touches could be coerced, unless it is managed. -/
theorem changedFields_coerced {s : Surroundings} {data : Document} :
    ∀ {entries : List (String × Attribute)} {fields : Document},
      changedFields s data entries = .ok fields → ∀ e ∈ entries, isManaged e.1 = false →
      touches data e.1 e.2 = true → ∃ v, e.2.coerce s data e.1 (data.get? e.1) = .ok v := by
  intro entries
  induction entries with
  | nil => nofun
  | cons entry rest ih =>
      intro fields h
      rw [changedFields] at h
      split at h
      · rename_i hskip
        refine List.forall_mem_cons.mpr ⟨fun hname htouch => ?_, ih h⟩
        rw [hname, htouch] at hskip
        cases hskip
      · split at h
        · cases h
        · rename_i v hv
          obtain ⟨more, hmore, -⟩ := Outcome.map_eq_ok_iff.mp h
          exact List.forall_mem_cons.mpr ⟨fun _ _ => ⟨v, hv⟩, ih hmore⟩

theorem changedFields_names {s : Surroundings} {data : Document} :
    ∀ {entries : List (String × Attribute)} {fields : Document},
      changedFields s data entries = .ok fields → fields.names.Sublist (Dict.names entries) := by
  intro entries
  induction entries with
  | nil =>
      intro fields h
      cases h
      exact .slnil
  | cons entry rest ih =>
      intro fields h
      rw [changedFields] at h
      split at h
      · exact (ih h).cons _
      · split at h
        · cases h
        · obtain ⟨more, hmore, rfl⟩ := Outcome.map_eq_ok_iff.mp h
          exact (ih hmore).cons_cons _

theorem changedFields_get? {s : Surroundings} {data : Document} :
    ∀ {entries : List (String × Attribute)} {fields : Document},
      changedFields s data entries = .ok fields → (Dict.names entries).Nodup → ∀ name,
      fields.get? name =
        if isManaged name then none
        else (Dict.get? entries name).bind fun a =>
          if touches data name a then some ((a.value? s data name).getD .null) else none := by
  intro entries
  induction entries with
  | nil =>
      intro fields h _ name
      cases h
      simp
  | cons entry rest ih =>
      obtain ⟨n, a⟩ := entry
      intro fields h hnames name
      obtain ⟨hn, hnames⟩ := List.nodup_cons.mp hnames
      have hnone : Dict.get? rest n = none := (Dict.get?_eq_none_iff rest n).mpr hn
      rw [changedFields] at h
      split at h
      · rename_i hskip
        rw [ih h hnames name, Dict.get?_cons]
        by_cases hname : n = name
        · subst hname
          rcases Bool.or_eq_true_iff.mp hskip with hmanaged | htouch
          · simp [hmanaged]
          · have htouch : touches data n a = false := by simpa using htouch
            simp [hnone, htouch]
        · simp [hname]
      · rename_i hwrite
        obtain ⟨hmanaged, htouch⟩ : isManaged n = false ∧ touches data n a = true := by
          simpa using hwrite
        split at h
        · cases h
        · rename_i v hv
          obtain ⟨more, hmore, rfl⟩ := Outcome.map_eq_ok_iff.mp h
          rw [Dict.get?_cons, Dict.get?_cons]
          by_cases hname : n = name
          · subst hname
            simp [hmanaged, htouch, Attribute.value?, hv, Except.toOption]
          · simp [hname, ih hmore hnames name]

theorem draft_eq_ok {svc : Service} {e : Entity} {input : Json} {req : Request} {stores : Stores}
    {d : Document} (h : svc.draft e input req stores = .ok d) :
    ∃ fields, newFields (svc.surroundings req.caller false stores)
        (e.accepted .create req.caller input) e.definition.attributes.entries = .ok fields ∧
      d = fields ++ [(createdAtField, Json.ofInt req.now), (updatedAtField, Json.ofInt req.now)] := by
  obtain ⟨_, _, h⟩ := Outcome.bind_eq_ok_iff.mp h
  obtain ⟨data, hdata, h⟩ := Outcome.bind_eq_ok_iff.mp h
  obtain ⟨fields, hfields, h⟩ := Outcome.bind_eq_ok_iff.mp h
  have haccepted : e.accepted .create req.caller input = data := by
    simp [Entity.accepted, hdata, Except.toOption]
  refine ⟨fields, ?_, (Except.ok.inj h).symm⟩
  rw [haccepted, hfields]

theorem draft_get? {svc : Service} {e : Entity} {input : Json} {req : Request} {stores : Stores}
    {d : Document} (h : svc.draft e input req stores = .ok d) (name : String) :
    d.get? name = svc.created e input req stores name := by
  obtain ⟨fields, hfields, rfl⟩ := draft_eq_ok h
  rw [Dict.get?_append, newFields_get? hfields e.definition.attributes.nodup_names, created]
  by_cases hcreated : name = createdAtField
  · subst hcreated
    simp [isManaged, Dict.get?_cons]
  · by_cases hupdated : name = updatedAtField
    · subst hupdated
      simp [isManaged, Dict.get?_cons, Ne.symm hcreated]
    · simp only [hcreated, hupdated, or_self, if_false, Dict.get?_cons, Ne.symm hcreated,
        Ne.symm hupdated, Dict.get?_nil, Option.or_none]
      rfl

/-- Names do not repeat in a draft, since the times are no declared fields to it. -/
theorem draft_names_nodup {svc : Service} {e : Entity} {input : Json} {req : Request}
    {stores : Stores} {d : Document} (h : svc.draft e input req stores = .ok d) :
    d.names.Nodup := by
  obtain ⟨fields, hfields, rfl⟩ := draft_eq_ok h
  have hnodup := e.definition.attributes.nodup_names
  have hfresh : ∀ name, isManaged name = true → name ∉ fields.names := by
    intro name hname
    rw [← Dict.get?_eq_none_iff, newFields_get? hfields hnodup, if_pos hname]
  have htimes : [createdAtField, updatedAtField].Nodup := by decide
  rw [Dict.names_append, List.nodup_append]
  refine ⟨hnodup.sublist (newFields_names hfields), htimes, ?_⟩
  rintro a ha b hb rfl
  refine hfresh a ?_ ha
  simp only [Dict.names_cons, Dict.names_nil, List.mem_cons, List.not_mem_nil, or_false] at hb
  rcases hb with rfl | rfl <;> rfl

theorem draft_id? {svc : Service} {e : Entity} {input : Json} {req : Request} {stores : Stores}
    {d : Document} (h : svc.draft e input req stores = .ok d) : d.id? = none := by
  rw [Document.id?, draft_get? h]
  rfl

theorem changes_eq_ok {svc : Service} {e : Entity} {id : String} {input : Json} {req : Request}
    {stores : Stores} {fields : Document} (h : svc.changes e id input req stores = .ok fields) :
    (∃ d, e.load id stores = .ok d) ∧ ∃ written,
      changedFields (svc.surroundings req.caller true stores)
        (e.accepted .update req.caller input) e.definition.attributes.entries = .ok written ∧
      fields = written ++ [(updatedAtField, Json.ofInt req.now)] := by
  obtain ⟨_, _, h⟩ := Outcome.bind_eq_ok_iff.mp h
  obtain ⟨d, hd, h⟩ := Outcome.bind_eq_ok_iff.mp h
  obtain ⟨data, hdata, h⟩ := Outcome.bind_eq_ok_iff.mp h
  obtain ⟨written, hwritten, h⟩ := Outcome.bind_eq_ok_iff.mp h
  have haccepted : e.accepted .update req.caller input = data := by
    simp [Entity.accepted, hdata, Except.toOption]
  refine ⟨⟨d, hd⟩, written, ?_, (Except.ok.inj h).symm⟩
  rw [haccepted, hwritten]

theorem changes_get? {svc : Service} {e : Entity} {id : String} {input : Json} {req : Request}
    {stores : Stores} {fields : Document} (h : svc.changes e id input req stores = .ok fields)
    (name : String) : fields.get? name = svc.changed e input req stores name := by
  obtain ⟨-, written, hwritten, rfl⟩ := changes_eq_ok h
  rw [Dict.get?_append, changedFields_get? hwritten e.definition.attributes.nodup_names, changed]
  by_cases hupdated : name = updatedAtField
  · subst hupdated
    simp [isManaged, Dict.get?_cons]
  · simp only [hupdated, if_false, Dict.get?_cons, Ne.symm hupdated, Dict.get?_nil,
      Option.or_none]
    rfl

theorem changes_names_nodup {svc : Service} {e : Entity} {id : String} {input : Json}
    {req : Request} {stores : Stores} {fields : Document}
    (h : svc.changes e id input req stores = .ok fields) : fields.names.Nodup := by
  obtain ⟨-, written, hwritten, rfl⟩ := changes_eq_ok h
  have hnodup := e.definition.attributes.nodup_names
  have hfresh : updatedAtField ∉ written.names := by
    rw [← Dict.get?_eq_none_iff, changedFields_get? hwritten hnodup]
    rfl
  rw [Dict.names_append, List.nodup_append]
  refine ⟨hnodup.sublist (changedFields_names hwritten), by simp, ?_⟩
  rintro a ha b hb rfl
  obtain rfl := List.mem_singleton.mp hb
  exact hfresh ha

/-! ### What is done with it -/

/-- Shows the document of an id after it was written. -/
def showWritten (svc : Service) (entity : String) (e : Entity) (l : Lifecycle) (d : Document)
    (id : String) (req : Request) : Serving Document := do
  svc.runHooks entity l d req
  let current ← Serving.look (e.load id)
  Serving.look (svc.present e current req.caller)

/-- What a creation does with its draft. -/
def storeDraft (svc : Service) (entity : String) (e : Entity) (d : Document) (req : Request) :
    Serving Document := do
  svc.runHooks entity .beforeCreate d req
  let h ← Serving.ofExcept e.store
  let stored ← Serving.onStores (h.insert svc.capabilities d)
  match Document.id? stored with
  | none => throw ⟨.internal, "stored document has no id"⟩
  | some id => svc.showWritten entity e .afterCreate stored id req

/-- What an update does with the fields that it writes over a document. -/
def storeChanges (svc : Service) (entity : String) (e : Entity) (id : String)
    (existing fields : Document) (req : Request) : Serving Document := do
  svc.runHooks entity .beforeUpdate (Dict.merge existing fields) req
  let h ← Serving.ofExcept e.store
  if ← Serving.onStores (h.update svc.capabilities id fields) then
    let updated ← Serving.look (e.load id)
    svc.showWritten entity e .afterUpdate updated id req
  else throw e.documentNotFound

/-- What a deletion does with the document that it takes out. -/
def takeOut (svc : Service) (entity : String) (e : Entity) (id : String) (existing : Document)
    (req : Request) : Serving Document := do
  svc.runHooks entity .beforeDelete existing req
  let h ← Serving.ofExcept e.store
  let found ← Serving.onStores fun stores => ((.ok (h.delete id stores).1), (h.delete id stores).2)
  if found then
    svc.runHooks entity .afterDelete existing req
    return e.visible req.caller existing
  else throw e.documentNotFound

section Halves

variable {svc : Service} {entity : String} {e : Entity}

theorem create_eq (he : svc.directory.get entity = .ok e) (input : Json) (req : Request) :
    svc.create entity input req =
      Serving.look (svc.draft e input req) >>= fun d => svc.storeDraft entity e d req := by
  delta draft
  simp only [create, he, Serving.ofExcept_ok_bind, Serving.look_bind, Serving.look_of_const,
    bind_assoc]
  rfl

theorem update_eq (he : svc.directory.get entity = .ok e) (id : String) (input : Json)
    (req : Request) :
    svc.update entity id input req =
      Serving.look (svc.changes e id input req) >>= fun fields =>
        Serving.look (e.load id) >>= fun existing =>
          svc.storeChanges entity e id existing fields req := by
  -- The document is looked up once, and `changes` needs it only to be there.
  have hagain := Serving.look_again (e.load id)
    (fun _ stores => do
      let data ← e.writable .update req.caller input
      let fields ← changedFields (svc.surroundings req.caller true stores) data
        e.definition.attributes.entries
      return fields ++ [(updatedAtField, Json.ofInt req.now)])
    fun existing fields => svc.storeChanges entity e id existing fields req
  delta changes
  simp only [Serving.look_bind, Serving.look_of_const, bind_assoc] at hagain ⊢
  simp only [Service.update, he, Serving.ofExcept_ok_bind]
  exact congrArg
    (fun m => Serving.ofExcept (e.ensureAllowed .update req.caller) >>= fun _ => m) hagain

theorem delete_eq (he : svc.directory.get entity = .ok e) (id : String) (req : Request) :
    svc.delete entity id req =
      Serving.look (doomed e id req) >>= fun d => svc.takeOut entity e id d req := by
  delta doomed
  simp only [Service.delete, he, Serving.ofExcept_ok_bind, Serving.look_bind,
    Serving.look_of_const, bind_assoc]
  rfl

end Halves

/-! ### An entity without hooks -/

/-- An entity of a service without hooks of any kind. -/
structure Unhooked (svc : Service) (entity : String) (e : Entity) : Prop where
  registered : svc.directory.get entity = .ok e
  noHooks : ∀ l, e.definition.hooksAt l = []
  noCode : ∀ l, svc.codeHook? entity l = none

/-- What a call answers after it wrote: the document of the id is read again and shown. -/
def shown (svc : Service) (e : Entity) (id : String) (caller : Option String) (stores : Stores) :
    Except Failure Document := do
  svc.present e (← e.load id stores) caller stores

/-- A lifecycle point without hooks is passed without a trace. -/
theorem runOn_runHooks_of_none {svc : Service} {entity : String} {e : Entity} {l : Lifecycle}
    (registered : svc.directory.get entity = .ok e) (noHooks : e.definition.hooksAt l = [])
    (noCode : svc.codeHook? entity l = none) (d : Document) (req : Request) (w : World) :
    runOn (svc.runHooks entity l d req) w = (.ok (), w) := by
  simp [Service.runHooks, registered, noHooks, noCode, runDeclared, runCode]

namespace Unhooked

variable {svc : Service} {entity : String} {e : Entity}

@[simp] theorem runHooks (hu : svc.Unhooked entity e) (l : Lifecycle) (d : Document) (req : Request)
    (w : World) : runOn (svc.runHooks entity l d req) w = (.ok (), w) :=
  runOn_runHooks_of_none hu.registered (hu.noHooks l) (hu.noCode l) d req w

theorem runOn_showWritten (hu : svc.Unhooked entity e) (l : Lifecycle) (d : Document) (id : String)
    (req : Request) (w : World) :
    runOn (svc.showWritten entity e l d id req) w = (svc.shown e id req.caller w.stores, w) := by
  simp only [showWritten, runOn_bind, hu.runHooks, Serving.runOn_look, shown]
  cases e.load id w.stores with
  | error f => rfl
  | ok current => rfl

theorem runOn_create (hu : svc.Unhooked entity e) (input : Json) (req : Request) (w : World) :
    runOn (svc.create entity input req) w =
      match svc.draft e input req w.stores, e.store with
      | .error f, _ => (.error f, w)
      | .ok _, .error f => (.error f, w)
      | .ok d, .ok h =>
        match h.insert svc.capabilities d w.stores with
        | (.error f, s) => (.error f, { w with stores := s })
        | (.ok stored, s) =>
          match Document.id? stored with
          | none => (.error ⟨.internal, "stored document has no id"⟩, { w with stores := s })
          | some id => (svc.shown e id req.caller s, { w with stores := s }) := by
  simp only [create_eq hu.registered, storeDraft, runOn_bind, hu.runHooks,
    Serving.runOn_ofExcept, Serving.runOn_look, Serving.runOn_onStores]
  cases svc.draft e input req w.stores with
  | error f => rfl
  | ok d =>
      cases e.store with
      | error f => rfl
      | ok h =>
          dsimp only
          rcases h.insert svc.capabilities d w.stores with ⟨f | stored, s⟩
          · rfl
          · dsimp only
            cases Document.id? stored with
            | none => rfl
            | some id => exact hu.runOn_showWritten .afterCreate stored id req _

theorem runOn_update (hu : svc.Unhooked entity e) (id : String) (input : Json) (req : Request)
    (w : World) :
    runOn (svc.update entity id input req) w =
      match svc.changes e id input req w.stores, e.store with
      | .error f, _ => (.error f, w)
      | .ok _, .error f => (.error f, w)
      | .ok fields, .ok h =>
        match h.update svc.capabilities id fields w.stores with
        | (.error f, s) => (.error f, { w with stores := s })
        | (.ok false, s) => (.error e.documentNotFound, { w with stores := s })
        | (.ok true, s) => (svc.shown e id req.caller s, { w with stores := s }) := by
  simp only [update_eq hu.registered, storeChanges, runOn_bind, hu.runHooks,
    Serving.runOn_ofExcept, Serving.runOn_look, Serving.runOn_onStores]
  cases hchanges : svc.changes e id input req w.stores with
  | error f => rfl
  | ok fields =>
      obtain ⟨⟨existing, hload⟩, -⟩ := changes_eq_ok hchanges
      simp only [hload]
      cases e.store with
      | error f => rfl
      | ok h =>
          dsimp only
          rcases h.update svc.capabilities id fields w.stores with ⟨f | _ | _, s⟩
          · rfl
          · rfl
          · simp only [if_true, runOn_bind, Serving.runOn_look, hu.runOn_showWritten, shown]
            cases hload : e.load id s with
            | error f => rfl
            | ok updated =>
                simp only [hload]

end Unhooked

/-! ### An entity that is read without hooks and joins -/

/-- An entity of a service that is shown without hooks and joins. -/
structure Quiet (svc : Service) (entity : String) (e : Entity) : Prop where
  registered : svc.directory.get entity = .ok e
  noHooks : e.definition.hooksAt .beforeGet = [] ∧ e.definition.hooksAt .afterGet = []
  noCode : svc.codeHook? entity .beforeGet = none ∧ svc.codeHook? entity .afterGet = none
  noJoins : e.definition.joins.entries = []

/-- Without joins a document is shown as what the caller may read of it. -/
theorem present_of_noJoins {svc : Service} {e : Entity} (noJoins : e.definition.joins.entries = [])
    (d : Document) (caller : Option String) (stores : Stores) :
    svc.present e d caller stores = .ok (e.visible caller d) := by
  rw [present, noJoins]
  rfl

namespace Quiet

variable {svc : Service} {entity : String} {e : Entity}

theorem runOn_showOne (hq : svc.Quiet entity e) (d : Document) (req : Request) (w : World) :
    runOn (svc.showOne entity e d req) w = (.ok (e.visible req.caller d), w) := by
  have hbefore := runOn_runHooks_of_none hq.registered hq.noHooks.1 hq.noCode.1 d req
  have hafter := runOn_runHooks_of_none hq.registered hq.noHooks.2 hq.noCode.2 d req
  simp only [showOne, runOn_bind, hbefore, hafter, Serving.runOn_look,
    present_of_noJoins hq.noJoins, Serving.runOn_pure]

theorem runOn_showAll (hq : svc.Quiet entity e) (req : Request) (w : World) (ds : List Document) :
    runOn (svc.showAll entity e req ds) w = (.ok (ds.map (e.visible req.caller)), w) := by
  induction ds with
  | nil => rfl
  | cons d ds ih =>
      simp only [showAll, runOn_bind, hq.runOn_showOne, ih, Serving.runOn_pure, List.map_cons]

theorem runOn_get (hq : svc.Quiet entity e) (id : String) (req : Request) (w : World) :
    runOn (svc.get entity id req) w =
      (do
        e.ensureAllowed .get req.caller
        (e.load id w.stores).map (e.visible req.caller), w) := by
  simp only [Service.get, runOn_bind, Serving.runOn_ofExcept, Serving.runOn_look, hq.registered]
  cases e.ensureAllowed .get req.caller with
  | error f => rfl
  | ok _ =>
      dsimp only
      cases e.load id w.stores with
      | error f => rfl
      | ok d => exact hq.runOn_showOne d req w

theorem runOn_find (hq : svc.Quiet entity e) (query : Document) (req : Request) (w : World) :
    runOn (svc.find entity query req) w =
      (do
        e.ensureAllowed .get req.caller
        let filter ← queryFilter e req.caller query
        let h ← e.store
        (h.find filter w.stores).map (List.map (e.visible req.caller)), w) := by
  simp only [Service.find, runOn_bind, Serving.runOn_ofExcept, Serving.runOn_look, hq.registered]
  cases e.ensureAllowed .get req.caller with
  | error f => rfl
  | ok _ =>
      cases queryFilter e req.caller query with
      | error f => rfl
      | ok filter =>
          cases e.store with
          | error f => rfl
          | ok h =>
              simp only [Outcome.ok_bind]
              cases h.find filter w.stores with
              | error f => rfl
              | ok docs => exact hq.runOn_showAll req w docs

end Quiet

/-! ### An entity without hooks and joins -/

/-- An entity of a service with its store, without hooks of any kind and without joins. -/
structure Bare (svc : Service) (entity : String) (e : Entity) (h : Handle) : Prop where
  registered : svc.directory.get entity = .ok e
  stored : e.handle? = some h
  noHooks : ∀ l, e.definition.hooksAt l = []
  noCode : ∀ l, svc.codeHook? entity l = none
  noJoins : e.definition.joins.entries = []

namespace Bare

variable {svc : Service} {entity : String} {e : Entity} {h : Handle}

theorem unhooked (hb : svc.Bare entity e h) : svc.Unhooked entity e :=
  ⟨hb.registered, hb.noHooks, hb.noCode⟩

theorem quiet (hb : svc.Bare entity e h) : svc.Quiet entity e :=
  ⟨hb.registered, ⟨hb.noHooks _, hb.noHooks _⟩, ⟨hb.noCode _, hb.noCode _⟩, hb.noJoins⟩

theorem store_eq (hb : svc.Bare entity e h) : e.store = .ok h := by
  simp only [Entity.store, hb.stored]

theorem shown_eq (hb : svc.Bare entity e h) (id : String) (caller : Option String)
    (stores : Stores) :
    svc.shown e id caller stores = (e.load id stores).map (e.visible caller) := by
  simp only [shown, present_of_noJoins hb.noJoins]
  cases e.load id stores with
  | error f => rfl
  | ok d => rfl

theorem runOn_create (hb : svc.Bare entity e h) (input : Json) (req : Request) (w : World) :
    runOn (svc.create entity input req) w =
      match svc.draft e input req w.stores with
      | .error f => (.error f, w)
      | .ok d =>
        match h.insert svc.capabilities d w.stores with
        | (.error f, s) => (.error f, { w with stores := s })
        | (.ok stored, s) =>
          match Document.id? stored with
          | none => (.error ⟨.internal, "stored document has no id"⟩, { w with stores := s })
          | some id => ((e.load id s).map (e.visible req.caller), { w with stores := s }) := by
  simp only [hb.unhooked.runOn_create, hb.store_eq, hb.shown_eq]
  cases svc.draft e input req w.stores with
  | error f => rfl
  | ok d => rfl

theorem runOn_update (hb : svc.Bare entity e h) (id : String) (input : Json) (req : Request)
    (w : World) :
    runOn (svc.update entity id input req) w =
      match svc.changes e id input req w.stores with
      | .error f => (.error f, w)
      | .ok fields =>
        match h.update svc.capabilities id fields w.stores with
        | (.error f, s) => (.error f, { w with stores := s })
        | (.ok false, s) => (.error e.documentNotFound, { w with stores := s })
        | (.ok true, s) => ((e.load id s).map (e.visible req.caller), { w with stores := s }) := by
  simp only [hb.unhooked.runOn_update, hb.store_eq, hb.shown_eq]
  cases svc.changes e id input req w.stores with
  | error f => rfl
  | ok fields => rfl

theorem runOn_delete (hb : svc.Bare entity e h) (id : String) (req : Request) (w : World) :
    runOn (svc.delete entity id req) w =
      match doomed e id req w.stores with
      | .error f => (.error f, w)
      | .ok d =>
        match h.delete id w.stores with
        | (true, s) => (.ok (e.visible req.caller d), { w with stores := s })
        | (false, s) => (.error e.documentNotFound, { w with stores := s }) := by
  simp only [delete_eq hb.registered, takeOut, runOn_bind, hb.unhooked.runHooks,
    hb.store_eq, Serving.runOn_ofExcept, Serving.runOn_look, Serving.runOn_onStores]
  cases doomed e id req w.stores with
  | error f => rfl
  | ok existing =>
      dsimp only
      rcases h.delete id w.stores with ⟨_ | _, s⟩
      · rfl
      · simp only [if_true, runOn_bind, hb.unhooked.runHooks, Serving.runOn_pure]

/-! ### Reading -/

/-- Showing a document changes nothing. -/
theorem runOn_get_snd (hb : svc.Bare entity e h) (id : String) (req : Request) (w : World) :
    (runOn (svc.get entity id req) w).2 = w := by
  rw [hb.quiet.runOn_get]

/-- Showing documents changes nothing. -/
theorem runOn_find_snd (hb : svc.Bare entity e h) (query : Document) (req : Request) (w : World) :
    (runOn (svc.find entity query req) w).2 = w := by
  rw [hb.quiet.runOn_find]

end Bare

end Service

end Curator
