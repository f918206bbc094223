/-
What a client can bring about by writing fields that are not its own to write: nothing.

An input is cut down to the fields that the caller is granted before anything else looks at it.  Of the
granted fields some are still not heeded: the service writes the managed fields itself, however they are
declared, and makes slugs and identities of callers without a look at what was sent for them.  All the
same, an update asks whether a field was sent at all, and a slug is made from the value of another field,
which may be one of these.

`Entity.AlikeFor` relates inputs that differ in nothing else.  Such inputs come to the same draft and to
the same changes, and nothing else of an input reaches hooks, stores and answers.
-/
import Curator.Proofs.Coercion.Sources
import Curator.Proofs.Service.Writing

namespace Curator

open Serving (runOn)

namespace Entity

/-- A field whose value in an input is not looked at. -/
def Unheeded (e : Entity) (field : String) : Prop :=
  isManaged field = true ∨ ∃ a, e.attribute? field = some a ∧ a.kind.IsMade

/-- Two inputs that differ only where a caller has no say. -/
structure AlikeFor (e : Entity) (action : Action) (caller : Option String)
    (fields fields' : Document) : Prop where
  /-- The same of the granted fields are there. -/
  present : ∀ name, e.Grants action caller name → fields.has name = fields'.has name
  /-- Those that are heeded have the same values. -/
  heeded : ∀ name, e.Grants action caller name → ¬ e.Unheeded name →
    fields.get? name = fields'.get? name
  /-- So have those that slugs are made from. -/
  sources : ∀ entry ∈ e.definition.attributes.entries, ∀ source ∈ entry.2.sources,
    e.Grants action caller source → fields.get? source = fields'.get? source

variable {e : Entity} {action : Action} {caller : Option String} {fields fields' : Document}

theorem Grants.mem_names {field : String} (hgrants : e.Grants action caller field) :
    field ∈ Dict.names e.definition.attributes.entries := by
  obtain ⟨a, ha, -⟩ := hgrants
  exact Dict.mem_names_of_mem (Dict.mem_of_get?_eq_some ha)

theorem get?_accepted_congr {name : String}
    (hsame : e.Grants action caller name → fields.get? name = fields'.get? name) :
    (e.accepted action caller (.object fields)).get? name =
      (e.accepted action caller (.object fields')).get? name := by
  rw [get?_accepted, get?_accepted]
  split
  · rename_i hgrants
    exact hsame hgrants
  · rfl

namespace AlikeFor

variable (ha : e.AlikeFor action caller fields fields')
include ha

theorem has_accepted (name : String) :
    (e.accepted action caller (.object fields)).has name =
      (e.accepted action caller (.object fields')).has name := by
  rw [Dict.has_eq_isSome_get?, Dict.has_eq_isSome_get?, get?_accepted, get?_accepted]
  split
  · rename_i hgrants
    rw [← Dict.has_eq_isSome_get?, ← Dict.has_eq_isSome_get?, ha.present name hgrants]
  · rfl

theorem get?_accepted_source {entry : String × Attribute}
    (hentry : entry ∈ e.definition.attributes.entries) {source : String}
    (hsource : source ∈ entry.2.sources) :
    (e.accepted action caller (.object fields)).get? source =
      (e.accepted action caller (.object fields')).get? source :=
  get?_accepted_congr (ha.sources entry hentry source hsource)

/-! ### What is left of alike inputs -/

/-- A field that the service does not write itself is coerced alike. -/
theorem coerce_accepted {entry : String × Attribute}
    (hentry : entry ∈ e.definition.attributes.entries) (hmanaged : isManaged entry.1 = false)
    (s : Surroundings) :
    entry.2.coerce s (e.accepted action caller (.object fields)) entry.1
        ((e.accepted action caller (.object fields)).get? entry.1) =
      entry.2.coerce s (e.accepted action caller (.object fields')) entry.1
        ((e.accepted action caller (.object fields')).get? entry.1) := by
  rw [Attribute.coerce_congr fun source hsource => ha.get?_accepted_source hentry hsource]
  by_cases hmade : entry.2.kind.IsMade
  · exact Attribute.coerce_eq_of_isMade hmade _ _ _
  · have hattribute : e.attribute? entry.1 = some entry.2 :=
      Dict.get?_of_mem e.definition.attributes.nodup_names hentry
    have hheeded : ¬ e.Unheeded entry.1 := by
      rintro (hwritten | ⟨a, hfound, hfoundMade⟩)
      · rw [hmanaged] at hwritten
        cases hwritten
      · rw [hattribute] at hfound
        cases hfound
        exact hmade hfoundMade
    rw [get?_accepted_congr fun hgrants => ha.heeded entry.1 hgrants hheeded]

theorem touches_accepted {entry : String × Attribute}
    (hentry : entry ∈ e.definition.attributes.entries) :
    Service.touches (e.accepted action caller (.object fields)) entry.1 entry.2 =
      Service.touches (e.accepted action caller (.object fields')) entry.1 entry.2 := by
  unfold Service.touches
  cases hkind : entry.2.kind with
  | slug source before after =>
      have hsource : source ∈ entry.2.sources := by
        rw [Attribute.sources_eq, hkind]
        exact List.mem_cons_self
      dsimp only
      rw [Dict.has_eq_isSome_get?, Dict.has_eq_isSome_get?, ha.get?_accepted_source hentry hsource]
  | _ => exact ha.has_accepted entry.1

end AlikeFor

end Entity

namespace Service

/-! ### What coercion makes of alike inputs -/

theorem newFields_congr {s : Surroundings} {data data' : Document} :
    ∀ {entries : List (String × Attribute)},
      (∀ entry ∈ entries, isManaged entry.1 = false →
        entry.2.coerce s data entry.1 (data.get? entry.1) =
          entry.2.coerce s data' entry.1 (data'.get? entry.1)) →
      newFields s data entries = newFields s data' entries := by
  intro entries
  induction entries with
  | nil => intro _; rfl
  | cons entry rest ih =>
      intro hcoerce
      obtain ⟨hfirst, hrest⟩ := List.forall_mem_cons.mp hcoerce
      rw [newFields, newFields, ih hrest]
      split
      · rfl
      · rename_i hmanaged
        rw [hfirst (Bool.eq_false_of_not_eq_true hmanaged)]

theorem changedFields_congr {s : Surroundings} {data data' : Document} :
    ∀ {entries : List (String × Attribute)},
      (∀ entry ∈ entries, touches data entry.1 entry.2 = touches data' entry.1 entry.2) →
      (∀ entry ∈ entries, isManaged entry.1 = false →
        entry.2.coerce s data entry.1 (data.get? entry.1) =
          entry.2.coerce s data' entry.1 (data'.get? entry.1)) →
      changedFields s data entries = changedFields s data' entries := by
  intro entries
  induction entries with
  | nil => intro _ _; rfl
  | cons entry rest ih =>
      intro htouches hcoerce
      obtain ⟨htouch, htouches⟩ := List.forall_mem_cons.mp htouches
      obtain ⟨hfirst, hrest⟩ := List.forall_mem_cons.mp hcoerce
      rw [changedFields, changedFields, ih htouches hrest, htouch]
      split
      · rfl
      · rename_i hwrite
        have hmanaged : isManaged entry.1 = false := by
          cases hm : isManaged entry.1
          · rfl
          · simp [hm] at hwrite
        rw [hfirst hmanaged]

variable {svc : Service} {entity : String} {e : Entity} {req : Request} {fields fields' : Document}

/-- Alike inputs come to the same draft. -/
theorem draft_congr (ha : e.AlikeFor .create req.caller fields fields') (stores : Stores) :
    svc.draft e (.object fields) req stores = svc.draft e (.object fields') req stores := by
  have hnew := newFields_congr (s := svc.surroundings req.caller false stores)
    fun entry hentry hmanaged => ha.coerce_accepted hentry hmanaged _
  simp only [draft, Entity.writable_object, Outcome.ok_bind, hnew]

/-- Alike inputs come to the same changes. -/
theorem changes_congr (ha : e.AlikeFor .update req.caller fields fields') (id : String)
    (stores : Stores) :
    svc.changes e id (.object fields) req stores = svc.changes e id (.object fields') req stores := by
  have hchanged := changedFields_congr (s := svc.surroundings req.caller true stores)
    (fun entry hentry => ha.touches_accepted hentry)
    fun entry hentry hmanaged => ha.coerce_accepted hentry hmanaged _
  simp only [changes, Entity.writable_object, Outcome.ok_bind, hchanged]

/--
**Where a caller has no say, what it sends makes no difference.**  Creations from alike inputs are
answered alike and leave the same world behind, and so are updates.
-/
theorem run_eq_of_alike (he : svc.directory.get entity = .ok e) :
    (e.AlikeFor .create req.caller fields fields' → ∀ w,
      runOn (svc.create entity (.object fields) req) w =
        runOn (svc.create entity (.object fields') req) w) ∧
    (e.AlikeFor .update req.caller fields fields' → ∀ id w,
      runOn (svc.update entity id (.object fields) req) w =
        runOn (svc.update entity id (.object fields') req) w) := by
  constructor
  · intro ha w
    rw [create_eq he, create_eq he, funext (draft_congr ha)]
  · intro ha id w
    rw [update_eq he, update_eq he, funext (changes_congr ha id)]

/-! ### Articles with fields of the service -/

/-- Articles that anyone may write, with a time of creation that anyone may send.  Nobody may send a
rank. -/
private def articles : Entity :=
  ⟨{ Definition.ofNames "articles" "articles" with
      permissions := some (.uniform (.one .anyone))
      attributes := ⟨[("author", .ofKind .user), ("createdAt", .ofKind (.number none none)),
        ("rank", { Attribute.ofKind (.number none none) with
          permissions := some (.uniform (.one .nobody)) }),
        ("slug", .ofKind (.slug "title" none none)), ("title", .ofKind (.string none none))],
        by decide⟩ },
    some ⟨.memory, "articles", []⟩⟩

private def articleService : Service :=
  ⟨⟨fun t _ => .ok t, fun n => String.ofList (List.replicate n 'x'), toString, .ok⟩,
    ⟨[("articles", articles)]⟩, fun _ _ => none⟩

private def honest : Document :=
  [("title", .string "Hello"), ("author", .null), ("slug", .string "hello"), ("createdAt", .null)]

/-- The same title, under the name of another author and with much else made up. -/
private def forged : Document :=
  [("author", .string "1"), ("createdAt", .ofNat 7), ("rank", .ofNat 1), ("slug", .string "mine"),
    ("title", .string "Hello"), ("owner", .bool true)]

private def writer : Request := ⟨some "9", none, 0⟩

private theorem articles_alike (action : Action) :
    articles.AlikeFor action writer.caller honest forged := by
  have hrank : ¬ articles.Grants action writer.caller "rank" := by cases action <;> decide
  have hcases : ∀ name, articles.Grants action writer.caller name →
      name = "author" ∨ name = "createdAt" ∨ name = "slug" ∨ name = "title" := by
    intro name hgrants
    have hname : name ∈ ["author", "createdAt", "rank", "slug", "title"] := hgrants.mem_names
    simp only [List.mem_cons, List.not_mem_nil, or_false] at hname
    rcases hname with rfl | rfl | rfl | rfl | rfl
    · exact Or.inl rfl
    · exact Or.inr (Or.inl rfl)
    · exact absurd hgrants hrank
    · exact Or.inr (Or.inr (Or.inl rfl))
    · exact Or.inr (Or.inr (Or.inr rfl))
  refine ⟨fun name hgrants => ?_, fun name hgrants hheeded => ?_,
    fun entry hentry source hsource _ => ?_⟩
  · rcases hcases name hgrants with rfl | rfl | rfl | rfl <;> rfl
  · rcases hcases name hgrants with rfl | rfl | rfl | rfl
    · exact absurd (Or.inr ⟨_, rfl, Or.inl rfl⟩) hheeded
    · exact absurd (Or.inl rfl) hheeded
    · exact absurd (Or.inr ⟨_, rfl, Or.inr rfl⟩) hheeded
    · rfl
  · have hentries : entry ∈ articles.definition.attributes.entries := hentry
    simp only [articles, List.mem_cons, List.not_mem_nil, or_false] at hentries
    rcases hentries with rfl | rfl | rfl | rfl | rfl
    · cases hsource
    · cases hsource
    · cases hsource
    · obtain rfl : source = "title" := List.mem_singleton.mp hsource
      rfl
    · cases hsource

theorem run_eq_of_alike_articles :
    articleService.directory.get "articles" = .ok articles ∧
    (articles.AlikeFor .create (some "9") honest forged ∧ ∀ w,
      runOn (articleService.create "articles" (.object honest) writer) w =
        runOn (articleService.create "articles" (.object forged) writer) w) ∧
    (articles.AlikeFor .update (some "9") honest forged ∧ ∀ id w,
      runOn (articleService.update "articles" id (.object honest) writer) w =
        runOn (articleService.update "articles" id (.object forged) writer) w) := by
  have he : articleService.directory.get "articles" = .ok articles := rfl
  obtain ⟨hcreate, hupdate⟩ := @run_eq_of_alike articleService "articles" articles writer
    honest forged he
  exact ⟨he, ⟨articles_alike .create, hcreate (articles_alike .create)⟩,
    articles_alike .update, hupdate (articles_alike .update)⟩

end Service

end Curator
