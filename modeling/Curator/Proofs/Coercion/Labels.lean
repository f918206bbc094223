/-
Failures begin with the label of the value that is wrong.

Lists and maps put their own label in front of whatever the client got wrong inside of them, so nothing is
needed of what is inside for the message of a failure to begin with the label of the whole.  What is needed
is that nobody else's failure is laid to the client: the hasher's, that of a row which cannot be read, and
that of a reference to an entity which is not registered.  No row that was written through a table has
failures of that kind.

The labels of nested lists add up.  `Attribute.FailsAt` follows the first failing items of lists inside of
lists, and the message spells the indices on this way, from the outside in.
-/
import Curator.Proofs.Coercion.Failures
import Curator.Proofs.Coercion.References
import Curator.Proofs.Store.Writes

namespace Curator

/-! ### Rows that cannot be read -/

/-- A document that cannot be read again is no fault of the client. -/
theorem Document.isClientError_of_reread {d : Document} {f : Failure} (h : d.reread = .error f) :
    f.isClientError = false := by
  unfold reread at h
  split at h
  · cases h
  · cases h
    rfl
  · cases h
    rfl

section Rows

variable {c : Capabilities} {P : Except Failure Document → Prop}

theorem Table.forall_modify (hcodec : ∀ d, P (c.codec d)) (collection : String)
    (unique : List String) (id : String) (change : Document → Except Failure Document) {rows : List Row}
    (hrows : ∀ r ∈ rows, P r.doc) :
    ∀ r ∈ (modify c.codec collection unique id change rows).2, P r.doc := by
  by_cases hfound : ∃ d, findById collection id rows = .ok (some d)
  · obtain ⟨d, hd⟩ := hfound
    rcases modify_cases c.codec collection unique change hd with ⟨f, hrefused⟩ | ⟨new, -, -, hok⟩
    · rw [hrefused]
      exact hrows
    · rw [hok]
      intro r hr
      obtain ⟨old, hold, rfl⟩ := List.mem_map.mp hr
      split
      · exact hcodec new
      · exact hrows old hold
  · rw [modify_of_missing c.codec collection unique change fun d hd => hfound ⟨d, hd⟩]
    exact hrows

/-- What holds of all that a table reads back holds of all its rows, whatever is written. -/
theorem Handle.forall_rows_perform (hcodec : ∀ d, P (c.codec d)) (h : Handle) {s : Stores} (x : Write)
    (hrows : ∀ r ∈ s.rows, P r.doc) : ∀ r ∈ (h.perform c s x).2.rows, P r.doc := by
  cases hb : h.backing with
  | memory =>
      have hsame : (h.perform c s x).2.rows = s.rows := by
        cases x with
        | insert d =>
            obtain ⟨issued, hinsert⟩ := h.insert_eq c d s
            rw [perform, hinsert, change_of_memory hb]
        | update id fields => rw [perform, Handle.update, change_of_memory hb]
        | increment id deltas => rw [perform, Handle.increment, change_of_memory hb]
        | delete id => rw [perform, Handle.delete, change_of_memory hb]
      rwa [hsame]
  | table =>
      cases x with
      | insert d =>
          obtain ⟨issued, hinsert⟩ := h.insert_eq c d s
          rw [perform, hinsert, change_of_table hb]
          rcases Table.insert_cases c.codec h.collection h.unique (Handle.idFor c d s) d s.rows
            with ⟨f, hrefused⟩ | ⟨hok, -⟩
          · rw [hrefused]
            exact hrows
          · rw [hok]
            exact List.forall_mem_append.mpr ⟨hrows, List.forall_mem_singleton.mpr (hcodec _)⟩
      | update id fields =>
          rw [perform, Handle.update, change_of_table hb]
          exact Table.forall_modify hcodec _ _ _ _ hrows
      | increment id deltas =>
          rw [perform, Handle.increment, change_of_table hb]
          exact Table.forall_modify hcodec _ _ _ _ hrows
      | delete id =>
          rw [perform, Handle.delete, change_of_table hb]
          exact fun r hr => hrows r (List.mem_filter.mp hr).1

/-- The stores after writes to any of the collections. -/
def Stores.afterWrites (c : Capabilities) (s : Stores) (writes : List (Handle × Write)) : Stores :=
  writes.foldl (fun s x => (x.1.perform c s x.2).2) s

theorem Stores.forall_rows_afterWrites (hcodec : ∀ d, P (c.codec d)) {s : Stores}
    (hrows : ∀ r ∈ s.rows, P r.doc) (writes : List (Handle × Write)) :
    ∀ r ∈ (s.afterWrites c writes).rows, P r.doc := by
  induction writes generalizing s with
  | nil => exact hrows
  | cons x rest ih => exact ih (x.1.forall_rows_perform hcodec x.2 hrows)

end Rows

/-! ### Labels -/

/-- A failure begins with a label if it is the client's. -/
def Failure.Labelled (label : String) (f : Failure) : Prop :=
  f.isClientError = true → ∃ rest, f.message = label ++ " " ++ rest

/-- Neither the hasher nor a row that cannot be read fails as if the client were at fault. -/
structure Surroundings.OwnsFailures (s : Surroundings) : Prop where
  hash : ∀ t rounds f, s.capabilities.hash t rounds = .error f → f.isClientError = false
  rows : ∀ r ∈ s.stores.rows, ∀ f, r.doc = .error f → f.isClientError = false

/-- Rows that were written as text fail with no failure of the client's. -/
theorem Surroundings.ownsFailures_of_afterWrites {s : Surroundings}
    (hhash : ∀ t rounds f, s.capabilities.hash t rounds = .error f → f.isClientError = false)
    (hcodec : s.capabilities.codec = Document.reread) {writes : List (Handle × Write)}
    (hstores : s.stores = Stores.empty.afterWrites s.capabilities writes) : s.OwnsFailures := by
  refine ⟨hhash, ?_⟩
  rw [hstores]
  refine Stores.forall_rows_afterWrites
    (P := fun doc => ∀ f, doc = .error f → f.isClientError = false) (fun d f hf => ?_)
    (List.forall_mem_nil _) writes
  rw [hcodec] at hf
  exact Document.isClientError_of_reread hf

section Labels

variable {s : Surroundings} {data : Document} {label : String} {f : Failure}

theorem Failure.labelled_invalid (label : String) (c : Complaint) :
    (Failure.invalid label c).Labelled label :=
  fun _ => ⟨c.text, rfl⟩

theorem Failure.labelled_within (label : String) (f : Failure) :
    (f.within (label ++ " ")).Labelled label := by
  intro hclient
  refine ⟨f.message, within_message_of_client ?_⟩
  rwa [isClientError, within_kind] at hclient

theorem Failure.labelled_together (label : String) {failures : List Failure} (hsome : failures ≠ []) :
    (Failure.together label failures).Labelled label := by
  intro _
  obtain ⟨f, rest, rfl⟩ := List.exists_cons_of_ne_nil hsome
  cases rest with
  | nil => exact ⟨f.message, rfl⟩
  | cons g rest =>
      refine ⟨f.message ++ ", " ++
        Text.join ", " ((g :: rest).map fun f => label ++ " " ++ f.message), ?_⟩
      simp only [together, List.map_cons, Text.join, String.append_assoc]

theorem Surroundings.labelled_of_absent {required : Bool} {default : Option Json}
    (h : s.absent label required default = .error f) : f.Labelled label := by
  unfold absent at h
  split at h
  · cases h
  · split at h
    · cases h
      exact Failure.labelled_invalid label .required
    · cases h

theorem coerceNumber_labelled {min max : Option Bound} {x : Double}
    (h : coerceNumber label min max x = .error f) : f.Labelled label := by
  unfold coerceNumber at h
  split at h
  · cases h
    exact Failure.labelled_invalid label _
  · cases h
    exact Failure.labelled_invalid label _
  · cases h

theorem coerceText_labelled (hs : s.OwnsFailures) {maxLength : Option Nat} {hash : Option Hashing}
    {cs : List Char} (h : coerceText s label maxLength hash cs = .error f) : f.Labelled label := by
  unfold coerceText at h
  split at h
  · cases h
    exact Failure.labelled_invalid label _
  · rename_i hashing _
    rw [Outcome.map_eq_error_iff] at h
    intro hclient
    rw [hs.hash _ _ f h] at hclient
    cases hclient
  · cases h

/-- Looking for a document fails as the store does, or as the row that cannot be read. -/
theorem Surroundings.OwnsFailures.findById? (hs : s.OwnsFailures) {h : Handle} {id : String}
    (hfind : h.findById? id s.stores = .error f) : f.isClientError = false := by
  unfold Handle.findById? at hfind
  split at hfind
  · cases hfind
  · unfold Table.findById at hfind
    split at hfind
    · cases hfind
    · rename_i r hr
      exact hs.rows r (List.mem_of_find?_eq_some hr) f (Outcome.map_eq_error_iff.mp hfind)

theorem coerceRef_labelled (hs : s.OwnsFailures) {target : String}
    (htarget : s.directory.contains target = true) {v : Json}
    (h : coerceRef s label target v = .error f) : f.Labelled label := by
  unfold coerceRef at h
  split at h
  · cases h
    exact Failure.labelled_invalid label .notId
  · obtain ⟨e, he⟩ := Directory.contains_iff.mp htarget
    rw [he, Outcome.ok_bind] at h
    cases hstore : e.store with
    | error g =>
        rw [hstore] at h
        cases h
        unfold Entity.store at hstore
        split at hstore
        · cases hstore
        · cases hstore
          intro hclient
          cases hclient
    | ok handle =>
        rw [hstore, Outcome.ok_bind] at h
        cases hfind : handle.findById? _ s.stores with
        | error g =>
            rw [hfind] at h
            cases h
            intro hclient
            rw [hs.findById? hfind] at hclient
            cases hclient
        | ok found =>
            rw [hfind, Outcome.ok_bind] at h
            cases found with
            | some d => cases h
            | none =>
                cases h
                exact fun _ => ⟨"not found", by rw [Failure.notFoundAs, String.append_assoc]; rfl⟩

/-- A failure of the client begins with the label of the value, whatever the kind. -/
theorem Kind.coerce_labelled (hs : s.OwnsFailures) {k : Kind}
    (hrefs : ∀ target ∈ k.refs, s.directory.contains target = true) {absent : Coerced}
    (habsent : ∀ g, absent = .error g → g.Labelled label) {raw : Option Json}
    (h : k.coerce s data label absent raw = .error f) : f.Labelled label := by
  have hinvalid : ∀ c, Except.error (Failure.invalid label c) = (.error f : Coerced) →
      f.Labelled label := by
    rintro c ⟨⟩
    exact Failure.labelled_invalid label c
  cases k with
  | boolean =>
      cases raw with
      | none => exact habsent f h
      | some v =>
          rw [Kind.coerce] at h
          split at h
          · cases h
          · exact hinvalid _ h
  | email =>
      cases raw with
      | none => exact habsent f h
      | some v =>
          cases v with
          | string t =>
              rw [Kind.coerce] at h
              split at h
              · exact habsent f h
              · split at h
                · cases h
                · exact hinvalid _ h
          | _ => exact hinvalid _ h
  | enum values =>
      cases raw with
      | none => exact habsent f h
      | some v =>
          rw [Kind.coerce] at h
          split at h
          · cases h
          · exact hinvalid _ h
  | number min max =>
      rw [Kind.coerce] at h
      split at h
      · exact habsent f h
      · exact hinvalid _ h
      · exact coerceNumber_labelled h
  | string maxLength hash =>
      cases raw with
      | none => exact habsent f h
      | some v =>
          rw [Kind.coerce] at h
          split at h
          · exact hinvalid _ h
          · dsimp only at h
            split at h
            · exact habsent f h
            · exact coerceText_labelled hs h
  | slug source before after =>
      rw [Kind.coerce] at h
      split at h
      · exact habsent f h
      · cases h
  | ref target =>
      cases raw with
      | none => exact habsent f h
      | some v => exact coerceRef_labelled hs (hrefs target List.mem_cons_self) h
  | user =>
      rw [Kind.coerce] at h
      split at h
      · cases h
      · exact habsent f h
  | id => cases h
  | list item maxItems =>
      cases raw with
      | none => exact habsent f h
      | some v =>
          cases v with
          | array items =>
              rw [Kind.coerce] at h
              split at h
              · exact hinvalid _ h
              · split at h
                · cases h
                · cases h
                  exact Failure.labelled_within label _
          | _ => exact hinvalid _ h
  | map key value =>
      cases raw with
      | none => exact habsent f h
      | some v =>
          cases v with
          | object entries =>
              rw [Kind.coerce] at h
              split at h
              · rename_i outcome _
                obtain ⟨done, failures⟩ := outcome
                cases failures with
                | nil => cases h
                | cons g rest =>
                    cases h
                    exact Failure.labelled_together label (List.cons_ne_nil g rest)
              · rename_i g hloop
                cases h
                intro hclient
                rw [isClientError_of_coerceEntries hloop] at hclient
                cases hclient
          | _ => exact hinvalid _ h

theorem Attribute.coerce_labelled (hs : s.OwnsFailures) {a : Attribute}
    (hrefs : ∀ target ∈ a.refs, s.directory.contains target = true) {raw : Option Json}
    (h : a.coerce s data label raw = .error f) : f.Labelled label := by
  rw [a.refs_eq] at hrefs
  rw [a.coerce_eq] at h
  exact Kind.coerce_labelled hs hrefs (fun g => Surroundings.labelled_of_absent) h

end Labels

/-! ### Lists inside of lists -/

/-- Where a value of nested lists fails: the index of the first failing item, and as far as that item is a
list as well, on inside of it.  The failure is that of the innermost item. -/
inductive Attribute.FailsAt (s : Surroundings) (data : Document) :
    Attribute → Json → List Nat → Failure → Prop
  | item {a item : Attribute} {maxItems : Option Nat} {items : List Json} {i : Nat} {f : Failure}
      (kind : a.kind = .list item maxItems) (fits : ∀ n ∈ maxItems, items.length ≤ n)
      (first : FailsFirst (item.coerceItem s data) items i f) : FailsAt s data a (.array items) [i] f
  | inside {a item : Attribute} {maxItems : Option Nat} {items : List Json} {i : Nat}
      {v : Json} {path : List Nat} {f g : Failure}
      (kind : a.kind = .list item maxItems) (fits : ∀ n ∈ maxItems, items.length ≤ n)
      (first : FailsFirst (item.coerceItem s data) items i g) (here : items[i]? = some v)
      (inner : FailsAt s data item v path f) : FailsAt s data a (.array items) (i :: path) f

/-- The labels of the items on a way into nested lists. -/
def indexPath : List Nat → String
  | [] => ""
  | i :: path => indexLabel i ++ " " ++ indexPath path

section Paths

variable {s : Surroundings} {data : Document} {a item : Attribute} {v : Json} {path : List Nat}
  {f : Failure}

/-- The failure of an item begins with its index if it is the client's. -/
theorem Attribute.coerceItem_labelled (hs : s.OwnsFailures)
    (hrefs : ∀ target ∈ item.refs, s.directory.contains target = true) {items : List Json} {i : Nat}
    (h : FailsFirst (item.coerceItem s data) items i f) : f.Labelled (indexLabel i) := by
  obtain ⟨v, -, hv⟩ := h.fails
  exact Attribute.coerce_labelled hs hrefs hv

/-- The failure of an item inside of lists comes out with the way to it in front. -/
theorem Attribute.FailsAt.coerce_eq (hs : s.OwnsFailures)
    (hrefs : ∀ target ∈ a.refs, s.directory.contains target = true) (h : a.FailsAt s data v path f)
    (hclient : f.isClientError = true) (label : String) :
    ∃ outer i rest, path = outer ++ [i] ∧ f.message = indexLabel i ++ " " ++ rest ∧
      a.coerce s data label (some v) =
        .error ⟨f.kind, label ++ " " ++ indexPath path ++ rest⟩ := by
  induction h generalizing label with
  | @item a item maxItems items i f kind fits first =>
      rw [a.refs_eq, kind] at hrefs
      obtain ⟨rest, hrest⟩ := Attribute.coerceItem_labelled hs hrefs first hclient
      refine ⟨[], i, rest, rfl, hrest, ?_⟩
      rw [(Attribute.coerce_list_eq_error_iff kind fits label).mpr ⟨i, f, first, rfl⟩, Failure.within,
        if_pos hclient, hrest]
      simp only [indexPath, String.append_assoc, String.append_empty]
  | @inside a item maxItems items i v path f g kind fits first here _ ih =>
      rw [a.refs_eq, kind] at hrefs
      obtain ⟨outer, j, rest, hpath, hmessage, hrest⟩ := ih hrefs hclient (indexLabel i)
      obtain ⟨u, hu, hg⟩ := first.fails
      obtain rfl := Option.some.inj (here.symm.trans hu)
      obtain rfl := Except.error.inj (hg.symm.trans hrest)
      refine ⟨i :: outer, j, rest, by rw [hpath, List.cons_append], hmessage, ?_⟩
      have hkind : (⟨f.kind, indexLabel i ++ " " ++ indexPath path ++ rest⟩ : Failure).isClientError =
        true := hclient
      rw [(Attribute.coerce_list_eq_error_iff kind fits label).mpr ⟨i, _, first, rfl⟩, Failure.within,
        if_pos hkind]
      simp only [indexPath, String.append_assoc]

/--
**The client is told where its mistake is.**  Every failure that the client caused begins with the label of
the value.  A list of a length that is allowed fails exactly if one of its items does, and it fails as the
first of these: a failure of the client keeps its kind and goes on, behind the label of the list, with the
index of the item, and any other failure comes out as it is.  So the failure of an item of lists inside of
lists is told with the indices of the whole way to it.
-/
theorem Attribute.failures_labelled (hs : s.OwnsFailures)
    (hrefs : ∀ target ∈ a.refs, s.directory.contains target = true) (data : Document) (label : String) :
    (∀ raw f, a.coerce s data label raw = .error f → f.isClientError = true →
      ∃ rest, f.message = label ++ " " ++ rest) ∧
    (∀ item maxItems items, a.kind = .list item maxItems → (∀ n ∈ maxItems, items.length ≤ n) →
      ((∃ f, a.coerce s data label (some (.array items)) = .error f) ↔
        ∃ i v g, items[i]? = some v ∧ item.coerceItem s data i v = .error g) ∧
      ∀ i g, FailsFirst (item.coerceItem s data) items i g →
        (g.isClientError = true →
          a.coerce s data label (some (.array items)) = .error ⟨g.kind, label ++ " " ++ g.message⟩ ∧
          ∃ rest, g.message = indexLabel i ++ " " ++ rest) ∧
        (g.isClientError = false → a.coerce s data label (some (.array items)) = .error g)) ∧
    ∀ v path f, a.FailsAt s data v path f → f.isClientError = true →
      ∃ outer i rest, path = outer ++ [i] ∧ f.message = indexLabel i ++ " " ++ rest ∧
        a.coerce s data label (some v) =
          .error ⟨f.kind, label ++ " " ++ indexPath path ++ rest⟩ := by
  refine ⟨fun raw f => Attribute.coerce_labelled hs hrefs, fun item maxItems items kind fits => ?lists,
    fun v path f h hclient => h.coerce_eq hs hrefs hclient label⟩
  have hitem : ∀ target ∈ item.refs, s.directory.contains target = true := by
    rwa [a.refs_eq, kind] at hrefs
  have hfails : ∀ {i g}, FailsFirst (item.coerceItem s data) items i g →
      a.coerce s data label (some (.array items)) = .error (g.within (label ++ " ")) :=
    fun hfirst => (Attribute.coerce_list_eq_error_iff kind fits label).mpr ⟨_, _, hfirst, rfl⟩
  refine ⟨⟨fun ⟨f, hf⟩ => ?_, fun ⟨i, v, g, hv, hg⟩ => ?_⟩, fun i g hfirst => ⟨fun hg => ?_, fun hg => ?_⟩⟩
  · obtain ⟨i, g, ⟨⟨v, hv, hg⟩, -⟩, -⟩ :=
      (Attribute.coerce_list_eq_error_iff kind fits label).mp hf
    exact ⟨i, v, g, hv, hg⟩
  · obtain ⟨j, g', hfirst⟩ := exists_failsFirst hv hg
    exact ⟨_, hfails hfirst⟩
  · refine ⟨?_, Attribute.coerceItem_labelled hs hitem hfirst hg⟩
    rw [hfails hfirst, Failure.within, if_pos hg]
  · rw [hfails hfirst, Failure.within, if_neg (by rw [hg]; exact Bool.false_ne_true)]

end Paths

private def wordHandle : Handle := ⟨.table, "words", []⟩

private def wordCapabilities : Capabilities :=
  ⟨fun t _ => .ok t, fun n => String.ofList (List.replicate n 'x'), fun _ => "1001", Document.reread⟩

private def oneWord : List (Handle × Write) := [(wordHandle, .insert [("text", .string "a")])]

private def wordSurroundings : Surroundings where
  capabilities := wordCapabilities
  directory := ⟨[("words", ⟨Definition.ofNames "words" "words", some wordHandle⟩)]⟩
  stores := Stores.empty.afterWrites wordCapabilities oneWord
  caller := none
  ignoreDefaults := false

private def wordRow : Attribute := .ofKind (.list (.ofKind (.ref "words")) none)

/-- Words in rows, of which there are two at most. -/
private def wordGrid : Attribute := .ofKind (.list wordRow (some 2))

private def sentGrid : Json :=
  .array [.array [.string "1001"], .array [.string "1001", .string "1002"]]

/-- The second word of the second row does not exist. -/
theorem Attribute.failures_labelled_grid :
    ∃ rest, wordGrid.coerce wordSurroundings [] "grid" (some sentGrid) =
      .error ⟨.notFound, "grid index 1 index 1 " ++ rest⟩ := by
  have howns : wordSurroundings.OwnsFailures :=
    Surroundings.ownsFailures_of_afterWrites nofun rfl rfl
  have hrow : FailsFirst ((Attribute.ofKind (.ref "words")).coerceItem wordSurroundings [])
      [.string "1001", .string "1002"] 1 ⟨.notFound, "index 1 not found"⟩ :=
    failsFirst_succ_iff.mpr
      ⟨(Option.isSome_iff_exists.mp (by decide +kernel)).imp fun _ => Outcome.toOption_eq_some_iff.mp,
        failsFirst_zero_iff.mpr (Outcome.error?_eq_some_iff.mp (by decide +kernel))⟩
  have hgrid : FailsFirst (wordRow.coerceItem wordSurroundings [])
      [.array [.string "1001"], .array [.string "1001", .string "1002"]] 1
      ⟨.notFound, "index 1 index 1 not found"⟩ :=
    failsFirst_succ_iff.mpr
      ⟨(Option.isSome_iff_exists.mp (by decide +kernel)).imp fun _ => Outcome.toOption_eq_some_iff.mp,
        failsFirst_zero_iff.mpr (Outcome.error?_eq_some_iff.mp (by decide +kernel))⟩
  have hat : wordGrid.FailsAt wordSurroundings [] sentGrid [1, 1] ⟨.notFound, "index 1 not found"⟩ :=
    .inside rfl (by decide) hgrid rfl (.item rfl nofun hrow)
  obtain ⟨-, -, hpaths⟩ := failures_labelled (a := wordGrid) howns (by decide) [] "grid"
  obtain ⟨-, -, rest, -, -, hfails⟩ := hpaths _ _ _ hat rfl
  exact ⟨rest, hfails⟩

end Curator
