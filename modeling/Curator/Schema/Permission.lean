/-
Who may do what.

A rule names one audience or a list of them; `Permissions` holds an optional rule for each of the
four actions.  An action is allowed when the rule for it admits the caller, and a missing rule admits
nobody.  Only two audiences ever admit anyone: everybody, and callers with an identity.
-/
import Curator.Schema.Record

namespace Curator

/-- What can be done to a document. -/
inductive Action where
  | get
  | create
  | update
  | delete
deriving DecidableEq

/-- The audiences a rule can name. -/
inductive Audience where
  | anyone
  | user
  | own
  | admin
  | system
  | nobody
deriving DecidableEq

/-- The audiences to which an action is open: one, or any of several. -/
inductive Rule where
  | one (audience : Audience)
  | any (audiences : List Audience)
deriving DecidableEq

/-- A rule for each action that has one. -/
structure Permissions where
  get : Option Rule
  create : Option Rule
  update : Option Rule
  delete : Option Rule
deriving DecidableEq

def Action.word : Action → String
  | get => "get"
  | create => "create"
  | update => "update"
  | delete => "delete"

namespace Audience

def word : Audience → String
  | anyone => "anyone"
  | user => "user"
  | own => "own"
  | admin => "admin"
  | system => "system"
  | nobody => "nobody"

def all : List Audience := [anyone, user, own, admin, system, nobody]

/-- Whether a caller with an optional identity belongs to an audience. -/
def admits (caller : Option String) : Audience → Bool
  | anyone => true
  | user => caller.isSome
  | own => false
  | admin => false
  | system => false
  | nobody => false

def read? (v : Json) : Option Audience := Vocabulary.read? all word v

theorem find?_word (a : Audience) : Vocabulary.find? all word a.word = some a := by
  cases a <;> decide

end Audience

namespace Rule

/-- The audiences of a rule. -/
def audiences : Rule → List Audience
  | one a => [a]
  | any as => as

/-- Whether a rule admits a caller. -/
def admits (caller : Option String) (r : Rule) : Bool := r.audiences.any (Audience.admits caller)

def read? : Json → Option Rule
  | .array items => (items.mapM Audience.read?).map any
  | v => (Audience.read? v).map one

def toJson : Rule → Json
  | one a => .string a.word
  | any as => .array (as.map fun a => .string a.word)

end Rule

namespace Permissions

/-- The rule for an action. -/
def rule? (p : Permissions) : Action → Option Rule
  | .get => p.get
  | .create => p.create
  | .update => p.update
  | .delete => p.delete

/-- One rule for every action. -/
def uniform (r : Rule) : Permissions := ⟨some r, some r, some r, some r⟩

/-- Whether permissions allow a caller an action. -/
def allows (p : Permissions) (action : Action) (caller : Option String) : Bool :=
  match p.rule? action with
  | some r => r.admits caller
  | none => false

/-- What is wanted of permissions. -/
def outline : Outline := Record.outline ["get", "create", "update", "delete"]

def read? (v : Json) : Option Permissions := do
  let r ← Record.ofJson? v
  guard (r.fits 4)
  let get ← r.optional 0 "get" Rule.read?
  let create ← r.optional 1 "create" Rule.read?
  let update ← r.optional 2 "update" Rule.read?
  let delete ← r.optional 3 "delete" Rule.read?
  return ⟨get, create, update, delete⟩

def toJson (p : Permissions) : Json :=
  .object (Dict.ofOption "get" (p.get.map Rule.toJson) ++
    (Dict.ofOption "create" (p.create.map Rule.toJson) ++
      (Dict.ofOption "update" (p.update.map Rule.toJson) ++
        Dict.ofOption "delete" (p.delete.map Rule.toJson))))

end Permissions

/-- Whether an entity's optional permissions allow a caller an action; without any, nothing is. -/
def allowed (permissions : Option Permissions) (action : Action) (caller : Option String) : Bool :=
  match permissions with
  | some p => p.allows action caller
  | none => false

/-- Whether an attribute's optional permissions allow a caller an action; without any, all is. -/
def fieldAllowed (permissions : Option Permissions) (action : Action) (caller : Option String) :
    Bool :=
  match permissions with
  | some p => p.allows action caller
  | none => true

end Curator
