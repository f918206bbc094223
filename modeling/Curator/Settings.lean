/-
Settings of a running service, as its environment gives them.

Every setting has a default for when its variable is not set.  A port that is not the decimal text of
a number below 2 ^ 16, a plus sign in front allowed, counts as not set.
-/
import Curator.Json.Basic
import Curator.Number.Decimal

namespace Curator

/-- Where a service listens, and where it finds its entities and documents. -/
structure Settings where
  databaseUrl : String
  host : String
  port : UInt16
  definitionsDir : String
deriving DecidableEq

namespace Settings

/-- The port when none is set. -/
def defaultPort : UInt16 := 3000

/-- The port that a text writes. -/
def port? (s : String) : Option UInt16 :=
  let digits :=
    match s.toList with
    | '+' :: cs => cs
    | cs => cs
  let n := Decimal.ofDigits digits
  if !digits.isEmpty && digits.all Char.isDigit && n < 2 ^ 16 then some (UInt16.ofNat n) else none

/-- The settings of an environment. -/
def ofEnvironment (env : Dict String) : Settings where
  databaseUrl := (env.get? "DATABASE_URL").getD "sqlite:data/entities.db"
  host := (env.get? "SERVER_HOST").getD "0.0.0.0"
  port := ((env.get? "SERVER_PORT").bind port?).getD defaultPort
  definitionsDir := (env.get? "ENTITY_CONFIG_DIR").getD "entities"

/-- The address to listen at. -/
def address (s : Settings) : String := s.host ++ ":" ++ toString s.port.toNat

/-- The written form of settings. -/
def toJson (s : Settings) : Json :=
  .object [("database", .object [("url", .string s.databaseUrl)]),
    ("server", .object [("host", .string s.host), ("port", .ofNat s.port.toNat)]),
    ("entities", .object [("dir", .string s.definitionsDir)])]

end Settings

end Curator
