/-
Queries of request targets.

A query is a row of pairs with ampersands between them.  The first equals sign of a pair ends its
name; without one the value is empty.  Of equal names the last value counts.
-/
import Curator.Http.Percent
import Curator.Json.Basic
import Curator.Text.Words

namespace Curator.Http.Query

/-- The name and value of a pair. -/
def pair (cs : List Char) : String × String :=
  (Percent.component (cs.takeWhile (· != '=')),
    Percent.component ((cs.dropWhile (· != '=')).drop 1))

/-- The pairs of a query in order; empty ones are skipped. -/
def pairs (query : List Char) : List (String × String) :=
  ((Text.pieces (· == '&') query).filter fun cs => !cs.isEmpty).map pair

/-- The fields of a query, every value a string. -/
def read (query : List Char) : Document :=
  (Dict.ofList (pairs query)).mapValues .string

end Curator.Http.Query
