/-
Database addresses.

An address names a file, or asks for a database in memory, and may carry options after a question
mark.  The name of the file may itself be an address that starts with `file:`, with options of its own.

Several connections are made to a database, except when the address mentions one in memory, and what
one of them creates the others have to find.  A file on disk serves them all.  A database in memory or
without a name belongs to one connection, unless it is shared by its name.  So opening succeeds when
the address can be understood, the database takes writes, its file can be made, and all connections
see the same.
-/
import Curator.Disk
import Curator.Failure
import Curator.Http.Query
import Curator.Number.Radix

namespace Curator

/-- What may be done with the file of a database. -/
inductive Access where
  | read
  | write
  /-- Writing, and making the file if there is none. -/
  | create
deriving DecidableEq

namespace Access

/-- How much is allowed. -/
def level : Access → Nat
  | read => 0
  | write => 1
  | create => 2

end Access

/-- How a database is opened. -/
structure Database where
  /-- The path of the file, or the name of a database in memory. -/
  name : String
  /-- Whether the name came out of an address that starts with `file:`. -/
  addressed : Bool
  inMemory : Bool
  /-- Whether connections that ask for the same name get the same database. -/
  shared : Bool
  access : Access
  /-- Whether the file is taken for one that nobody changes. -/
  immutable : Bool
  /-- The path of a file that a new one takes its permissions from. -/
  pattern : Option String
  /-- The way to reach files, if it is not the usual one. -/
  driver : Option String
  /-- Whether several connections are made. -/
  pooled : Bool
deriving DecidableEq

namespace Database

/-- The path that stands for a database in memory. -/
def memoryPath : String := ":memory:"

/-- A database that is opened for writing, with nothing asked for but a name. -/
def ofName (name : String) : Database :=
  { name := name, addressed := false, inMemory := false, shared := false, access := .create,
    immutable := false, pattern := none, driver := none, pooled := true }

/-- A text up to its first null character. -/
def upToNull (s : String) : String := String.ofList (s.toList.takeWhile (· != '\x00'))

/-! ### Switches -/

/-- The digits of a base at the front of a text. -/
def leadingDigits (base : Nat) (cs : List Char) : List Nat :=
  (cs.takeWhile fun c => (Radix.digit? c).any (· < base)).filterMap Radix.digit?

/-- Whether a text starts like a number in base 16. -/
def startsHexadecimal : List Char → Bool
  | '0' :: letter :: c :: _ => Radix.base? letter == some 16 && (Radix.digit? c).isSome
  | _ => false

/-- The number at the front of a text.  Without one, or from 2 ^ 31 on, it is zero. -/
def leadingNumber (cs : List Char) : Nat :=
  let n :=
    if startsHexadecimal cs then Radix.ofDigits 16 (leadingDigits 16 (cs.drop 2))
    else Radix.ofDigits 10 (leadingDigits 10 cs)
  if n < 2 ^ 31 then n else 0

/-- Whether the value of an option switches it on: a word for it, or a number whose last byte is not
zero. -/
def isOn (value : String) : Bool :=
  ["on", "yes", "true"].contains (String.ofList (value.toList.map Char.toLower)) ||
    leadingNumber value.toList % 256 != 0

/-! ### File addresses -/

/-- Asks for a kind of access.  No more can be asked for than was allowed before, except of a database
in memory. -/
def withAccess? (db : Database) (access : Access) : Option Database :=
  if db.inMemory || access.level ≤ db.access.level then
    some { db with inMemory := false, access := access }
  else none

/-- Takes an option of a file address into account.  Of several with one name the last counts, and
unknown ones do not matter. -/
def withFileOption? (db : Database) (name value : String) : Option Database :=
  match name, value with
  | "vfs", _ => some { db with driver := some value }
  | "cache", "shared" => some { db with shared := true }
  | "cache", "private" => some { db with shared := false }
  | "cache", _ => none
  | "mode", "memory" => some { db with inMemory := true, access := .create }
  | "mode", "ro" => db.withAccess? .read
  | "mode", "rw" => db.withAccess? .write
  | "mode", "rwc" => db.withAccess? .create
  | "mode", _ => none
  | _, _ => some db

/-- The path behind the host of a file address.  Only this computer can be the host. -/
def localPath? : List Char → Option (List Char)
  | '/' :: '/' :: rest =>
    let host := rest.takeWhile (· != '/')
    if host.isEmpty || host == "localhost".toList then some (rest.dropWhile (· != '/')) else none
  | cs => some cs

/-- A part of a file address with its escapes undone. -/
def plain (cs : List Char) : String := upToNull (Text.Utf8.lossy (Http.Percent.decode cs))

/-- The name and value of an option of a file address. -/
def fileOption (cs : List Char) : String × String :=
  (plain (cs.takeWhile (· != '=')), plain ((cs.dropWhile (· != '=')).drop 1))

/-- A part of a file address before its fragment. -/
def withoutFragment (cs : List Char) : List Char := cs.takeWhile (· != '#')

/-- Takes the options of a file address into account.  What the file itself is opened with comes from
the first option of its name. -/
def withFileOptions? (db : Database) (cs : List Char) : Option Database := do
  let options := ((Text.pieces (· == '&') (withoutFragment cs)).map fileOption).filter
    fun o => !o.1.isEmpty
  let db ← options.foldlM (fun db o => db.withFileOption? o.1 o.2) { db with driver := none }
  return { db with
    immutable := (options.lookup "immutable").any isOn, pattern := options.lookup "modeof" }

/-- The database of a file address, given without the `file:`. -/
def withFileAddress? (db : Database) (cs : List Char) : Option Database := do
  let cs := withoutFragment (← localPath? cs)
  { db with name := plain (cs.takeWhile (· != '?')), addressed := true }.withFileOptions?
    ((cs.dropWhile (· != '?')).drop 1)

/-- The start of a file address. -/
def fileScheme : List Char := "file:".toList

/-- The options that a file address is needed for, as they are written in it.  The name of a driver is
not escaped there, so it may bring more of them. -/
def fileOptions (db : Database) : List (List Char) :=
  (if db.immutable then ["immutable=true".toList] else []) ++
    (db.driver.map fun driver => "vfs=".toList ++ driver.toList).toList

/-- The database with its name understood.  A name that needs a file address for its options is put
there with escapes; any other may be a file address itself. -/
def located? (db : Database) : Option Database :=
  if db.immutable || db.driver.isSome then
    if db.driver.any (·.contains '\x00') then none
    else { db with name := upToNull db.name, addressed := true }.withFileOptions?
      (['&'].intercalate db.fileOptions)
  else if db.name.contains '\x00' then none
  else if fileScheme.isPrefixOf db.name.toList then
    db.withFileAddress? (db.name.toList.drop fileScheme.length)
  else some db

/-! ### Addresses -/

/-- A text without all repetitions of `lead` at its front. -/
def dropLeads (lead : List Char) : Nat → List Char → List Char
  | 0, cs => cs
  | fuel + 1, cs =>
    if lead.isPrefixOf cs then dropLeads lead fuel (cs.drop lead.length) else cs

/-- Takes an option into account, if it is a known one with a known value. -/
def withOption? (db : Database) (name value : String) : Option Database :=
  match name, value with
  | "mode", "ro" => some { db with access := .read }
  | "mode", "rw" | "mode", "rwc" => some db
  | "mode", "memory" => some { db with inMemory := true, shared := true }
  | "cache", "private" => some { db with shared := false }
  | "cache", "shared" => some { db with shared := true }
  | "immutable", "true" | "immutable", "1" => some { db with immutable := true }
  | "immutable", "false" | "immutable", "0" => some { db with immutable := false }
  | "vfs", _ => some { db with driver := some value }
  | _, _ => none

/-- The database of a path, before any options.  One in memory gets a name to be shared by. -/
def ofPath? (path : List Char) : Option Database :=
  if path == memoryPath.toList then
    some { ofName "file:shared" with inMemory := true, shared := true }
  else (Http.Percent.segment? path).map ofName

/-- Whether a text occurs in another. -/
def occurs (s : List Char) : List Char → Bool
  | [] => s.isEmpty
  | c :: cs => s.isPrefixOf (c :: cs) || occurs s cs

/-- What an address asks for. -/
def ofUrl? (url : String) : Option Database := do
  let cs := url.toList
  let cs := dropLeads "sqlite://".toList cs.length cs
  let cs := dropLeads "sqlite:".toList cs.length cs
  let db ← ofPath? (cs.takeWhile (· != '?'))
  let options := Http.Query.pairs ((cs.dropWhile (· != '?')).drop 1)
  let db ← options.foldlM (fun db o => db.withOption? o.1 o.2) db
  located? { db with pooled := !occurs memoryPath.toList url.toList }

/-! ### Opening -/

/-- The ways to reach files of a disk. -/
def diskDrivers : List String := ["unix", "unix-none", "unix-dotfile", "unix-excl"]

/-- The way to reach files that are kept in memory. -/
def memoryDriver : String := "memdb"

/-- Whether no file is behind a database. -/
def isFileless (db : Database) : Bool :=
  db.inMemory || db.name == memoryPath || db.name.isEmpty

/-- Whether connections can share a database by its name. -/
def isShareable (db : Database) : Bool :=
  db.shared && !db.name.isEmpty && (db.addressed || !db.isFileless)

/-- Whether all connections to a database without a file on disk see the same. -/
def isCommon (db : Database) : Bool := !db.pooled || db.isShareable

/-- The greatest number of bytes in the name of a file that is kept in memory. -/
def maxMemoryName : Nat := 1016

/-- Whether a name is common to all connections when files are kept in memory. -/
def isCommonName (name : String) : Bool :=
  1 < name.utf8ByteSize && (name.startsWith "/" || name.startsWith "\\")

/-- Whether a database can be opened, written to, and seen by all connections. -/
def opens (disk : Disk) (db : Database) : Bool :=
  let onDisk := db.driver.all diskDrivers.contains
  if !onDisk && db.driver != some memoryDriver then false
  else if db.access == .read then false
  else if db.isFileless then db.isCommon
  else if db.immutable then false
  else if onDisk then
    db.access == .create && disk.takesFile db.name && db.pattern.all disk.has
  else db.name.utf8ByteSize ≤ maxMemoryName && (db.isCommon || isCommonName db.name)

/-- Opens the database of an address. -/
def connect (disk : Disk) (url : String) : Except Failure Unit :=
  match ofUrl? url with
  | none => .error ⟨.database, "Invalid database url " ++ url⟩
  | some db =>
    if db.opens disk then .ok () else .error ⟨.database, "Failed to connect to SQLite"⟩

end Database

end Curator
