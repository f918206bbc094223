/-
Starting a service.

The definitions are read first, then the database is opened, and last the directory is built and its
references and joins are checked.
-/
import Curator.Database
import Curator.Directory
import Curator.Schema.Folder

namespace Curator.Startup

/-- The store of an entity in a backing of a kind, with the unique fields that it declares. -/
def handle (backing : Backing) (d : Definition) : Handle :=
  match backing with
  | .memory => ⟨.memory, d.name, d.uniqueFields⟩
  | .table => ⟨.table, d.collection, d.uniqueFields⟩

/-- The directory of some definitions, every entity with a store of one kind. -/
def directory (backing : Backing) (ds : List Definition) : Except Failure Directory :=
  Directory.build (fun d => some (handle backing d)) ds

/-- The directory of a service whose definitions are in a folder and whose documents are in a
database on a disk. -/
def start (disk : Disk) (definitions : Except Failure (List Definition))
    (url : String) : Except Failure Directory := do
  let ds ← definitions
  Database.connect disk url
  directory .table ds

end Curator.Startup
