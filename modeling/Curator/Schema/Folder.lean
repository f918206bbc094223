/-
Folders of definition files.

A folder holds files and other folders, each under the names that lead to it.  Entries are put where
their paths lead, so two spellings of one path mean one entry, and the later of them stays.  The
entries directly in a folder whose names end in `.json`, with something in front of it, are read in
the order of their names.  The first that cannot be read, or that writes no definition, ends it.  A folder that a path
leads out to is taken to hold no definitions.
-/
import Curator.Disk
import Curator.Failure
import Curator.Json.Reading
import Curator.Schema.DefinitionForm
import Curator.Text.Words

namespace Curator

/-- What stands at the end of a path. -/
inductive FolderEntry where
  | file (text : String)
  | folder

/-- What a folder holds at any depth, by the names that lead to it. -/
abbrev Folder := List (List String × FolderEntry)

namespace Folder

/-! ### Paths -/

/-- Whether a part of a path stays where it is. -/
def isStay (part : String) : Bool := part.isEmpty || part == "."

/-- Whether a part of a path leads to the folder around it. -/
def isUp (part : String) : Bool := part == ".."

/-- The names after one more part of a path.  Above the folder itself the names lead up. -/
def next (names : List String) (part : String) : List String :=
  if isStay part then names
  else if isUp part && !names.all isUp then names.dropLast
  else names ++ [part]

/-- The names that a path leads to; one that starts at the root leads elsewhere. -/
def place? (path : String) : Option (List String) :=
  if path.startsWith "/" then none else some ((Text.splitAt '/' path).foldl next [])

/-- The folder with an entry at the end of some names, instead of what was there. -/
def put (folder : Folder) (names : List String) (entry : FolderEntry) : Folder :=
  folder.filter (fun e => e.1 != names) ++ [(names, entry)]

/-- The folder with the entries of some paths, put there one after the other. -/
def ofPaths (entries : Dict FolderEntry) : Folder :=
  entries.foldl (fun folder e =>
    match place? e.1 with
    | some names => folder.put names e.2
    | none => folder) []

/-- What stands at the end of some names. -/
def entry? (folder : Folder) (names : List String) : Option FolderEntry :=
  if names.all isUp then some .folder else folder.lookup names

/-- Whether some names lead to a folder. -/
def isFolder (folder : Folder) (names : List String) : Bool :=
  match folder.entry? names with
  | some .folder => true
  | _ => false

/-- Follows one part of a path, out of a folder and to something that is there. -/
def step? (folder : Folder) (names : List String) (part : String) : Option (List String) :=
  if folder.isFolder names then (folder.entry? (next names part)).map fun _ => next names part
  else none

/-- The names that lead to the folder at a path. -/
def folderAt? (folder : Folder) (path : String) : Option (List String) :=
  ((Text.splitAt '/' path).foldlM folder.step? []).filter folder.isFolder

/-- The entries directly in the folder at the end of some names. -/
def entriesAt (folder : Folder) (names : List String) : Dict FolderEntry :=
  folder.filterMap fun e =>
    match e.1.getLast? with
    | some name => if e.1.dropLast = names then some (name, e.2) else none
    | none => none

/-- A path with another behind it; one that starts at the root stands for itself. -/
def behind (path more : String) : String :=
  if more.startsWith "/" then more
  else if path.endsWith "/" then path ++ more
  else path ++ "/" ++ more

/-! ### Definitions -/

/-- The end of the names of definition files. -/
def extension : List Char := ".json".toList

/-- Whether a name is one of a definition file. -/
def isDefinitionName (name : String) : Bool :=
  extension.isSuffixOf name.toList && extension.length < name.length

/-- The definition that the text of a file writes. -/
def definition? (text : String) : Option Definition :=
  (Json.wanted Definition.outline text).toOption.bind (Definition.readWith? Json.meaning?)

/-- The definition of an entry at a path. -/
def readEntry (path : String) : FolderEntry → Except Failure Definition
  | .folder => .error ⟨.configuration, "cannot read " ++ path⟩
  | .file text =>
    match definition? text with
    | some d => .ok d
    | none => .error ⟨.configuration, "invalid entity config " ++ path⟩

/-- The entries of definition files, in the order of their names. -/
def definitionEntries (entries : Dict FolderEntry) : Dict FolderEntry :=
  (entries.filter fun e => isDefinitionName e.1).mergeSort fun a b => decide (a.1 ≤ b.1)

/-- The definitions of a folder that is found at `path`, and whose names in it are `names`. -/
def definitionsAt (path : String) (folder : Folder) (names : List String) :
    Except Failure (List Definition) :=
  (definitionEntries (folder.entriesAt names)).mapM fun e => readEntry (behind path e.1) e.2

/-- The definitions of a folder at a path. -/
def definitions (path : String) (folder : Folder) : Except Failure (List Definition) :=
  definitionsAt path folder []

/-- The definitions of what stands at a path from a folder of a disk; only folders have any. -/
def definitionsUnder (disk : Disk) (path : String) (folder : Folder) (sub : String) :
    Except Failure (List Definition) :=
  let unreadable : Failure :=
    ⟨.configuration, "cannot read entity directory " ++ behind path sub⟩
  if sub.startsWith "/" then if disk.hasFolder sub then .ok [] else .error unreadable
  else
    match folder.folderAt? sub with
    | some names => definitionsAt (behind path sub) folder names
    | none => .error unreadable

end Folder

end Curator
