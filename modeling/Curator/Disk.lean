/-
Where files can be made.

A path is followed part by part without looking whether its folders exist; only what is known not to
be a folder cannot be passed.  A file can be made where nothing stands yet, in a folder that exists.
-/
import Curator.Text.Words

namespace Curator

/-- What is known of a disk.  Places are given by the names that lead to them from the root. -/
structure Disk where
  /-- Where paths start that do not start at the root. -/
  here : List String
  /-- The folders in which files can be made. -/
  folders : List (List String)
  /-- Places where something else stands. -/
  taken : List (List String)

namespace Disk

/-- The greatest number of bytes in a path to a file. -/
def maxPath : Nat := 504

/-- The greatest number of bytes in the name of a file. -/
def maxName : Nat := 247

/-- Follows one part of a path. -/
def step? (d : Disk) (place : List String) (part : String) : Option (List String) :=
  if part.isEmpty || part == "." then some place
  else if part == ".." then some place.dropLast
  else if d.taken.contains place then none
  else some (place ++ [part])

/-- The place that a path leads to. -/
def place? (d : Disk) (path : String) : Option (List String) :=
  (Text.splitAt '/' path).foldlM d.step? (if path.startsWith "/" then [] else d.here)

/-- Whether a path leads to a folder. -/
def hasFolder (d : Disk) (path : String) : Bool := (d.place? path).any d.folders.contains

/-- Whether a path leads to something. -/
def has (d : Disk) (path : String) : Bool :=
  !path.isEmpty && (d.place? path).any fun place => d.folders.contains place || d.taken.contains place

/-- Whether a place can be written down. -/
def isNameable (place : List String) : Bool :=
  place.foldr (fun name bytes => name.utf8ByteSize + 1 + bytes) 0 ≤ maxPath &&
    place.all fun name => name.utf8ByteSize ≤ maxName

/-- Whether a file can be made at a path. -/
def takesFile (d : Disk) (path : String) : Bool :=
  match d.place? path with
  | none => false
  | some place =>
    !place.isEmpty && !d.folders.contains place && !d.taken.contains place &&
      d.folders.contains place.dropLast && isNameable place

end Disk

end Curator
