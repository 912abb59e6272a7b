import Muster.Sorted
import Muster.Text.Split

/-!
# Directories of files

A directory as a map from paths to what stands there. The directory itself is the empty path; what
stands at a path stands in a directory.
-/

namespace Muster

/-- A path below a directory, by its components. -/
abbrev Path := List String

inductive FileEntry
  | directory
  | file (text : String)
  deriving DecidableEq, Repr

abbrev Files := SortedMap Path FileEntry

namespace Files

/-- A name appended to a directory; an absolute one stands for itself. -/
def join (dir name : String) : String :=
  if name.startsWith "/" then name else dir ++ "/" ++ name

def isDirectory (files : Files) (path : Path) : Bool :=
  path.isEmpty || files.get? path == some .directory

/-- The names directly below the directory. -/
def topNames (files : Files) : List String :=
  files.keys.filterMap fun path => match path with
    | [name] => some name
    | _ => none

/-- Makes the directories `path` below `base`, where they are not there yet; a file in the way stops
it. -/
def makeBelow (files : Files) (base : Path) : Path → Option Files
  | [] => some files
  | name :: rest =>
    match files.get? (base ++ [name]) with
    | some .directory => makeBelow files (base ++ [name]) rest
    | some (.file _) => none
    | none => makeBelow (files.insert (base ++ [name]) .directory) (base ++ [name]) rest

/-- Makes a directory and those that it stands in. -/
def makeDirectory (files : Files) (path : Path) : Option Files := makeBelow files [] path

/-- Whether a path leads to one of `stuck`, or is one of them. -/
def isStuck (stuck : List Path) (path : Path) : Bool := stuck.any fun s => path.isPrefixOf s

/-- Removes a directory with what it holds; a file stays. Where not all can be removed, what stands at the paths
`stuck` stays in the directories that lead to it. -/
def removeDirectory (files : Files) (path : Path) (stuck : List Path := []) : Files :=
  if files.isDirectory path then files.filter fun p _ => !path.isPrefixOf p || isStuck stuck p else files

/-- Makes a file, or gives a file a new text. -/
def write (files : Files) (path : Path) (text : String) : Option Files :=
  if files.isDirectory path || !files.isDirectory path.dropLast then none
  else some (files.insert path (.file text))

/-- Adds to the text of a file. -/
def append (files : Files) (path : Path) (text : String) : Files :=
  match files.get? path with
  | some (.file before) => files.insert path (.file (before ++ text))
  | _ => files

def removeFile (files : Files) (path : Path) : Files :=
  match files.get? path with
  | some (.file _) => files.erase path
  | _ => files

/-- Where a name leads from a directory: an empty one and `.` stay in it, `..` leads to the one that it stands in, and
the top stands in itself. -/
def follow (base : Path) (name : String) : Path :=
  if name = "" ∨ name = "." then base
  else if name = ".." then base.dropLast
  else base ++ [name]

/-- The directory from which a path leads: an absolute one leads from the top. -/
def origin (base : Path) (path : String) : Path := if path.toList.head? = some '/' then [] else base

/-- Where a path leads from a directory, if all directories on the way are there and none of them is a link. -/
def resolve (base : Path) (path : String) : Path := (Text.pieces '/' path).foldl follow (origin base path)

/-- A path with an ending behind its last name. -/
def extend (path : Path) (ending : String) : Path := path.dropLast ++ [path.getLastD "" ++ ending]

/-- Makes the directories through which names lead from a directory. -/
def makeAlong (files : Files) (base : Path) : List String → Option Files
  | [] => some files
  | name :: rest =>
    (files.makeDirectory (follow base name)).bind fun files => files.makeAlong (follow base name) rest

/-- Makes the directories on the way of a path to its last name, from a directory on. -/
def makeWay (files : Files) (base : Path) (path : String) : Option Files :=
  (files.makeDirectory (origin base path)).bind fun files =>
    files.makeAlong (origin base path) (Text.pieces '/' path).dropLast

/-- Where a path leads from a directory, as far as directories lead there; the last name may be new. -/
def walk (files : Files) (base : Path) : List String → Option Path
  | [] => none
  | [last] => some (base ++ [last])
  | name :: rest =>
    if name = "" ∨ name = "." then files.walk base rest
    else if name = ".." then
      if base.isEmpty then none else files.walk base.dropLast rest
    else if files.isDirectory (base ++ [name]) then files.walk (base ++ [name]) rest
    else none

/-- Where a relative path leads from a directory. -/
def resolve? (files : Files) (base : Path) (relative : String) : Option Path :=
  if relative.startsWith "/" then none else files.walk base (Text.pieces '/' relative)

end Files

end Muster
