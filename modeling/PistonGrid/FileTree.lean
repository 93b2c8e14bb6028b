/-!
# File trees

Files and directories below one top directory, and what happens to them when directories are made and
files are written. A path is a list of names; blank names and single dots stand for the directory they
are found in, double dots for the one above it. The directories above the top are there too, with
nothing known in them.

* `pathNames`, `namesPath`, `joinPath` — paths as texts and as names.
* `FileTree.locate` — the place that a path leads to. All names but the last must be directories, and
  neither the path nor a name on it may be too long.
* `FileTree.makeDir`, `FileTree.write` — make a directory, create or overwrite a file.
* `FileTree.files` — all files below the top with their paths, sorted by path.
-/

set_option autoImplicit false

namespace PistonGrid

/-- Why a file operation failed. -/
inductive FileError where
  | notFound
  | exists
  | notDirectory
  | isDirectory
  | nameTooLong
  | other (message : String)
deriving DecidableEq, Repr

/-- What the system says about a failed file operation. -/
def FileError.message : FileError → String
  | .notFound => "No such file or directory (os error 2)"
  | .exists => "File exists (os error 17)"
  | .notDirectory => "Not a directory (os error 20)"
  | .isDirectory => "Is a directory (os error 21)"
  | .nameTooLong => "File name too long (os error 36)"
  | .other message => message

/-- What stands at a place in a file tree. -/
inductive FileNode where
  | file (text : String)
  | directory
deriving DecidableEq, Repr

/-- The places that hold something. A place is a list of names from the top directory down, behind as
many double dots as it takes to go up to it. -/
structure FileTree where
  nodes : List (List String × FileNode) := []
deriving DecidableEq, Repr

/-- The names on a path, without the blanks and dots behind its first name. A path that begins with a
stroke has a blank first name. -/
def pathNames (path : String) : List String :=
  match path.splitOn "/" with
  | [] => []
  | first :: rest =>
    if path = "" then [] else first :: rest.filter fun name => name ≠ "" && name ≠ "."

/-- The path of some names. -/
def namesPath (names : List String) : String :=
  if names = [""] then "/" else "/".intercalate names

/-- A path extended by a name. -/
def joinPath (path name : String) : String :=
  if path = "" || path.endsWith "/" then path ++ name else path ++ "/" ++ name

namespace FileTree

/-- The top directory and those above it. -/
def isAbove (place : List String) : Bool := place.all (· = "..")

/-- What stands at a place; the top and all above it are directories. -/
def node? (t : FileTree) (place : List String) : Option FileNode :=
  if isAbove place then some .directory else t.nodes.lookup place

/-- The place of the directory above a place. -/
def parent (place : List String) : List String :=
  if isAbove place then place ++ [".."] else place.dropLast

/-- Put something at a place. -/
def put (t : FileTree) (place : List String) (node : FileNode) : FileTree :=
  ⟨(place, node) :: t.nodes.filter (·.1 ≠ place)⟩

/-- Names are at most 255 bytes long. -/
def isTooLong (name : String) : Bool := 255 < name.utf8ByteSize

/-- The place that names lead to from a directory. -/
def locateFrom (t : FileTree) : List String → List String → Except FileError (List String)
  | place, [] => .ok place
  | place, "" :: rest => t.locateFrom place rest
  | place, "." :: rest => t.locateFrom place rest
  | place, ".." :: rest => t.locateFrom (parent place) rest
  | place, [name] => if isTooLong name then .error .nameTooLong else .ok (place ++ [name])
  | place, name :: rest =>
    if isTooLong name then .error .nameTooLong
    else
      match t.node? (place ++ [name]) with
      | some .directory => t.locateFrom (place ++ [name]) rest
      | some (.file _) => .error .notDirectory
      | none => .error .notFound

/-- Paths are at most 4095 bytes long as they are written, dots and repeated strokes included. -/
def isPathTooLong (path : String) : Bool := 4095 < path.utf8ByteSize

/-- The place that a path leads to from the top. A path that is too long leads nowhere, whatever is on
it. -/
def locate (t : FileTree) (path : String) : Except FileError (List String) :=
  if isPathTooLong path then .error .nameTooLong else t.locateFrom [] (pathNames path)

/-- The path leads to a directory. -/
def isDir (t : FileTree) (path : String) : Bool :=
  match t.locate path with
  | .ok place => t.node? place == some .directory
  | .error _ => false

/-- Make one directory. -/
def makeDir (t : FileTree) (path : String) : Option FileError × FileTree :=
  match t.locate path with
  | .error e => (some e, t)
  | .ok place =>
    match t.node? place with
    | some _ => (some .exists, t)
    | none => (none, t.put place .directory)

/-- Create or overwrite a file. -/
def write (t : FileTree) (path text : String) : Option FileError × FileTree :=
  match t.locate path with
  | .error e => (some e, t)
  | .ok place =>
    match t.node? place with
    | some .directory => (some .isDirectory, t)
    | _ => (none, t.put place (.file text))

/-- All files below the top with their paths, sorted by path. -/
def files (t : FileTree) : List (String × String) :=
  let found := t.nodes.filterMap fun (place, node) =>
    match node with
    | .file text => if place.head? = some ".." then none else some ("/".intercalate place, text)
    | .directory => none
  found.mergeSort fun a b => !(b.1 < a.1)

end FileTree

end PistonGrid
