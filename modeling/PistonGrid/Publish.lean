import PistonGrid.Catalog
import PistonGrid.FileTree
import PistonGrid.Reference

/-!
# Publishing the reference

The command that writes the reference pages of a registry into a directory: a page for each control
code in a directory of its own, then the index. It reports each file it wrote and stops at the first
failure, keeping what it has written.

* `FileStore` — what the command needs to do to files, in any monad: a `FileTree` kept as state
  (`FileStore.tree`), or the files of a machine.
* `FileStore.makeDirs` — make all directories that are missing on a path.
* `publish` — the command over a registry; `Report` — its output and exit code.
-/

set_option autoImplicit false

namespace PistonGrid

/-- File operations on paths; making and writing return the error they meet. -/
structure FileStore (m : Type → Type) where
  makeDir : String → m (Option FileError)
  isDir : String → m Bool
  write : String → String → m (Option FileError)

namespace FileStore

/-- The operations on a file tree that is kept as state. -/
def tree : FileStore (StateM FileTree) where
  makeDir path := modifyGet fun t => t.makeDir path
  isDir path := do return (← get).isDir path
  write path text := modifyGet fun t => t.write path text

variable {m : Type → Type} [Monad m]

/-- An error in making a directory does not count if the directory is there. -/
def unlessDir (store : FileStore m) (path : String) (e : FileError) : m (Option FileError) := do
  if ← store.isDir path then return none else return some e

/-- Make a directory. If one above it is missing, make those above by `above` and try once more. -/
def makeDirAfter (store : FileStore m) (path : String) (above : m (Option FileError)) :
    m (Option FileError) := do
  match ← store.makeDir path with
  | none => return none
  | some .notFound =>
    match ← above with
    | some e => return some e
    | none =>
      match ← store.makeDir path with
      | none => return none
      | some e => store.unlessDir path e
  | some e => store.unlessDir path e

/-- Make a directory whose names are given last one first, and those above it that are missing. -/
def makeDirsUp (store : FileStore m) : List String → m (Option FileError)
  | [] => return none
  | name :: above =>
    store.makeDirAfter (namesPath (name :: above).reverse) (makeDirsUp store above)

/-- Make a directory and those above it that are missing. The path itself is used as it is written. -/
def makeDirs (store : FileStore m) (path : String) : m (Option FileError) :=
  match (pathNames path).reverse with
  | [] => return none
  | _ :: above => store.makeDirAfter path (store.makeDirsUp above)

end FileStore

/-- What a command printed and how it ended. -/
structure Report where
  exitCode : Nat
  stdout : String
  stderr : String
deriving DecidableEq, Repr

namespace Report

/-- The report of a failure: what was being done, and why it failed. -/
def failure (stdout doing : String) (cause : FileError) : Report :=
  ⟨1, stdout, "Error: Failed to " ++ doing ++ "\n\nCaused by:\n    " ++ cause.message ++ "\n"⟩

end Report

/-- The directory used when none is named. -/
def defaultDirectory : String := "specs"

/-- The pages of a registry with their paths, in the order in which they are written. -/
def pagesIn (directory : String) (r : Registry) : List (String × String) :=
  (Reference.chapters r).map (fun c =>
    (joinPath (joinPath directory "handlers") (Reference.fileName c.code), Reference.page c))
  ++ [(joinPath directory "INDEX.md", Reference.index r)]

/-- The last lines of a successful run. -/
def closingLines (r : Registry) : String :=
  "\nDone. " ++ Numeral.decimal r.families.length ++ " families, " ++ Numeral.decimal r.size
    ++ " handlers.\n"

/-- Write pages one after the other; `stdout` is what was printed so far. -/
def writePages {m : Type → Type} [Monad m] (store : FileStore m) (closing : String) :
    List (String × String) → String → m Report
  | [], stdout => pure ⟨0, stdout ++ closing, ""⟩
  | (path, text) :: rest, stdout => do
    match ← store.write path text with
    | some cause => pure (.failure stdout ("write " ++ path) cause)
    | none => writePages store closing rest (stdout ++ "  wrote " ++ path ++ "\n")

/-- Write the reference of a registry into a directory. -/
def publish {m : Type → Type} [Monad m] (store : FileStore m) (r : Registry) (directory : String) :
    m Report := do
  let pages := joinPath directory "handlers"
  match ← store.makeDirs pages with
  | some cause => pure (.failure "" ("create " ++ pages) cause)
  | none => writePages store (closingLines r) (pagesIn directory r) ""

/-- The command line: the first argument names the directory, the others are passed over. -/
def publishCommand {m : Type → Type} [Monad m] (store : FileStore m) (args : List String) :
    m Report :=
  publish store Registry.standard (args.headD defaultDirectory)

end PistonGrid
