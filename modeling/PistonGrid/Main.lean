import PistonGrid.Publish

/-!
# The command

Writes the reference of the standard catalog to the machine's files and prints the report.
-/

set_option autoImplicit false

namespace PistonGrid

/-- The error of the machine as an error of the library. -/
def FileError.ofSystem : IO.Error → FileError
  | .noFileOrDirectory _ _ _ => .notFound
  | .alreadyExists _ _ _ => .exists
  | .inappropriateType _ 20 _ => .notDirectory
  | .inappropriateType _ 21 _ => .isDirectory
  | .invalidArgument _ 36 _ => .nameTooLong
  | e => .other e.toString

/-- The error that an action meets. -/
def attempt (action : IO Unit) : IO (Option FileError) := do
  match ← action.toBaseIO with
  | .ok _ => return none
  | .error e => return some (.ofSystem e)

/-- The files of the machine. -/
def FileStore.disk : FileStore IO where
  makeDir path := attempt (IO.FS.createDir ⟨path⟩)
  isDir path := (System.mkFilePath [path]).isDir
  write path text := attempt (IO.FS.writeFile ⟨path⟩ text)

end PistonGrid

/-- Publish the reference, print the report and end with its exit code. -/
def main (args : List String) : IO UInt32 := do
  let report ← PistonGrid.publishCommand PistonGrid.FileStore.disk args
  IO.print report.stdout
  IO.eprint report.stderr
  pure (UInt32.ofNat report.exitCode)
