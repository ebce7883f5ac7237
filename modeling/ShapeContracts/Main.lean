import ShapeContracts.Command

/-!
The command on the file system.
-/
namespace ShapeContracts

def storageError : IO.Error → StorageError
  | .noFileOrDirectory .. => .notFound
  | .alreadyExists .. => .exists
  | .inappropriateType _ 20 _ => .notDirectory
  | .inappropriateType _ 21 _ => .isDirectory
  | e => .other (toString e)

def tryStorage (action : IO α) : IO (Except StorageError α) :=
  try return .ok (← action) catch e => return .error (storageError e)

/-- A directory holds itself under a dot, so that it cannot be made there. -/
def isFileDirectory (path : String) : IO Bool := do
  match ← tryStorage (IO.FS.createDir (path ++ "/.")) with
  | .error .exists => return true
  | _ => return false

def fileStorage : Storage IO where
  read path := tryStorage (IO.FS.readFile path)
  write path text := tryStorage (IO.FS.writeFile path text)
  makeDirectory path := tryStorage (IO.FS.createDir path)
  isDirectory := isFileDirectory

end ShapeContracts

open ShapeContracts in
def main (args : List String) : IO UInt32 := do
  let exit ← Command.run ⟨fileStorage, IO.println⟩ args
  match exit with
  | .done => pure ()
  | .failed t => IO.eprintln t.report
  | .usage .help => IO.println Command.usageText
  | .usage .wrong => IO.eprintln Command.usageText
  return exit.code.toUInt32
