import ShapeContracts.Text.Blank

/-!
Text files at paths, as an interface over any monad, and what is built from it: storing a file
together with the directories above it.
-/
namespace ShapeContracts

inductive StorageError where
  | notFound
  | exists
  | notDirectory
  | isDirectory
  | other (text : String)
  deriving DecidableEq, Repr

def StorageError.message : StorageError → String
  | notFound => "No such file or directory (os error 2)"
  | «exists» => "File exists (os error 17)"
  | notDirectory => "Not a directory (os error 20)"
  | isDirectory => "Is a directory (os error 21)"
  | other text => text

structure Storage (m : Type → Type) where
  read : String → m (Except StorageError String)
  write : String → String → m (Except StorageError Unit)
  makeDirectory : String → m (Except StorageError Unit)
  isDirectory : String → m Bool

namespace Storage

def parts (path : String) : List String := (Text.splitAt '/' path.toList).map String.ofList

def joinParts (parts : List String) : String := "/".intercalate parts

def isStep (i : Nat) (part : String) : Bool := part ≠ "" && (i = 0 || part ≠ ".")

def parents (path : String) : List String :=
  let ps := parts path
  let steps := (List.range ps.length).filter (fun i => isStep i (ps.getD i ""))
  (steps.dropLast.map (fun i => joinParts (ps.take (i + 1)))).reverse

def parentName (path : String) : String :=
  match parents path with
  | p :: _ => p
  | [] => if path.toList.head? = some '/' then "/" else ""

variable {m : Type → Type} [Monad m]

def missing (s : Storage m) : List String → m (Except StorageError (List String))
  | [] => pure (.ok [])
  | dir :: above => do
    match ← s.makeDirectory dir with
    | .ok () => pure (.ok [])
    | .error .notFound => return (← s.missing above).map (dir :: ·)
    | .error .exists => if ← s.isDirectory dir then pure (.ok []) else pure (.error .exists)
    | .error e => pure (.error e)

def makeAll (s : Storage m) : List String → m (Except StorageError Unit)
  | [] => pure (.ok ())
  | dir :: rest => do
    match ← s.makeDirectory dir with
    | .ok () => s.makeAll rest
    | .error .exists => if ← s.isDirectory dir then s.makeAll rest else pure (.error .exists)
    | .error e => pure (.error e)

def makeDirectories (s : Storage m) (dirs : List String) : m (Except StorageError Unit) := do
  match ← s.missing dirs with
  | .ok dirs => s.makeAll dirs.reverse
  | .error e => pure (.error e)

def store (s : Storage m) (path text : String) : m (Except String Unit) := do
  match ← s.makeDirectories (parents path) with
  | .error e =>
    pure (.error ("Failed to create directory " ++ parentName path ++ ": " ++ e.message))
  | .ok () =>
    match ← s.write path text with
    | .error e => pure (.error ("Failed to write " ++ path ++ ": " ++ e.message))
    | .ok () => pure (.ok ())

end Storage
end ShapeContracts
