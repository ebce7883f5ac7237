import ShapeContracts.Storage
import ShapeContracts.Text.Order
import ShapeContracts.Sorted

/-!
A tree of directories and text files as a value, with a working directory that relative paths start
from.
-/
namespace ShapeContracts

abbrev Place := List String

inductive Entry where
  | directory
  | file (text : String)
  deriving DecidableEq, Repr

structure Tree where
  work : Place
  entries : List (Place × Entry)
  deriving Repr

namespace Tree

def at? (t : Tree) (p : Place) : Option Entry :=
  if p.isEmpty then some .directory else t.entries.lookup p

def set (t : Tree) (p : Place) (e : Entry) : Tree :=
  { t with entries := (p, e) :: t.entries.filter (fun x => x.1 ≠ p) }

def step (p : Place) : String → Place
  | "" | "." => p
  | ".." => p.dropLast
  | name => p ++ [name]

def walk (t : Tree) : Place → List String → Except StorageError Place
  | p, [] => .ok p
  | p, part :: rest =>
    match t.at? p with
    | none => .error .notFound
    | some (.file _) => .error .notDirectory
    | some .directory => t.walk (step p part) rest

def place (t : Tree) (path : String) : Except StorageError Place :=
  t.walk (if path.toList.head? = some '/' then [] else t.work) (Storage.parts path)

def read (t : Tree) (path : String) : Except StorageError String := do
  match t.at? (← t.place path) with
  | none => throw .notFound
  | some .directory => throw .isDirectory
  | some (.file text) => pure text

def write (t : Tree) (path text : String) : Except StorageError Tree := do
  let p ← t.place path
  match t.at? p with
  | some .directory => throw .isDirectory
  | _ => pure (t.set p (.file text))

def makeDirectory (t : Tree) (path : String) : Except StorageError Tree := do
  let p ← t.place path
  match t.at? p with
  | some _ => throw .exists
  | none => pure (t.set p .directory)

def isDirectory (t : Tree) (path : String) : Bool :=
  match t.place path with
  | .ok p => t.at? p = some .directory
  | .error _ => false

def above (p : Place) : List Place := (List.range p.length).tail.map (fun n => p.take n)

def ofFiles (work : Place) (files : List (String × String)) : Tree :=
  let start : Tree := ⟨work, (work :: above work).map (fun p => (p, .directory))⟩
  files.foldl (fun t (path, text) =>
    let p := work ++ Storage.parts path
    ((above p).foldl (fun t d => t.set d .directory) t).set p (.file text)) start

def files (t : Tree) : List (String × String) :=
  let below := t.entries.filterMap (fun (p, e) =>
    match e with
    | .file text =>
      if t.work.isPrefixOf p then some (Storage.joinParts (p.drop t.work.length), text) else none
    | .directory => none)
  sortedBy (fun a b => Text.le a.1 b.1) below

def changed (before after : Tree) : List (String × String) :=
  after.files.filter (fun f => before.files.lookup f.1 ≠ some f.2)

end Tree
end ShapeContracts
