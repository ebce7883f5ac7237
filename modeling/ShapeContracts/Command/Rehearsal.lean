import ShapeContracts.Command
import ShapeContracts.Storage.Tree

/-!
The command on values alone: a tree of files in place of the file system, and the printed text as
a result.
-/
namespace ShapeContracts.Command

structure World where
  tree : Tree
  printed : String

abbrev Rehearse := StateM World

def World.onTree (f : Tree → Except StorageError Tree) : Rehearse (Except StorageError Unit) :=
  fun w => match f w.tree with
    | .ok tree => (.ok (), { w with tree := tree })
    | .error e => (.error e, w)

def treeStorage : Storage Rehearse where
  read path := fun w => (w.tree.read path, w)
  write path text := World.onTree (fun t => t.write path text)
  makeDirectory path := World.onTree (fun t => t.makeDirectory path)
  isDirectory path := fun w => (w.tree.isDirectory path, w)

def rehearsal : Surroundings Rehearse where
  storage := treeStorage
  say line := fun w => ((), { w with printed := w.printed ++ line ++ "\n" })

def rehearse (tree : Tree) (args : List String) : Exit × World :=
  (run rehearsal args).run ⟨tree, ""⟩

end ShapeContracts.Command
