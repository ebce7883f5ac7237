import ShapeContracts.Text.Order
import ShapeContracts.Settings

/-!
Keys of generated files: the group that a namespace is routed to, and the file within the group.
-/
namespace ShapeContracts

inductive FileGroup where
  | primary
  | shared (space : String)
  deriving DecidableEq, Repr

inductive SubFile where
  | service
  | enums
  | structures
  | errors
  | schema
  deriving DecidableEq, Repr

namespace SubFile

def name : SubFile → String
  | service => "service"
  | enums => "enums"
  | structures => "structures"
  | errors => "errors"
  | schema => "schema"

def all : List SubFile := [service, enums, structures, errors, schema]

def ofName? (name : String) : Option SubFile := all.find? (fun s => s.name == name)

def rank : SubFile → Nat
  | service => 0
  | enums => 1
  | structures => 2
  | errors => 3
  | schema => 4

theorem nameRead (s : SubFile) : ofName? s.name = some s := by
  cases s <;> decide

theorem rankInjective {a b : SubFile} (h : a.rank = b.rank) : a = b := by
  cases a <;> cases b <;> simp_all [rank]

end SubFile

structure FileKey where
  group : FileGroup
  sub : SubFile
  deriving DecidableEq, Repr

namespace FileKey

def primary (sub : SubFile) : FileKey := ⟨.primary, sub⟩

def shared (space : String) (sub : SubFile) : FileKey := ⟨.shared space, sub⟩

def stem (k : FileKey) : String :=
  match k.group with
  | .primary => k.sub.name
  | .shared space => space ++ "." ++ k.sub.name

def toString (k : FileKey) : String :=
  match k.group with
  | .primary => "primary:" ++ k.sub.name
  | .shared space => "shared:" ++ space ++ ":" ++ k.sub.name

def trimSlashes (s : String) : String :=
  String.ofList ((s.toList.reverse.dropWhile (· == '/')).reverse)

/--
The module specifier by which the file `source` imports this one. A primary file reaches a shared one
below the shared root when there is one, and every other file as a neighbour.
-/
def importPath (k source : FileKey) (sharedRoot : Option String) : String :=
  match source.group, k.group, sharedRoot with
  | .primary, .shared _, some root => trimSlashes root ++ "/" ++ k.stem ++ ".js"
  | _, _, _ => "./" ++ k.stem ++ ".js"

def lt (a b : FileKey) : Bool :=
  match a.group, b.group with
  | .primary, .primary => a.sub.rank < b.sub.rank
  | .primary, .shared _ => true
  | .shared _, .primary => false
  | .shared x, .shared y => Text.lt x y || (x == y && a.sub.rank < b.sub.rank)

def ofString? (s : String) : Option FileKey := do
  let reversed := s.toList.reverse
  let sub ← SubFile.ofName? (String.ofList (reversed.takeWhile (· ≠ ':')).reverse)
  let group := ((reversed.dropWhile (· ≠ ':')).drop 1).reverse
  if "shared:".toList.isPrefixOf group then some (shared (String.ofList (group.drop 7)) sub)
  else some (primary sub)

end FileKey

structure Layout where
  primaryDir : String
  sharedDir : String
  deriving DecidableEq, Repr

namespace Layout

def ofOutput (o : Settings.Output) : Layout := ⟨o.primaryDir, o.sharedDir⟩

def join (dir name : String) : String :=
  if name.toList.head? == some '/' then name
  else if dir.toList.getLast? == some '/' then dir ++ name
  else dir ++ "/" ++ name

def path? (l : Layout) (k : FileKey) : Option String :=
  let dir := match k.group with
    | .primary => l.primaryDir
    | .shared _ => l.sharedDir
  if dir.isEmpty then none else some (join dir (k.stem ++ ".ts"))

end Layout
end ShapeContracts
