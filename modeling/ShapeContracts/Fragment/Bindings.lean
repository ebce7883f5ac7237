import ShapeContracts.Text.Order
import ShapeContracts.Fragment
import ShapeContracts.Sorted

/-!
Bindings of imported names in one file. A name that is taken, by a declaration of the file or by an
earlier import of another module, is bound under an alias; the first free number from two on makes
the alias unique. A binding once given is kept.
-/
namespace ShapeContracts.Fragment

structure Import where
  module : String
  name : String
  binding : String
  deriving DecidableEq, Repr

structure Bindings where
  imports : List Import
  declared : List String
  deriving Repr

namespace Bindings

def ofDeclared (names : List String) : Bindings := ⟨[], names⟩

def taken (b : Bindings) : List String := b.declared ++ b.imports.map Import.binding

def find? (b : Bindings) (name module : String) : Option Import :=
  b.imports.find? (fun i => i.module == module && i.name == name)

def freeName (taken : List String) (base : String) : Nat → Nat → String
  | 0, n => base ++ toString n
  | fuel + 1, n =>
    let candidate := if n < 2 then base else base ++ toString n
    if candidate ∈ taken then freeName taken base fuel (n + 1) else candidate

def fresh (b : Bindings) (name module : String) : String :=
  if name ∈ b.taken then freeName b.taken (Naming.importAlias module name) b.taken.length 1
  else name

def bind (b : Bindings) (name module : String) : String × Bindings :=
  match b.find? name module with
  | some i => (i.binding, b)
  | none =>
    let binding := b.fresh name module
    (binding, { b with imports := b.imports ++ [⟨module, name, binding⟩] })

def clause (i : Import) : String :=
  if i.name = i.binding then i.name else String.join [i.name, " as ", i.binding]

def modules (b : Bindings) : List String :=
  sortedBy Text.le (b.imports.map Import.module).eraseDups

def ofModule (b : Bindings) (module : String) : List Import :=
  sortedBy (fun i j => Text.le i.name j.name) (b.imports.filter (fun i => i.module == module))

def importLine (b : Bindings) (module : String) : String :=
  String.join ["import \x7b ", ", ".intercalate ((b.ofModule module).map clause), " \x7d from ",
    Naming.quote module, ";"]

def importBlock (b : Bindings) : String := "\n".intercalate (b.modules.map b.importLine)

end Bindings
end ShapeContracts.Fragment
