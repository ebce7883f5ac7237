import ShapeContracts.Failure
import ShapeContracts.Naming

/-!
Names and files of the shapes that describe values. A symbol is found from the model, the primary
namespace and the identifier alone; the table only remembers which ones were registered.
-/
namespace ShapeContracts

structure Symbol where
  schemaName : String
  typeName : String
  fileKey : FileKey
  kind : ShapeKind
  deriving DecidableEq, Repr

def Symbol.isStandalone (s : Symbol) : Bool := s.kind.isStandalone

def SubFile.ofShape : Option Shape → SubFile
  | some (.service ..) => .service
  | some (.enum ..) => .enums
  | some (.struct _ traits) => if traits.error.isSome then .errors else .structures
  | _ => .schema

def outputFileKey (primarySpace : String) (m : Model) (id : String) : Except Failure FileKey := do
  let parts ← ShapeId.parse id
  let sub := SubFile.ofShape (m.shape? id)
  pure (if parts.space = primarySpace then .primary sub else .shared parts.space sub)

def Symbol.make (primarySpace : String) (m : Model) (id : String) (shape : Shape)
    (kind : ShapeKind) : Except Failure Symbol := do
  let parts ← ShapeId.parse id
  let fileKey ← outputFileKey primarySpace m id
  let typeName :=
    if shape.isError then Naming.errorClassName parts.name else Naming.typeName parts.name
  pure ⟨Naming.schemaName parts.name, typeName, fileKey, kind⟩

def symbolOf (primarySpace : String) (m : Model) (id : String) : Except Failure (Option Symbol) :=
  match m.shape? id with
  | none => pure none
  | some shape =>
    match shape.kind? with
    | none => pure none
    | some kind =>
      if kind.isSchemaBearing then return some (← Symbol.make primarySpace m id shape kind)
      else pure none

structure SymbolTable where
  primarySpace : String
  symbols : List (String × Symbol)
  deriving Repr

namespace SymbolTable

def empty (primarySpace : String) : SymbolTable := ⟨primarySpace, []⟩

def lookup? (t : SymbolTable) (id : String) : Option Symbol := t.symbols.lookup id

def ids (t : SymbolTable) : List String := t.symbols.map Prod.fst

def isRegistered (t : SymbolTable) (id : String) : Bool := t.ids.contains id

def standalone? (t : SymbolTable) (id : String) : Option Symbol :=
  (t.lookup? id).filter Symbol.isStandalone

def kind? (t : SymbolTable) (id : String) : Option ShapeKind := (t.lookup? id).map Symbol.kind

def size (t : SymbolTable) : Nat := t.symbols.length

/-- Registers a shape; a shape already registered keeps its symbol. A failure changes nothing. -/
def register (t : SymbolTable) (m : Model) (id : String) :
    Except Failure (Option Symbol) × SymbolTable :=
  match t.lookup? id with
  | some symbol => (.ok (some symbol), t)
  | none =>
    match symbolOf t.primarySpace m id with
    | .error e => (.error e, t)
    | .ok none => (.ok none, t)
    | .ok (some symbol) => (.ok (some symbol), { t with symbols := t.symbols ++ [(id, symbol)] })

def registerAll (t : SymbolTable) (m : Model) : List String → Except Failure Unit × SymbolTable
  | [] => (.ok (), t)
  | id :: rest =>
    match t.register m id with
    | (.error e, t) => (.error e, t)
    | (.ok _, t) => registerAll t m rest

def discover (t : SymbolTable) (m : Model) : Except Failure Nat × SymbolTable :=
  match t.registerAll m (m.shapes.map Prod.fst) with
  | (.error e, t) => (.error e, t)
  | (.ok (), t) => (.ok t.size, t)

def declaredIn (t : SymbolTable) (key : FileKey) : List String :=
  let here := t.symbols.filter (fun s => s.2.isStandalone && s.2.fileKey == key)
  sortedBy Text.le (here.flatMap (fun s => [s.2.schemaName, s.2.typeName])).eraseDups

end SymbolTable
end ShapeContracts
