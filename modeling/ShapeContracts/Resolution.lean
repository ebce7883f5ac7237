import ShapeContracts.SymbolTable
import ShapeContracts.Schema
import ShapeContracts.Comment
import ShapeContracts.Visited

/-!
The schema of a reference. Enumerations and structures are referred to by name; every other shape
is expanded in place, with the shapes under expansion on a stack, so that a shape that reaches
itself through such shapes gives a placeholder. The stack holds registered shapes only once each,
which bounds the nesting.
-/
namespace ShapeContracts

structure ResolveOptions where
  /-- A shape that is being generated; a reference to it gives a placeholder. -/
  current : Option String
  lazyInFile : Bool
  deriving DecidableEq, Repr

namespace ResolveOptions

def eager : ResolveOptions := ⟨none, false⟩

def deferred : ResolveOptions := ⟨none, true⟩

end ResolveOptions

structure Resolution where
  schema : Schema
  resolved : Bool
  kind : Option ShapeKind
  recursive : Bool

namespace Resolution

def found (schema : Schema) (kind : Option ShapeKind) : Resolution := ⟨schema, true, kind, false⟩

def placeholder (recursive : Bool) : Resolution := ⟨.unknown, false, none, recursive⟩

end Resolution

namespace Builtin

def schema : Builtin → Schema
  | string => .anyString
  | boolean => .boolean
  | integer => .anyInteger
  | long => .bigint
  | blob => .bytes
  | timestamp => .dateTime
  | document => .unknown
  | unit => .unknown

def kind? : Builtin → Option ShapeKind
  | string => some (.scalar .string)
  | boolean => some (.scalar .boolean)
  | integer => some (.scalar .integer)
  | long => some (.scalar .long)
  | blob => some (.scalar .blob)
  | timestamp => some (.scalar .timestamp)
  | document => some (.scalar .document)
  | unit => none

def resolution (b : Builtin) : Resolution := .found b.schema b.kind?

end Builtin

structure Scope where
  model : Model
  symbols : SymbolTable
  settings : Settings

def ShapeKind.mappedTraits : ShapeKind → List String
  | .scalar .blob => [Traits.Key.documentation, Traits.Key.streaming]
  | .scalar .integer => [Traits.Key.documentation, Traits.Key.range]
  | .scalar .string => [Traits.Key.documentation, Traits.Key.length, Traits.Key.pattern]
  | .scalar .timestamp => [Traits.Key.documentation, Traits.Key.timestampFormat]
  | .list => [Traits.Key.documentation, Traits.Key.length, Traits.Key.uniqueItems]
  | _ => [Traits.Key.documentation]

def Shape.notes (s : Shape) (id : String) : List String :=
  match s.kind?, s.traits? with
  | some kind, some traits =>
    Comment.unmappedNotes traits kind.mappedTraits (kind.name ++ " " ++ id)
  | _, _ => []

namespace Scope

def room (scope : Scope) (stack : List String) : Nat := unvisited scope.symbols.symbols stack

theorem roomPush {scope : Scope} {target : String} {stack : List String}
    (h : target ∈ scope.symbols.ids) (hs : target ∉ stack) :
    scope.room (stack ++ [target]) < scope.room stack :=
  unvisitedVisit h hs

def timestampSchema (scope : Scope) (id : String) (traits : Traits) : Except Failure Schema :=
  match traits.timestampFormat with
  | some format => pure (.ofTimestampFormat format)
  | none => do
    let parts ← ShapeId.parse id
    pure (if scope.settings.defaultsToDateTime parts.space then .dateTime else .httpDate)

def refSchema (target : String) (symbol : Symbol) (source : FileKey) (lazyInFile : Bool) : Schema :=
  let r := Schema.ref ⟨target, symbol.schemaName, symbol.fileKey, symbol.kind⟩
  if lazyInFile ∧ symbol.fileKey = source then .lazy r else r

def markUnresolved (r : Resolution) (role target owner : String) : Schema :=
  if r.resolved then r.schema
  else .marked (Comment.unresolvedNote role target owner r.recursive) r.schema

def keySchema (map target : String) (r : Resolution) : Except Failure Schema :=
  if !r.resolved then throw (.unresolvedMapKey map target)
  else match r.kind with
    | some kind =>
      if kind.isStringCompatible then pure r.schema else throw (.mapKeyNotString map target (some kind))
    | none => throw (.mapKeyNotString map target none)

mutual

/-- The schema of a reference to `target` with the shapes of `stack` under expansion. -/
def resolveIn (scope : Scope) (target : String) (source : FileKey) (options : ResolveOptions)
    (stack : List String) : Except Failure Resolution :=
  if target ∈ options.current.toList ++ stack then pure (.placeholder true)
  else match Builtin.ofId? target with
    | some b => pure b.resolution
    | none => do
      let _ ← ShapeId.parse target
      if target ∉ scope.symbols.ids then pure (.placeholder false)
      else match scope.symbols.standalone? target with
        | some symbol =>
          pure (.found (refSchema target symbol source options.lazyInFile) (some symbol.kind))
        | none => do
          let schema ← expand scope target source (stack ++ [target])
          pure (.found schema (scope.symbols.kind? target))
termination_by (scope.room stack, 0, 0)
decreasing_by
  apply Prod.Lex.left
  exact roomPush (by simp_all) (by simp_all)

/-- The schema of a shape that is expanded in place; `stack` holds the shape itself already. -/
def expand (scope : Scope) (id : String) (source : FileKey) (stack : List String) :
    Except Failure Schema :=
  match scope.model.shape? id with
  | none => pure .unknown
  | some shape => do
    let parts ← ShapeId.parse id
    match shape with
    | .scalar .blob _ => pure (.withNotes (shape.notes id) .bytes)
    | .scalar .boolean _ => pure (.withNotes (shape.notes id) .boolean)
    | .scalar .document _ => pure (.withNotes (shape.notes id) .unknown)
    | .scalar .long _ => pure (.withNotes (shape.notes id) .bigint)
    | .scalar .integer traits =>
      pure (.withNotes (shape.notes id) (.number true traits.minValue traits.maxValue))
    | .scalar .string traits =>
      pure (.withNotes (shape.notes id) (.string traits.minLength traits.maxLength traits.pattern))
    | .scalar .timestamp traits => do
      pure (.withNotes (shape.notes id) (← timestampSchema scope id traits))
    | .list member traits => do
      let r ← resolveIn scope member.target source .deferred stack
      let item := markUnresolved r "list member" member.target parts.name
      pure (.withNotes (shape.notes id)
        (.array item traits.minLength traits.maxLength traits.hasUniqueItems))
    | .map key value _ => do
      let k ← resolveIn scope key.target source .deferred stack
      let keySchema ← keySchema id key.target k
      let r ← resolveIn scope value.target source .deferred stack
      let valueSchema := markUnresolved r "map value" value.target parts.name
      pure (.withNotes (shape.notes id) (.record keySchema valueSchema))
    | .union members _ => do
      let alternatives ← expandMembers scope parts.name source stack members
      pure (.withNotes (shape.notes id) (.union alternatives))
    | .enum .. | .struct .. | .operation .. | .service .. | .unsupported => pure .unknown
termination_by (scope.room stack, 2, 0)

def expandMembers (scope : Scope) (owner : String) (source : FileKey) (stack : List String)
    (members : List (String × Member)) : Except Failure (List Schema) :=
  match members with
  | [] => pure []
  | (name, member) :: rest => do
    let r ← resolveIn scope member.target source .deferred stack
    let schemas ← expandMembers scope owner source stack rest
    pure (markUnresolved r "union member" member.target (owner ++ "." ++ name) :: schemas)
termination_by (scope.room stack, 1, members.length)

end

def resolve (scope : Scope) (target : String) (source : FileKey) (options : ResolveOptions) :
    Except Failure Resolution :=
  resolveIn scope target source options []

end Scope
end ShapeContracts
