import ShapeContracts.Resolution
import ShapeContracts.Schema.Code

/-!
What one shape contributes to a run: the schema that is recorded for it, code in a file, or the
signature of a method.
-/
namespace ShapeContracts

inductive TypeRef where
  | infer (r : SchemaRef)
  | unknown
  | void
  deriving DecidableEq, Repr

namespace TypeRef

def code (source : FileKey) (m : CodeModules) : TypeRef → Fragment
  | infer r =>
    .sequence [.imported "z" m.validators, .raw ".infer<typeof ", (Schema.ref r).lower source m,
      .raw ">"]
  | unknown => .raw "unknown"
  | void => .raw "void"

end TypeRef

structure Signature where
  method : String
  input : TypeRef
  output : TypeRef
  doc : Option String
  unresolved : Option String
  deriving DecidableEq, Repr

structure Emission where
  schema : Option Schema
  code : Option (FileKey × Fragment)
  signature : Option Signature

namespace Emission

def ofSchema (s : Schema) : Emission := ⟨some s, none, none⟩

def ofCode (key : FileKey) (f : Fragment) : Emission := ⟨none, some (key, f), none⟩

def ofSignature (s : Signature) : Emission := ⟨none, none, some s⟩

def declared (s : Schema) (key : FileKey) (f : Fragment) : Emission := ⟨some s, some (key, f), none⟩

end Emission

def Comment.above (traits : Traits) (mapped : List String) (location : String) : List String :=
  (Comment.docBlock? traits.documentation).toList ++ Comment.unmappedLines traits mapped location

def Comment.indented (block : String) : List String :=
  (Text.lines block.toList).map (fun line => "  " ++ String.ofList line)

namespace Scope

def outputFileKey (scope : Scope) (id : String) : Except Failure FileKey :=
  ShapeContracts.outputFileKey scope.symbols.primarySpace scope.model id

def symbol (scope : Scope) (id : String) : Except Failure Symbol :=
  match scope.symbols.lookup? id with
  | some symbol => pure symbol
  | none => throw (.unregistered id)

/--
A shape without a declaration of its own is expanded where it is used. Its expansion is recorded, so
that it can be validated, and a failure shows even when nothing uses the shape.
-/
def inlineEmission (scope : Scope) (id : String) : Except Failure Emission := do
  let key ← scope.outputFileKey id
  let schema ← scope.expand id key [id]
  pure (.ofSchema schema)

end Scope
end ShapeContracts
