import ShapeContracts.Declaration.Emission

/-!
Services: an interface with a method per operation, in the order of the model.
-/
namespace ShapeContracts.Service

abbrev Signatures := List (String × Signature)

def declared (s : Signature) (source : FileKey) (m : CodeModules) : List Fragment :=
  let comments := (s.unresolved.toList ++ s.doc.toList).flatMap Comment.indented
  [.raw (String.join (comments.map (fun line => line ++ "\n")) ++ "  " ++ s.method ++ "(input: "),
   s.input.code source m, .raw "): ", s.output.code source m, .raw ";"]

def fallback (target name : String) : List Fragment :=
  let note := String.join ["UNRESOLVED: operation target ", target, " is not generated."]
  [.raw (String.join ["  ", Comment.line note, "\n  ", Naming.methodName name,
    "(input: unknown): unknown;"])]

def method (scope : Scope) (signatures : Signatures) (source : FileKey) (target : String) :
    Except Failure (List Fragment) :=
  match signatures.lookup target with
  | some s => pure (declared s source scope.settings.codeModules)
  | none => do
    let parts ← ShapeId.parse target
    pure (fallback target parts.name)

def methods (scope : Scope) (signatures : Signatures) (source : FileKey) :
    List String → Except Failure (List (List Fragment))
  | [] => pure []
  | target :: rest => do
    let m ← method scope signatures source target
    let ms ← methods scope signatures source rest
    pure (m :: ms)

def interface (name : String) (methods : List (List Fragment)) : List Fragment :=
  let start := String.join ["export interface ", name, " \x7b"]
  if methods.isEmpty then [.raw (start ++ "\x7d")]
  else .raw (start ++ "\n") :: ([.raw "\n\n"].intercalate methods ++ [.raw "\n\x7d"])

def emission (scope : Scope) (signatures : Signatures) (id : String) (operations : List String)
    (traits : Traits) : Except Failure Emission := do
  let parts ← ShapeId.parse id
  let key ← scope.outputFileKey id
  let ms ← methods scope signatures key operations
  let doc := (Comment.docBlock? traits.documentation).map (fun block => .raw (block ++ "\n"))
  pure (.ofCode key (.sequence (doc.toList ++ interface (Naming.serviceName parts.name) ms)))

end ShapeContracts.Service
