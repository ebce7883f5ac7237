import ShapeContracts.Declaration.Emission

/-!
Operations: the signature that the interface of a service shows, with its documentation and the
errors it may throw.
-/
namespace ShapeContracts.Operation

def typeRef (scope : Scope) (target : Option String) :
    Except Failure (TypeRef × Option String) :=
  match target with
  | none => pure (.void, none)
  | some target =>
    if target = Builtin.unit.id then pure (.void, none)
    else do
      let _ ← ShapeId.parse target
      match scope.symbols.lookup? target with
      | some symbol =>
        if symbol.isStandalone then
          pure (.infer ⟨target, symbol.schemaName, symbol.fileKey, symbol.kind⟩, none)
        else pure (.unknown, some target)
      | none => pure (.unknown, some target)

def summary? (documentation : Option String) : Option String :=
  match Text.tokens (documentation.getD "").toList with
  | [] => none
  | words => some (String.ofList ([' '].intercalate words))

def throwsLine (scope : Scope) (target : String) : Except Failure String := do
  let _ ← ShapeId.parse target
  let (typeName, description) := match scope.symbols.lookup? target with
    | some symbol =>
      let traits := (scope.model.shape? target).bind Shape.traits?
      (symbol.typeName, (summary? (traits.bind Traits.documentation)).getD
        (String.join ["This operation may throw ", symbol.typeName, "."]))
    | none =>
      ("unknown", String.join ["This operation may throw an unknown error type (", target, ")."])
  pure (String.join [" * @throws \x7b", typeName, "\x7d ", Comment.escapeText description])

def throwsLines (scope : Scope) : List String → Except Failure (List String)
  | [] => pure []
  | target :: rest => do
    let line ← throwsLine scope target
    let lines ← throwsLines scope rest
    pure (line :: lines)

def docBlock? (documentation : Option String) (throws : List String) : Option String :=
  if throws.isEmpty then Comment.docBlock? documentation
  else
    let doc := match documentation.bind Comment.docLines? with
      | some lines => lines ++ [" *"]
      | none => []
    some (Comment.joinLines ("/**" :: doc ++ throws ++ [" */"]))

def unresolvedNote? (name : String) (targets : List String) : Option String :=
  if targets.isEmpty then none
  else some (Comment.line (String.join ["UNRESOLVED: operation ", name,
    " references unresolved target(s): ", ", ".intercalate targets, "."]))

def emission (scope : Scope) (id : String) (input output : Option String) (errors : List String)
    (traits : Traits) : Except Failure Emission := do
  let parts ← ShapeId.parse id
  let (inputType, missingInput) ← typeRef scope input
  let (outputType, missingOutput) ← typeRef scope output
  let throws ← throwsLines scope errors
  pure (.ofSignature ⟨Naming.methodName parts.name, inputType, outputType,
    docBlock? traits.documentation throws,
    unresolvedNote? parts.name (missingInput.toList ++ missingOutput.toList)⟩)

end ShapeContracts.Operation
