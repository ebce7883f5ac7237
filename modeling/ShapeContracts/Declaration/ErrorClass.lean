import ShapeContracts.Declaration.Emission

/-!
Classes of error structures. The code of an error is the name of its shape as modeled.
-/
namespace ShapeContracts.ErrorClass

def base : String := "AwsError"

def literal? (text : Option String) : String := text.getD "undefined"

def emission (scope : Scope) (id : String) (traits : Traits) : Except Failure Emission := do
  let parts ← ShapeId.parse id
  let symbol ← scope.symbol id
  let message := literal? (traits.documentation.map Naming.quote)
  let status := literal? (traits.httpError.map toString)
  let body := String.join [" \x7b\n  constructor() \x7b\n    super(", Naming.quote parts.name, ", ",
    message, ", ", status, ");\n    this.name = ", Naming.quote symbol.typeName, ";\n  \x7d\n\x7d"]
  pure (.ofCode symbol.fileKey (.sequence [.raw (String.join ["export class ", symbol.typeName, " extends "]),
    .imported base scope.settings.modules.runtime, .raw body]))

end ShapeContracts.ErrorClass
