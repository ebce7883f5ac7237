import ShapeContracts.FileKey
import ShapeContracts.Model.Shape

/-!
Causes that end a run. Output made before a failure must not be used.
-/
namespace ShapeContracts

inductive DefaultMismatch where
  | notText (kind : ShapeKind)
  | notBase64Text
  | invalidBase64
  | notBoolean
  deriving DecidableEq, Repr

inductive Failure where
  | malformedId (id : String)
  | unresolvedMapKey (map key : String)
  | mapKeyNotString (map key : String) (kind : Option ShapeKind)
  | unsupportedDefault (location : String) (reason : DefaultMismatch)
  | unsupportedDefaultTarget (location : String) (kind : ShapeKind)
  | missingDefaultTarget (location : String)
  | missingOutputPath (key : FileKey)
  | unregistered (id : String)
  | noSchema (id : String)
  | write (reason : String)
  | parse (reason : String)
  deriving DecidableEq, Repr

namespace DefaultMismatch

def message : DefaultMismatch → String
  | notText kind => kind.name ++ " targets require a string default."
  | notBase64Text => "blob targets require a base64 string default."
  | invalidBase64 => "invalid base64 default (it is not padded base64 in canonical form)."
  | notBoolean => "boolean targets require a boolean default."

end DefaultMismatch

namespace Failure

def message : Failure → String
  | malformedId id => String.join ["Invalid shape identifier (missing '#'): ", id]
  | unresolvedMapKey map key => String.join ["Map ", map, " has an unresolved key target ", key]
  | mapKeyNotString map key kind =>
    String.join ["Map ", map, " key target ", key, " is not string-compatible (resolved to ",
      (kind.map ShapeKind.name).getD "unit", ")"]
  | unsupportedDefault location reason =>
    String.join ["Unsupported smithy.api#default value on ", location, ": ", reason.message]
  | unsupportedDefaultTarget location kind =>
    String.join ["Unsupported smithy.api#default target type \"", kind.name, "\" on ", location]
  | missingDefaultTarget location =>
    String.join ["Cannot apply smithy.api#default on ", location, ": missing target shape type"]
  | missingOutputPath key =>
    String.join ["No output path configured for file key: ", key.toString]
  | unregistered id => String.join ["Generation error: Shape ", id, " was not registered"]
  | noSchema id => String.join ["Generation error: No schema was generated for ", id]
  | write reason => String.join ["Generation error: ", reason]
  | parse reason => String.join ["Parse error: ", reason]

end Failure

def ShapeId.parse (id : String) : Except Failure ShapeId :=
  match ofString? id with
  | some i => .ok i
  | none => .error (.malformedId id)

end ShapeContracts
