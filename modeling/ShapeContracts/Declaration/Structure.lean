import ShapeContracts.Declaration.Emission
import ShapeContracts.Base64

/-!
Structures: an object validator with a field per member. A field is the validator of the member's
target, under the bounds that the member adds, optional unless the member is required, and filled
in when the member has a default.
-/
namespace ShapeContracts.Structure

def shapeTraits : List String := [Traits.Key.documentation]

def errorTraits : List String := [Traits.Key.documentation, Traits.Key.error, Traits.Key.httpError]

def memberTraits : List String :=
  [Traits.Key.defaultValue, Traits.Key.documentation, Traits.Key.length, Traits.Key.range,
   Traits.Key.required, Traits.Key.timestampFormat]

def checks (traits : Traits) : List Check :=
  (traits.minLength.map Check.minLength).toList ++ (traits.maxLength.map Check.maxLength).toList
    ++ (traits.minValue.map Check.minValue).toList ++ (traits.maxValue.map Check.maxValue).toList

def optionalUnlessRequired (traits : Traits) (s : Schema) : Schema :=
  if traits.isRequired then s else .optional s

def constrain (target : Schema) (traits : Traits) : Schema :=
  optionalUnlessRequired traits ((checks traits).foldl .refine target)

def defaultValue (value : Json) (kind : Option ShapeKind) (location : String) :
    Except Failure DefaultValue :=
  match kind with
  | none => throw (.missingDefaultTarget location)
  | some (.scalar .blob) =>
    match value with
    | .string text =>
      match Base64.decode? text.toList with
      | some bytes => pure (.bytes bytes)
      | none => throw (.unsupportedDefault location .invalidBase64)
    | _ => throw (.unsupportedDefault location .notBase64Text)
  | some (.scalar .boolean) =>
    match value with
    | .bool b => pure (.flag b)
    | _ => throw (.unsupportedDefault location .notBoolean)
  | some (.scalar .document) => pure (.json value)
  | some kind =>
    if kind = .scalar .string ∨ kind = .enum ∨ kind = .scalar .timestamp then
      match value with
      | .string text => pure (.text text)
      | _ => throw (.unsupportedDefault location (.notText kind))
    else throw (.unsupportedDefaultTarget location kind)

def targetSchema (r : Resolution) (traits : Traits) : Schema :=
  match r.kind, traits.timestampFormat with
  | some (.scalar .timestamp), some format => r.schema.replaceMarked (.ofTimestampFormat format)
  | _, _ => r.schema

def memberSchema (r : Resolution) (traits : Traits) (location : String) : Except Failure Schema :=
  let constrained := constrain (targetSchema r traits) traits
  match traits.defaultValue with
  | some value => return .withDefault constrained (← defaultValue value r.kind location)
  | none => pure constrained

def field (scope : Scope) (owner : String) (source : FileKey) (name : String) (member : Member) :
    Except Failure (String × Schema × List String) := do
  let location := "structure member " ++ owner ++ "." ++ name
  let comments := Comment.above member.traits memberTraits location
  let r ← scope.resolve member.target source .deferred
  if r.resolved then
    pure (name, ← memberSchema r member.traits location, comments)
  else
    let note :=
      Comment.unresolvedNote "structure member" member.target (owner ++ "." ++ name) r.recursive
    pure (name, optionalUnlessRequired member.traits .unknown, comments ++ [Comment.line note])

def fields (scope : Scope) (owner : String) (source : FileKey) :
    List (String × Member) → Except Failure (List (String × Schema × List String))
  | [] => pure []
  | (name, member) :: rest => do
    let f ← field scope owner source name member
    let fs ← fields scope owner source rest
    pure (f :: fs)

def emission (scope : Scope) (id : String) (members : List (String × Member)) (traits : Traits) :
    Except Failure Emission := do
  let parts ← ShapeId.parse id
  let symbol ← scope.symbol id
  let mapped := if traits.error.isSome then errorTraits else shapeTraits
  let leading := Comment.above traits mapped ("structure " ++ parts.name)
  let s := Schema.object (← fields scope parts.name symbol.fileKey members)
  pure (.declared s symbol.fileKey
    (.exportConst leading symbol.schemaName (s.lower symbol.fileKey scope.settings.codeModules)))

end ShapeContracts.Structure
