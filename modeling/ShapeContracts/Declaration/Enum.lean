import ShapeContracts.Declaration.Emission

/-!
Enumerations: a declaration of the members, and a validator bound to it.
-/
namespace ShapeContracts.Enum

def valueOf (key : String) (member : Member) : String := member.traits.enumText?.getD key

def shapeTraits : List String := [Traits.Key.documentation]

def memberTraits : List String := [Traits.Key.documentation, Traits.Key.enumValue]

def memberLines (name : String) (entry : String × Member) : List String :=
  let (key, member) := entry
  let comments := Comment.above member.traits memberTraits ("enum member " ++ name ++ "." ++ key)
  comments.flatMap Comment.indented
    ++ ["  " ++ Naming.propertyKey key ++ " = " ++ Naming.quote (valueOf key member) ++ ","]

def declaration (typeName name : String) (members : List (String × Member))
    (leading : List String) : Fragment :=
  let start := "export enum " ++ typeName ++ " \x7b"
  .raw (Comment.joinLines (leading ++
    if members.isEmpty then [start ++ "\x7d"]
    else start :: (members.flatMap (memberLines name) ++ ["\x7d"])))

def schema (typeName : String) (members : List (String × Member)) : Schema :=
  .enum typeName (members.map (fun (key, member) => valueOf key member))

def emission (scope : Scope) (id : String) (members : List (String × Member)) (traits : Traits) :
    Except Failure Emission := do
  let parts ← ShapeId.parse id
  let symbol ← scope.symbol id
  let leading := Comment.above traits shapeTraits ("enum " ++ parts.name)
  let s := schema symbol.typeName members
  let binding := Fragment.exportConst [] symbol.schemaName
    (s.lower symbol.fileKey scope.settings.codeModules)
  pure (.declared s symbol.fileKey
    (.sequence [declaration symbol.typeName parts.name members leading, .raw "\n", binding]))

end ShapeContracts.Enum
