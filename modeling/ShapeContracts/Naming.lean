import ShapeContracts.Text.Words
import ShapeContracts.Json.Printer

/-!
Names of generated declarations, and the written forms of texts and property names.
-/
namespace ShapeContracts.Naming

open Text (lowerCamel upperCamel)

def schemaName (name : String) : String := lowerCamel name ++ "Schema"

def typeName (name : String) : String := upperCamel name

def errorClassName (name : String) : String := typeName name ++ "Error"

def serviceName (name : String) : String := typeName name ++ "Service"

def methodName (name : String) : String := lowerCamel name

def moduleSegment (module : String) : List Char :=
  let file := (module.toList.reverse.takeWhile (· ≠ '/')).reverse
  let stem := if ".js".toList.isSuffixOf file then file.take (file.length - 3) else file
  match (stem.splitOn '.').reverse with
  | _ :: segment :: _ => segment
  | _ => stem

def unlessEmpty (fallback text : String) : String := if text.isEmpty then fallback else text

def importAlias (module name : String) : String :=
  unlessEmpty "imported" (lowerCamel (String.ofList (moduleSegment module))) ++ upperCamel name

def isIdentifierStart (c : Char) : Bool := c == '$' || c == '_' || c.isAlpha

def isIdentifierPart (c : Char) : Bool := c == '$' || c == '_' || c.isAlphanum

def isIdentifier (name : String) : Bool :=
  match name.toList with
  | [] => false
  | c :: rest => isIdentifierStart c && rest.all isIdentifierPart

def quote (s : String) : String := Json.quote s

def propertyKey (name : String) : String := if isIdentifier name then name else quote name

end ShapeContracts.Naming
