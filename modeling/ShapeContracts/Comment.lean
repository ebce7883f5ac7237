import ShapeContracts.Model.Traits
import ShapeContracts.Json.Printer
import ShapeContracts.Text.Blank

/-!
Comments of generated code: fenced documentation blocks, and markers for output that is knowingly
incomplete. Text inside a block never holds the characters that close it.
-/
namespace ShapeContracts.Comment

def escape : List Char → List Char
  | [] => []
  | '*' :: '/' :: rest => '*' :: '\\' :: '/' :: escape rest
  | c :: rest => c :: escape rest

def escapeText (s : String) : String := String.ofList (escape s.toList)

def dropReturn (line : List Char) : List Char :=
  if line.getLast? = some '\r' then line.dropLast else line

def blockLine (line : List Char) : String :=
  if line.isEmpty then " *" else " * " ++ String.ofList (escape line)

def docLines? (documentation : String) : Option (List String) :=
  match Text.trim documentation.toList with
  | [] => none
  | text =>
    some (" * ```xml" :: (Text.lines text).map (fun l => blockLine (dropReturn l)) ++ [" * ```"])

def joinLines (lines : List String) : String := "\n".intercalate lines

def docBlock? (documentation : Option String) : Option String := do
  let lines ← docLines? (← documentation)
  some (joinLines ("/**" :: lines ++ [" */"]))

def unmappedNote (key : String) (value : Json) (location : String) : String :=
  String.join ["UNMAPPED TRAIT: ", key, " (", value.render, ") on ", location,
    " is not mapped to zod."]

def unmappedNotes (traits : Traits) (mapped : List String) (location : String) : List String :=
  (traits.unmapped mapped).map (fun (key, value) => unmappedNote key value location)

def line (note : String) : String := "// " ++ note

def unmappedLines (traits : Traits) (mapped : List String) (location : String) : List String :=
  (unmappedNotes traits mapped location).map line

def unresolvedNote (role target owner : String) (recursive : Bool) : String :=
  String.join ["UNRESOLVED: ", role, " target ", target, " for ", owner,
    if recursive then " is a recursive reference." else " is not generated."]

end ShapeContracts.Comment
