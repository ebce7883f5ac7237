import ShapeContracts.Model.Shape

/-!
Models as JSON. Absent traits are left out; other absent fields are written as null.
-/
namespace ShapeContracts

def Shape.targetToJson (target : String) : Json := .object [("target", .string target)]

def Member.toJson (m : Member) : Json :=
  .object [("target", .string m.target), ("traits", m.traits.toJson)]

namespace Shape

def membersToJson (members : List (String × Member)) : Json :=
  .object (members.map (fun m => (m.1, m.2.toJson)))

def textToJson? (text : Option String) : Json := (text.map Json.string).getD .null

def targetToJson? (target : Option String) : Json := (target.map targetToJson).getD .null

def fields : Shape → List (String × Json)
  | scalar _ t => [("traits", t.toJson)]
  | enum ms t | struct ms t | union ms t => [("members", membersToJson ms), ("traits", t.toJson)]
  | list m t => [("member", m.toJson), ("traits", t.toJson)]
  | map k v t => [("key", k.toJson), ("value", v.toJson), ("traits", t.toJson)]
  | operation input output errors t =>
    [("input", targetToJson? input), ("output", targetToJson? output),
     ("errors", .array (errors.map targetToJson)), ("traits", t.toJson)]
  | service version operations resources t =>
    [("version", textToJson? version), ("operations", .array (operations.map targetToJson)),
     ("resources", .array (resources.map targetToJson)), ("traits", t.toJson)]
  | unsupported => []

def toJson (s : Shape) : Json :=
  .object (("type", .string (Model.countName s)) :: s.fields)

end Shape

def Model.toJson (m : Model) : Json :=
  .object [("smithy", .string m.version),
    ("shapes", .object (m.shapes.map (fun s => (s.1, s.2.toJson)))),
    ("metadata", .object m.metadata)]

end ShapeContracts
