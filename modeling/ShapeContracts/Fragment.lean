import ShapeContracts.Naming

/-!
Fragments of generated code. Symbols are never pasted into text: a fragment names them, and
rendering decides how an imported one is bound.
-/
namespace ShapeContracts

inductive Fragment where
  /-- Code as it stands; its further lines are indented with the place it is put at. -/
  | raw (text : String)
  | literal (text : String)
  | symbol (name : String)
  | imported (name module : String)
  | call (callee : Fragment) (args : List Fragment)
  | member (object : Fragment) (property : String)
  | object (properties : List (String × Fragment × List String))
  | array (items : List Fragment)
  | arrow (body : Fragment)
  | commented (comment : String) (inner : Fragment)
  | sequence (parts : List Fragment)

namespace Fragment

instance : Inhabited Fragment := ⟨.raw ""⟩

def method (receiver : Fragment) (name : String) (args : List Fragment) : Fragment :=
  .call (.member receiver name) args

def leading (lines : List String) : List Fragment := lines.map (fun l => .raw (l ++ "\n"))

def exportConst (lines : List String) (name : String) (value : Fragment) : Fragment :=
  .sequence (leading lines ++ [.raw ("export const " ++ name ++ " = "), value, .raw ";"])

end Fragment
end ShapeContracts
