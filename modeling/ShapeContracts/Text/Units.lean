/-!
The length of a text in UTF-16 code units.
-/
namespace ShapeContracts.Text

def units (c : Char) : Nat := if c.toNat < 0x10000 then 1 else 2

def countUnits : List Char → Nat
  | [] => 0
  | c :: rest => units c + countUnits rest

def unitLength (s : String) : Nat := countUnits s.toList

end ShapeContracts.Text
