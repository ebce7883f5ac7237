import ShapeContracts.Json

/-!
Whole numbers that a binary64 may not hold exactly. Reading and rendering keep them as they are.
-/
namespace ShapeContracts.Json

def largestSafe : Nat := 9007199254740991

def isSafe (n : Int) : Bool := n.natAbs ≤ largestSafe

mutual

def wideIntegers : Json → List Int
  | .number (.whole n) => if isSafe n then [] else [n]
  | .array items => wideIntegersOfItems items
  | .object members => wideIntegersOfMembers members
  | _ => []

def wideIntegersOfItems : List Json → List Int
  | [] => []
  | item :: rest => wideIntegers item ++ wideIntegersOfItems rest

def wideIntegersOfMembers : List (String × Json) → List Int
  | [] => []
  | (_, value) :: rest => wideIntegers value ++ wideIntegersOfMembers rest

end

def isSafeInteger : Json → Bool
  | .number (.whole n) => isSafe n
  | .number (.float x) => x.isWhole && x.within largestSafe
  | _ => false

end ShapeContracts.Json
