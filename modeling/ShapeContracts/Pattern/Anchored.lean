/-!
The form of a pattern that has to match a whole text.
-/
namespace ShapeContracts.Pattern

def endsWith (cs tail : List Char) : Bool := tail.isSuffixOf cs

def hasEscapedEnd (cs : List Char) : Bool :=
  endsWith cs ['\\', '$'] && !endsWith cs ['\\', '\\', '$']

def isAnchored (cs : List Char) : Bool :=
  cs.head? == some '^' && endsWith cs ['$'] && !hasEscapedEnd cs

def anchored (pattern : String) : String :=
  if isAnchored pattern.toList then pattern else "^(?:" ++ pattern ++ ")$"

end ShapeContracts.Pattern
