import ShapeContracts.Pattern
import ShapeContracts.Unicode.Casing
import ShapeContracts.Unicode.Script

/-!
Sets of characters that a pattern names: Unicode properties, the classes of words, digits and
spaces, the bracketed ASCII classes, and the closure of a set under case.
-/
namespace ShapeContracts.Pattern

abbrev CharSet := Char → Bool

namespace CharSet

open Unicode (Category)

def single (c : Char) : CharSet := fun d => d == c

def range (first last : Char) : CharSet := fun c => first ≤ c && c ≤ last

def complement (s : CharSet) : CharSet := fun c => !s c

def union (s t : CharSet) : CharSet := fun c => s c || t c

def negateIf (negated : Bool) (s : CharSet) : CharSet := if negated then s.complement else s

def asciiVariants (c : Char) : List Char := [c, c.toLower, c.toUpper]

def folded (unicode : Bool) (s : CharSet) : CharSet := fun c =>
  if unicode then (Unicode.caseVariants c.toNat).any (fun n => s (Char.ofNat n))
  else (asciiVariants c).any s

def digit (unicode : Bool) : CharSet := if unicode then Unicode.isDecimalDigit else Char.isDigit

def isAsciiSpace (c : Char) : Bool := c == ' ' || ('\t' ≤ c && c ≤ '\r')

def space (unicode : Bool) : CharSet := if unicode then Unicode.isWhiteSpace else isAsciiSpace

def isAsciiWord (c : Char) : Bool := c.isAlphanum || c == '_'

def word (unicode : Bool) : CharSet := if unicode then Unicode.isWordCharacter else isAsciiWord

def ofLetter? (unicode : Bool) : Char → Option CharSet
  | 'd' => some (digit unicode)
  | 'D' => some (digit unicode).complement
  | 's' => some (space unicode)
  | 'S' => some (space unicode).complement
  | 'w' => some (word unicode)
  | 'W' => some (word unicode).complement
  | _ => none

def ofAsciiName? : String → Option CharSet
  | "alnum" => some Char.isAlphanum
  | "alpha" => some Char.isAlpha
  | "ascii" => some (range '\x00' '\x7f')
  | "blank" => some (fun c => c == ' ' || c == '\t')
  | "cntrl" => some (fun c => c < ' ' || c == '\x7f')
  | "digit" => some Char.isDigit
  | "graph" => some (range '!' '~')
  | "lower" => some Char.isLower
  | "print" => some (range ' ' '~')
  | "punct" => some (fun c => range '!' '~' c && !c.isAlphanum)
  | "space" => some isAsciiSpace
  | "upper" => some Char.isUpper
  | "word" => some isAsciiWord
  | "xdigit" => some (fun c => c.isDigit || range 'a' 'f' c || range 'A' 'F' c)
  | _ => none

def normalizeName (name : List Char) : String :=
  let hasIs := (name.take 2).map Char.toLower == ['i', 's']
  let kept := ((if hasIs then name.drop 2 else name).filter
    (fun c => c != ' ' && c != '_' && c != '-' && c.toNat < 128)).map Char.toLower
  String.ofList (if hasIs && kept == ['c'] then ['i', 's', 'c'] else kept)

def ofCategory (accepts : Category → Bool) : CharSet := fun c => accepts (Unicode.category c)

def categoryNames : List (List String × (Category → Bool)) :=
  [(["assigned"], (· != .cn)),
   (["l", "letter"], Category.isLetter),
   (["lc", "casedletter"], fun g => g == .lu || g == .ll || g == .lt),
   (["lu", "uppercaseletter"], (· == .lu)),
   (["ll", "lowercaseletter"], (· == .ll)),
   (["lt", "titlecaseletter"], (· == .lt)),
   (["lm", "modifierletter"], (· == .lm)),
   (["lo", "otherletter"], (· == .lo)),
   (["m", "mark", "combiningmark"], Category.isMark),
   (["mn", "nonspacingmark"], (· == .mn)),
   (["mc", "spacingmark"], (· == .mc)),
   (["me", "enclosingmark"], (· == .me)),
   (["n", "number"], Category.isNumber),
   (["nd", "decimalnumber", "digit"], (· == .nd)),
   (["nl", "letternumber"], (· == .nl)),
   (["no", "othernumber"], (· == .no)),
   (["p", "punctuation", "punct"], Category.isPunctuation),
   (["pc", "connectorpunctuation"], (· == .pc)),
   (["pd", "dashpunctuation"], (· == .pd)),
   (["ps", "openpunctuation"], (· == .ps)),
   (["pe", "closepunctuation"], (· == .pe)),
   (["pi", "initialpunctuation"], (· == .pi)),
   (["pf", "finalpunctuation"], (· == .pf)),
   (["po", "otherpunctuation"], (· == .po)),
   (["s", "symbol"], Category.isSymbol),
   (["sm", "mathsymbol"], (· == .sm)),
   (["sc", "currencysymbol"], (· == .sc)),
   (["sk", "modifiersymbol"], (· == .sk)),
   (["so", "othersymbol"], (· == .so)),
   (["z", "separator"], Category.isSeparator),
   (["zs", "spaceseparator"], (· == .zs)),
   (["zl", "lineseparator"], (· == .zl)),
   (["zp", "paragraphseparator"], (· == .zp)),
   (["c", "other"], Category.isOther),
   (["cc", "control", "cntrl"], (· == .cc)),
   (["cf", "format"], (· == .cf)),
   (["cn", "unassigned"], (· == .cn)),
   (["co", "privateuse"], (· == .co))]

def ofCategoryName? (name : String) : Option CharSet :=
  if name = "any" then some (fun _ => true)
  else if name = "ascii" then some (range '\x00' '\x7f')
  else (categoryNames.find? (fun row => row.1.contains name)).map (fun row => ofCategory row.2)

def ofScriptName? (name : String) : Option CharSet :=
  (Unicode.scriptOfName? name).map (fun code c => Unicode.script c == code)

def ofBinaryName? : String → Option CharSet
  | "alpha" | "alphabetic" => some Unicode.isAlphabetic
  | "lower" | "lowercase" => some Unicode.isLowercase
  | "upper" | "uppercase" => some Unicode.isUppercase
  | "space" | "wspace" | "whitespace" => some Unicode.isWhiteSpace
  | "ahex" | "asciihexdigit" =>
    some (fun c => c.isDigit || range 'a' 'f' c || range 'A' 'F' c)
  | _ => none

def ofName? (name : List Char) : Option CharSet :=
  let n := normalizeName name
  (ofBinaryName? n).orElse fun _ => (ofCategoryName? n).orElse fun _ => ofScriptName? n

def ofNameValue? (name value : List Char) : Option CharSet :=
  let n := normalizeName name
  if n = "gc" ∨ n = "generalcategory" then ofCategoryName? (normalizeName value)
  else if n = "sc" ∨ n = "script" then ofScriptName? (normalizeName value)
  else none

end CharSet
end ShapeContracts.Pattern
