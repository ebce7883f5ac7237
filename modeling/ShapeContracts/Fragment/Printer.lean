import ShapeContracts.Fragment.Bindings
import ShapeContracts.Comment

/-!
Text of fragments. Printing goes from left to right and threads the import bindings.
-/
namespace ShapeContracts.Fragment

def pad (n : Nat) : List Char := List.replicate n ' '

def reindent (indent : Nat) : List Char → List Char
  | [] => []
  | c :: rest =>
    if c = '\n' ∧ rest ≠ [] ∧ rest.head? ≠ some '\n' then c :: (pad indent ++ reindent indent rest)
    else c :: reindent indent rest

def commentLines (indent : Nat) (block : String) : List Char :=
  (Text.lines block.toList).flatMap (fun line => pad indent ++ line ++ ['\n'])

abbrev Printed := List Char × Bindings

mutual

def printAt (indent : Nat) (b : Bindings) : Fragment → Printed
  | .raw text => (reindent indent text.toList, b)
  | .literal text => ((Naming.quote text).toList, b)
  | .symbol name => (name.toList, b)
  | .imported name module =>
    let (binding, b) := b.bind name module
    (binding.toList, b)
  | .call callee args =>
    let (head, b) := printAt indent b callee
    let (tail, b) := printList indent b args
    (head ++ '(' :: (tail ++ [')']), b)
  | .member receiver property =>
    let (head, b) := printAt indent b receiver
    (head ++ '.' :: property.toList, b)
  | .object [] => (['{', '}'], b)
  | .object (p :: ps) =>
    let (body, b) := printProperties (indent + 2) b (p :: ps)
    ('{' :: '\n' :: (body ++ (pad indent ++ ['}'])), b)
  | .array items =>
    let (body, b) := printList indent b items
    ('[' :: (body ++ [']']), b)
  | .arrow body =>
    let (text, b) := printAt indent b body
    (['(', ')', ' ', '=', '>', ' '] ++ text, b)
  | .commented comment inner =>
    let (text, b) := printAt indent b inner
    (['/', '*', ' '] ++ (Comment.escape comment.toList ++ ([' ', '*', '/', ' '] ++ text)), b)
  | .sequence parts => printParts indent b parts

def printList (indent : Nat) (b : Bindings) : List Fragment → Printed
  | [] => ([], b)
  | [item] => printAt indent b item
  | item :: rest =>
    let (head, b) := printAt indent b item
    let (tail, b) := printList indent b rest
    (head ++ ',' :: ' ' :: tail, b)

def printParts (indent : Nat) (b : Bindings) : List Fragment → Printed
  | [] => ([], b)
  | part :: rest =>
    let (head, b) := printAt indent b part
    let (tail, b) := printParts indent b rest
    (head ++ tail, b)

def printProperties (indent : Nat) (b : Bindings) :
    List (String × Fragment × List String) → Printed
  | [] => ([], b)
  | (key, value, comments) :: rest =>
    let (text, b) := printAt indent b value
    let (tail, b) := printProperties indent b rest
    (comments.flatMap (commentLines indent)
      ++ (pad indent ++ ((Naming.propertyKey key).toList
      ++ ':' :: ' ' :: (text ++ ',' :: '\n' :: tail))), b)

end

def print (b : Bindings) (f : Fragment) : String × Bindings :=
  let (text, b) := printAt 0 b f
  (String.ofList text, b)

def printAll (b : Bindings) : List Fragment → List (List Char) × Bindings
  | [] => ([], b)
  | f :: rest =>
    let (text, b) := printAt 0 b f
    let (texts, b) := printAll b rest
    (text :: texts, b)

end ShapeContracts.Fragment
