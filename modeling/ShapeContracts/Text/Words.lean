import ShapeContracts.Unicode.Casing

/-!
Words of an identifier and the camel case forms built from them. A piece between characters that
are neither letters nor numbers is cut where a lowercase run meets an uppercase letter, and before
the last letter of an uppercase run that a lowercase letter follows.
-/
namespace ShapeContracts.Text

open Unicode

inductive CaseMode where
  | boundary
  | lower
  | upper
  deriving DecidableEq

def CaseMode.after (mode : CaseMode) (c : Char) : CaseMode :=
  if isLowercase c then .lower else if isUppercase c then .upper else mode

/-- The words of a piece; `current` holds the characters of the open word, last one first. -/
def wordsOfPiece (mode : CaseMode) (current : List Char) : List Char → List (List Char)
  | [] => if current.isEmpty then [] else [current.reverse]
  | [c] => [(c :: current).reverse]
  | c :: next :: rest =>
    if mode.after c = .lower ∧ isUppercase next then
      (c :: current).reverse :: wordsOfPiece .boundary [] (next :: rest)
    else if mode = .upper ∧ isUppercase c ∧ isLowercase next then
      current.reverse :: wordsOfPiece .boundary [c] (next :: rest)
    else wordsOfPiece (mode.after c) (c :: current) (next :: rest)

def pieces : List Char → List (List Char)
  | [] => [[]]
  | c :: rest =>
    if isAlphanumeric c then
      match pieces rest with
      | [] => [[c]]
      | p :: ps => (c :: p) :: ps
    else [] :: pieces rest

def words (cs : List Char) : List (List Char) := (pieces cs).flatMap (wordsOfPiece .boundary [])

def lowerWord : List Char → List Char
  | [] => []
  | ['Σ'] => ['ς']
  | c :: rest => lowercase c ++ lowerWord rest

def capitalWord : List Char → List Char
  | [] => []
  | c :: rest => uppercase c ++ lowerWord rest

def upperCamel (s : String) : String := String.ofList ((words s.toList).flatMap capitalWord)

def lowerCamel (s : String) : String :=
  match words s.toList with
  | [] => ""
  | w :: ws => String.ofList (lowerWord w ++ ws.flatMap capitalWord)

theorem wordsOfPieceFlatten (mode : CaseMode) (current cs : List Char) :
    (wordsOfPiece mode current cs).flatten = current.reverse ++ cs := by
  fun_induction wordsOfPiece mode current cs <;> simp_all

end ShapeContracts.Text
