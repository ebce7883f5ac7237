import ShapeContracts.Unicode.Property

/-!
White space around and inside texts, and cutting a text at a character.
-/
namespace ShapeContracts.Text

open Unicode (isWhiteSpace)

def trimStart (cs : List Char) : List Char := cs.dropWhile isWhiteSpace

def trimEnd (cs : List Char) : List Char := (trimStart cs.reverse).reverse

def trim (cs : List Char) : List Char := trimEnd (trimStart cs)

def isBlank (cs : List Char) : Bool := cs.all isWhiteSpace

def splitAt (separator : Char) : List Char → List (List Char)
  | [] => [[]]
  | c :: rest =>
    if c = separator then [] :: splitAt separator rest
    else match splitAt separator rest with
      | [] => [[c]]
      | part :: parts => (c :: part) :: parts

def lines (cs : List Char) : List (List Char) := splitAt '\n' cs

def tokens : List Char → List (List Char)
  | [] => []
  | c :: rest =>
    if isWhiteSpace c then tokens rest
    else match rest with
      | [] => [[c]]
      | d :: _ =>
        if isWhiteSpace d then [c] :: tokens rest
        else match tokens rest with
          | [] => [[c]]
          | w :: ws => (c :: w) :: ws

theorem splitAtNonempty (separator : Char) (cs : List Char) : splitAt separator cs ≠ [] := by
  cases cs with
  | nil => simp [splitAt]
  | cons c rest =>
    rw [splitAt]
    split
    · simp
    · split <;> simp

theorem splitAtApart {separator : Char} {cs part : List Char}
    (h : part ∈ splitAt separator cs) : separator ∉ part := by
  induction cs generalizing part with
  | nil => simp [splitAt] at h; simp [h]
  | cons c rest ih =>
    rw [splitAt] at h
    split at h
    · rcases List.mem_cons.1 h with h | h
      · simp [h]
      · exact ih h
    · rename_i hc
      split at h
      · simp at h; subst h; simpa using Ne.symm hc
      · rename_i p ps hp
        rcases List.mem_cons.1 h with h | h
        · subst h
          have : separator ∉ p := ih (by simp [hp])
          simp [this, Ne.symm hc]
        · exact ih (by simp [hp, h])

end ShapeContracts.Text
