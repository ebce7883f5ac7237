import Mathlib.Data.List.Chain
import ShapeContracts.Declaration.Emission
import ShapeContracts.Proofs.Exports

/-! Comments as they stand in a text. A marker names what it is about in fixed words, its lines are moved in to
the place that it is put at, and the characters that close a block are broken up inside one. -/
namespace ShapeContracts.Comment

inductive Opens (role target owner : String) : Bool → String → Prop where
  | missing : Opens role target owner false
      (String.join ["UNRESOLVED: ", role, " target ", target, " for ", owner, " is not generated."])
  | recursive : Opens role target owner true
      (String.join ["UNRESOLVED: ", role, " target ", target, " for ", owner, " is a recursive reference."])

theorem unresolvedOpens (role target owner : String) (recursive : Bool) :
    Opens role target owner recursive (unresolvedNote role target owner recursive) := by
  cases recursive with
  | false => exact .missing
  | true => exact .recursive

theorem opensOnly {role target owner note : String} {recursive : Bool}
    (opens : Opens role target owner recursive note) :
    unresolvedNote role target owner recursive = note := by cases opens <;> rfl

def report (key : String) (value : Json) (location : String) : String :=
  String.join ["UNMAPPED TRAIT: ", key, " (", value.render, ") on ", location, " is not mapped to zod."]

theorem unmappedReport (key : String) (value : Json) (location : String) :
    unmappedNote key value location = report key value location := rfl

def moved (indent : Nat) (text : List Char) : List Char :=
  let blanks := List.replicate indent ' '
  blanks ++ text.flatMap (fun c => if c = '\n' then '\n' :: blanks else [c]) ++ ['\n']

theorem splitMoved (indent : Nat) (text : List Char) :
    (Text.splitAt '\n' text).flatMap (fun l => Fragment.pad indent ++ l ++ ['\n']) = moved indent text := by
  induction text with
  | nil => simp [Text.splitAt, moved, Fragment.pad]
  | cons c rest ih =>
    rw [Text.splitAt]
    split
    · rename_i feed
      rw [List.flatMap_cons, ih]
      simp [moved, Fragment.pad, feed]
    · rename_i apart
      cases split : Text.splitAt '\n' rest with
      | nil => exact absurd split (Text.splitAtNonempty _ _)
      | cons part parts =>
        rw [split] at ih
        simp only [moved, Fragment.pad, List.flatMap_cons, List.append_assoc, List.append_cancel_left_eq,
          List.cons_append] at ih ⊢
        rw [if_neg apart, List.singleton_append, ih]

theorem linesMoved (indent : Nat) (block : String) :
    Fragment.commentLines indent block = moved indent block.toList := splitMoved indent block.toList

theorem indentedLines (block : String) : endedLines (indented block) = Fragment.commentLines 2 block := by
  simp [endedLines, indented, Fragment.commentLines, Fragment.pad, List.flatMap_map]

theorem blocksMoved (blocks : List String) :
    (String.join ((blocks.flatMap indented).map (fun line => line ++ "\n"))).toList =
      blocks.flatMap (fun block => moved 2 block.toList) := by
  have ended : ∀ lines, (String.join (lines.map (fun line => line ++ "\n"))).toList = endedLines lines := by
    intro lines
    simp [endedLines, List.flatMap_map]
  induction blocks with
  | nil => rfl
  | cons block rest ih =>
    rw [ended] at ih ⊢
    rw [List.flatMap_cons, endedLines, List.flatMap_append, List.flatMap_cons, ← linesMoved,
      ← indentedLines, ← ih]
    rfl

theorem movedNone (text : List Char) : moved 0 text = text ++ ['\n'] := by
  have same : (fun c : Char => if c = '\n' then ['\n'] else [c]) = fun c => [c] := by
    funext c
    split
    · rename_i feed
      rw [feed]
    · rfl
  simp [moved, same]

def printedLine (indent : Nat) (note : String) : String := String.ofList (moved indent ("// " ++ note).toList)

theorem linesPrinted (indent : Nat) (note : String) :
    String.ofList (Fragment.commentLines indent (line note)) = printedLine indent note := by
  rw [linesMoved]
  rfl

def Unclosed (cs : List Char) : Prop := cs.IsChain (fun a b => ¬ (a = '*' ∧ b = '/'))

instance (cs : List Char) : Decidable (Unclosed cs) := inferInstanceAs (Decidable (List.IsChain _ _))

/-- A text with every `*/` in it, from the left, replaced by `*\/`. -/
inductive Replaced : List Char → List Char → Prop where
  | none {cs : List Char} : Unclosed cs → Replaced cs cs
  | first (before : List Char) {after written : List Char} : Unclosed (before ++ ['*']) →
      Replaced after written → Replaced (before ++ '*' :: '/' :: after) (before ++ '*' :: '\\' :: '/' :: written)

theorem replacedCons {c : Char} {cs written : List Char} (apart : ∀ rest, c = '*' → cs ≠ '/' :: rest)
    (replaced : Replaced cs written) : Replaced (c :: cs) (c :: written) := by
  have opens : ∀ ds, ds.head? = cs.head? → Unclosed ds → Unclosed (c :: ds) := by
    refine fun ds same unclosed => List.isChain_cons.mpr ⟨?_, unclosed⟩
    rintro d mem ⟨starred, rfl⟩
    rw [same] at mem
    obtain ⟨rest, split⟩ := List.head?_eq_some_iff.mp mem
    exact apart rest starred split
  cases replaced with
  | none unclosed => exact .none (opens cs rfl unclosed)
  | @first before after written unclosed later =>
    refine .first (c :: before) (opens _ ?_ unclosed) later
    cases before <;> rfl

theorem escapeReplaced (cs : List Char) : Replaced cs (escape cs) := by
  fun_induction escape with
  | case1 => exact .none List.isChain_nil
  | case2 rest ih => exact .first [] (by decide) ih
  | case3 c rest apart ih => exact replacedCons (fun tail starred split => apart tail starred split) ih

inductive PrintedMark (note : String) : String → Prop where
  | of {escaped : List Char} (kept : Replaced note.toList escaped) :
      PrintedMark note (String.ofList ("/* ".toList ++ escaped ++ " */ ".toList))

end ShapeContracts.Comment
