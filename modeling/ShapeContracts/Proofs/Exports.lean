import ShapeContracts.Declaration.Enum
import ShapeContracts.Declaration.Service
import ShapeContracts.Proofs.Printing

/-! What the fragments of a file export. Every name they export is declared in their text, and the text
ends with a character that is not blank, so that a file ends as its last fragment does. -/
namespace ShapeContracts

inductive Keyword where
  | constant
  | enumeration
  | errorClass
  | interface
  deriving DecidableEq, Repr

def Keyword.text : Keyword → String
  | constant => "const"
  | enumeration => "enum"
  | errorClass => "class"
  | interface => "interface"

structure Export where
  keyword : Keyword
  name : String
  deriving DecidableEq, Repr

def Export.text (e : Export) : String := String.join ["export ", e.keyword.text, " ", e.name, " "]

inductive Fragment.Exports : Fragment → List Export → Prop where
  | constant (lines : List String) (name : String) (value : Fragment) :
      Exports (.exportConst lines name value) [⟨.constant, name⟩]
  | enumeration (typeName localName : String) (members : List (String × Member)) (lines : List String)
      (validator : String) (value : Fragment) :
      Exports (.sequence [Enum.declaration typeName localName members lines, .raw "\n",
        .exportConst [] validator value]) [⟨.enumeration, typeName⟩, ⟨.constant, validator⟩]
  | errorClass (name base module body : String) :
      Exports (.sequence [.raw (String.join ["export class ", name, " extends "]),
        .imported base module, .raw (body ++ "\x7d")]) [⟨.errorClass, name⟩]
  | interface (doc : List Fragment) (name : String) (methods : List (List Fragment)) :
      Exports (.sequence (doc ++ Service.interface name methods)) [⟨.interface, name⟩]

namespace Comment

def endedLines (lines : List String) : List Char := lines.flatMap (fun l => l.toList ++ ['\n'])

theorem joinedEnded (first : List String) {after : List String} (some : after ≠ []) :
    (joinLines (first ++ after)).toList = endedLines first ++ (joinLines after).toList := by
  induction first with
  | nil => rfl
  | cons l rest ih =>
    have more : rest ++ after ≠ [] := by simp [some]
    have split : joinLines (l :: (rest ++ after)) = l ++ "\n" ++ joinLines (rest ++ after) :=
      String.intercalate_cons_of_ne_nil more
    rw [List.cons_append, split, String.toList_append, ih]
    simp [endedLines]

end Comment

namespace Fragment

def Shows (ls : List Leaf) (cs : List Char) : Prop :=
  ∃ before after, Leaf.text (before ++ cs ++ after) ∈ ls

theorem constShows (lines : List String) (name : String) (value : Fragment) :
    Shows (leaves 0 (.exportConst lines name value)) (Export.text ⟨.constant, name⟩).toList := by
  refine ⟨[], ['=', ' '], ?_⟩
  rw [exportConst, leaves]
  refine partMem (List.mem_append_right _ List.mem_cons_self) ?_
  simp [leaves, reindentZero, Export.text, Keyword.text]

theorem declarationShows (typeName name : String) (members : List (String × Member))
    (lines : List String) : Shows (leaves 0 (Enum.declaration typeName name members lines))
      (Export.text ⟨.enumeration, typeName⟩).toList := by
  have starts : ∃ rest, (Comment.joinLines (if members.isEmpty then
      ["export enum " ++ typeName ++ " \x7b" ++ "\x7d"]
      else ("export enum " ++ typeName ++ " \x7b") :: (members.flatMap (Enum.memberLines name) ++
        ["\x7d"]))).toList = (Export.text ⟨.enumeration, typeName⟩).toList ++ rest := by
    split
    · exact ⟨['\x7b', '\x7d'], by simp [Comment.joinLines, Export.text, Keyword.text]⟩
    · rw [← List.singleton_append, Comment.joinedEnded _ (by simp)]
      refine ⟨'\x7b' :: '\n' :: (Comment.joinLines (members.flatMap (Enum.memberLines name) ++
        ["\x7d"])).toList, ?_⟩
      simp [Comment.endedLines, Export.text, Keyword.text]
  obtain ⟨rest, starts⟩ := starts
  refine ⟨Comment.endedLines lines, rest, ?_⟩
  rw [Enum.declaration, leaves, reindentZero, Comment.joinedEnded lines (by split <;> simp), starts,
    List.append_assoc]
  exact List.mem_singleton_self _

theorem interfaceShows (doc : List Fragment) (name : String) (methods : List (List Fragment)) :
    Shows (leaves 0 (.sequence (doc ++ Service.interface name methods)))
      (Export.text ⟨.interface, name⟩).toList := by
  rw [leaves, partAppend, Service.interface]
  split
  · exact ⟨[], ['\x7b', '\x7d'], by simp [partLeaves, leaves, reindentZero, Export.text, Keyword.text]⟩
  · exact ⟨[], ['\x7b', '\n'], by simp [partLeaves, leaves, reindentZero, Export.text, Keyword.text]⟩

theorem showPart {parts : List Fragment} {f : Fragment} {cs : List Char} (mem : f ∈ parts)
    (shown : Shows (leaves 0 f) cs) : Shows (leaves 0 (.sequence parts)) cs := by
  obtain ⟨before, after, there⟩ := shown
  rw [leaves]
  exact ⟨before, after, partMem mem there⟩

theorem exportsShow {f : Fragment} {es : List Export} (exports : f.Exports es) {e : Export}
    (mem : e ∈ es) : Shows (leaves 0 f) e.text.toList := by
  cases exports with
  | constant lines name value =>
    obtain rfl := List.mem_singleton.mp mem
    exact constShows lines name value
  | enumeration typeName localName members lines validator value =>
    rcases List.mem_cons.mp mem with rfl | mem
    · exact showPart (by simp) (declarationShows typeName localName members lines)
    · obtain rfl := List.mem_singleton.mp mem
      exact showPart (by simp) (constShows [] validator value)
  | errorClass name base module body =>
    obtain rfl := List.mem_singleton.mp mem
    refine showPart List.mem_cons_self ⟨[], "extends ".toList, ?_⟩
    simp [leaves, reindentZero, Export.text, Keyword.text]
  | interface doc name methods =>
    obtain rfl := List.mem_singleton.mp mem
    exact interfaceShows doc name methods

theorem solidPart (before : List Fragment) {f : Fragment} (solid : Solid (leaves 0 f)) :
    Solid (leaves 0 (.sequence (before ++ [f]))) := by
  rw [leaves, partAppend, partLeaves, partLeaves, List.append_nil]
  exact solidAppend _ solid

theorem rawSolid {text : String} {cs : List Char} {last : Char} (ends : text.toList = cs ++ [last])
    (visible : Unicode.isWhiteSpace last = false) : Solid (leaves 0 (.raw text)) := by
  rw [leaves, reindentZero, ends]
  exact ⟨[], cs, last, rfl, visible⟩

theorem constSolid (lines : List String) (name : String) (value : Fragment) :
    Solid (leaves 0 (.exportConst lines name value)) := by
  have last : Solid (leaves 0 (.raw ";")) := ⟨[], [], ';', rfl, by decide⟩
  have split : leading lines ++ [.raw ("export const " ++ name ++ " = "), value, .raw ";"] =
      (leading lines ++ [.raw ("export const " ++ name ++ " = "), value]) ++ [.raw ";"] := by simp
  rw [exportConst, split]
  exact solidPart _ last

theorem exportsSolid {f : Fragment} {es : List Export} (exports : f.Exports es) :
    Solid (leaves 0 f) := by
  have brace : Unicode.isWhiteSpace '\x7d' = false := by decide
  have closed : ∀ text : String, (text ++ "\x7d").toList = text.toList ++ ['\x7d'] := by simp
  have line : "\n\x7d".toList = ['\n'] ++ ['\x7d'] := by decide
  cases exports with
  | constant lines name value => exact constSolid lines name value
  | enumeration typeName localName members lines validator value =>
    exact solidPart [_, _] (constSolid [] validator value)
  | errorClass name base module body => exact solidPart [_, _] (rawSolid (closed body) brace)
  | interface doc name methods =>
    rw [Service.interface]
    split
    · exact solidPart doc (rawSolid (closed _) brace)
    · rw [← List.cons_append, ← List.append_assoc]
      exact solidPart _ (rawSolid line brace)

end Fragment
end ShapeContracts
