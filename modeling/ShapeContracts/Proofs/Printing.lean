import ShapeContracts.Fragment.Printer
import ShapeContracts.Proofs.Bindings

/-! Printing as one pass over leaves. A fragment is a row of texts and names, and printing it prints
them in order, with the imports handed from each to the next. So what stands at a place of a file is
what its leaf prints under the imports that all leaves before it have left. -/
namespace ShapeContracts.Fragment

inductive Leaf where
  | text (cs : List Char)
  | symbol (name : String)
  | imported (name module : String)
  deriving DecidableEq

def Leaf.print (b : Bindings) : Leaf → Printed
  | .text cs => (cs, b)
  | .symbol name => (name.toList, b)
  | .imported name module => ((b.bind name module).1.toList, (b.bind name module).2)

def printLeaves (b : Bindings) : List Leaf → Printed
  | [] => ([], b)
  | l :: rest =>
    let (head, b) := l.print b
    let (tail, b) := printLeaves b rest
    (head ++ tail, b)

mutual

def leaves (indent : Nat) : Fragment → List Leaf
  | .raw text => [.text (reindent indent text.toList)]
  | .literal text => [.text (Naming.quote text).toList]
  | .symbol name => [.symbol name]
  | .imported name module => [.imported name module]
  | .call callee args => leaves indent callee ++ .text ['('] :: (listLeaves indent args ++ [.text [')']])
  | .member receiver property => leaves indent receiver ++ [.text ('.' :: property.toList)]
  | .object [] => [.text ['{', '}']]
  | .object (p :: ps) =>
    .text ['{', '\n'] :: (propertyLeaves (indent + 2) (p :: ps) ++ [.text (pad indent ++ ['}'])])
  | .array items => .text ['['] :: (listLeaves indent items ++ [.text [']']])
  | .arrow body => .text ['(', ')', ' ', '=', '>', ' '] :: leaves indent body
  | .commented comment inner =>
    .text (['/', '*', ' '] ++ (Comment.escape comment.toList ++ [' ', '*', '/', ' ']))
      :: leaves indent inner
  | .sequence parts => partLeaves indent parts

def listLeaves (indent : Nat) : List Fragment → List Leaf
  | [] => []
  | [item] => leaves indent item
  | item :: rest => leaves indent item ++ .text [',', ' '] :: listLeaves indent rest

def partLeaves (indent : Nat) : List Fragment → List Leaf
  | [] => []
  | part :: rest => leaves indent part ++ partLeaves indent rest

def propertyLeaves (indent : Nat) : List (String × Fragment × List String) → List Leaf
  | [] => []
  | (key, value, comments) :: rest =>
    .text (comments.flatMap (commentLines indent)
        ++ (pad indent ++ ((Naming.propertyKey key).toList ++ [':', ' '])))
      :: (leaves indent value ++ .text [',', '\n'] :: propertyLeaves indent rest)

end

theorem printAppend (b : Bindings) (first second : List Leaf) :
    printLeaves b (first ++ second) =
      ((printLeaves b first).1 ++ (printLeaves (printLeaves b first).2 second).1,
        (printLeaves (printLeaves b first).2 second).2) := by
  induction first generalizing b with
  | nil => simp [printLeaves]
  | cons l rest ih => simp [printLeaves, ih]

theorem printNil (b : Bindings) : printLeaves b [] = ([], b) := rfl

theorem printText (b : Bindings) (cs : List Char) (rest : List Leaf) :
    printLeaves b (.text cs :: rest) = (cs ++ (printLeaves b rest).1, (printLeaves b rest).2) := rfl

mutual

theorem printAtLeaves (indent : Nat) (b : Bindings) (f : Fragment) :
    printAt indent b f = printLeaves b (leaves indent f) := by
  match f with
  | .raw text => simp [printAt, leaves, printLeaves, Leaf.print]
  | .literal text => simp [printAt, leaves, printLeaves, Leaf.print]
  | .symbol name => simp [printAt, leaves, printLeaves, Leaf.print]
  | .imported name module => simp [printAt, leaves, printLeaves, Leaf.print]
  | .call callee args =>
    simp [printAt, leaves, printAtLeaves indent _ callee, printListLeaves indent _ args, printAppend,
      printText, printNil]
  | .member receiver property =>
    simp [printAt, leaves, printAtLeaves indent _ receiver, printAppend, printText, printNil]
  | .object [] => simp [printAt, leaves, printLeaves, Leaf.print]
  | .object (p :: ps) =>
    simp [printAt, leaves, printPropertyLeaves (indent + 2) _ (p :: ps), printAppend, printText,
      printNil]
  | .array items =>
    simp [printAt, leaves, printListLeaves indent _ items, printAppend, printText, printNil]
  | .arrow body => simp [printAt, leaves, printAtLeaves indent _ body, printText]
  | .commented comment inner => simp [printAt, leaves, printAtLeaves indent _ inner, printText]
  | .sequence parts => simp [printAt, leaves, printPartLeaves indent _ parts]

theorem printListLeaves (indent : Nat) (b : Bindings) (items : List Fragment) :
    printList indent b items = printLeaves b (listLeaves indent items) := by
  match items with
  | [] => simp [printList, listLeaves, printNil]
  | [item] => simp [printList, listLeaves, printAtLeaves indent _ item]
  | item :: next :: rest =>
    simp [printList, listLeaves, printAtLeaves indent _ item, printListLeaves indent _ (next :: rest),
      printAppend, printText]

theorem printPartLeaves (indent : Nat) (b : Bindings) (parts : List Fragment) :
    printParts indent b parts = printLeaves b (partLeaves indent parts) := by
  match parts with
  | [] => simp [printParts, partLeaves, printNil]
  | part :: rest =>
    simp [printParts, partLeaves, printAtLeaves indent _ part, printPartLeaves indent _ rest,
      printAppend]

theorem printPropertyLeaves (indent : Nat) (b : Bindings)
    (properties : List (String × Fragment × List String)) :
    printProperties indent b properties = printLeaves b (propertyLeaves indent properties) := by
  match properties with
  | [] => simp [printProperties, propertyLeaves, printNil]
  | (key, value, comments) :: rest =>
    simp [printProperties, propertyLeaves, printAtLeaves indent _ value,
      printPropertyLeaves indent _ rest, printAppend, printText]

end

def fileLeaves : List Fragment → List Leaf
  | [] => []
  | [f] => leaves 0 f
  | f :: rest => leaves 0 f ++ .text ['\n', '\n'] :: fileLeaves rest

theorem fileLeavesCons (f g : Fragment) (rest : List Fragment) :
    fileLeaves (f :: g :: rest) = leaves 0 f ++ .text ['\n', '\n'] :: fileLeaves (g :: rest) := by
  rw [fileLeaves]
  simp

theorem printAllCons (b : Bindings) (f : Fragment) (rest : List Fragment) :
    printAll b (f :: rest) = ((printLeaves b (leaves 0 f)).1 ::
      (printAll (printLeaves b (leaves 0 f)).2 rest).1, (printAll (printLeaves b (leaves 0 f)).2 rest).2) := by
  rw [printAll, printAtLeaves]

theorem printAllLeaves (b : Bindings) (fs : List Fragment) :
    printLeaves b (fileLeaves fs) =
      (['\n', '\n'].intercalate (printAll b fs).1, (printAll b fs).2) := by
  induction fs generalizing b with
  | nil => simp [fileLeaves, printLeaves, printAll, List.intercalate]
  | cons f rest ih =>
    cases rest with
    | nil => simp [fileLeaves, printAll, printAtLeaves, List.intercalate]
    | cons g rest =>
      have more : ∀ b, (printAll b (g :: rest)).1 ≠ [] := by simp [printAll]
      rw [fileLeavesCons, printAppend, printText, ih, printAllCons b f]
      simp [List.intercalate_cons_of_ne_nil (more _)]

theorem reindentZero (cs : List Char) : reindent 0 cs = cs := by
  induction cs with
  | nil => rfl
  | cons c rest ih =>
    rw [reindent, ih]
    split <;> rfl

theorem partAppend (indent : Nat) (first second : List Fragment) :
    partLeaves indent (first ++ second) = partLeaves indent first ++ partLeaves indent second := by
  induction first with
  | nil => rfl
  | cons f rest ih => simp [partLeaves, ih]

theorem fileLeavesSplit {fs : List Fragment} {f : Fragment} (mem : f ∈ fs) :
    ∃ before after, fileLeaves fs = before ++ leaves 0 f ++ after := by
  induction fs with
  | nil => contradiction
  | cons g rest ih =>
    cases rest with
    | nil =>
      obtain rfl := List.mem_singleton.mp mem
      exact ⟨[], [], by simp [fileLeaves]⟩
    | cons next rest =>
      rw [fileLeavesCons]
      rcases List.mem_cons.mp mem with rfl | mem
      · exact ⟨[], _, rfl⟩
      · obtain ⟨before, after, split⟩ := ih mem
        exact ⟨leaves 0 g ++ .text ['\n', '\n'] :: before, after, by simp [split]⟩

theorem fileLeavesMem {fs : List Fragment} {f : Fragment} (mem : f ∈ fs) :
    leaves 0 f ⊆ fileLeaves fs := by
  obtain ⟨before, after, split⟩ := fileLeavesSplit mem
  rw [split]
  exact List.subset_append_of_subset_left _ (List.subset_append_right _ _)

theorem partMem {indent : Nat} {parts : List Fragment} {f : Fragment} (mem : f ∈ parts) :
    leaves indent f ⊆ partLeaves indent parts := by
  obtain ⟨before, after, rfl⟩ := List.append_of_mem mem
  rw [partAppend, partLeaves]
  exact List.subset_append_of_subset_right _ (List.subset_append_left _ _)

theorem partsMem {indent : Nat} {parts fs : List Fragment} (sub : fs ⊆ parts) :
    partLeaves indent fs ⊆ partLeaves indent parts := by
  induction fs with
  | nil => exact List.nil_subset _
  | cons f rest ih =>
    obtain ⟨first, others⟩ := List.cons_subset.mp sub
    exact List.append_subset.mpr ⟨partMem first, ih others⟩

theorem listMem {indent : Nat} {items : List Fragment} {f : Fragment} (mem : f ∈ items) :
    leaves indent f ⊆ listLeaves indent items := by
  induction items with
  | nil => contradiction
  | cons item rest ih =>
    have head : leaves indent item ⊆ listLeaves indent (item :: rest) ∧
        listLeaves indent rest ⊆ listLeaves indent (item :: rest) := by
      cases rest <;> simp [listLeaves]
    rcases List.mem_cons.mp mem with rfl | mem
    · exact head.1
    · exact List.Subset.trans (ih mem) head.2

theorem propertyMem {indent : Nat} {properties : List (String × Fragment × List String)} {name : String}
    {value : Fragment} {comments : List String} (mem : (name, value, comments) ∈ properties) :
    leaves indent value ⊆ propertyLeaves indent properties := by
  induction properties with
  | nil => contradiction
  | cons property rest ih =>
    intro leaf inside
    rw [propertyLeaves]
    refine List.mem_cons_of_mem _ (List.mem_append.mpr ?_)
    rcases List.mem_cons.mp mem with rfl | mem
    · exact .inl inside
    · exact .inr (List.mem_cons_of_mem _ (ih mem inside))

/-! Leaves that end with a character that is not blank, so that nothing of them is cut off. -/

def Solid (ls : List Leaf) : Prop :=
  ∃ init cs c, ls = init ++ [.text (cs ++ [c])] ∧ Unicode.isWhiteSpace c = false

theorem solidAppend (first : List Leaf) {second : List Leaf} (solid : Solid second) :
    Solid (first ++ second) := by
  obtain ⟨init, cs, c, rfl, visible⟩ := solid
  exact ⟨first ++ init, cs, c, (List.append_assoc ..).symm, visible⟩

theorem solidTrim {ls : List Leaf} (solid : Solid ls) (b : Bindings) (front : List Char) :
    Text.trimEnd (front ++ (printLeaves b ls).1) = front ++ (printLeaves b ls).1 := by
  obtain ⟨init, cs, c, rfl, visible⟩ := solid
  simp [printAppend, printText, printNil, Text.trimEnd, Text.trimStart, visible]

theorem fileSolid {fs : List Fragment} (some : fs ≠ []) (each : ∀ f ∈ fs, Solid (leaves 0 f)) :
    Solid (fileLeaves fs) := by
  induction fs with
  | nil => contradiction
  | cons f rest ih =>
    cases rest with
    | nil => exact each f List.mem_cons_self
    | cons g rest =>
      rw [fileLeavesCons, List.append_cons]
      exact solidAppend _ (ih (by simp) (fun f mem => each f (List.mem_cons_of_mem _ mem)))

/-! What printing keeps of the imports. -/

theorem leafGrows (b : Bindings) (l : Leaf) : b.Grows (l.print b).2 := by
  cases l with
  | imported name module => exact Bindings.bindGrows
  | _ => exact Bindings.growsRefl b

theorem leafSound {b : Bindings} (sound : b.Sound) (l : Leaf) : (l.print b).2.Sound := by
  cases l with
  | imported name module => exact Bindings.bindSound sound
  | _ => exact sound

theorem printGrows (b : Bindings) (ls : List Leaf) : b.Grows (printLeaves b ls).2 := by
  induction ls generalizing b with
  | nil => exact Bindings.growsRefl b
  | cons l rest ih => exact Bindings.growsTrans (leafGrows b l) (ih _)

theorem printSound {b : Bindings} (sound : b.Sound) (ls : List Leaf) : (printLeaves b ls).2.Sound := by
  induction ls generalizing b with
  | nil => exact sound
  | cons l rest ih => exact ih (leafSound sound l)

end ShapeContracts.Fragment
