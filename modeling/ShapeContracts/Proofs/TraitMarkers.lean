import ShapeContracts.Proofs.Links
import ShapeContracts.Proofs.MemberTraits
import ShapeContracts.Proofs.Placeholders

/-! Traits that generation does not handle. Each of them is reported where it stands: in a line above its
declaration, member or field, or in a comment before the validator wherever its shape is expanded. -/
namespace ShapeContracts

namespace Comment

variable {traits : Traits} {mapped : List String} {key : String} {value : Json}

theorem unmappedMem (mem : (key, value) ∈ traits.entries) (apart : key ∉ mapped) (location : String) :
    report key value location ∈ unmappedNotes traits mapped location := by
  have left : (key, value) ∈ traits.unmapped mapped := by simp [Traits.unmapped, mem, apart]
  rw [unmappedNotes, List.mem_map]
  exact ⟨(key, value), left, unmappedReport key value location⟩

theorem aboveMem (mem : (key, value) ∈ traits.entries) (apart : key ∉ mapped) (location : String) :
    line (report key value location) ∈ above traits mapped location :=
  List.mem_append_right _ (List.mem_map_of_mem (unmappedMem mem apart location))

theorem plainLines (block : String) : Fragment.commentLines 0 block = endedLines [block] := by
  rw [linesMoved, movedNone]
  simp [endedLines]

end Comment

namespace Enum

open Fragment (Shows leaves)

variable {typeName name : String} {members : List (String × Member)} {leading : List String}

theorem declarationBlock (before : List String) {block : List String} (after : List String) (some : after ≠ [])
    (split : leading ++ (if members.isEmpty then ["export enum " ++ typeName ++ " \x7b" ++ "\x7d"]
      else ("export enum " ++ typeName ++ " \x7b") ::
        (members.flatMap (memberLines name) ++ ["\x7d"])) = before ++ block ++ after) :
    Shows (leaves 0 (declaration typeName name members leading)) (Comment.endedLines block) := by
  refine ⟨Comment.endedLines before, (Comment.joinLines after).toList, ?_⟩
  rw [declaration, leaves, Fragment.reindentZero, split, Comment.joinedEnded _ some]
  simp [Comment.endedLines]

theorem leadingShown {comment : String} (mem : comment ∈ leading) :
    Shows (leaves 0 (declaration typeName name members leading)) (Fragment.commentLines 0 comment) := by
  obtain ⟨before, after, rfl⟩ := List.append_of_mem mem
  rw [Comment.plainLines]
  refine declarationBlock before (after ++ _) ?_ (by simp; rfl)
  split <;> simp

theorem memberShown {entry : String × Member} (mem : entry ∈ members) {comment : String}
    (above : comment ∈ Comment.above entry.2.traits memberTraits
      ("enum member " ++ name ++ "." ++ entry.1)) :
    Shows (leaves 0 (declaration typeName name members leading)) (Fragment.commentLines 2 comment) := by
  have lines : ∃ before after, memberLines name entry = before ++ Comment.indented comment ++ after := by
    obtain ⟨first, second, split⟩ := List.append_of_mem above
    refine ⟨first.flatMap Comment.indented, second.flatMap Comment.indented ++
      ["  " ++ Naming.propertyKey entry.1 ++ " = " ++ Naming.quote (valueOf entry.1 entry.2) ++ ","], ?_⟩
    simp [memberLines, split]
  obtain ⟨before, after, lines⟩ := lines
  obtain ⟨first, second, rfl⟩ := List.append_of_mem mem
  rw [← Comment.indentedLines]
  refine declarationBlock (leading ++ ("export enum " ++ typeName ++ " \x7b") ::
    (first.flatMap (memberLines name) ++ before)) (after ++
      (second.flatMap (memberLines name) ++ ["\x7d"])) (by simp) ?_
  simp [lines]

end Enum

namespace Fragment

theorem leadingShown {lines : List String} {comment : String} (mem : comment ∈ lines) (name : String)
    (value : Fragment) : Shows (leaves 0 (exportConst lines name value)) (commentLines 0 comment) := by
  refine showPart (f := .raw (comment ++ "\n")) (List.mem_append_left _ (List.mem_map_of_mem mem)) ?_
  rw [Comment.plainLines, leaves, reindentZero]
  exact ⟨[], [], by simp [Comment.endedLines]⟩

theorem propertyShown {indent : Nat} {properties : List (String × Fragment × List String)}
    {name : String} {value : Fragment} {comments : List String}
    (mem : (name, value, comments) ∈ properties) {comment : String} (above : comment ∈ comments) :
    Shows (propertyLeaves indent properties) (commentLines indent comment) := by
  induction properties with
  | nil => contradiction
  | cons property rest ih =>
    rcases List.mem_cons.mp mem with rfl | mem
    · obtain ⟨first, second, rfl⟩ := List.append_of_mem above
      refine ⟨first.flatMap (commentLines indent), second.flatMap (commentLines indent) ++
        (pad indent ++ ((Naming.propertyKey name).toList ++ [':', ' '])), ?_⟩
      simp [propertyLeaves]
    · obtain ⟨before, after, inside⟩ := ih mem
      refine ⟨before, after, ?_⟩
      rw [propertyLeaves]
      exact List.mem_cons_of_mem _ (List.mem_append_right _ (List.mem_cons_of_mem _ inside))

end Fragment

namespace Schema

open Fragment (Shows leaves)

variable {source : FileKey} {m : CodeModules} {s : Schema}

def notes : Schema → List String
  | .lazy inner => notes inner
  | .refine inner _ => notes inner
  | .optional inner => notes inner
  | .withDefault inner _ => notes inner
  | .marked comment inner => comment :: notes inner
  | _ => []

theorem notesBlind : Structure.Blind notes := ⟨fun _ _ => rfl, fun _ => rfl, fun _ _ => rfl⟩

theorem notesAdded (ns : List String) (s : Schema) : (withNotes ns s).notes = ns ++ s.notes := by
  induction ns with
  | nil => rfl
  | cons note rest ih => simpa [withNotes, notes] using ih

theorem fieldShown {fields : List (String × Schema × List String)} {f : String × Schema × List String}
    (mem : f ∈ fields) {comment : String} (above : comment ∈ f.2.2) (indent : Nat) :
    Shows (leaves indent ((Schema.object fields).lower source m))
      (Fragment.commentLines (indent + 2) comment) := by
  have listed := List.mem_map_of_mem (f := fun f => (f.1, lower source m f.2.1, f.2.2)) mem
  rw [← lowerFieldsMap] at listed
  obtain ⟨before, after, inside⟩ := Fragment.propertyShown listed above
  exact ⟨before, after, objectMem inside⟩

end Schema

/-- What a shape with a declaration attaches traits to, itself and its members, with the keys that are
handled there and the location that a marker names. -/
inductive Model.Attaches (m : Model) (id : String) : Traits → List String → String → Prop where
  | enum {members traits} (found : m.shape? id = some (.enum members traits)) :
      m.Attaches id traits Enum.shapeTraits ("enum " ++ ShapeId.localName id)
  | enumMember {members traits entry} (found : m.shape? id = some (.enum members traits))
      (mem : entry ∈ members) : m.Attaches id entry.2.traits Enum.memberTraits
        ("enum member " ++ ShapeId.localName id ++ "." ++ entry.1)
  | struct {members traits} (found : m.shape? id = some (.struct members traits)) :
      m.Attaches id traits
        (if traits.error.isSome then Structure.errorTraits else Structure.shapeTraits)
        ("structure " ++ ShapeId.localName id)
  | structMember {members traits entry} (found : m.shape? id = some (.struct members traits))
      (mem : entry ∈ members) : m.Attaches id entry.2.traits Structure.memberTraits
        ("structure member " ++ ShapeId.localName id ++ "." ++ entry.1)

theorem Structure.fieldAbove {scope : Scope} {source : FileKey} {owner name : String} {member : Member}
    {f : String × Schema × List String} (made : Field scope source owner name member f) :
    Comment.above member.traits memberTraits ("structure member " ++ owner ++ "." ++ name) ⊆ f.2.2 := by
  cases made with
  | found => exact List.Subset.refl _
  | lost => exact List.subset_append_left _ _

namespace Scope

variable {scope : Scope}

variable {source : FileKey} {stack : List String} {member : Member} {r : Resolution} {shape : Shape}

end Scope

namespace Contracts

variable {job : Job} {c : Contracts}

theorem enumWritten (done : ofModel job = .ok c) {id : String} {members : List (String × Member)}
    {traits : Traits} (found : job.model.shape? id = some (.enum members traits)) :
    ∃ file typeName rest, job.fileOf id = .ok file ∧ Fragment.sequence
      (Enum.declaration typeName (ShapeId.localName id) members (Comment.above traits Enum.shapeTraits
        ("enum " ++ ShapeId.localName id)) :: rest) ∈ c.run.codeOf file := by
  obtain ⟨file, routed⟩ := bearingRouted done (schemaKindSome.mpr ⟨_, found, rfl, rfl⟩)
  have mem : (Pass.kind .enum, id, Shape.enum members traits) ∈ job.contents file :=
    contentsMem.mpr ⟨Run.workAll.mpr ⟨Entries.memOfLookup found, .inl ⟨_, rfl, rfl⟩⟩, rfl, routed⟩
  obtain ⟨f, there, e, made, code⟩ := writtenBy done mem
  obtain ⟨rfl, -, -, -⟩ := finishedTrace done
  have contribution := Run.contributionOk (contentsMem.mp mem).1 made
  cases contribution with
  | expanded kinded inlined => contradiction
  | enumeration named registered =>
    cases code
    rw [ShapeId.parseLocal named]
    exact ⟨_, _, _, routed, there⟩

theorem structShown (done : ofModel job = .ok c) {id : String} {members : List (String × Member)}
    {traits : Traits} {file : FileKey} {s : Schema} {cs : List Char}
    (found : job.model.shape? id = some (.struct members traits)) (routed : job.fileOf id = .ok file)
    (recorded : c.schema? id = some s)
    (shown : Fragment.Shows (Fragment.leaves 0 (s.lower file job.settings.codeModules)) cs) :
    c.Shows file (String.ofList cs) := by
  obtain ⟨name, there⟩ := structWritten done found routed recorded
  exact codeShown done there (Fragment.showPart (by simp) shown)

theorem declaredReported (done : ofModel job = .ok c) {id location : String} {traits : Traits}
    {mapped : List String} (attaches : job.model.Attaches id traits mapped location) {key : String}
    {value : Json} (mem : (key, value) ∈ traits.entries) (apart : key ∉ mapped) :
    ∃ file indent, job.fileOf id = .ok file ∧
      c.Shows file (Comment.printedLine indent (Comment.report key value location)) := by
  simp only [← Comment.linesPrinted]
  have above := Comment.aboveMem mem apart location
  cases attaches with
  | enum found =>
    obtain ⟨file, typeName, rest, routed, there⟩ := enumWritten done found
    exact ⟨file, 0, routed, codeShown done there
      (Fragment.showPart List.mem_cons_self (Enum.leadingShown above))⟩
  | enumMember found listed =>
    obtain ⟨file, typeName, rest, routed, there⟩ := enumWritten done found
    exact ⟨file, 2, routed, codeShown done there
      (Fragment.showPart List.mem_cons_self (Enum.memberShown listed above))⟩
  | struct found =>
    have kinded := schemaKindSome.mpr ⟨_, found, rfl, rfl⟩
    obtain ⟨file, routed⟩ := bearingRouted done kinded
    obtain ⟨s, recorded⟩ := finishedAll done kinded
    obtain ⟨name, there⟩ := structWritten done found routed recorded
    exact ⟨file, 0, routed, codeShown done there (Fragment.leadingShown above _ _)⟩
  | @structMember members traits entry found listed =>
    obtain ⟨symbol, fields, f, registered, recorded, -, there, made⟩ := memberMade done found listed
    have routed := writtenFile done registered
    have inside := Structure.fieldAbove (Structure.fieldMade made) above
    exact ⟨symbol.fileKey, 2, routed, structShown done found routed recorded
      (Schema.fieldShown there inside 0)⟩

/-- A note stands around the validator of a shape where the shape is recorded, and around every validator
that the shape is expanded to; and a file shows it before every one that is written there. -/
structure Marks (c : Contracts) (id note : String) : Prop where
  recorded : ∃ s, c.schema? id = some s ∧ note ∈ s.notes
  expanded : ∀ user s path role member owner t around, c.schema? user = some s →
    s.Place [] path t around → c.job.model.Walk (.shape user) path (.member role member owner) →
    member.target = id → Builtin.ofId? id = none →
    (Subject.member role member owner).Flagged true t around ∨ (note ∈ t.notes ∧
      ∀ members traits file, c.job.model.shape? user = some (.struct members traits) →
        c.job.fileOf user = .ok file → ∃ mark, Comment.PrintedMark note mark ∧ c.Shows file mark)

def alone (id : String) (shape : Shape) (plain : shape.memberNames = []) : Model where
  version := "2.0"
  shapes := [(id, shape)]
  metadata := []
  distinct := by simp
  membersDistinct := by simp [plain]

def streamed : Traits := { Traits.empty with streaming := some (.object []) }

def body (traits : Traits) : Model := alone "com.amazonaws.s3#Body" (.scalar .blob traits) rfl

end Contracts
end ShapeContracts
