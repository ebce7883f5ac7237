import Mathlib.Data.List.TakeWhile
import ShapeContracts.Proofs.ClosedTexts
import ShapeContracts.Proofs.CommentTexts
import ShapeContracts.Proofs.FatalExact

/-! Blocks of documentation. What is written inside one is escaped line by line, and no prefix, joint or
name between the lines makes the characters that close it. -/
namespace ShapeContracts

namespace Text

variable {separator : Char}

theorem splitAtApartAppend {cs : List Char} (apart : separator ∉ cs) (rest : List Char) :
    splitAt separator (cs ++ separator :: rest) = cs :: splitAt separator rest := by
  induction cs with
  | nil => simp [splitAt]
  | cons c cs ih =>
    obtain ⟨other, apart⟩ := not_or.mp (List.mem_cons.not.mp apart)
    rw [List.cons_append, splitAt, if_neg (Ne.symm other), ih apart]

theorem splitAtWhole {cs : List Char} (apart : separator ∉ cs) : splitAt separator cs = [cs] := by
  induction cs with
  | nil => rfl
  | cons c cs ih =>
    obtain ⟨other, apart⟩ := not_or.mp (List.mem_cons.not.mp apart)
    rw [splitAt, if_neg (Ne.symm other), ih apart]

theorem splitAtJoined {parts : List (List Char)} (some : parts ≠ []) (apart : ∀ p ∈ parts, separator ∉ p) :
    splitAt separator ([separator].intercalate parts) = parts := by
  induction parts with
  | nil => contradiction
  | cons p rest ih =>
    obtain ⟨first, others⟩ := List.forall_mem_cons.mp apart
    cases rest with
    | nil => simpa [List.intercalate] using splitAtWhole first
    | cons q rest =>
      rw [List.intercalate_cons_cons, List.append_assoc, List.singleton_append, splitAtApartAppend first,
        ih (by simp) others]

theorem trimStartBlank {cs : List Char} : trimStart cs = [] ↔ isBlank cs = true := by
  rw [trimStart, isBlank, List.dropWhile_eq_nil_iff, List.all_eq_true]

theorem trimBlank {cs : List Char} : trim cs = [] ↔ isBlank cs = true := by
  rw [trim, trimEnd, List.reverse_eq_nil_iff, trimStartBlank, isBlank, List.all_reverse]
  constructor
  · intro blank
    by_contra solid
    have kept : trimStart cs ≠ [] := fun none => solid (trimStartBlank.mp none)
    have first := List.head_dropWhile_not Unicode.isWhiteSpace kept
    have same := List.all_eq_true.mp blank _ (List.head_mem kept)
    exact absurd (first.symm.trans same) Bool.false_ne_true
  · intro blank
    rw [trimStartBlank.mpr blank]
    rfl

end Text

namespace Comment

structure Fenced (block : String) : Prop where
  bounds : ∃ inside, block.toList = "/**".toList ++ inside ++ "*/".toList
  once : ∀ before after, block.toList = before ++ '*' :: '/' :: after → after = []

inductive Returned : List Char → List Char → Prop where
  | kept {line : List Char} : line.getLast? ≠ some '\r' → Returned line line
  | cut (line : List Char) : Returned (line ++ ['\r']) line

inductive Carries (line : List Char) : List Char → Prop where
  | blank : Returned line [] → Carries line " *".toList
  | text {text escaped : List Char} : Returned line text → text ≠ [] → Replaced text escaped →
      Carries line (" * ".toList ++ escaped)

/-- The block of a documentation: its lines, trimmed as a whole, one below the other between the fences. -/
structure Documents (documentation block : String) : Prop where
  fenced : Fenced block
  lines : ∃ written, Text.lines block.toList =
      "/**".toList :: " * ```xml".toList :: (written ++ [" * ```".toList, " */".toList]) ∧
    List.Forall₂ Carries (Text.lines (Text.trim documentation.toList)) written
  starred : ∀ inside, Text.lines block.toList = "/**".toList :: inside ++ [" */".toList] →
    ∀ line ∈ inside, " *".toList <+: line

section Unclosed

variable {cs ds : List Char}

theorem unclosedJoin {c : Char} (neutral : c ≠ '*' ∧ c ≠ '/') (first : Unclosed cs) (second : Unclosed ds) :
    Unclosed (cs ++ c :: ds) := by
  refine List.isChain_append.mpr ⟨first, List.isChain_cons.mpr ⟨?_, second⟩, ?_⟩
  · exact fun _ _ closes => neutral.1 closes.1
  · rintro a - b mem ⟨-, rfl⟩
    exact neutral.2 (Option.some.inj mem)

theorem unclosedUnslashed (unslashed : '/' ∉ cs) : Unclosed cs := by
  refine List.isChain_iff_forall_rel_of_append_cons_cons.mpr ?_
  rintro a b before after rfl ⟨-, rfl⟩
  exact unslashed (by simp)

theorem unclosedEnded {lines : List String} (unclosed : ∀ l ∈ lines, Unclosed l.toList) (rest : Unclosed ds) :
    Unclosed (endedLines lines ++ ds) := by
  induction lines with
  | nil => exact rest
  | cons l lines ih =>
    obtain ⟨first, others⟩ := List.forall_mem_cons.mp unclosed
    have joined := unclosedJoin (by decide : '\n' ≠ '*' ∧ '\n' ≠ '/') first (ih others)
    simpa [endedLines] using joined

theorem closesOnce (unclosed : Unclosed (cs ++ ['*'])) {before after : List Char}
    (split : cs ++ "*/".toList = before ++ '*' :: '/' :: after) : after = [] := by
  -- every occurrence but the last one would stand in the text up to the last star
  rcases List.eq_nil_or_concat after with none | ⟨after, last, rfl⟩
  · exact none
  · have whole : cs ++ ['*'] ++ ['/'] = before ++ '*' :: '/' :: after ++ [last] := by simpa using split
    have inside := (List.append_inj_left' whole rfl)
    rw [Unclosed, inside] at unclosed
    exact absurd ⟨rfl, rfl⟩ (List.isChain_append_cons_cons.mp unclosed).2.1

theorem linesFenced {lines : List String} (unclosed : ∀ l ∈ lines, Unclosed l.toList) :
    Fenced (joinLines ("/**" :: lines ++ [" */"])) := by
  have text : (joinLines ("/**" :: lines ++ [" */"])).toList =
      endedLines ("/**" :: lines) ++ [' '] ++ "*/".toList := by
    rw [joinedEnded _ (List.cons_ne_nil _ _)]
    simp [joinLines]
  refine ⟨⟨'\n' :: endedLines lines ++ [' '], ?_⟩, fun before after split => ?_⟩
  · rw [text]
    simp [endedLines]
  · have each : ∀ l ∈ "/**" :: lines, Unclosed l.toList := List.forall_mem_cons.mpr ⟨by decide, unclosed⟩
    have inside : Unclosed (endedLines ("/**" :: lines) ++ [' ', '*']) := unclosedEnded each (by decide)
    exact closesOnce (by simpa using inside) (text.symm.trans split)

end Unclosed

section Escaping

theorem escapeHead (cs : List Char) : (escape cs).head? = cs.head? := by
  fun_cases escape <;> rfl

theorem escapeUnclosed (cs : List Char) : Unclosed (escape cs) := by
  fun_induction escape with
  | case1 => exact List.isChain_nil
  | case2 rest ih =>
    refine List.isChain_cons_cons.mpr ⟨by decide, List.isChain_cons_cons.mpr ⟨by decide, ?_⟩⟩
    exact List.isChain_cons.mpr ⟨fun _ _ closes => absurd closes.1 (by decide), ih⟩
  | case3 c rest apart ih =>
    refine List.isChain_cons.mpr ⟨?_, ih⟩
    rintro d mem ⟨rfl, rfl⟩
    rw [escapeHead] at mem
    obtain ⟨rest, rfl⟩ := List.head?_eq_some_iff.mp mem
    exact apart rest rfl rfl

end Escaping

section Lines

theorem dropReturned (line : List Char) : Returned line (dropReturn line) := by
  unfold dropReturn
  split
  · rename_i last
    obtain ⟨text, rfl⟩ := List.getLast?_eq_some_iff.mp last
    rw [List.dropLast_concat]
    exact .cut text
  · rename_i last
    exact .kept last

theorem lineCarries (line : List Char) : Carries line (blockLine (dropReturn line)).toList := by
  have returned := dropReturned line
  unfold blockLine
  split
  · rename_i none
    rw [List.isEmpty_iff.mp none] at returned
    exact .blank returned
  · rename_i some
    rw [String.toList_append, String.toList_ofList (l := escape _)]
    exact .text returned (fun none => some (List.isEmpty_iff.mpr none)) (escapeReplaced _)

theorem lineUnclosed (line : List Char) : Unclosed (blockLine line).toList := by
  unfold blockLine
  split
  · decide
  · have joined := unclosedJoin (by decide : ' ' ≠ '*' ∧ ' ' ≠ '/') (by decide : Unclosed " *".toList)
      (escapeUnclosed line)
    rw [String.toList_append, String.toList_ofList (l := escape line)]
    exact joined

theorem docLinesUnclosed {documentation : String} {lines : List String}
    (written : docLines? documentation = some lines) : ∀ l ∈ lines, Unclosed l.toList := by
  unfold docLines? at written
  split at written
  · exact nomatch written
  · cases written
    simp only [List.cons_append, List.forall_mem_cons, List.forall_mem_append, List.forall_mem_map]
    exact ⟨by decide, fun line _ => lineUnclosed _, by decide, nofun⟩

theorem escapeWithin (cs : List Char) : escape cs ⊆ '\\' :: cs := by
  fun_induction escape with
  | case1 => exact List.nil_subset _
  | case2 rest ih =>
    intro c mem
    have inside := @ih c
    grind
  | case3 c rest apart ih =>
    intro d mem
    have inside := @ih d
    grind

theorem lineApart {line : List Char} (apart : '\n' ∉ line) : '\n' ∉ (blockLine (dropReturn line)).toList := by
  have cut : '\n' ∉ dropReturn line := by
    unfold dropReturn
    split
    · exact fun mem => apart (List.dropLast_subset _ mem)
    · exact apart
  unfold blockLine
  split
  · decide
  · rw [String.toList_append, String.toList_ofList (l := escape _), List.mem_append, not_or]
    refine ⟨by decide, fun mem => ?_⟩
    rcases List.mem_cons.mp (escapeWithin _ mem) with same | mem
    · exact absurd same (by decide)
    · exact cut mem

theorem carriesStarred {line written : List Char} (carries : Carries line written) : " *".toList <+: written := by
  cases carries with
  | blank => exact List.prefix_rfl
  | @text text escaped => exact ⟨' ' :: escaped, rfl⟩

end Lines

section Blocks

variable {documentation : String}

def shownLines (documentation : String) : List String :=
  (Text.lines (Text.trim documentation.toList)).map (fun l => blockLine (dropReturn l))

theorem docLinesNone : docLines? documentation = none ↔ Text.isBlank documentation.toList = true := by
  rw [← Text.trimBlank, docLines?]
  split
  · rename_i none
    simp [none]
  · rename_i some
    exact iff_of_false (Option.some_ne_none _) some

theorem docLinesSome {lines : List String} (written : docLines? documentation = some lines) :
    lines = " * ```xml" :: shownLines documentation ++ [" * ```"] := by
  unfold docLines? at written
  split at written
  · exact nomatch written
  · exact (Option.some.inj written).symm

theorem docBlockSome {block : String} (written : docBlock? (some documentation) = some block) :
    ∃ lines, docLines? documentation = some lines ∧ block = joinLines ("/**" :: lines ++ [" */"]) := by
  simp only [docBlock?, Option.bind_eq_bind, Option.bind_some, Option.bind_eq_some_iff] at written
  obtain ⟨lines, doc, same⟩ := written
  exact ⟨lines, doc, (Option.some.inj same).symm⟩

theorem shownCarry (documentation : String) : List.Forall₂ Carries
    (Text.lines (Text.trim documentation.toList)) ((shownLines documentation).map String.toList) := by
  rw [shownLines, List.map_map, List.forall₂_map_right_iff, List.forall₂_same]
  exact fun l _ => lineCarries l

theorem joinedLines {lines : List String} (some : lines ≠ []) (apart : ∀ l ∈ lines, '\n' ∉ l.toList) :
    Text.lines (joinLines lines).toList = lines.map String.toList := by
  rw [joinLines, String.toList_intercalate]
  exact Text.splitAtJoined (List.map_eq_nil_iff.not.mpr some) (List.forall_mem_map.mpr apart)

theorem docBlockDocuments {block : String} (written : docBlock? (some documentation) = some block) :
    Documents documentation block := by
  obtain ⟨lines, doc, rfl⟩ := docBlockSome written
  have fenced := linesFenced (docLinesUnclosed doc)
  obtain rfl := docLinesSome doc
  have apart : ∀ l ∈ shownLines documentation, '\n' ∉ l.toList :=
    List.forall_mem_map.mpr (fun l mem => lineApart (Text.splitAtApart mem))
  have each : ∀ l ∈ "/**" :: (" * ```xml" :: shownLines documentation ++ [" * ```"]) ++ [" */"],
      '\n' ∉ l.toList := by
    simp only [List.cons_append, List.forall_mem_cons, List.forall_mem_append]
    exact ⟨by decide, by decide, ⟨apart, by decide, nofun⟩, by decide, nofun⟩
  have split := (joinedLines (by simp) each).trans (List.map_append ..)
  have starred : ∀ l ∈ shownLines documentation, " *".toList <+: l.toList :=
    List.forall_mem_map.mpr (fun l _ => carriesStarred (lineCarries l))
  refine ⟨fenced, ⟨_, by rw [split]; simp, shownCarry documentation⟩, fun inside same => ?_⟩
  have between : inside = (" * ```xml" :: shownLines documentation ++ [" * ```"]).map String.toList :=
    (List.cons.inj (List.append_inj_left' (split.symm.trans same) rfl)).2.symm
  rw [between]
  refine List.forall_mem_map.mpr ?_
  simp only [List.cons_append, List.forall_mem_cons, List.forall_mem_append]
  exact ⟨by decide, starred, by decide, nofun⟩

end Blocks

end Comment

namespace Operation

open Comment (Unclosed escapeText)

def throwsEntry (typeName description : String) : String :=
  String.join [" * @throws \x7b", typeName, "\x7d ", escapeText description]

theorem throwsEntryUnclosed {typeName : String} (unslashed : '/' ∉ typeName.toList) (description : String) :
    Unclosed (throwsEntry typeName description).toList := by
  have name : Unclosed (typeName.toList ++ '\x7d' :: ' ' :: Comment.escape description.toList) :=
    Comment.unclosedJoin (by decide) (Comment.unclosedUnslashed unslashed)
      (Comment.unclosedJoin (by decide) (by decide : Unclosed []) (Comment.escapeUnclosed _))
  have whole := Comment.unclosedJoin (by decide : '\x7b' ≠ '*' ∧ '\x7b' ≠ '/')
    (by decide : Unclosed " * @throws ".toList) name
  have text : (throwsEntry typeName description).toList =
      " * @throws ".toList ++ '\x7b' :: (typeName.toList ++ '\x7d' :: ' ' :: Comment.escape description.toList) := by
    simp [throwsEntry, escapeText, String.join]
  rwa [text]

variable {scope : Scope} {target line : String}

theorem throwsKnown {symbol : Symbol} (registered : scope.symbols.lookup? target = some symbol)
    (made : throwsLine scope target = .ok line) : line = throwsEntry symbol.typeName
      ((summary? (((scope.model.shape? target).bind Shape.traits?).bind Traits.documentation)).getD
        (String.join ["This operation may throw ", symbol.typeName, "."])) := by
  obtain ⟨parts, -, made⟩ := bindOk.mp made
  rw [registered] at made
  exact (pureOk.mp made).symm

theorem throwsUnknown (unregistered : scope.symbols.lookup? target = none)
    (made : throwsLine scope target = .ok line) : line = throwsEntry "unknown"
      (String.join ["This operation may throw an unknown error type (", target, ")."]) := by
  obtain ⟨parts, -, made⟩ := bindOk.mp made
  rw [unregistered] at made
  exact (pureOk.mp made).symm

theorem throwsEach {targets lines : List String} (made : throwsLines scope targets = .ok lines) :
    List.Forall₂ (fun target line => throwsLine scope target = .ok line) targets lines := by
  induction targets generalizing lines with
  | nil =>
    obtain rfl := pureOk.mp made
    exact .nil
  | cons target rest ih =>
    obtain ⟨line, first, made⟩ := bindOk.mp made
    obtain ⟨later, others, made⟩ := bindOk.mp made
    obtain rfl := pureOk.mp made
    exact .cons first (ih others)

theorem registeredType (discovered : scope.Discovered) {symbol : Symbol}
    (registered : scope.symbols.lookup? target = some symbol) :
    ∃ shape, scope.model.shape? target = some shape ∧ shape.kind? = some symbol.kind ∧
      symbol.typeName = if shape.isError then Naming.errorClassName (ShapeId.localName target)
        else Naming.typeName (ShapeId.localName target) := by
  obtain ⟨kinded, -, parts, named⟩ := Scope.registeredKind discovered registered
  obtain ⟨shape, found, shaped, -⟩ := schemaKindSome.mp kinded
  refine ⟨shape, found, shaped, ?_⟩
  rw [ShapeId.parseLocal named]
  exact (Scope.registeredNames discovered registered found named).2

theorem typeUnslashed (name : String) : '/' ∉ (Naming.typeName name).toList ∧
    '/' ∉ (Naming.errorClassName name).toList := by
  have typed : '/' ∉ (Naming.typeName name).toList :=
    fun mem => Text.upperCamelInert name _ mem (by decide)
  refine ⟨typed, ?_⟩
  rw [Naming.errorClassName, String.toList_append, List.mem_append, not_or]
  exact ⟨typed, by decide⟩

theorem throwsUnclosed (discovered : scope.Discovered) (made : throwsLine scope target = .ok line) :
    Unclosed line.toList := by
  cases registered : scope.symbols.lookup? target with
  | none =>
    rw [throwsUnknown registered made]
    exact throwsEntryUnclosed (by decide) _
  | some symbol =>
    obtain ⟨shape, -, -, typed⟩ := registeredType discovered registered
    rw [throwsKnown registered made, typed]
    refine throwsEntryUnclosed ?_ _
    split
    · exact (typeUnslashed _).2
    · exact (typeUnslashed _).1

theorem throwsAllUnclosed (discovered : scope.Discovered) {targets lines : List String}
    (made : throwsLines scope targets = .ok lines) : ∀ l ∈ lines, Unclosed l.toList := by
  have each := throwsEach made
  clear made
  induction each with
  | nil => exact nofun
  | cons first others ih => exact List.forall_mem_cons.mpr ⟨throwsUnclosed discovered first, ih⟩

theorem docBlockFenced {documentation : Option String} {throws : List String}
    (unclosed : ∀ l ∈ throws, Unclosed l.toList) {block : String}
    (written : docBlock? documentation throws = some block) : Comment.Fenced block := by
  unfold docBlock? at written
  split at written
  · cases documentation with
    | none => exact nomatch written
    | some text => exact (Comment.docBlockDocuments written).fenced
  · cases doc : documentation.bind Comment.docLines? with
    | none =>
      rw [doc] at written
      rw [← Option.some.inj written]
      exact Comment.linesFenced (by simpa using unclosed)
    | some lines =>
      rw [doc] at written
      obtain ⟨text, -, doc⟩ := Option.bind_eq_some_iff.mp doc
      have last : ∀ l ∈ lines ++ [" *"], Unclosed l.toList :=
        List.forall_mem_append.mpr ⟨Comment.docLinesUnclosed doc, by decide⟩
      rw [← Option.some.inj written]
      exact Comment.linesFenced (List.forall_mem_append.mpr ⟨last, unclosed⟩)

end Operation

namespace Comment

def Blank (documentation : Option String) : Prop :=
  ∀ text ∈ documentation, Text.isBlank text.toList = true

end Comment

namespace Scope

variable {scope : Scope}

theorem documentationFenced (discovered : scope.Discovered) (documentation : Option String) :
    (Comment.Blank documentation → Comment.docBlock? documentation = none) ∧
    (∀ text ∈ documentation, ¬ Text.isBlank text.toList = true →
      ∃ block, Comment.docBlock? documentation = some block ∧ Comment.Documents text block) ∧
    ∀ errors : List String, (∀ id ∈ errors, '#' ∈ id.toList) →
      ∃ throws, Operation.throwsLines scope errors = .ok throws ∧
        (errors = [] → Operation.docBlock? documentation throws = Comment.docBlock? documentation) ∧
        (errors ≠ [] → ∃ block, Operation.docBlock? documentation throws = some block) ∧
        ∀ block, Operation.docBlock? documentation throws = some block → Comment.Fenced block := by
  refine ⟨fun blank => ?_, fun text given solid => ?_, fun errors named => ?_⟩
  · cases documentation with
    | none => rfl
    | some text =>
      have none := Comment.docLinesNone.mpr (blank text rfl)
      simp [Comment.docBlock?, none]
  · obtain rfl := given
    cases doc : Comment.docLines? text with
    | none => exact absurd (Comment.docLinesNone.mp doc) solid
    | some lines =>
      have written : Comment.docBlock? (some text) = some (Comment.joinLines ("/**" :: lines ++ [" */"])) := by
        simp [Comment.docBlock?, doc]
      exact ⟨_, written, Comment.docBlockDocuments written⟩
  · obtain ⟨throws, made⟩ := Operation.throwsLinesOk.mpr named
    refine ⟨throws, made, ?_, ?_, fun block written =>
      Operation.docBlockFenced (Operation.throwsAllUnclosed discovered made) written⟩
    · rintro rfl
      cases Operation.throwsEach made
      rfl
    · intro some
      cases Operation.throwsEach made with
      | nil => contradiction
      | cons first others => exact ⟨_, rfl⟩

def reopening : Model where
  version := "2.0"
  shapes := [("com.amazonaws.s3#Gone", .struct [] { Traits.empty with error := some .client })]
  metadata := []
  distinct := by decide
  membersDistinct := by simp [Shape.memberNames]

theorem reopeningFenced : ∃ c throws documented block, Contracts.ofModel ⟨reopening, .standard⟩ = .ok c ∧
    Comment.docBlock? (some " a **/ b\r\n/ c ") = some documented ∧
    Comment.Documents " a **/ b\r\n/ c " documented ∧
    Operation.throwsLines c.scope ["com.amazonaws.s3#Gone", "*/#*/"] = .ok throws ∧
    Operation.docBlock? (some " a **/ b\r\n/ c ") throws = some block ∧ Comment.Fenced block := by
  obtain ⟨c, done⟩ : ∃ c, Contracts.ofModel ⟨reopening, .standard⟩ = .ok c :=
    Contracts.completes (fun b => by cases b <;> rfl) (by decide)
  obtain ⟨-, discovered, -, -⟩ := Contracts.finishedTrace done
  obtain ⟨-, shown, fenced⟩ := documentationFenced discovered (some " a **/ b\r\n/ c ")
  obtain ⟨documented, written, documents⟩ := shown _ rfl (by decide)
  obtain ⟨throws, made, -, some, each⟩ := fenced ["com.amazonaws.s3#Gone", "*/#*/"] (by decide)
  obtain ⟨block, blocked⟩ := some (by simp)
  exact ⟨c, throws, documented, block, done, written, documents, made, blocked, each block blocked⟩

end Scope
end ShapeContracts
