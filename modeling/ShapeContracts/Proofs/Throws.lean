import ShapeContracts.Proofs.DocBlocks
import ShapeContracts.Proofs.FatalExact
import ShapeContracts.Proofs.Placement
import ShapeContracts.Proofs.Signatures

/-! What the documentation of an operation says that it throws. An error structure is named by its class, and
a target that has no schema is told by its identifier; a shape that has a schema but is no error is named by
its type, which is never a class. -/
namespace ShapeContracts

namespace Unicode

theorem ofNatCode {n : Nat} {c : Char} (apart : c ≠ '\x00') (same : Char.ofNat n = c) : n = c.toNat := by
  by_cases valid : n.isValidChar
  · have code : Char.ofNat n = Char.ofNatAux n valid := dif_pos valid
    rw [← same, code]
    rfl
  · have none : Char.ofNat n = '\x00' := dif_neg valid
    exact absurd (same.symm.trans none) apart

theorem mappedApart {runs : List Run} {code : Nat} (some : code ≠ 0) (avoid : ∀ r ∈ runs,
      ¬ ((r.first : Int) ≤ code - r.delta ∧ (code : Int) - r.delta ≤ r.last)) (n : Nat) :
    mapped? runs n ≠ Option.some code := by
  intro found
  obtain ⟨r, mem, same⟩ := Option.map_eq_some_iff.mp found
  have range := List.find?_some mem
  simp only [Bool.and_eq_true, decide_eq_true_eq] at range
  exact avoid r (List.mem_of_find?_eq_some mem) (by omega)

theorem asciiUpper : ∀ n < 128, (Char.ofNat n).toUpper ≠ 'u' := by decide +kernel

theorem uppercaseFirst (c : Char) : ∃ d rest, uppercase c = d :: rest ∧ d ≠ 'u' := by
  unfold uppercase
  split
  · rename_i ascii
    exact ⟨_, [], rfl, Char.ofNat_toNat c ▸ asciiUpper c.toNat ascii⟩
  rename_i wide
  split
  · rename_i forms found
    obtain ⟨before, after, same, -⟩ := List.lookup_eq_some_iff.mp found
    have listed : (c.toNat, forms) ∈ upperRunsSpecial := by simp [same]
    have first : ∀ e ∈ upperRunsSpecial, e.2 ≠ [] ∧ e.2.head? ≠ some 'u'.toNat := by decide +kernel
    obtain ⟨some, apart⟩ := first _ listed
    obtain ⟨form, rest, rfl⟩ := List.exists_cons_of_ne_nil some
    refine ⟨_, _, rfl, fun same => apart ?_⟩
    exact congrArg Option.some (ofNatCode (by decide) same)
  · refine ⟨_, [], rfl, ?_⟩
    cases found : mapped? upperRuns c.toNat with
    | none =>
      rintro rfl
      exact wide (by decide)
    | some n =>
      intro same
      have code := ofNatCode (by decide) same
      exact mappedApart (by decide) (by decide +kernel) c.toNat (code ▸ found)

end Unicode

namespace Text

theorem capitalsFirst (ws : List (List Char)) : (ws.flatMap capitalWord).head? ≠ some 'u' := by
  induction ws with
  | nil => exact nofun
  | cons w rest ih =>
    cases w with
    | nil => exact ih
    | cons c cs =>
      obtain ⟨d, later, upper, apart⟩ := Unicode.uppercaseFirst c
      rw [List.flatMap_cons, capitalWord, upper]
      exact fun same => apart (Option.some.inj same)

end Text

theorem Naming.typeNamed (name : String) : typeName name ≠ "unknown" := by
  intro same
  have first := Text.capitalsFirst (Text.words name.toList)
  rw [typeName, Text.upperCamel, ← String.toList_inj, String.toList_ofList] at same
  rw [same] at first
  exact first rfl

theorem Shape.errorStruct {shape : Shape} (error : shape.isError = true) :
    ∃ members traits, shape = .struct members traits := by
  cases shape with
  | struct members traits => exact ⟨members, traits, rfl⟩
  | _ => contradiction

namespace Model

def Raises (m : Model) (target : String) (traits : Traits) : Prop :=
  ∃ members, m.shape? target = some (.struct members traits) ∧ traits.error.isSome = true

def Stray (m : Model) (target : String) : Prop :=
  (∃ kind, m.schemaKind? target = some kind) ∧ ∀ traits, ¬ m.Raises target traits

def Promises (m : Model) (target typeName : String) : Prop :=
  ((∃ traits, m.Raises target traits) ∧ typeName = Naming.errorClassName (ShapeId.localName target)) ∨
    ((∀ traits, ¬ m.Raises target traits) ∧ typeName = "unknown")

end Model

namespace Operation

def describe (documentation : Option String) (typeName : String) : String :=
  (summary? documentation).getD (String.join ["This operation may throw ", typeName, "."])

def opening (documentation : Option String) : List String :=
  "/**" :: ((documentation.bind Comment.docLines?).map (fun lines => lines ++ [" *"])).getD []

theorem docBlockThrows (documentation : Option String) {throws : List String} (throwing : throws ≠ []) :
    docBlock? documentation throws =
      some (Comment.joinLines (opening documentation ++ throws ++ [" */"])) := by
  rw [docBlock?, if_neg (List.isEmpty_iff.not.mpr throwing), opening]
  cases documentation.bind Comment.docLines? <;> rfl

end Operation

namespace Contracts

inductive Throws (c : Contracts) (target : String) : String → String → Prop where
  | raised {traits : Traits} {file : FileKey} (raises : c.job.model.Raises target traits)
      (provides : c.Provides file target ⟨.errorClass, Naming.errorClassName (ShapeId.localName target)⟩) :
      Throws c target (Naming.errorClassName (ShapeId.localName target))
        (Operation.describe traits.documentation (Naming.errorClassName (ShapeId.localName target)))
  | stray {shape : Shape} (found : c.job.model.shape? target = some shape)
      (stray : c.job.model.Stray target) : Throws c target (Naming.typeName (ShapeId.localName target))
        (Operation.describe (shape.traits?.bind Traits.documentation)
          (Naming.typeName (ShapeId.localName target)))
  | unknown (schemaless : c.job.model.schemaKind? target = none) : Throws c target "unknown"
      (String.join ["This operation may throw an unknown error type (", target, ")."])

variable {job : Job} {c : Contracts}

theorem raisesClass (done : ofModel job = .ok c) {target : String} {traits : Traits}
    (raises : job.model.Raises target traits) : ∃ file,
      c.Provides file target ⟨.errorClass, Naming.errorClassName (ShapeId.localName target)⟩ := by
  obtain rfl := (finishedTrace done).1
  obtain ⟨members, found, error⟩ := raises
  have entry := Entries.memOfLookup found
  obtain ⟨file, placed⟩ := declaredPlaced done entry rfl
  obtain ⟨parts, named⟩ := declaredNamed done entry rfl
  have listed : (Pass.errorClasses, target, Shape.struct members traits) ∈ c.job.contents file :=
    contentsMem.mpr ⟨Run.workAll.mpr ⟨entry, .inr ⟨rfl, rfl, error⟩⟩, rfl, placed.routed⟩
  exact ⟨file, contentProvides done listed named (ShapeId.parseLocal named ▸ List.mem_singleton_self _)⟩

theorem throwsMade (done : ofModel job = .ok c) {target line : String}
    (made : Operation.throwsLine c.scope target = .ok line) :
    ∃ typeName description, c.Throws target typeName description ∧
      line = Operation.throwsEntry typeName description := by
  obtain ⟨rfl, discovered, -, -⟩ := finishedTrace done
  cases registered : c.scope.symbols.lookup? target with
  | none =>
    have schemaless := (Scope.registeredNone discovered).mp registered
    exact ⟨_, _, .unknown schemaless, Operation.throwsUnknown registered made⟩
  | some symbol =>
    obtain ⟨kinded, -⟩ := Scope.registeredKind discovered registered
    obtain ⟨shape, found, shaped, typed⟩ := Operation.registeredType discovered registered
    have line := Operation.throwsKnown registered made
    rw [found, Option.bind_some, typed] at line
    by_cases error : shape.isError = true
    · rw [if_pos error] at line
      obtain ⟨members, traits, rfl⟩ := Shape.errorStruct error
      have raises : c.job.model.Raises target traits := ⟨members, found, error⟩
      obtain ⟨file, provides⟩ := raisesClass done raises
      exact ⟨_, _, .raised raises provides, line⟩
    · rw [if_neg error] at line
      refine ⟨_, _, .stray found ⟨⟨_, kinded⟩, fun traits raises => error ?_⟩, line⟩
      obtain ⟨members, found', error'⟩ := raises
      cases found.symm.trans found'
      exact error'

theorem throwsPromised {target typeName description : String} (throws : c.Throws target typeName description) :
    c.job.model.Promises target typeName ↔ ¬ c.job.model.Stray target := by
  cases throws with
  | raised raises provides => exact iff_of_true (.inl ⟨⟨_, raises⟩, rfl⟩) (fun stray => stray.2 _ raises)
  | unknown schemaless =>
    refine iff_of_true (.inr ⟨fun traits raises => ?_, rfl⟩) (fun stray => ?_)
    · obtain ⟨members, found, -⟩ := raises
      exact nomatch schemaless.symm.trans (schemaKindSome.mpr ⟨_, found, rfl, rfl⟩)
    · obtain ⟨kind, kinded⟩ := stray.1
      exact nomatch schemaless.symm.trans kinded
  | stray found stray =>
    refine iff_of_false (fun promises => ?_) (fun other => other stray)
    rcases promises with ⟨⟨traits, raises⟩, -⟩ | ⟨-, unknown⟩
    · exact stray.2 traits raises
    · exact Naming.typeNamed _ unknown

theorem throwsAll (done : ofModel job = .ok c) {targets lines : List String}
    (made : Operation.throwsLines c.scope targets = .ok lines) :
    ∃ entries : List (String × String), lines = entries.map (fun e => Operation.throwsEntry e.1 e.2) ∧
      List.Forall₂ (fun target e => c.Throws target e.1 e.2 ∧
        (job.model.Promises target e.1 ↔ ¬ job.model.Stray target)) targets entries := by
  obtain rfl := (finishedTrace done).1
  have each := Operation.throwsEach made
  clear made
  induction each with
  | nil => exact ⟨[], rfl, .nil⟩
  | cons first others ih =>
    obtain ⟨typeName, description, throws, rfl⟩ := throwsMade done first
    obtain ⟨entries, rfl, each⟩ := ih
    exact ⟨(typeName, description) :: entries, rfl, .cons ⟨throws, throwsPromised throws⟩ each⟩

theorem throwsDocumented (done : ofModel job = .ok c) {id : String} {input output : Option String}
    {errors : List String} {traits : Traits}
    (found : job.model.shape? id = some (.operation input output errors traits)) :
    ∃ s entries, c.run.signatures.lookup id = some s ∧
      List.Forall₂ (fun target (e : String × String) => c.Throws target e.1 e.2 ∧
        (job.model.Promises target e.1 ↔ ¬ job.model.Stray target)) errors entries ∧
      s.doc = if errors = [] then Comment.docBlock? traits.documentation else
        some (Comment.joinLines (Operation.opening traits.documentation ++
          entries.map (fun e => Operation.throwsEntry e.1 e.2) ++ [" */"])) := by
  obtain ⟨s, signed, signs⟩ := operationSigned done found
  obtain ⟨throws, made, documented⟩ := signs.documented
  obtain ⟨entries, rfl, each⟩ := throwsAll done made
  refine ⟨s, entries, signed, each, ?_⟩
  rw [documented]
  split
  · rename_i none
    subst none
    cases each
    rfl
  · rename_i some
    refine Operation.docBlockThrows _ (fun none => some ?_)
    rw [List.map_eq_nil_iff.mp none] at each
    cases each
    rfl

def library (errors : List String) : Model where
  version := "2.0"
  shapes := [
    ("com.amazonaws.s3#Library", .service none ["com.amazonaws.s3#Lend"] [] .empty),
    ("com.amazonaws.s3#Lend", .operation none none errors .empty),
    ("com.amazonaws.s3#Overdue", .struct [] { Traits.empty with error := some .client }),
    ("com.amazonaws.s3#Book", .struct [] .empty)]
  metadata := []
  distinct := by simp
  membersDistinct := by simp [Shape.memberNames]

theorem libraryDocumented : ∃ c s entries, ofModel ⟨library ["com.amazonaws.s3#Overdue", "com.amazonaws.s3#Book",
      "com.amazonaws.s3#Gone"], .standard⟩ = .ok c ∧
    c.run.signatures.lookup "com.amazonaws.s3#Lend" = some s ∧
    s.doc = some (Comment.joinLines ("/**" ::
      entries.map (fun e => Operation.throwsEntry e.1 e.2) ++ [" */"])) ∧
    List.Forall₂ (fun target (e : String × String) => c.Throws target e.1 e.2)
      ["com.amazonaws.s3#Overdue", "com.amazonaws.s3#Book", "com.amazonaws.s3#Gone"] entries := by
  obtain ⟨c, done⟩ : ∃ c, ofModel ⟨library ["com.amazonaws.s3#Overdue", "com.amazonaws.s3#Book",
      "com.amazonaws.s3#Gone"], .standard⟩ = .ok c :=
    completes (fun b => by cases b <;> rfl) (by decide)
  obtain ⟨s, entries, signed, each, documented⟩ := throwsDocumented done
    (rfl : Model.shape? _ "com.amazonaws.s3#Lend" = _)
  exact ⟨c, s, entries, done, signed, documented, each.imp (fun _ _ h => h.1)⟩

theorem plainThrown : ∃ c s, ofModel ⟨library ["com.amazonaws.s3#Book"], .standard⟩ = .ok c ∧
    c.run.signatures.lookup "com.amazonaws.s3#Lend" = some s ∧
    s.doc = some "/**\n * @throws \x7bBook\x7d This operation may throw Book.\n */" ∧
    ¬ (library ["com.amazonaws.s3#Book"]).Promises "com.amazonaws.s3#Book" "Book" ∧
    ∀ file id, ¬ c.Provides file id ⟨.errorClass, "Book"⟩ := by
  obtain ⟨c, done⟩ : ∃ c, ofModel ⟨library ["com.amazonaws.s3#Book"], .standard⟩ = .ok c :=
    completes (fun b => by cases b <;> rfl) (by decide)
  have same := (finishedTrace done).1
  have plain : ∀ traits, ¬ (library ["com.amazonaws.s3#Book"]).Raises "com.amazonaws.s3#Book" traits := by
    rintro traits ⟨members, found, error⟩
    cases found
    contradiction
  obtain ⟨s, signed, signs⟩ := operationSigned done (rfl : Model.shape? _ "com.amazonaws.s3#Lend" = _)
  obtain ⟨throws, made, documented⟩ := signs.documented
  have each := Operation.throwsEach made
  refine ⟨c, s, done, signed, ?_, ?_, ?_⟩
  · cases each with
    | cons first none =>
      cases none
      obtain ⟨typeName, description, throws, rfl⟩ := throwsMade done first
      cases throws with
      | raised raises => exact absurd (same ▸ raises) (plain _)
      | unknown schemaless =>
        rw [same] at schemaless
        contradiction
      | stray found =>
        rw [same] at found
        cases found
        have name : Naming.typeName (ShapeId.localName "com.amazonaws.s3#Book") = "Book" := by decide +kernel
        rw [documented, name]
        decide +kernel
  · rintro (⟨⟨traits, raises⟩, -⟩ | ⟨-, unknown⟩)
    · exact plain traits raises
    · exact absurd unknown (by decide)
  · intro file id provides
    obtain @⟨p, shape, parts, f, -, -, -, -, -, listed⟩ := provides
    cases p with
    | kind kind => cases kind <;> simp [Pass.exports] at listed
    | errorClasses =>
      have longer : "Book".length = (Naming.errorClassName parts.name).length :=
        congrArg (fun e => e.name.length) (List.mem_singleton.mp listed)
      rw [Naming.errorClassName, String.length_append] at longer
      have short : "Book".length = 4 ∧ "Error".length = 5 := by decide
      omega

end Contracts
end ShapeContracts
