import ShapeContracts.Proofs.PassOrder

/-! Where declarations are written. Every shape with a declaration of its own is declared once in every form
that its file has, and a file holds nothing else: form by form, with the shapes in document order. -/
namespace ShapeContracts

def Shape.isDeclared : Shape → Bool
  | .enum .. | .struct .. | .service .. => true
  | _ => false

namespace Job

def shapesIn (job : Job) (key : FileKey) : List (String × Shape) :=
  job.model.shapes.filter (fun e => e.2.isDeclared && (job.fileOf e.1).toOption == some key)

def declarations (job : Job) (key : FileKey) : List (Pass × String × Shape) :=
  key.sub.passes.flatMap (fun p => (job.shapesIn key).map (fun e => (p, e)))

variable {job : Job} {key : FileKey} {id : String} {shape : Shape}

theorem shapesMem : (id, shape) ∈ job.shapesIn key ↔
    (id, shape) ∈ job.model.shapes ∧ shape.isDeclared = true ∧ job.fileOf id = .ok key := by
  simp only [shapesIn, List.mem_filter, Bool.and_eq_true, beq_iff_eq]
  cases job.fileOf id <;> simp [Except.toOption]

theorem shapesDeclare : (id, shape) ∈ job.shapesIn key ↔
    (id, shape) ∈ job.model.shapes ∧ job.DeclaresIn key id := by
  rw [shapesMem]
  refine and_congr_right (fun entry => ?_)
  have found : job.model.shape? id = some shape := Entries.lookupOfMem job.model.distinct entry
  rw [DeclaresIn, Model.kind?, found, Option.bind_some, and_comm]
  refine and_congr_right (fun _ => ?_)
  cases shape <;> simp [Shape.isDeclared, Shape.kind?]

theorem contentsShape {p : Pass} (form : p ∈ key.sub.passes) :
    (p, id, shape) ∈ job.contents key ↔ (id, shape) ∈ job.shapesIn key := by
  rw [shapesDeclare]
  have listed : ∀ {s : Shape}, (p, id, s) ∈ job.contents key → (id, s) ∈ job.model.shapes :=
    fun mem => (Run.workAll.mp (Contracts.contentsMem.mp mem).1).1
  constructor
  · exact fun mem => ⟨listed mem, (Contracts.contentsExact.mp ⟨shape, mem⟩).1⟩
  · rintro ⟨entry, declares⟩
    obtain ⟨shape', mem⟩ := Contracts.contentsExact.mpr ⟨declares, form⟩
    have found := Entries.lookupOfMem job.model.distinct entry
    have found' := Entries.lookupOfMem job.model.distinct (listed mem)
    rwa [Option.some.inj (found.symm.trans found')]

end Job

theorem Shape.declaredForms {shape : Shape} (declared : shape.isDeclared = true) :
    (SubFile.ofShape (some shape)).passes ≠ [] := by
  cases shape with
  | struct members traits =>
    rw [SubFile.ofShape]
    split <;> simp [SubFile.passes]
  | enum | service => simp [SubFile.ofShape, SubFile.passes]
  | _ => contradiction

theorem Pass.entriesFilter (p : Pass) (m : Model) :
    ∃ keep : String × Shape → Bool, p.entries m = m.shapes.filter keep := by
  cases p with
  | kind kind => exact ⟨_, rfl⟩
  | errorClasses => exact ⟨_, List.filter_filter⟩

theorem SubFile.passesInOrder (sub : SubFile) : Pass.all.filter (· ∈ sub.passes) = sub.passes := by
  cases sub <;> decide

theorem Job.contentsDeclarations (job : Job) (key : FileKey) : job.contents key = job.declarations key := by
  have narrowed := @Run.writesNarrowed job _ key (.refl Pass.all)
  rw [SubFile.passesInOrder] at narrowed
  rw [contents, narrowed, declarations, Run.work, List.filter_flatMap]
  refine List.flatMap_congr (fun p form => ?_)
  obtain ⟨keep, entries⟩ := p.entriesFilter job.model
  rw [List.filter_map, entries, List.filter_filter]
  refine congrArg (List.map _) (List.filter_congr (fun e entry => Bool.eq_iff_iff.mpr ?_))
  obtain ⟨id, shape⟩ := e
  have whole : (id, shape) ∈ p.entries job.model ↔ keep (id, shape) = true := by
    rw [entries, List.mem_filter]
    exact and_iff_right entry
  have listed : p ∈ Pass.all := by
    rw [← SubFile.passesInOrder] at form
    exact (List.mem_filter.mp form).1
  have written : (p, id, shape) ∈ job.contents key ↔
      job.writes key (p, id, shape) = true ∧ keep (id, shape) = true := by
    rw [contents, List.mem_filter, Run.workMem, whole, and_iff_right listed, and_comm]
  rw [Bool.and_eq_true]
  refine Iff.trans written.symm (Iff.trans (contentsShape form) ?_)
  rw [shapesIn, List.mem_filter]
  exact and_iff_right entry

namespace Contracts

variable {job : Job} {c : Contracts}

structure Declares (c : Contracts) (key : FileKey) (x : Pass × String × Shape) (f : Fragment) : Prop where
  made : c.Writes key x f
  exports : f.Exports (x.1.exports (ShapeId.localName x.2.1))
  shown : ∀ e ∈ x.1.exports (ShapeId.localName x.2.1), c.Shows key e.text

structure Placed (c : Contracts) (id : String) (shape : Shape) (key : FileKey) : Prop where
  routed : c.job.fileOf id = .ok key
  form : key.sub = SubFile.ofShape (some shape)
  only : ∀ other, (id, shape) ∈ c.job.shapesIn other ↔ other = key
  symbol : ∀ kind, shape.kind? = some kind → kind.isStandalone = true →
    ∃ symbol, c.run.symbols.lookup? id = some symbol ∧ symbol.fileKey = key ∧
      symbol.schemaName = Naming.schemaName (ShapeId.localName id)

theorem fileDeclares (done : ofModel job = .ok c) (key : FileKey) :
    List.Forall₂ (c.Declares key) (job.declarations key) (c.run.codeOf key) := by
  have each := finishedCode done key
  have exported : ∀ x f, c.Writes key x f → x ∈ job.contents key → f ∈ c.run.codeOf key → c.Declares key x f := by
    intro x f writes mem there
    obtain ⟨parts, named, exports⟩ := writtenExports done mem writes
    rw [← ShapeId.parseLocal named] at exports
    exact ⟨writes, exports, fun e listed => by simpa using codeShown done there (Fragment.exportsShow exports listed)⟩
  rw [← Job.contentsDeclarations]
  refine List.forall₂_iff_get.mpr ⟨each.length_eq, fun i hi hj => ?_⟩
  exact exported _ _ (each.get hi hj) (List.get_mem _ _) (List.get_mem _ _)

theorem declaredNamed (done : ofModel job = .ok c) {id : String} {shape : Shape}
    (entry : (id, shape) ∈ job.model.shapes) (declared : shape.isDeclared = true) :
    ∃ parts, ShapeId.parse id = .ok parts := by
  obtain ⟨-, -, -, trace⟩ := finishedTrace done
  obtain ⟨kind, shaped⟩ : ∃ kind, shape.kind? = some kind := by
    cases shape <;> first | exact ⟨_, rfl⟩ | contradiction
  have listed : (Pass.kind kind, id, shape) ∈ Run.work job.model Pass.all :=
    Run.workAll.mpr ⟨entry, .inl ⟨kind, rfl, shaped⟩⟩
  obtain ⟨r, e, -, made⟩ := Run.traceEach (P := fun _ => True) (fun _ _ _ _ _ _ _ => trivial) trace
    trivial listed
  cases Run.contributionOk listed made with
  | enumeration named => exact ⟨_, named⟩
  | struct named => exact ⟨_, named⟩
  | operation named => exact ⟨_, named⟩
  | service doc plain named => exact ⟨_, named⟩
  | expanded kinded inlined => cases shape <;> contradiction

theorem declaredPlaced (done : ofModel job = .ok c) {id : String} {shape : Shape}
    (entry : (id, shape) ∈ job.model.shapes) (declared : shape.isDeclared = true) :
    ∃ key, c.Placed id shape key := by
  obtain ⟨parts, named⟩ := declaredNamed done entry declared
  obtain ⟨rfl, discovered, -, -⟩ := finishedTrace done
  obtain ⟨key, routed⟩ : ∃ key, c.job.fileOf id = .ok key := ⟨_, bindOk.mpr ⟨parts, named, rfl⟩⟩
  have found : c.job.model.shape? id = some shape := Entries.lookupOfMem c.job.model.distinct entry
  refine ⟨key, routed, found ▸ routedSub routed, fun other => ?_, fun kind shaped standalone => ?_⟩
  · rw [Job.shapesMem, and_iff_right entry, and_iff_right declared, routed]
    exact ⟨fun same => (Except.ok.inj same).symm, congrArg _ ∘ Eq.symm⟩
  · have kinded := schemaKindSome.mpr ⟨shape, found, shaped, ShapeKind.standaloneBears standalone⟩
    obtain ⟨symbol, registered, -⟩ := Scope.registeredSome discovered kinded
    refine ⟨symbol, registered, ?_, ?_⟩
    · exact Except.ok.inj ((writtenFile done registered).symm.trans routed)
    · rw [ShapeId.parseLocal named]
      exact (Scope.registeredNames discovered registered found named).1

theorem shapesForms {key : FileKey} (some : job.shapesIn key ≠ []) : key.sub.passes ≠ [] := by
  obtain ⟨⟨id, shape⟩, mem⟩ := List.exists_mem_of_ne_nil _ some
  obtain ⟨entry, declared, routed⟩ := Job.shapesMem.mp mem
  have found : job.model.shape? id = .some shape := Entries.lookupOfMem job.model.distinct entry
  rw [routedSub routed, found]
  exact Shape.declaredForms declared

theorem writtenFiles (done : ofModel job = .ok c) {key : FileKey} :
    key ∈ c.files.map Prod.fst ↔ job.shapesIn key ≠ [] := by
  have names : c.files.map Prod.fst = c.run.fileKeys := by
    simp [files, Run.files, Function.comp_def]
  have empty : job.declarations key = [] ↔ job.shapesIn key = [] := by
    simp only [Job.declarations, List.flatMap_eq_nil_iff, List.map_eq_nil_iff]
    refine ⟨fun none => by_contra (fun some => ?_), fun none _ _ => none⟩
    obtain ⟨p, form⟩ := List.exists_mem_of_ne_nil _ (shapesForms some)
    exact some (none p form)
  rw [names, writtenKeys, ne_eq, ← List.length_eq_zero_iff, ← (fileDeclares done key).length_eq,
    List.length_eq_zero_iff, empty]

theorem declaredInPlace (done : ofModel job = .ok c) :
    (∀ key, (job.declarations key).Nodup ∧
      List.Forall₂ (c.Declares key) (job.declarations key) (c.run.codeOf key)) ∧
    (∀ id shape, (id, shape) ∈ job.model.shapes → shape.isDeclared = true → ∃ key, c.Placed id shape key) ∧
    (∀ key, key ∈ c.files.map Prod.fst ↔ ∃ id shape, c.Placed id shape key) ∧
    (∀ key ∈ c.files.map Prod.fst, key.sub ≠ .schema) ∧
    (∀ id, (∃ s, c.schema? id = some s) ↔ ∃ kind, job.model.schemaKind? id = some kind) := by
  refine ⟨fun key => ⟨job.contentsDeclarations key ▸ contentsDistinct job key, fileDeclares done key⟩,
    fun id shape => declaredPlaced done, fun key => ?_, fun key there same => ?_, fun id => ?_⟩
  · rw [writtenFiles done]
    constructor
    · intro some
      obtain ⟨⟨id, shape⟩, mem⟩ := List.exists_mem_of_ne_nil _ some
      obtain ⟨entry, declared, -⟩ := Job.shapesMem.mp mem
      obtain ⟨place, placed⟩ := declaredPlaced done entry declared
      obtain rfl := (placed.only key).mp ((finishedTrace done).1 ▸ mem)
      exact ⟨id, shape, placed⟩
    · rintro ⟨id, shape, placed⟩
      have mem := (placed.only key).mpr rfl
      rw [(finishedTrace done).1] at mem
      exact List.ne_nil_of_mem mem
  · refine shapesForms ((writtenFiles done).mp there) ?_
    rw [same]
    rfl
  · constructor
    · rintro ⟨s, there⟩
      cases kinded : job.model.schemaKind? id with
      | some kind => exact ⟨kind, rfl⟩
      | none => cases (schemaless done kinded).symm.trans there
    · rintro ⟨kind, kinded⟩
      exact finishedAll done kinded

def harbour : Model where
  version := "2.0"
  shapes := [
    ("example#Port", .service "1" [] [] .empty),
    ("example#Full", .struct [] { Traits.empty with error := some .server }),
    ("trade#Flag", .enum [("RED", ⟨"smithy.api#Unit", .empty⟩)] .empty),
    ("example#Ships", .list ⟨"example#Ship", .empty⟩ .empty),
    ("example#Ship", .struct [("flag", ⟨"trade#Flag", .empty⟩)] .empty),
    ("example#Shut", .struct [] { Traits.empty with error := some .client })]
  metadata := []
  distinct := by decide
  membersDistinct := by simp [Shape.memberNames]

theorem harbourErrors : (Job.declarations ⟨harbour, .standard⟩ (.shared "example" .errors)).map
    (fun x => (x.1, x.2.1)) = [(.kind .struct, "example#Full"), (.kind .struct, "example#Shut"),
      (.errorClasses, "example#Full"), (.errorClasses, "example#Shut")] := by
  rfl

theorem harbourPlaced : ∃ c, ofModel ⟨harbour, .standard⟩ = .ok c ∧
    (c.run.codeOf (.shared "example" .errors)).length = 4 ∧
    FileKey.shared "trade" .enums ∈ c.files.map Prod.fst ∧
    (∃ key, c.Placed "example#Port" (.service "1" [] [] .empty) key) ∧
    ∃ s, c.schema? "example#Ships" = some s := by
  obtain ⟨c, done⟩ : ∃ c, ofModel ⟨harbour, .standard⟩ = .ok c :=
    completes (fun b => by cases b <;> rfl) (by decide)
  obtain ⟨written, placed, files, -, recorded⟩ := declaredInPlace done
  refine ⟨c, done, ?_, ?_, placed _ _ (by simp [harbour]) rfl, (recorded _).mpr ⟨.list, rfl⟩⟩
  · rw [← (written _).2.length_eq]
    exact (List.length_map _).symm.trans (congrArg List.length harbourErrors)
  · have flag : ("trade#Flag", .enum [("RED", ⟨"smithy.api#Unit", .empty⟩)] .empty) ∈ harbour.shapes := by
      simp [harbour]
    obtain ⟨key, flagPlaced⟩ := placed _ _ flag rfl
    have routed : Job.fileOf ⟨harbour, .standard⟩ "trade#Flag" = .ok (.shared "trade" .enums) := by rfl
    obtain rfl := Except.ok.inj (routed.symm.trans ((finishedTrace done).1 ▸ flagPlaced.routed))
    exact (files _).mpr ⟨_, _, flagPlaced⟩

end Contracts
end ShapeContracts
