import Mathlib.Data.List.Pairwise
import ShapeContracts.Proofs.Emitted

/-! When the names that a file declares are distinct. Names are case conversions of local names, with a
suffix for each form, so they are distinct exactly as long as no conversion merges the local names
of two shapes of the file; the names of one shape, and the forms that share a file, never clash. -/
namespace ShapeContracts

namespace Text

open Unicode

theorem lowercaseSome (c : Char) : 1 ≤ (lowercase c).length := by
  unfold lowercase
  split
  · simp
  · split
    · rename_i forms found
      have each : ∀ e ∈ lowerRunsSpecial, 1 ≤ e.2.length := by decide
      obtain ⟨before, after, same, -⟩ := List.lookup_eq_some_iff.mp found
      rw [List.length_map]
      exact each (c.toNat, forms) (by simp [same])
    · simp

theorem uppercaseShort (c : Char) : (uppercase c).length ≤ 3 := by
  unfold uppercase
  split
  · simp
  · split
    · rename_i forms found
      have each : ∀ e ∈ upperRunsSpecial, e.2.length ≤ 3 := by decide
      obtain ⟨before, after, same, -⟩ := List.lookup_eq_some_iff.mp found
      rw [List.length_map]
      exact each (c.toNat, forms) (by simp [same])
    · simp

theorem lowerWordLength (c : Char) (rest : List Char) :
    (lowerWord rest).length + 1 ≤ (lowerWord (c :: rest)).length := by
  by_cases sigma : c = 'Σ' ∧ rest = []
  · obtain ⟨rfl, rfl⟩ := sigma
    decide
  · have some := lowercaseSome c
    rw [lowerWord.eq_3 c rest (fun same none => sigma ⟨same, none⟩), List.length_append]
    omega

theorem capitalWordLength (w : List Char) : (capitalWord w).length ≤ (lowerWord w).length + 2 := by
  cases w with
  | nil => simp [capitalWord]
  | cons c rest =>
    have short := uppercaseShort c
    have long := lowerWordLength c rest
    rw [capitalWord, List.length_append]
    omega

theorem upperCamelLength (s : String) : (upperCamel s).toList.length ≤ (lowerCamel s).toList.length + 2 := by
  unfold upperCamel lowerCamel
  cases words s.toList with
  | nil => simp
  | cons w ws =>
    have first := capitalWordLength w
    simp only [List.flatMap_cons, String.toList_ofList, List.length_append]
    omega

end Text

namespace Naming

open Text (lowerCamel upperCamel)

theorem schemaNames {a b : String} : schemaName a = schemaName b ↔ lowerCamel a = lowerCamel b :=
  String.append_left_inj _

theorem errorClassNames {a b : String} : errorClassName a = errorClassName b ↔ upperCamel a = upperCamel b :=
  String.append_left_inj _

theorem serviceNames {a b : String} : serviceName a = serviceName b ↔ upperCamel a = upperCamel b :=
  String.append_left_inj _

theorem ownNames (a : String) : typeName a ≠ schemaName a := by
  intro same
  have short := Text.upperCamelLength a
  have long := congrArg (fun s => s.toList.length) same
  simp only [typeName, schemaName, String.toList_append, List.length_append] at long
  have suffix : "Schema".toList.length = 6 := rfl
  omega

theorem schemaNotError (a b : String) : schemaName a ≠ errorClassName b := by
  intro same
  have last := congrArg (fun s => s.toList.getLast?) same
  simp [schemaName, errorClassName] at last

end Naming

/-- The case conversions of two local names coincide in a file of the kind. -/
def SubFile.Merges (a b : String) : SubFile → Prop
  | service => Text.upperCamel a = Text.upperCamel b
  | structures => Text.lowerCamel a = Text.lowerCamel b
  | errors => Text.lowerCamel a = Text.lowerCamel b ∨ Text.upperCamel a = Text.upperCamel b
  | enums => Text.lowerCamel a = Text.lowerCamel b ∨ Text.upperCamel a = Text.upperCamel b ∨
      Text.upperCamel a = Text.lowerCamel b ++ "Schema" ∨ Text.upperCamel b = Text.lowerCamel a ++ "Schema"
  | schema => False

namespace Job

def exportsOf (job : Job) (key : FileKey) : List (List Export) :=
  (job.contents key).map (fun x => x.1.exports (ShapeId.localName x.2.1))

def DeclaresIn (job : Job) (key : FileKey) (id : String) : Prop :=
  job.fileOf id = .ok key ∧ ∃ kind ∈ [ShapeKind.enum, .struct, .service], job.model.kind? id = some kind

end Job

def SubFile.passes : SubFile → List Pass
  | service => [.kind .service]
  | enums => [.kind .enum]
  | structures => [.kind .struct]
  | errors => [.kind .struct, .errorClasses]
  | schema => []

def Pass.names (p : Pass) (localName : String) : List String := (p.exports localName).map Export.name

theorem passesShare {sub : SubFile} {a b : String} : sub.Merges a b ↔
    ∃ p ∈ sub.passes, ∃ q ∈ sub.passes, ∃ n, n ∈ p.names a ∧ n ∈ q.names b := by
  cases sub with
  | service =>
    simp only [SubFile.Merges, SubFile.passes, Pass.names, Pass.exports, List.mem_singleton,
      exists_eq_left, List.map_cons, List.map_nil, ← Naming.serviceNames]
  | structures =>
    simp only [SubFile.Merges, SubFile.passes, Pass.names, Pass.exports, List.mem_singleton,
      exists_eq_left, List.map_cons, List.map_nil, ← Naming.schemaNames]
  | enums =>
    have types : Naming.typeName a = Naming.typeName b ↔ Text.upperCamel a = Text.upperCamel b := Iff.rfl
    have mixed : ∀ x y, Naming.typeName x = Naming.schemaName y ↔
        Text.upperCamel x = Text.lowerCamel y ++ "Schema" := fun _ _ => Iff.rfl
    simp only [SubFile.Merges, SubFile.passes, Pass.names, Pass.exports,
      exists_eq_left, List.map_cons, List.map_nil, List.mem_cons, List.not_mem_nil, or_false,
      ← Naming.schemaNames, ← types, ← mixed]
    constructor
    · rintro (same | same | same | same)
      · exact ⟨_, .inr rfl, .inr same⟩
      · exact ⟨_, .inl rfl, .inl same⟩
      · exact ⟨_, .inl rfl, .inr same⟩
      · exact ⟨_, .inr rfl, .inl same.symm⟩
    · rintro ⟨n, rfl | rfl, same | same⟩
      · exact .inr (.inl same)
      · exact .inr (.inr (.inl same))
      · exact .inr (.inr (.inr same.symm))
      · exact .inl same
  | errors =>
    simp only [SubFile.Merges, SubFile.passes, Pass.names, Pass.exports,
      exists_eq_left, List.map_cons, List.map_nil, List.mem_cons, List.not_mem_nil, or_false,
      exists_eq_or_imp, ← Naming.schemaNames, ← Naming.errorClassNames, Naming.schemaNotError,
      (Naming.schemaNotError _ _).symm, false_or]
  | schema => simp [SubFile.Merges, SubFile.passes]

theorem passesApart {sub : SubFile} {p q : Pass} (hp : p ∈ sub.passes) (hq : q ∈ sub.passes)
    (other : p ≠ q) (a : String) : List.Disjoint (p.names a) (q.names a) := by
  have apart := Naming.schemaNotError a a
  cases sub <;> simp [SubFile.passes] at hp hq
  · exact absurd (hp.trans hq.symm) other
  · exact absurd (hp.trans hq.symm) other
  · exact absurd (hp.trans hq.symm) other
  · rcases hp with rfl | rfl <;> rcases hq with rfl | rfl
    · exact absurd rfl other
    · simpa [Pass.names, Pass.exports] using apart.symm
    · simpa [Pass.names, Pass.exports] using apart
    · exact absurd rfl other

theorem passesOwn (p : Pass) (a : String) : (p.names a).Nodup := by
  have apart := Naming.ownNames a
  unfold Pass.names
  fun_cases Pass.exports a p <;> simp [apart]

namespace Contracts

variable {job : Job} {c : Contracts}

theorem exportedNames {key : FileKey} : (job.exportsOf key).flatten.map Export.name =
    (job.contents key).flatMap (fun x => x.1.names (ShapeId.localName x.2.1)) := by
  simp only [Job.exportsOf, Pass.names, List.map_flatten, List.map_map, List.flatMap]
  rfl

theorem finishedExports (done : ofModel job = .ok c) (key : FileKey) :
    List.Forall₂ Fragment.Exports (c.run.codeOf key) (job.exportsOf key) := by
  have each := finishedCode done key
  refine List.forall₂_iff_get.mpr ⟨by simp [Job.exportsOf, each.length_eq], fun i hi hj => ?_⟩
  have inside : i < (job.contents key).length := each.length_eq.symm ▸ hi
  obtain ⟨parts, named, exports⟩ := writtenExports done (List.getElem_mem inside) (each.get inside hi)
  simpa [Job.exportsOf, ShapeId.parseLocal named] using exports

theorem exportsShown (done : ofModel job = .ok c) {key : FileKey} {es : List Export}
    (listed : es ∈ job.exportsOf key) {e : Export} (mem : e ∈ es) : c.Shows key e.text := by
  obtain ⟨f, there, exports⟩ := Entries.paired (finishedExports done key).flip listed
  simpa using codeShown done there (Fragment.exportsShow exports mem)

theorem routedSub {id : String} {key : FileKey} (routed : job.fileOf id = .ok key) :
    key.sub = SubFile.ofShape (job.model.shape? id) := by
  obtain ⟨parts, -, routed⟩ := bindOk.mp routed
  obtain rfl := pureOk.mp routed
  split <;> rfl

theorem contentsExact {key : FileKey} {p : Pass} {id : String} :
    (∃ shape, (p, id, shape) ∈ job.contents key) ↔ job.DeclaresIn key id ∧ p ∈ key.sub.passes := by
  have kinds : ∀ {shape}, job.model.shape? id = some shape → job.model.kind? id = shape.kind? := by
    intro shape found
    rw [Model.kind?, found]
    rfl
  constructor
  · rintro ⟨shape, mem⟩
    obtain ⟨work, declares, routed⟩ := contentsMem.mp mem
    obtain ⟨entry, how⟩ := Run.workAll.mp work
    have found : job.model.shape? id = some shape := Entries.lookupOfMem job.model.distinct entry
    have sub := routedSub routed
    rw [found] at sub
    rw [Job.DeclaresIn, kinds found, sub]
    refine ⟨⟨routed, ?_⟩, ?_⟩
    · rcases how with ⟨kind, rfl, shaped⟩ | ⟨rfl, shaped, -⟩
      · refine ⟨kind, ?_, shaped⟩
        cases kind <;> first | contradiction | simp
      · exact ⟨_, by simp, shaped⟩
    · rcases how with ⟨kind, rfl, shaped⟩ | ⟨rfl, shaped, flagged⟩
      · cases shape with
        | enum | service =>
          obtain rfl := Option.some.inj shaped
          exact List.mem_singleton_self _
        | struct members traits =>
          obtain rfl := Option.some.inj shaped
          rw [SubFile.ofShape]
          split <;> exact List.mem_cons_self
        | unsupported => contradiction
        | _ =>
          obtain rfl := Option.some.inj shaped
          contradiction
      · cases shape with
        | struct members traits =>
          have error : traits.error.isSome = true := flagged
          rw [SubFile.ofShape, if_pos error]
          exact List.mem_cons_of_mem _ List.mem_cons_self
        | _ => contradiction
  · rintro ⟨⟨routed, kind, declared, kinded⟩, listed⟩
    obtain ⟨shape, found, shaped⟩ : ∃ shape, job.model.shape? id = some shape ∧ shape.kind? = some kind := by
      cases found : job.model.shape? id with
      | none => simp [Model.kind?, found] at kinded
      | some shape => exact ⟨shape, rfl, (kinds found).symm.trans kinded⟩
    refine ⟨shape, contentsMem.mpr ⟨Run.workAll.mpr ⟨Entries.memOfLookup found, ?_⟩, ?_, routed⟩⟩
    · rw [routedSub routed, found] at listed
      cases shape with
      | enum | service =>
        obtain rfl := Option.some.inj shaped
        exact .inl ⟨_, List.mem_singleton.mp listed, rfl⟩
      | struct members traits =>
        obtain rfl := Option.some.inj shaped
        rw [SubFile.ofShape] at listed
        split at listed
        · rename_i flagged
          rcases List.mem_cons.mp listed with rfl | listed
          · exact .inl ⟨_, rfl, rfl⟩
          · exact .inr ⟨List.mem_singleton.mp listed, rfl, flagged⟩
        · exact .inl ⟨_, List.mem_singleton.mp listed, rfl⟩
      | _ => contradiction
    · have all : ∀ p ∈ key.sub.passes, p.declares = true := by
        cases key.sub <;> simp [SubFile.passes, Pass.declares]
      exact all p listed

theorem contentsDistinct (job : Job) (key : FileKey) : (job.contents key).Nodup := by
  have shapes : job.model.shapes.Nodup := job.model.distinct.of_map _
  refine List.Nodup.filter _ (List.nodup_flatMap.mpr ⟨fun p _ => ?_, ?_⟩)
  · refine List.Nodup.map (fun _ _ same => (Prod.mk.inj same).2) ?_
    cases p with
    | kind kind => exact shapes.filter _
    | errorClasses => exact (shapes.filter _).filter _
  · have passes : Pass.all.Nodup := by decide
    refine passes.imp (fun {p q} other => ?_)
    simp only [Function.onFun, List.Disjoint, List.mem_map]
    rintro x ⟨e, -, rfl⟩ ⟨e', -, same⟩
    exact other (Prod.mk.inj same).1.symm

theorem declaredOnce (done : ofModel job = .ok c) (key : FileKey) :
    List.Forall₂ Fragment.Exports (c.run.codeOf key) (job.exportsOf key) ∧
      (∀ es ∈ job.exportsOf key, ∀ e ∈ es, c.Shows key e.text) ∧
      (((job.exportsOf key).flatten.map Export.name).Nodup ↔
        ∀ id id', job.DeclaresIn key id → job.DeclaresIn key id' → id ≠ id' →
          ¬ key.sub.Merges (ShapeId.localName id) (ShapeId.localName id')) := by
  refine ⟨finishedExports done key, fun es listed e => exportsShown done listed, ?_⟩
  rw [exportedNames, List.nodup_flatMap]
  constructor
  · rintro ⟨-, apart⟩ id id' declares declares' other merges
    obtain ⟨p, hp, q, hq, n, here, there⟩ := passesShare.mp merges
    obtain ⟨shape, mem⟩ := contentsExact.mpr ⟨declares, hp⟩
    obtain ⟨shape', mem'⟩ := contentsExact.mpr ⟨declares', hq⟩
    have symmetric : Std.Symm (Function.onFun List.Disjoint fun x : Pass × String × Shape =>
        x.1.names (ShapeId.localName x.2.1)) := ⟨fun _ _ disjoint _ there here => disjoint here there⟩
    exact apart.forall mem mem' (fun same => other (congrArg (fun x => x.2.1) same)) here there
  · intro unmerged
    refine ⟨fun x _ => passesOwn _ _, (contentsDistinct job key).pairwise_of_forall_ne ?_⟩
    rintro ⟨p, id, shape⟩ mem ⟨q, id', shape'⟩ mem' other
    obtain ⟨declares, hp⟩ := contentsExact.mp ⟨shape, mem⟩
    obtain ⟨declares', hq⟩ := contentsExact.mp ⟨shape', mem'⟩
    by_cases same : id = id'
    · subst same
      have pass : p ≠ q := by
        rintro rfl
        have entry := (Run.workAll.mp (contentsMem.mp mem).1).1
        have entry' := (Run.workAll.mp (contentsMem.mp mem').1).1
        have found := Entries.lookupOfMem job.model.distinct entry
        have found' := Entries.lookupOfMem job.model.distinct entry'
        rw [Option.some.inj (found.symm.trans found')] at other
        contradiction
      exact passesApart hp hq pass _
    · intro n here there
      exact unmerged id id' declares declares' same (passesShare.mpr ⟨p, hp, q, hq, n, here, there⟩)

def locks : Model where
  version := "2.0"
  shapes := [("com.amazonaws.s3#ObjectLock", .struct [] .empty),
    ("com.amazonaws.s3#Object_Lock", .struct [] .empty),
    ("com.amazonaws.s3#LockExpired", .struct [] .empty)]
  metadata := []
  distinct := by decide
  membersDistinct := by simp [Shape.memberNames]

theorem locksComplete : ∃ c, ofModel ⟨locks, .standard⟩ = .ok c :=
  completes (fun b => by cases b <;> rfl) (by decide)

theorem locksExports : Job.exportsOf ⟨locks, .standard⟩ (.primary .structures) =
    [[⟨.constant, "objectLockSchema"⟩], [⟨.constant, "objectLockSchema"⟩],
      [⟨.constant, "lockExpiredSchema"⟩]] := by
  rfl

theorem locksRepeat : ¬ ((Job.exportsOf ⟨locks, .standard⟩ (.primary .structures)).flatten.map
    Export.name).Nodup := by
  rw [locksExports]
  decide

theorem locksClash : ∃ c exports, ofModel ⟨locks, .standard⟩ = .ok c ∧
    List.Forall₂ Fragment.Exports (c.run.codeOf (.primary .structures)) exports ∧
    exports.flatten = [⟨.constant, "objectLockSchema"⟩, ⟨.constant, "objectLockSchema"⟩,
      ⟨.constant, "lockExpiredSchema"⟩] ∧ ¬ (exports.flatten.map Export.name).Nodup ∧
    c.Shows (.primary .structures) "export const objectLockSchema " := by
  obtain ⟨c, done⟩ := locksComplete
  have listed : [⟨.constant, "objectLockSchema"⟩] ∈ Job.exportsOf ⟨locks, .standard⟩ (.primary .structures) := by
    rw [locksExports]
    exact List.mem_cons_self
  have shown := exportsShown done listed (List.mem_singleton_self _)
  have text : Export.text ⟨.constant, "objectLockSchema"⟩ = "export const objectLockSchema " := by decide
  exact ⟨c, _, done, finishedExports done _, congrArg List.flatten locksExports, locksRepeat, text ▸ shown⟩

theorem locksMerge : ∃ c, ofModel ⟨locks, .standard⟩ = .ok c ∧ ∃ id id',
    Job.DeclaresIn ⟨locks, .standard⟩ (.primary .structures) id ∧
    Job.DeclaresIn ⟨locks, .standard⟩ (.primary .structures) id' ∧ id ≠ id' ∧
    SubFile.structures.Merges (ShapeId.localName id) (ShapeId.localName id') := by
  obtain ⟨c, done⟩ := locksComplete
  refine ⟨c, done, ?_⟩
  by_contra unmerged
  refine locksRepeat ((declaredOnce done (.primary .structures)).2.2.mpr ?_)
  intro id id' declares declares' other merges
  exact unmerged ⟨id, id', declares, declares', other, merges⟩

end Contracts
end ShapeContracts
