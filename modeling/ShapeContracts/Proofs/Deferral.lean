import ShapeContracts.Proofs.DeclaredNames
import ShapeContracts.Proofs.Links
import ShapeContracts.Proofs.Termination

/-! References within a file are deferred. What a schema has under a `lazy`, its code has under an arrow;
so the code of a file reads nothing of the file at once but an enumeration that stands right before
its validator, and the fragments of a file load in any order. -/
namespace ShapeContracts

namespace Fragment

inductive Names : Fragment → String → Bool → Prop where
  | symbol (name : String) : Names (.symbol name) name false
  | callee {callee args n d} (inside : Names callee n d) : Names (.call callee args) n d
  | argument {callee args f n d} (mem : f ∈ args) (inside : Names f n d) : Names (.call callee args) n d
  | member {object property n d} (inside : Names object n d) : Names (.member object property) n d
  | property {properties key f comments n d} (mem : (key, f, comments) ∈ properties)
      (inside : Names f n d) : Names (.object properties) n d
  | item {items f n d} (mem : f ∈ items) (inside : Names f n d) : Names (.array items) n d
  | arrow {body n d} (inside : Names body n d) : Names (.arrow body) n true
  | commented {comment inner n d} (inside : Names inner n d) : Names (.commented comment inner) n d
  | part {parts f n d} (mem : f ∈ parts) (inside : Names f n d) : Names (.sequence parts) n d

variable {n : String} {d : Bool}

@[simp]
theorem rawNames {text : String} : ¬ (raw text).Names n d := by
  intro h
  cases h

@[simp]
theorem literalNames {text : String} : ¬ (literal text).Names n d := by
  intro h
  cases h

@[simp]
theorem importedNames {name module : String} : ¬ (imported name module).Names n d := by
  intro h
  cases h

@[simp]
theorem symbolNames {name : String} : (symbol name).Names n d ↔ n = name ∧ d = false := by
  constructor
  · intro h
    cases h
    exact ⟨rfl, rfl⟩
  · rintro ⟨rfl, rfl⟩
    exact .symbol n

@[simp]
theorem methodNames {f : Fragment} {name : String} {args : List Fragment} :
    (f.method name args).Names n d ↔ f.Names n d ∨ ∃ a ∈ args, a.Names n d := by
  constructor
  · intro h
    cases h with
    | callee inside =>
      cases inside with
      | member inside => exact .inl inside
    | argument mem inside => exact .inr ⟨_, mem, inside⟩
  · rintro (inside | ⟨a, mem, inside⟩)
    · exact .callee (.member inside)
    · exact .argument mem inside

@[simp]
theorem callNames {f : Fragment} {args : List Fragment} :
    (call f args).Names n d ↔ f.Names n d ∨ ∃ a ∈ args, a.Names n d := by
  constructor
  · intro h
    cases h with
    | callee inside => exact .inl inside
    | argument mem inside => exact .inr ⟨_, mem, inside⟩
  · rintro (inside | ⟨a, mem, inside⟩)
    · exact .callee inside
    · exact .argument mem inside

@[simp]
theorem arrowNames {body : Fragment} : (arrow body).Names n d ↔ d = true ∧ ∃ d', body.Names n d' := by
  constructor
  · intro h
    cases h with
    | arrow inside => exact ⟨rfl, _, inside⟩
  · rintro ⟨rfl, d', inside⟩
    exact .arrow inside

@[simp]
theorem arrayNames {items : List Fragment} : (array items).Names n d ↔ ∃ f ∈ items, f.Names n d := by
  constructor
  · intro h
    cases h with
    | item mem inside => exact ⟨_, mem, inside⟩
  · rintro ⟨f, mem, inside⟩
    exact .item mem inside

@[simp]
theorem objectNames {properties : List (String × Fragment × List String)} :
    (object properties).Names n d ↔ ∃ p ∈ properties, p.2.1.Names n d := by
  constructor
  · intro h
    cases h with
    | property mem inside => exact ⟨_, mem, inside⟩
  · rintro ⟨⟨key, f, comments⟩, mem, inside⟩
    exact .property mem inside

@[simp]
theorem commentedNames {comment : String} {inner : Fragment} :
    (commented comment inner).Names n d ↔ inner.Names n d := by
  constructor
  · intro h
    cases h with
    | commented inside => exact inside
  · exact .commented

@[simp]
theorem sequenceNames {parts : List Fragment} : (sequence parts).Names n d ↔ ∃ f ∈ parts, f.Names n d := by
  constructor
  · intro h
    cases h with
    | part mem inside => exact ⟨_, mem, inside⟩
  · rintro ⟨f, mem, inside⟩
    exact .part mem inside

@[simp]
theorem constNames {lines : List String} {name : String} {value : Fragment} :
    (exportConst lines name value).Names n d ↔ value.Names n d := by
  simp only [exportConst, leading, sequenceNames, List.mem_append, List.mem_map, List.mem_cons,
    List.not_mem_nil, or_false]
  constructor
  · rintro ⟨f, ⟨line, -, rfl⟩ | rfl | rfl | rfl, names⟩
    · simp at names
    · simp at names
    · exact names
    · simp at names
  · exact fun names => ⟨value, .inr (.inr (.inl rfl)), names⟩

/-- Fragments that can be evaluated in their order, after the names that are defined already: what one
reads at once is defined before it, or is the enumeration that it begins with. -/
inductive Loads : List String → List Fragment → Prop where
  | done {defined} : Loads defined []
  | next {defined f es rest} (exports : f.Exports es)
      (reads : ∀ n, f.Names n false → n ∈ defined ∨ ⟨.enumeration, n⟩ ∈ es)
      (later : Loads (defined ++ es.map Export.name) rest) : Loads defined (f :: rest)

theorem loadsOwn {fs : List Fragment} (own : ∀ f ∈ fs, ∃ es, f.Exports es ∧
    ∀ n, f.Names n false → ⟨.enumeration, n⟩ ∈ es) (defined : List String) : Loads defined fs := by
  induction fs generalizing defined with
  | nil => exact .done
  | cons f rest ih =>
    obtain ⟨es, exports, reads⟩ := own f List.mem_cons_self
    exact .next exports (fun n names => .inr (reads n names))
      (ih (fun f mem => own f (List.mem_cons_of_mem _ mem)) _)

end Fragment

namespace Schema

variable {source : FileKey} {m : CodeModules} {n : String} {d d' : Bool} {s t : Schema}

def Spells (s : Schema) (source : FileKey) (n : String) (d : Bool) : Prop :=
  (∃ r, s.Refers r d ∧ r.fileKey = source ∧ r.name = n) ∨
    ∃ path values, (Schema.enum n values).Occurs path s

theorem spellsAround (refers : ∀ r, t.Refers r d → s.Refers r d')
    (occurs : ∀ (u : Schema) path, u.Occurs path t → ∃ path', u.Occurs path' s)
    (spells : t.Spells source n d) : s.Spells source n d' := by
  rcases spells with ⟨r, inside, same, named⟩ | ⟨path, values, inside⟩
  · exact .inl ⟨r, refers r inside, same, named⟩
  · obtain ⟨path', inside'⟩ := occurs _ _ inside
    exact .inr ⟨path', values, inside'⟩

@[simp]
theorem libraryNames : ¬ (lower.z m).Names n d := by
  simp [lower.z]

@[simp]
theorem whenSomeNames {bound : Option α} {name : String} {code : α → String} {f : Fragment} :
    (whenSome bound name code f).Names n d ↔ f.Names n d := by
  cases bound <;> simp [whenSome]

@[simp]
theorem defaultNames {value : DefaultValue} : ¬ value.code.Names n d := by
  cases value <;> simp [DefaultValue.code]

theorem lowerNames (s : Schema) {d : Bool} (names : (s.lower source m).Names n d) : s.Spells source n d := by
  cases s with
  | ref r =>
    rw [lower, refCode] at names
    split at names
    · rename_i same
      obtain ⟨rfl, rfl⟩ := Fragment.symbolNames.mp names
      exact .inl ⟨r, .here r, same, rfl⟩
    · simp at names
  | enum typeName values =>
    obtain ⟨rfl, -⟩ : n = typeName ∧ d = false := by simpa [lower] using names
    exact .inr ⟨[], values, .here⟩
  | «lazy» inner =>
    obtain ⟨rfl, d', names⟩ : d = true ∧ ∃ d', (inner.lower source m).Names n d' := by
      simpa [lower] using names
    exact spellsAround (fun _ => .lazy) (fun _ _ h => ⟨_, .lazy h⟩) (lowerNames inner names)
  | refine inner check =>
    have names : (inner.lower source m).Names n d := by simpa [lower] using names
    exact spellsAround (fun _ => .refine) (fun _ _ h => ⟨_, .refine h⟩) (lowerNames inner names)
  | optional inner =>
    have names : (inner.lower source m).Names n d := by simpa [lower] using names
    exact spellsAround (fun _ => .optional) (fun _ _ h => ⟨_, .optional h⟩) (lowerNames inner names)
  | withDefault inner value =>
    have names : (inner.lower source m).Names n d := by simpa [lower] using names
    exact spellsAround (fun _ => .withDefault) (fun _ _ h => ⟨_, .withDefault h⟩)
      (lowerNames inner names)
  | marked comment inner =>
    have names : (inner.lower source m).Names n d := by simpa [lower] using names
    exact spellsAround (fun _ => .marked) (fun _ _ h => ⟨_, .marked h⟩) (lowerNames inner names)
  | array item min max unique =>
    have names : (item.lower source m).Names n d := by
      rw [lower] at names
      cases unique <;> simpa using names
    exact spellsAround (fun _ => .item) (fun _ _ h => ⟨_, .item h⟩) (lowerNames item names)
  | record key value =>
    obtain names | names : (key.lower source m).Names n d ∨ (value.lower source m).Names n d := by
      simpa [lower] using names
    · exact spellsAround (fun _ => .key) (fun _ _ h => ⟨_, .key h⟩) (lowerNames key names)
    · exact spellsAround (fun _ => .value) (fun _ _ h => ⟨_, .value h⟩) (lowerNames value names)
  | union members =>
    obtain ⟨s, mem, names⟩ : ∃ s ∈ members, (s.lower source m).Names n d := by
      cases members with
      | nil => simp [lower] at names
      | cons first rest => simpa [lower, lowerAllMap] using names
    obtain ⟨i, nth⟩ := List.mem_iff_getElem?.mp mem
    have smaller := sizeOfMem mem
    exact spellsAround (fun _ => .member mem) (fun _ _ h => ⟨_, .alternative nth h⟩) (lowerNames s names)
  | object fields =>
    obtain ⟨name, comments, s, mem, names⟩ : ∃ name comments s, (name, s, comments) ∈ fields ∧
        (s.lower source m).Names n d := by
      simpa [lower, lowerFieldsMap] using names
    obtain ⟨i, nth⟩ := List.mem_iff_getElem?.mp mem
    have smaller : sizeOf s < sizeOf fields := by
      have listed := sizeOfMem mem
      simp only [Prod.mk.sizeOf_spec] at listed
      omega
    exact spellsAround (fun _ => .field mem) (fun _ _ h => ⟨_, .field nth h⟩) (lowerNames s names)
  | string min max pattern => cases pattern <;> simp [lower] at names
  | number integer min max => cases integer <;> simp [lower] at names
  | _ => simp [lower] at names
termination_by sizeOf s
decreasing_by all_goals (subst_vars; decreasing_tactic)

theorem refersNames {r : SchemaRef} (inside : s.Refers r d) (same : r.fileKey = source) :
    (s.lower source m).Names r.name d := by
  induction inside with
  | here r => simp [lower, refCode, same]
  | «lazy» _ ih =>
    simp only [lower, Fragment.methodNames, List.mem_singleton, exists_eq_left, Fragment.arrowNames]
    exact .inr ⟨trivial, _, ih same⟩
  | @item item min max unique _ _ _ ih => cases unique <;> simp [lower, ih same]
  | key _ ih => simp [lower, ih same]
  | value _ ih => simp [lower, ih same]
  | @member members s _ _ mem _ ih =>
    cases members with
    | nil => contradiction
    | cons first rest =>
      have listed : ∃ t, (t = first ∨ t ∈ rest) ∧ (t.lower source m).Names _ _ :=
        ⟨s, List.mem_cons.mp mem, ih same⟩
      simpa [lower, lowerAllMap] using listed
  | @field fields name s comments _ _ mem _ ih =>
    simp only [lower, lowerFieldsMap, Fragment.methodNames, List.mem_singleton, exists_eq_left,
      Fragment.objectNames]
    exact .inr ⟨_, List.mem_map_of_mem mem, ih same⟩
  | refine _ ih => simp [lower, ih same]
  | optional _ ih => simp [lower, ih same]
  | withDefault _ ih => simp [lower, ih same]
  | marked _ ih => simp [lower, ih same]

end Schema

theorem Model.walkMember {m : Model} {x y : Subject} {step : Step} {path : List Step}
    (walk : m.Walk x (step :: path) y) : ∃ role member owner, y = .member role member owner := by
  induction path generalizing x step with
  | nil =>
    cases walk with
    | step leads rest =>
      cases rest
      cases leads <;> exact ⟨_, _, _, rfl⟩
  | cons next path ih =>
    cases walk with
    | step leads rest => exact ih rest

/-! The names in a service are those of its signatures. -/
namespace Service

variable {scope : Scope} {signatures : Signatures} {source : FileKey} {m : CodeModules} {n : String}
  {d : Bool}

theorem typeNames {t : TypeRef} (names : (t.code source m).Names n d) :
    ∃ r, t = .infer r ∧ r.fileKey = source := by
  cases t with
  | infer r =>
    refine ⟨r, rfl, ?_⟩
    by_contra apart
    simp [TypeRef.code, Schema.lower, Schema.refCode, apart] at names
  | unknown | void => simp [TypeRef.code] at names

theorem declaredNames {s : Signature} {f : Fragment} (mem : f ∈ declared s source m)
    (names : f.Names n d) : ∃ r, s.Refers r ∧ r.fileKey = source := by
  simp only [declared, List.mem_cons, List.not_mem_nil, or_false] at mem
  rcases mem with rfl | rfl | rfl | rfl | rfl
  · simp at names
  · obtain ⟨r, input, same⟩ := typeNames names
    exact ⟨r, .inl input, same⟩
  · simp at names
  · obtain ⟨r, output, same⟩ := typeNames names
    exact ⟨r, .inr output, same⟩
  · simp at names

theorem methodNames {target : String} {method : List Fragment} {f : Fragment}
    (ok : Service.method scope signatures source target = .ok method) (mem : f ∈ method)
    (names : f.Names n d) : ∃ s r, signatures.lookup target = some s ∧ s.Refers r ∧ r.fileKey = source := by
  unfold Service.method at ok
  split at ok
  · rename_i s signed
    obtain rfl := pureOk.mp ok
    obtain ⟨r, inside, same⟩ := declaredNames mem names
    exact ⟨s, r, signed, inside, same⟩
  · obtain ⟨parts, -, ok⟩ := bindOk.mp ok
    obtain rfl := pureOk.mp ok
    rw [List.mem_singleton.mp mem] at names
    simp at names

theorem methodsMade {targets : List String} {ms : List (List Fragment)} {method : List Fragment}
    (ok : methods scope signatures source targets = .ok ms) (mem : method ∈ ms) :
    ∃ target, Service.method scope signatures source target = .ok method := by
  induction targets generalizing ms with
  | nil =>
    obtain rfl := pureOk.mp ok
    contradiction
  | cons first rest ih =>
    obtain ⟨head, made, ok⟩ := bindOk.mp ok
    obtain ⟨tail, others, ok⟩ := bindOk.mp ok
    obtain rfl := pureOk.mp ok
    rcases List.mem_cons.mp mem with rfl | mem
    · exact ⟨first, made⟩
    · exact ih others mem

theorem interfaceNames {name : String} {targets : List String} {ms : List (List Fragment)}
    (ok : methods scope signatures source targets = .ok ms) {f : Fragment} (mem : f ∈ interface name ms)
    (names : f.Names n d) : ∃ target s r, signatures.lookup target = some s ∧ s.Refers r ∧
      r.fileKey = source := by
  unfold interface at mem
  split at mem
  · rw [List.mem_singleton.mp mem] at names
    simp at names
  · rcases List.mem_cons.mp mem with rfl | mem
    · simp at names
    · rcases List.mem_append.mp mem with mem | mem
      · rcases Entries.joinedFrom mem with mem | ⟨method, listed, inside⟩
        · rw [List.mem_singleton.mp mem] at names
          simp at names
        · obtain ⟨target, made⟩ := methodsMade ok listed
          exact ⟨target, methodNames made inside names⟩
      · rw [List.mem_singleton.mp mem] at names
        simp at names

end Service

namespace Contracts

variable {job : Job} {c : Contracts} {key : FileKey} {id : String} {members : List (String × Member)}
  {traits : Traits} {s : Schema} {r : SchemaRef} {n : String} {d : Bool}

theorem structDeferred (done : ofModel job = .ok c)
    (found : job.model.shape? id = some (.struct members traits)) (routed : job.fileOf id = .ok key)
    (recorded : c.schema? id = some s) (inside : s.Refers r d) (same : r.fileKey = key) : d = true := by
  obtain ⟨⟨symbol, -, -, whole, deferred⟩, -⟩ := structPoints done found routed recorded inside
  rw [whole] at same
  exact deferred.mpr same

theorem structUnlisted (done : ofModel job = .ok c)
    (found : job.model.shape? id = some (.struct members traits)) (recorded : c.schema? id = some s)
    {path : List Step} {values : List String} : ¬ (Schema.enum n values).Occurs path s := by
  intro occurs
  obtain ⟨t, around, place, bare⟩ := Schema.occursPlace rfl occurs []
  cases path with
  | nil =>
    obtain ⟨symbol, fields, -, rfl, -⟩ := structFields done found recorded
    cases place
    cases bare
  | cons step path =>
    obtain ⟨-, discovered, -, -⟩ := finishedTrace done
    obtain ⟨y, walk, made⟩ := Scope.madePlace discovered (finishedMade done recorded) place
    obtain ⟨role, member, owner, rfl⟩ := Model.walkMember walk
    -- an enumeration is not expanded in place: its validator stands in its own declaration alone
    have head := Scope.madeHead made
    cases head with
    | refers r refers => cases bare.symm.trans refers
    | inlined inlined =>
      rw [bare] at inlined
      contradiction

theorem structNames (done : ofModel job = .ok c)
    (found : job.model.shape? id = some (.struct members traits)) (routed : job.fileOf id = .ok key)
    (recorded : c.schema? id = some s) {m : CodeModules} (names : (s.lower key m).Names n d) :
    d = true ∧ ∃ id', c.Provides key id' ⟨.constant, n⟩ := by
  rcases Schema.lowerNames s names with ⟨r, inside, same, rfl⟩ | ⟨path, values, occurs⟩
  · refine ⟨structDeferred done found routed recorded inside same, r.shapeId, ?_⟩
    have points := (structPoints done found routed recorded inside).1
    have name := denotesNames done (Scope.pointsDenotes points)
    obtain ⟨parts, parsed, named⟩ := name.named
    rw [named]
    exact standaloneProvides done name.kinded name.standalone (same ▸ name.routed) parsed
  · exact absurd occurs (structUnlisted done found recorded)

theorem serviceApart (done : ofModel job = .ok c) {version : Option String}
    {operations resources : List String}
    (found : job.model.shape? id = some (.service version operations resources traits))
    (routed : job.fileOf id = .ok key) (denotes : c.scope.Denotes r) : r.fileKey ≠ key := by
  rintro rfl
  have name := denotesNames done denotes
  have here := routedSub routed
  have there := routedSub name.routed
  obtain ⟨shape, found', shaped, -⟩ := schemaKindSome.mp name.kinded
  rw [found] at here
  rw [found', here] at there
  cases shape with
  | service =>
    have standalone := name.standalone
    rw [← Option.some.inj shaped] at standalone
    contradiction
  | struct =>
    simp only [SubFile.ofShape] at there
    split at there <;> contradiction
  | _ => contradiction

theorem ownNames (done : ofModel job = .ok c) {f : Fragment} (there : f ∈ c.run.codeOf key) :
    ∃ es, f.Exports es ∧ ∀ n, f.Names n false → ⟨.enumeration, n⟩ ∈ es := by
  obtain ⟨⟨p, id, shape⟩, mem, writes⟩ := writtenFor done there
  obtain ⟨parts, -, exports⟩ := writtenExports done mem writes
  obtain ⟨work, -, routed⟩ := contentsMem.mp mem
  have found : job.model.shape? id = some shape :=
    Entries.lookupOfMem job.model.distinct (Run.workAll.mp work).1
  have whole := writes
  obtain ⟨e, made, code⟩ := writes
  obtain ⟨rfl, -, -, -⟩ := finishedTrace done
  have contribution := Run.contributionOk work made
  cases contribution with
  | enumeration named registered =>
    cases code
    refine ⟨_, .enumeration _ _ _ _ _ _, fun n names => ?_⟩
    obtain rfl : n = _ := by simpa [Enum.declaration, Enum.schema, Schema.lower] using names
    exact List.mem_cons_self
  | struct =>
    obtain ⟨s, recorded⟩ := finishedAll done (schemaKindSome.mpr ⟨_, found, rfl, rfl⟩)
    obtain ⟨name, rfl⟩ := structFragment done mem whole recorded
    refine ⟨_, exports, fun n names => ?_⟩
    cases (structNames done found routed recorded (Fragment.constNames.mp names)).1
  | errorClass =>
    cases code
    exact ⟨_, exports, fun n names => by simp at names⟩
  | service doc plain named routed' each =>
    cases code
    refine ⟨_, exports, fun n names => ?_⟩
    obtain ⟨g, listed, names⟩ := Fragment.sequenceNames.mp names
    rcases List.mem_append.mp listed with listed | listed
    · obtain ⟨text, rfl⟩ := plain g listed
      simp at names
    · obtain ⟨target, s, r, signed, inside, same⟩ := Service.interfaceNames each listed names
      exact absurd same (serviceApart done found routed (signedDenotes done signed inside))
  | operation | expanded => cases code

theorem sameFileDeferred (done : ofModel job = .ok c) :
    (∀ id members traits, job.model.shape? id = some (.struct members traits) → ∃ key s f,
      job.fileOf id = .ok key ∧ c.schema? id = some s ∧ f ∈ c.run.codeOf key ∧
      c.Writes key (.kind .struct, id, .struct members traits) f ∧
      (∀ r d, s.Refers r d → r.fileKey = key → d = true ∧ f.Names r.name true) ∧
      ∀ n d, f.Names n d → d = true ∧ ∃ id', c.Provides key id' ⟨.constant, n⟩) ∧
    ∀ key fs, fs.Perm (c.run.codeOf key) → Fragment.Loads [] fs := by
  constructor
  · intro id members traits found
    have kinded : job.model.schemaKind? id = some .struct := schemaKindSome.mpr ⟨_, found, rfl, rfl⟩
    obtain ⟨s, recorded⟩ := finishedAll done kinded
    obtain ⟨key, routed⟩ := bearingRouted done kinded
    obtain ⟨f, there, writes⟩ := writtenBy done (structContent found routed)
    obtain ⟨name, rfl⟩ := structFragment done (structContent found routed) writes recorded
    refine ⟨key, s, _, routed, recorded, there, writes, ?_, ?_⟩
    · intro r d inside same
      obtain rfl := structDeferred done found routed recorded inside same
      exact ⟨rfl, Fragment.constNames.mpr (Schema.refersNames inside same)⟩
    · intro n d names
      exact structNames done found routed recorded (Fragment.constNames.mp names)
  · intro key fs perm
    exact Fragment.loadsOwn (fun f mem => ownNames done (perm.mem_iff.mp mem)) []

def folders : Model where
  version := "2.0"
  shapes := [
    ("com.amazonaws.s3#Folder", .struct [("Files", ⟨"com.amazonaws.s3#Files", .empty⟩)] .empty),
    ("com.amazonaws.s3#Files", .list ⟨"com.amazonaws.s3#File", .empty⟩ .empty),
    ("com.amazonaws.s3#File", .struct [("Folder", ⟨"com.amazonaws.s3#Folder", .empty⟩)] .empty)]
  metadata := []
  distinct := by decide
  membersDistinct := by simp [Shape.memberNames]

theorem foldersDeferred : ∃ c key s r f, ofModel ⟨folders, .standard⟩ = .ok c ∧
    c.schema? "com.amazonaws.s3#Folder" = some s ∧ s.Refers r true ∧
    r.shapeId = "com.amazonaws.s3#File" ∧ r.fileKey = key ∧ f ∈ c.run.codeOf key ∧ f.Names r.name true ∧
    (∀ n d, f.Names n d → d = true) ∧ Fragment.Loads [] (c.run.codeOf key).reverse := by
  obtain ⟨c, done⟩ : ∃ c, ofModel ⟨folders, .standard⟩ = .ok c :=
    completes (fun b => by cases b <;> rfl) (by decide)
  obtain ⟨structs, loads⟩ := sameFileDeferred done
  have found : folders.shape? "com.amazonaws.s3#Folder" = some (.struct _ _) := rfl
  obtain ⟨key, s, f, routed, recorded, there, -, deferred, names⟩ := structs _ _ _ found
  have folderFile : Job.fileOf ⟨folders, .standard⟩ "com.amazonaws.s3#Folder" =
      .ok (.primary .structures) := rfl
  have fileFile : Job.fileOf ⟨folders, .standard⟩ "com.amazonaws.s3#File" =
      .ok (.primary .structures) := rfl
  have leads : folders.LeadsTo "com.amazonaws.s3#Files" "com.amazonaws.s3#File" :=
    .through rfl rfl rfl List.mem_cons_self (.declared rfl rfl rfl)
  obtain ⟨r, d, inside, target⟩ := structHolds done found recorded List.mem_cons_self leads
  have here : r.fileKey = key := by
    have points := (structPoints done found routed recorded inside).1
    have file := (denotesNames done (Scope.pointsDenotes points)).routed
    rw [target, fileFile] at file
    exact (Except.ok.inj file).symm.trans (Except.ok.inj (folderFile.symm.trans routed))
  obtain ⟨rfl, named⟩ := deferred r d inside here
  exact ⟨c, key, s, r, f, done, recorded, inside, target, here, there, named,
    fun n d inside => (names n d inside).1, loads key _ (List.reverse_perm _)⟩

end Contracts
end ShapeContracts
