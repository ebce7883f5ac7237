import ShapeContracts.Proofs.Emitted
import ShapeContracts.Proofs.ImportBindings
import ShapeContracts.Proofs.ImportPaths
import ShapeContracts.Proofs.SchemaCode

/-! Where the references of a file lead. Each of them is printed as a name that stands for the schema of
its shape and for nothing else: the exported name itself inside the file of the shape, and a name
that the import block binds to it everywhere else. -/
namespace ShapeContracts

namespace Schema

open Fragment (Leaf)

def refLeaf (source : FileKey) (m : CodeModules) (r : SchemaRef) : Leaf :=
  if r.fileKey = source then .symbol r.name
  else .imported r.name (r.fileKey.importPath source m.sharedRoot)

variable {source : FileKey} {m : CodeModules}

theorem refLeaves (indent : Nat) (r : SchemaRef) :
    Fragment.leaves indent (refCode source m r) = [refLeaf source m r] := by
  unfold refCode refLeaf
  split <;> rfl

theorem lowerRefers {s : Schema} {r : SchemaRef} {d : Bool} (inside : s.Refers r d) (indent : Nat) :
    refLeaf source m r ∈ Fragment.leaves indent (s.lower source m) := by
  obtain ⟨path, occurs⟩ := refersOccurs inside
  obtain ⟨inner, lowered⟩ := occursLower source m occurs indent
  refine lowered ?_
  rw [lower, refLeaves]
  exact List.mem_singleton_self _

end Schema

structure Job.Names (job : Job) (r : SchemaRef) : Prop where
  kinded : job.model.schemaKind? r.shapeId = some r.kind
  standalone : r.kind.isStandalone = true
  routed : job.fileOf r.shapeId = .ok r.fileKey
  named : ∃ parts, ShapeId.parse r.shapeId = .ok parts ∧ r.name = Naming.schemaName parts.name

def Scope.Denotes (scope : Scope) (r : SchemaRef) : Prop :=
  ∃ symbol, scope.symbols.lookup? r.shapeId = some symbol ∧ symbol.isStandalone = true ∧
    r = ⟨r.shapeId, symbol.schemaName, symbol.fileKey, symbol.kind⟩

theorem Scope.pointsDenotes {scope : Scope} {source : FileKey} {r : SchemaRef} {d : Bool}
    (points : scope.Points source r d) : scope.Denotes r := by
  obtain ⟨symbol, registered, standalone, whole, -⟩ := points
  exact ⟨symbol, registered, standalone, whole⟩

def Signature.Refers (s : Signature) (r : SchemaRef) : Prop := s.input = .infer r ∨ s.output = .infer r

namespace Operation

theorem typeRefDenotes {scope : Scope} {target missing : Option String} {r : SchemaRef}
    (ok : typeRef scope target = .ok (.infer r, missing)) : scope.Denotes r := by
  unfold typeRef at ok
  split at ok
  · cases pureOk.mp ok
  · split at ok
    · cases pureOk.mp ok
    · obtain ⟨parts, -, ok⟩ := bindOk.mp ok
      split at ok
      · rename_i symbol registered
        split at ok
        · rename_i standalone
          cases pureOk.mp ok
          exact ⟨symbol, registered, standalone, rfl⟩
        · cases pureOk.mp ok
      · cases pureOk.mp ok

end Operation

namespace Service

variable {scope : Scope} {signatures : Signatures} {source : FileKey}

theorem methodsMem {targets : List String} {ms : List (List Fragment)} {target : String} {s : Signature}
    (ok : methods scope signatures source targets = .ok ms) (mem : target ∈ targets)
    (signed : signatures.lookup target = some s) :
    declared s source scope.settings.codeModules ∈ ms := by
  induction targets generalizing ms with
  | nil => contradiction
  | cons first rest ih =>
    obtain ⟨head, made, ok⟩ := bindOk.mp ok
    obtain ⟨tail, others, ok⟩ := bindOk.mp ok
    obtain rfl := pureOk.mp ok
    rcases List.mem_cons.mp mem with rfl | mem
    · rw [method, signed] at made
      rw [pureOk.mp made]
      exact List.mem_cons_self
    · exact List.mem_cons_of_mem _ (ih others mem)

theorem joinedMem {separator : List Fragment} {ms : List (List Fragment)} {method : List Fragment}
    {f : Fragment} (mem : method ∈ ms) (inside : f ∈ method) : f ∈ separator.intercalate ms := by
  induction ms with
  | nil => contradiction
  | cons first rest ih =>
    cases rest with
    | nil =>
      rw [List.mem_singleton.mp mem] at inside
      simpa [List.intercalate] using inside
    | cons next rest =>
      rw [List.intercalate_cons_cons]
      rcases List.mem_cons.mp mem with rfl | mem
      · exact List.mem_append_left _ (List.mem_append_left _ inside)
      · exact List.mem_append_right _ (ih mem)

theorem interfaceMem (name : String) {ms : List (List Fragment)} {method : List Fragment}
    {f : Fragment} (mem : method ∈ ms) (inside : f ∈ method) : f ∈ interface name ms := by
  have some : ms.isEmpty = false := by
    cases ms with
    | nil => contradiction
    | cons => rfl
  rw [interface, some]
  exact List.mem_cons_of_mem _ (List.mem_append_left _ (joinedMem mem inside))

theorem declaredRefers (source : FileKey) (m : CodeModules) {s : Signature} {r : SchemaRef} (inside : s.Refers r) :
    ∃ f ∈ declared s source m, Schema.refLeaf source m r ∈ Fragment.leaves 0 f := by
  have typed : Schema.refLeaf source m r ∈ Fragment.leaves 0 ((TypeRef.infer r).code source m) := by
    rw [TypeRef.code, Fragment.leaves]
    refine Fragment.partMem (f := (Schema.ref r).lower source m) (by simp) ?_
    rw [Schema.lower, Schema.refLeaves]
    exact List.mem_singleton_self _
  rcases inside with same | same
  · exact ⟨_, by simp [declared], same ▸ typed⟩
  · exact ⟨_, by simp [declared], same ▸ typed⟩

end Service

namespace Run

variable {job : Job} {r r' : Run}

theorem contributionSigned {p : Pass} {id : String} {shape : Shape} {e : Emission} {s : Signature}
    (here : (p, id, shape) ∈ work job.model Pass.all) (made : r.contribution job p id shape = .ok e)
    (signed : e.signature = some s) {ref : SchemaRef} (inside : s.Refers ref) :
    (r.scope job).Denotes ref := by
  have contribution := contributionOk here made
  cases contribution with
  | operation named takes gives =>
    obtain rfl := Option.some.inj signed
    rcases inside with rfl | rfl
    · obtain ⟨missing, takes⟩ := takes
      exact Operation.typeRefDenotes takes
    · obtain ⟨missing, gives⟩ := gives
      exact Operation.typeRefDenotes gives
  | _ => cases signed

end Run

namespace Contracts

open Fragment (Leaf)

variable {job : Job} {c : Contracts}

theorem signedFrom (done : ofModel job = .ok c) {id : String} {s : Signature}
    (signed : c.run.signatures.lookup id = some s) : ∃ (p : Pass) (shape : Shape) (run : Run) (e : Emission),
      (p, id, shape) ∈ Run.work job.model Pass.all ∧ run.scope job = c.scope ∧
        run.contribution job p id shape = .ok e ∧ e.signature = some s := by
  obtain ⟨rfl, -, -, trace⟩ := finishedTrace done
  rcases Run.traceFinds Emission.signature Run.addSignatures trace signed with
    before | ⟨p, shape, run, e, mem, symbols, made, contributed⟩
  · contradiction
  · exact ⟨p, shape, run, e, mem, by rw [scope, Run.scope, Run.scope, symbols], made, contributed⟩

theorem signedDenotes (done : ofModel job = .ok c) {target : String} {s : Signature} {r : SchemaRef}
    (signed : c.run.signatures.lookup target = some s) (inside : s.Refers r) : c.scope.Denotes r := by
  obtain ⟨p, shape, run, e, mem, scopes, made, contributed⟩ := signedFrom done signed
  exact scopes ▸ Run.contributionSigned mem made contributed inside

theorem denotesNames (done : ofModel job = .ok c) {r : SchemaRef} (denotes : c.scope.Denotes r) :
    job.Names r := by
  obtain ⟨rfl, discovered, -, -⟩ := finishedTrace done
  obtain ⟨symbol, registered, standalone, whole⟩ := denotes
  obtain ⟨kinded, -, parts, named⟩ := Scope.registeredKind discovered registered
  obtain ⟨shape, found, -⟩ := schemaKindSome.mp kinded
  have names := Scope.registeredNames discovered registered found named
  rw [whole]
  exact ⟨kinded, standalone, writtenFile done registered, parts, named, names.1⟩

inductive Mentions (c : Contracts) (key : FileKey) (r : SchemaRef) : Prop where
  | schema {id s d} (standalone : c.job.model.Standalone id) (routed : c.job.fileOf id = .ok key)
      (recorded : c.schema? id = some s) (inside : s.Refers r d)
  | signature {id version operations resources traits target s}
      (found : c.job.model.shape? id = some (.service version operations resources traits))
      (routed : c.job.fileOf id = .ok key) (offered : target ∈ operations)
      (signed : c.run.signatures.lookup target = some s) (inside : s.Refers r)

theorem mentionsDenotes (done : ofModel job = .ok c) {key : FileKey} {r : SchemaRef}
    (mentions : c.Mentions key r) : c.scope.Denotes r := by
  cases mentions with
  | signature found routed offered signed inside => exact signedDenotes done signed inside
  | schema standalone routed recorded inside =>
    obtain ⟨shape, -, declares⟩ := finishedDeclares done recorded
    obtain ⟨source, points⟩ := Scope.declaredRefers (finishedTrace done).2.1 declares inside
    exact Scope.pointsDenotes points

def refLeaf (c : Contracts) (key : FileKey) (r : SchemaRef) : Leaf :=
  Schema.refLeaf key c.job.settings.codeModules r

theorem structFragment (done : ofModel job = .ok c) {id : String} {members : List (String × Member)}
    {traits : Traits} {key : FileKey} {s : Schema} {f : Fragment}
    (mem : (Pass.kind .struct, id, Shape.struct members traits) ∈ job.contents key)
    (writes : c.Writes key (.kind .struct, id, .struct members traits) f)
    (recorded : c.schema? id = some s) : ∃ name, f = .exportConst (Comment.above traits
        (if traits.error.isSome then Structure.errorTraits else Structure.shapeTraits)
        ("structure " ++ ShapeId.localName id)) name (s.lower key job.settings.codeModules) := by
  obtain ⟨e, made, code⟩ := writes
  obtain ⟨rfl, -, -, -⟩ := finishedTrace done
  have contribution := Run.contributionOk (contentsMem.mp mem).1 made
  have found := Entries.lookupOfMem c.job.model.distinct (Run.workAll.mp (contentsMem.mp mem).1).1
  obtain ⟨symbol', fields', registered', rfl, each'⟩ := structFields done found recorded
  cases contribution with
  | expanded kinded inlined => contradiction
  | struct named registered each =>
    obtain rfl := Option.some.inj (registered.symm.trans registered')
    rw [ShapeId.parseLocal named] at each' ⊢
    obtain rfl := Except.ok.inj (each.symm.trans each')
    cases code
    exact ⟨_, rfl⟩

theorem structContent {id : String} {members : List (String × Member)} {traits : Traits}
    {key : FileKey} (found : job.model.shape? id = some (.struct members traits))
    (routed : job.fileOf id = .ok key) :
    (Pass.kind .struct, id, Shape.struct members traits) ∈ job.contents key :=
  contentsMem.mpr ⟨Run.workAll.mpr ⟨Entries.memOfLookup found, .inl ⟨_, rfl, rfl⟩⟩, rfl, routed⟩

theorem structWritten (done : ofModel job = .ok c) {id : String} {members : List (String × Member)}
    {traits : Traits} {key : FileKey} {s : Schema}
    (found : job.model.shape? id = some (.struct members traits)) (routed : job.fileOf id = .ok key)
    (recorded : c.schema? id = some s) : ∃ name, Fragment.exportConst (Comment.above traits
        (if traits.error.isSome then Structure.errorTraits else Structure.shapeTraits)
        ("structure " ++ ShapeId.localName id)) name (s.lower key job.settings.codeModules) ∈
      c.run.codeOf key := by
  obtain ⟨f, there, writes⟩ := writtenBy done (structContent found routed)
  obtain ⟨name, rfl⟩ := structFragment done (structContent found routed) writes recorded
  exact ⟨name, there⟩

theorem serviceWritten (done : ofModel job = .ok c) {id : String} {version : Option String}
    {operations resources : List String} {traits : Traits} {key : FileKey}
    (found : job.model.shape? id = some (.service version operations resources traits))
    (routed : job.fileOf id = .ok key) : ∃ doc name methods,
      Service.methods c.scope c.run.signatures key operations = .ok methods ∧
        Fragment.sequence (doc ++ Service.interface name methods) ∈ c.run.codeOf key := by
  have mem : (Pass.kind .service, id, Shape.service version operations resources traits) ∈
      job.contents key :=
    contentsMem.mpr ⟨Run.workAll.mpr ⟨Entries.memOfLookup found, .inl ⟨_, rfl, rfl⟩⟩, rfl, routed⟩
  obtain ⟨f, there, e, made, code⟩ := writtenBy done mem
  obtain ⟨rfl, -, -, -⟩ := finishedTrace done
  have contribution := Run.contributionOk (contentsMem.mp mem).1 made
  cases contribution with
  | expanded kinded inlined => contradiction
  | service doc plain named routed' each =>
    cases code
    exact ⟨doc, _, _, each, there⟩

theorem mentionsLeaf (done : ofModel job = .ok c) {key : FileKey} {r : SchemaRef}
    (mentions : c.Mentions key r) : c.refLeaf key r ∈ c.leaves key := by
  obtain ⟨rfl, -, -, -⟩ := finishedTrace done
  have inFile : ∀ {f}, f ∈ c.run.codeOf key → ∀ {parts part}, f = .sequence parts → part ∈ parts →
      c.refLeaf key r ∈ Fragment.leaves 0 part → c.refLeaf key r ∈ c.leaves key := by
    rintro f there parts part rfl mem inside
    refine Fragment.fileLeavesMem there ?_
    rw [Fragment.leaves]
    exact Fragment.partMem mem inside
  cases mentions with
  | @schema id s d standalone routed recorded inside =>
    obtain ⟨shape, found, declares⟩ := finishedDeclares done recorded
    cases declares with
    | enum => cases inside
    | @struct members traits parts symbol fields named registered each =>
      obtain ⟨name, there⟩ := structWritten done found routed recorded
      exact inFile there rfl (by simp) (Schema.lowerRefers inside 0)
    | expanded inlined =>
      obtain ⟨kind, kinded, alone⟩ := standalone
      obtain ⟨shape', found', shaped, -⟩ := schemaKindSome.mp kinded
      obtain rfl := Option.some.inj (found.symm.trans found')
      cases inlined.symm.trans (Shape.standaloneWhole shaped alone)
  | signature found routed offered signed inside =>
    obtain ⟨doc, name, methods, each, there⟩ := serviceWritten done found routed
    obtain ⟨f, mem, printed⟩ := Service.declaredRefers key c.job.settings.codeModules inside
    have listed := Service.interfaceMem name (Service.methodsMem each offered signed) mem
    exact inFile there rfl (List.mem_append_right _ listed) printed

def Prints (c : Contracts) (key : FileKey) (r : SchemaRef) (text : String) : Prop :=
  ∃ before after back, c.leaves key = before ++ c.refLeaf key r :: after ∧
    text.toList = ((c.refLeaf key r).print (c.printed key before).2).1 ∧
    (key, c.fileWith key ((c.printed key before).1 ++ text.toList ++ back)) ∈ c.files

def importPath (c : Contracts) (key : FileKey) (r : SchemaRef) : String :=
  r.fileKey.importPath key c.job.settings.output.sharedRoot

def textWith (c : Contracts) (lines : List String) (body : List Char) : String :=
  String.ofList (c.job.settings.header.toList ++
    (if lines = [] then [] else '\n' :: '\n' :: ("\n".intercalate lines).toList) ++ '\n' :: '\n' :: body ++ ['\n'])

def Heads (c : Contracts) (key : FileKey) : Prop :=
  ∃ lines, (c.imports key).Lines lines ∧ ∀ body, c.fileWith key body = c.textWith lines body

theorem fileHeads (c : Contracts) (key : FileKey) : c.Heads key := by
  obtain ⟨lines, each, block⟩ := (c.imports key).importBlockLines
  refine ⟨lines, each, fun body => ?_⟩
  rw [fileWith, textWith, block]
  simp only [Fragment.Bindings.linesBlank each]

def ImportsAs (c : Contracts) (key : FileKey) (module name binding : String) : Prop :=
  ∃ before line after body, Fragment.Bindings.Binds ⟨module, name, binding⟩ line ∧
    (key, c.textWith (before ++ line :: after) body) ∈ c.files

theorem importsWritten {key : FileKey} {body : List Char} (shown : (key, c.fileWith key body) ∈ c.files)
    {module name binding : String} (imported : (c.imports key).Imports module name binding) :
    c.ImportsAs key module name binding := by
  obtain ⟨lines, each, headed⟩ := c.fileHeads key
  obtain ⟨line, listed, binds⟩ := Fragment.Bindings.linesBind each imported
  obtain ⟨before, after, rfl⟩ := List.append_of_mem listed
  exact ⟨before, line, after, body, binds, headed body ▸ shown⟩

inductive Linked (c : Contracts) (key : FileKey) (r : SchemaRef) (text : String) : Prop where
  | here (same : r.fileKey = key) (named : text = r.name)
      (declared : c.Provides key r.shapeId ⟨.constant, text⟩)
      (shown : c.Shows key (Export.text ⟨.constant, text⟩))
      (unbound : ∀ module name, ¬ (c.imports key).Imports module name text)
  | elsewhere (apart : r.fileKey ≠ key)
      (imported : (c.imports key).Imports (c.importPath key r) r.name text)
      (written : c.ImportsAs key (c.importPath key r) r.name text)
      (only : ∀ module name, (c.imports key).Imports module name text →
        module = c.importPath key r ∧ name = r.name)
      (undeclared : text ∉ c.run.symbols.declaredIn key)
      (unexported : ∀ id e, c.Provides key id e → e.keyword ≠ .interface → e.name ≠ text)
      (declared : c.Provides r.fileKey r.shapeId ⟨.constant, r.name⟩)
      (shown : c.Shows r.fileKey (Export.text ⟨.constant, r.name⟩))

theorem mentionsPrints (done : ofModel job = .ok c) {key : FileKey} {r : SchemaRef}
    (mentions : c.Mentions key r) : ∃ text, c.Prints key r text := by
  obtain ⟨before, after, place⟩ := List.append_of_mem (mentionsLeaf done mentions)
  obtain ⟨back, shown⟩ := placeShown done place
  exact ⟨String.ofList ((c.refLeaf key r).print (c.printed key before).2).1, before, after, back, place,
    by simp, by simpa using shown⟩

theorem importsSound (c : Contracts) (key : FileKey) : (c.imports key).Sound :=
  Fragment.printSound (Fragment.Bindings.emptySound _) _

theorem importsGrow (c : Contracts) {key : FileKey} {before row after : List Leaf}
    (place : c.leaves key = before ++ row ++ after) :
    (Fragment.printLeaves (c.printed key before).2 row).2.Grows (c.imports key) := by
  rw [imports, place, Contracts.printed, Contracts.printed, Fragment.printAppend, Fragment.printAppend]
  exact Fragment.printGrows _ after

theorem importsDeclared (c : Contracts) (key : FileKey) :
    (c.imports key).declared = c.run.symbols.declaredIn key :=
  (Fragment.printGrows (.ofDeclared (c.run.symbols.declaredIn key)) _).declared

theorem importedFree (c : Contracts) {key : FileKey} {module name binding : String}
    (imported : (c.imports key).Imports module name binding) :
    binding ∉ c.run.symbols.declaredIn key := by
  have apart := (importsSound c key).apart _ (Fragment.Bindings.importsMem.mp imported)
  rwa [importsDeclared] at apart

theorem printsLinked (done : ofModel job = .ok c) {key : FileKey} {r : SchemaRef} (names : job.Names r)
    {text : String} (prints : c.Prints key r text) : c.Linked key r text := by
  obtain ⟨parts, parsed, nameOf⟩ := names.named
  have declared := standaloneProvides done names.kinded names.standalone names.routed parsed
  rw [← nameOf] at declared
  obtain ⟨before, after, back, place, printed, shown⟩ := prints
  by_cases same : r.fileKey = key
  · rw [refLeaf, Schema.refLeaf, if_pos same] at printed
    obtain rfl : text = r.name := String.toList_inj.mp printed
    rw [same] at declared
    refine .here same rfl declared (providesShown done declared) (fun module name imported => ?_)
    exact importedFree c imported (providedDeclared done declared (by simp))
  · rw [refLeaf, Schema.refLeaf, if_neg same] at printed
    have bound : text = ((c.printed key before).2.bind r.name (c.importPath key r)).1 :=
      String.toList_inj.mp printed
    have grows : ((c.refLeaf key r).print (c.printed key before).2).2.Grows (c.imports key) :=
      importsGrow c (place.trans (List.append_cons ..))
    have imported : (c.imports key).Imports (c.importPath key r) r.name text := by
      refine Fragment.Bindings.importsMem.mpr (grows.kept _ ?_)
      rw [bound, refLeaf, Schema.refLeaf, if_neg same]
      exact Fragment.Bindings.bindMem
    have free := importedFree c imported
    refine .elsewhere same imported (importsWritten shown imported) (fun module name other => ?_) free
      (fun id e provides plain taken => ?_) declared (providesShown done declared)
    · cases Fragment.Bindings.bindingOwner (importsSound c key)
        (Fragment.Bindings.importsMem.mp other) (Fragment.Bindings.importsMem.mp imported) rfl
      exact ⟨rfl, rfl⟩
    · exact free (taken ▸ providedDeclared done provides plain)

theorem importSpelled (c : Contracts) {key : FileKey} {name module : String}
    (inside : Leaf.imported name module ∈ c.leaves key) : ∃ binding, (c.imports key).Imports module name binding ∧
      (Leaf.imported name module).spelling (c.imports key) = binding.toList := by
  obtain ⟨binding, known⟩ : (c.imports key).Knows name module := Fragment.printKnows.mpr (.inr inside)
  have found := Fragment.Bindings.findKnown (importsSound c key) known
  refine ⟨binding, Fragment.Bindings.importsMem.mpr known, ?_⟩
  simp only [Leaf.spelling, found, Option.map_some, Option.getD_some]

theorem referenceSpelled (done : ofModel job = .ok c) {key : FileKey} {r : SchemaRef} (names : job.Names r)
    (inside : c.refLeaf key r ∈ c.leaves key) :
    c.Linked key r (String.ofList ((c.refLeaf key r).spelling (c.imports key))) := by
  obtain ⟨before, after, place⟩ := List.append_of_mem inside
  obtain ⟨back, shown⟩ := placeShown done place
  have grows : ((c.refLeaf key r).print (c.printed key before).2).2.Grows (c.imports key) :=
    importsGrow c (place.trans (List.append_cons ..))
  rw [← Fragment.leafSpelled (importsSound c key) grows]
  exact printsLinked done names ⟨before, after, back, place, by simp, by simpa using shown⟩

theorem fragmentPrinted (done : ofModel job = .ok c) {key : FileKey} {f : Fragment}
    (there : f ∈ c.run.codeOf key) {text : String}
    (spelled : Fragment.spelled (c.imports key) [f] = text.toList) :
    Fragment.print (c.imports key) f = (text, c.imports key) ∧ c.Shows key text := by
  obtain ⟨before, after, place⟩ := Fragment.fileLeavesSplit there
  rw [← leaves] at place
  have row : (Fragment.leaves 0 f).flatMap (Leaf.spelling (c.imports key)) = text.toList := by
    rw [← spelled, Fragment.spelled, Fragment.partLeaves, Fragment.partLeaves, List.append_nil]
  refine ⟨?_, ?_⟩
  · have known : ∀ name module, Leaf.imported name module ∈ Fragment.leaves 0 f →
        (c.imports key).Knows name module :=
      fun name module mem => Fragment.printKnows.mpr (.inr (Fragment.fileLeavesMem there mem))
    rw [Fragment.print, Fragment.printAtLeaves, Fragment.printAgain (importsSound c key) known, row]
    simp
  · obtain ⟨back, shown⟩ := rowShown done (List.ne_nil_of_mem there) place
    rw [Fragment.printSpelled (importsSound c key) (importsGrow c place), row] at shown
    exact ⟨_, back, shown⟩

theorem routedGroup {job : Job} {id : String} {key : FileKey} {parts : ShapeId}
    (routed : job.fileOf id = .ok key) (named : ShapeId.parse id = .ok parts) :
    key.group = if parts.space = job.settings.primarySpace then .primary else .shared parts.space := by
  obtain ⟨parts', named', routed⟩ := bindOk.mp routed
  cases named.symm.trans named'
  obtain rfl := pureOk.mp routed
  split <;> rfl

theorem routedSpace {job : Job} {id id' : String} {key : FileKey} {parts parts' : ShapeId}
    (routed : job.fileOf id = .ok key) (routed' : job.fileOf id' = .ok key)
    (named : ShapeId.parse id = .ok parts) (named' : ShapeId.parse id' = .ok parts') :
    parts.space = parts'.space := by
  have same := (routedGroup routed named).symm.trans (routedGroup routed' named')
  split at same <;> split at same
  · rename_i here here'
    exact here.trans here'.symm
  · contradiction
  · contradiction
  · exact FileGroup.shared.inj same

theorem linkedApart {key : FileKey} {r r' : SchemaRef} {text : String} (linked : c.Linked key r text)
    (linked' : c.Linked key r' text) : r'.fileKey = r.fileKey ∧ r'.name = r.name := by
  cases linked with
  | here same named declared shown unbound =>
    cases linked' with
    | here same' named' => exact ⟨same'.trans same.symm, named'.symm.trans named⟩
    | elsewhere _ imported => exact absurd imported (unbound _ _)
  | elsewhere apart imported written only =>
    cases linked' with
    | here same' named' declared' shown' unbound => exact absurd imported (unbound _ _)
    | elsewhere apart' imported' =>
      obtain ⟨paths, names⟩ := only _ _ imported'
      exact ⟨FileKey.importPathInjective paths, names⟩

theorem referencesLink (done : ofModel job = .ok c) {key : FileKey} {r : SchemaRef}
    (mentions : c.Mentions key r) : job.Names r ∧ c.Heads key ∧ (∃ text, c.Prints key r text) ∧
      ∀ text, c.Prints key r text → c.Linked key r text ∧
        ∀ r', c.Mentions key r' → c.Prints key r' text → r'.fileKey = r.fileKey ∧ r'.name = r.name ∧
          ∃ parts parts', ShapeId.parse r.shapeId = .ok parts ∧ ShapeId.parse r'.shapeId = .ok parts' ∧
            parts.space = parts'.space := by
  have names := denotesNames done (mentionsDenotes done mentions)
  refine ⟨names, c.fileHeads key, mentionsPrints done mentions, fun text prints => ?_⟩
  have linked := printsLinked done names prints
  refine ⟨linked, fun r' mentions' prints' => ?_⟩
  have names' := denotesNames done (mentionsDenotes done mentions')
  obtain ⟨files, same⟩ := linkedApart linked (printsLinked done names' prints')
  obtain ⟨parts, parsed, -⟩ := names.named
  obtain ⟨parts', parsed', -⟩ := names'.named
  exact ⟨files, same, parts, parts', parsed, parsed',
    routedSpace names.routed (files ▸ names'.routed) parsed parsed'⟩

def namesakes : Model where
  version := "2.0"
  shapes := [
    ("com.amazonaws.s3#Bucket", .struct [("own", ⟨"com.amazonaws.s3#Owner", .empty⟩),
      ("other", ⟨"com.amazonaws.shared#Owner", .empty⟩)] .empty),
    ("com.amazonaws.s3#Owner", .struct [] .empty),
    ("com.amazonaws.shared#Owner", .struct [] .empty)]
  metadata := []
  distinct := by decide
  membersDistinct := by simp [Shape.memberNames]

theorem namesakesLink : ∃ c r text, ofModel ⟨namesakes, .standard⟩ = .ok c ∧
    r.shapeId = "com.amazonaws.shared#Owner" ∧ c.Mentions (.primary .structures) r ∧
    c.Prints (.primary .structures) r text ∧ c.Linked (.primary .structures) r text := by
  obtain ⟨c, done⟩ : ∃ c, ofModel ⟨namesakes, .standard⟩ = .ok c :=
    completes (fun b => by cases b <;> rfl) (by decide)
  have owner : namesakes.schemaKind? "com.amazonaws.shared#Owner" = some .struct := rfl
  have ownerFile : Job.fileOf ⟨namesakes, .standard⟩ "com.amazonaws.shared#Owner" =
      .ok (.shared "com.amazonaws.shared" .structures) := rfl
  have bucketFile : Job.fileOf ⟨namesakes, .standard⟩ "com.amazonaws.s3#Bucket" =
      .ok (.primary .structures) := rfl
  have uses : Job.UsesAcross ⟨namesakes, .standard⟩ "com.amazonaws.s3#Bucket"
      "com.amazonaws.shared#Owner" := by
    refine ⟨⟨_, _, rfl, _, List.mem_cons_of_mem _ List.mem_cons_self, .declared rfl owner rfl⟩, ?_⟩
    rw [bucketFile, ownerFile]
    exact fun same => by cases same
  obtain ⟨standalone, s, r, recorded, inside, target⟩ := (readsAcross done).mpr uses
  have mentions : c.Mentions (.primary .structures) r :=
    .schema standalone ((finishedTrace done).1 ▸ bucketFile) recorded inside
  obtain ⟨-, -, ⟨text, prints⟩, linked⟩ := referencesLink done mentions
  exact ⟨c, r, text, done, target, mentions, prints, (linked text prints).1⟩

end Contracts
end ShapeContracts
