import ShapeContracts.Proofs.Delivery
import ShapeContracts.Proofs.ImportBindings
import ShapeContracts.Proofs.Links

/-! Files are told apart by all of their printed names. A name, a label and a specifier each tell the key of the
file, whatever its namespace is; so the imports of one file, which are gathered by the text of the
specifier, are never gathered from two files. -/
namespace ShapeContracts

namespace Fragment

namespace Bindings

variable {b : Bindings} {m m' name name' binding binding' : String}

structure Apart (b : Bindings) (m name m' name' : String) : Prop where
  modules : m ≠ m'
  lines : ∀ i ∈ b.ofModule m, i ∉ b.ofModule m'
  bindings : ∃ binding binding', b.Imports m name binding ∧ b.Imports m' name' binding' ∧ binding ≠ binding' ∧
    ∀ other, (b.Imports m name other → other = binding) ∧ (b.Imports m' name' other → other = binding')

theorem importsOnce (sound : b.Sound) (imports : b.Imports m name binding) (other : b.Imports m name binding') :
    binding' = binding := by
  cases sound.once _ (importsMem.mp other) _ (importsMem.mp imports) rfl rfl
  rfl

theorem modulesApart (sound : b.Sound) (distinct : m ≠ m') (imports : b.Imports m name binding)
    (imports' : b.Imports m' name' binding') : b.Apart m name m' name' where
  modules := distinct
  lines i mem mem' := by
    have listed := soundListed sound
    exact distinct ((listed.only m i mem).symm.trans (listed.only m' i mem'))
  bindings := by
    refine ⟨binding, binding', imports, imports', fun same => ?_,
      fun other => ⟨importsOnce sound imports, importsOnce sound imports'⟩⟩
    cases bindingOwner sound (importsMem.mp imports) (importsMem.mp imports') same
    exact distinct rfl

end Bindings

theorem printedApart {names : List String} {fs : List Fragment} {m m' name name' : String} (distinct : m ≠ m')
    (mem : Leaf.imported name m ∈ rowOf fs) (mem' : Leaf.imported name' m' ∈ rowOf fs) :
    (printAll (.ofDeclared names) fs).2.Apart m name m' name' := by
  have printed : (upTo names (rowOf fs)).2 = (printAll (.ofDeclared names) fs).2 :=
    congrArg Prod.snd (printAllRow (.ofDeclared names) fs)
  have accounts := upToAccounts names (rowOf fs)
  obtain ⟨binding, known⟩ := (accounts.occurred name m).mpr mem
  obtain ⟨binding', known'⟩ := (accounts.occurred name' m').mpr mem'
  rw [← printed]
  exact Bindings.modulesApart (upToSound names _) distinct (Bindings.importsMem.mpr known)
    (Bindings.importsMem.mpr known')

end Fragment

namespace Contracts

open Fragment (Leaf)

variable {job : Job} {c : Contracts} {key : FileKey} {r r' : SchemaRef}

theorem printedOnce (done : ofModel job = .ok c) (mentions : c.Mentions key r) (mentions' : c.Mentions key r')
    {text : String} (prints : c.Prints key r text) (prints' : c.Prints key r' text) : r'.fileKey = r.fileKey :=
  (linkedApart (printsLinked done (denotesNames done (mentionsDenotes done mentions)) prints)
    (printsLinked done (denotesNames done (mentionsDenotes done mentions')) prints')).1

theorem mentionsImported (done : ofModel job = .ok c) (mentions : c.Mentions key r) (apart : r.fileKey ≠ key) :
    ∃ text, (c.imports key).Imports (c.importPath key r) r.name text := by
  obtain ⟨text, prints⟩ := mentionsPrints done mentions
  cases printsLinked done (denotesNames done (mentionsDenotes done mentions)) prints with
  | here same => contradiction
  | elsewhere _ imported => exact ⟨text, imported⟩

theorem mentionsApart (done : ofModel job = .ok c) (mentions : c.Mentions key r) (mentions' : c.Mentions key r')
    (distinct : r.fileKey ≠ r'.fileKey) (apart : r.fileKey ≠ key) (apart' : r'.fileKey ≠ key) :
    (c.imports key).Apart (c.importPath key r) r.name (c.importPath key r') r'.name := by
  obtain ⟨text, imported⟩ := mentionsImported done mentions apart
  obtain ⟨text', imported'⟩ := mentionsImported done mentions' apart'
  exact Fragment.Bindings.modulesApart (importsSound c key)
    (fun paths => distinct (FileKey.importPathInjective paths)) imported imported'

structure Separates (c : Contracts) (key : FileKey) : Prop where
  stems : (c.run.fileKeys.map FileKey.stem).Nodup
  labels : (c.run.fileKeys.map FileKey.toString).Nodup
  specifiers : (c.run.fileKeys.map (fun k => k.importPath key c.job.settings.output.sharedRoot)).Nodup
  printed : ∀ r r' text text', c.Mentions key r → c.Mentions key r' → r.fileKey ≠ r'.fileKey →
    c.Prints key r text → c.Prints key r' text' → text ≠ text'
  imported : ∀ r r', c.Mentions key r → c.Mentions key r' → r.fileKey ≠ r'.fileKey → r.fileKey ≠ key →
    r'.fileKey ≠ key → (c.imports key).Apart (c.importPath key r) r.name (c.importPath key r') r'.name

theorem runSeparates (done : ofModel job = .ok c) (key : FileKey) : c.Separates key where
  stems := c.run.keysDistinct.map (fun _ _ => FileKey.stemInjective)
  labels := c.run.keysDistinct.map (fun _ _ => FileKey.toStringInjective)
  specifiers := c.run.keysDistinct.map (fun _ _ => FileKey.importPathInjective)
  printed r r' text text' mentions mentions' distinct prints prints' := by
    rintro rfl
    exact distinct (printedOnce done mentions mentions' prints prints').symm
  imported _ _ mentions mentions' distinct apart apart' :=
    mentionsApart done mentions mentions' distinct apart apart'

theorem filesApart :
    Function.Injective FileKey.stem ∧ Function.Injective FileKey.toString ∧
    (∀ source sharedRoot, Function.Injective (fun k : FileKey => k.importPath source sharedRoot)) ∧
    (∀ source source' : FileKey, (source.group = .primary ↔ source'.group = .primary) → ∀ sharedRoot (k : FileKey),
      k.importPath source sharedRoot = k.importPath source' sharedRoot) ∧
    (∀ names fs source sharedRoot (k k' : FileKey) name name', k ≠ k' →
      Leaf.imported name (k.importPath source sharedRoot) ∈ Fragment.rowOf fs →
      Leaf.imported name' (k'.importPath source sharedRoot) ∈ Fragment.rowOf fs →
        (Fragment.printAll (.ofDeclared names) fs).2.Apart (k.importPath source sharedRoot) name
          (k'.importPath source sharedRoot) name') ∧
    ∀ job c, ofModel job = .ok c → ∀ key, c.Separates key := by
  refine ⟨fun _ _ => FileKey.stemInjective, fun _ _ => FileKey.toStringInjective,
    fun source sharedRoot _ _ => FileKey.importPathInjective,
    fun source source' beside sharedRoot k => FileKey.neighboursAgree beside sharedRoot k, ?_,
    fun job c done key => runSeparates done key⟩
  intro names fs source sharedRoot k k' name name' distinct mem mem'
  exact Fragment.printedApart (fun paths => distinct (FileKey.importPathInjective paths)) mem mem'

def bucketMembers : List (String × Member) :=
  [("lender", ⟨"com.amazonaws.iam#Owner", .empty⟩), ("holder", ⟨"com.amazonaws.shared#Owner", .empty⟩)]

def owners : Model where
  version := "2.0"
  shapes := [
    ("com.amazonaws.s3#Bucket", .struct bucketMembers .empty),
    ("com.amazonaws.iam#Owner", .struct [] .empty),
    ("com.amazonaws.shared#Owner", .struct [] .empty)]
  metadata := []
  distinct := by decide
  membersDistinct := by simp [bucketMembers, Shape.memberNames]

def ownersJob : Job :=
  ⟨owners, { Settings.standard with output := { Settings.standardOutput with sharedRoot := some "./" } }⟩

theorem ownerMentioned (done : ofModel ownersJob = .ok c) {name target space : String}
    (mem : (name, ⟨target, .empty⟩) ∈ bucketMembers) (foreign : Builtin.ofId? target = none)
    (kinded : owners.schemaKind? target = some .struct)
    (routed : ownersJob.fileOf target = .ok (.shared space .structures)) :
    ∃ r, r.shapeId = target ∧ r.fileKey = .shared space .structures ∧ c.Mentions (.primary .structures) r := by
  have bucketFile : ownersJob.fileOf "com.amazonaws.s3#Bucket" = .ok (.primary .structures) := rfl
  have uses : ownersJob.UsesAcross "com.amazonaws.s3#Bucket" target := by
    refine ⟨⟨_, _, rfl, _, mem, .declared foreign kinded rfl⟩, ?_⟩
    rw [bucketFile, routed]
    exact fun same => by cases same
  obtain ⟨standalone, s, r, recorded, inside, same⟩ := (readsAcross done).mpr uses
  have mentions : c.Mentions (.primary .structures) r :=
    .schema standalone ((finishedTrace done).1 ▸ bucketFile) recorded inside
  have names := denotesNames done (mentionsDenotes done mentions)
  refine ⟨r, same, ?_, mentions⟩
  exact Except.ok.inj (names.routed.symm.trans (same ▸ routed))

theorem ownersApart :
    (FileKey.shared "" .service).importPath (.primary .enums) (some "./") ≠
      (FileKey.primary .service).importPath (.primary .enums) (some "./") ∧
    (FileKey.shared "a" .enums).importPath (.primary .enums) (some "./") =
      (FileKey.shared "a" .enums).importPath (.primary .service) (some "./") ∧
    (Fragment.printAll (.ofDeclared ["tagSchema"]) [Fragment.sharedTag, Fragment.iamTag]).2.Apart
      ((FileKey.shared "com.amazonaws.shared" .structures).importPath (.primary .structures) none) "tagSchema"
      ((FileKey.shared "com.amazonaws.iam" .structures).importPath (.primary .structures) none) "tagSchema" ∧
    ∃ c r r', ofModel ownersJob = .ok c ∧ r.shapeId = "com.amazonaws.iam#Owner" ∧
      r'.shapeId = "com.amazonaws.shared#Owner" ∧ c.Separates (.primary .structures) ∧
      (c.imports (.primary .structures)).Apart (c.importPath (.primary .structures) r) r.name
        (c.importPath (.primary .structures) r') r'.name := by
  obtain ⟨-, -, specifiers, neighbours, printed, runs⟩ := filesApart
  refine ⟨fun same => ?_, neighbours (.primary .enums) (.primary .service) Iff.rfl _ _, ?_, ?_⟩
  · cases specifiers (.primary .enums) (some "./") same
  · exact printed ["tagSchema"] [Fragment.sharedTag, Fragment.iamTag] (.primary .structures) none
      (.shared "com.amazonaws.shared" .structures) (.shared "com.amazonaws.iam" .structures) _ _ (by decide)
      (by decide +kernel) (by decide +kernel)
  · obtain ⟨c, done⟩ : ∃ c, ofModel ownersJob = .ok c := completes (fun b => by cases b <;> rfl) (by decide)
    have iamFile : ownersJob.fileOf "com.amazonaws.iam#Owner" =
        .ok (.shared "com.amazonaws.iam" .structures) := rfl
    have sharedFile : ownersJob.fileOf "com.amazonaws.shared#Owner" =
        .ok (.shared "com.amazonaws.shared" .structures) := rfl
    obtain ⟨r, target, file, mentions⟩ := ownerMentioned done List.mem_cons_self rfl rfl iamFile
    obtain ⟨r', target', file', mentions'⟩ :=
      ownerMentioned done (List.mem_cons_of_mem _ List.mem_cons_self) rfl rfl sharedFile
    have separates := runs ownersJob c done (.primary .structures)
    refine ⟨c, r, r', done, target, target', separates, separates.imported r r' mentions mentions' ?_ ?_ ?_⟩
    · rw [file, file']
      decide
    · rw [file]
      decide
    · rw [file']
      decide

end Contracts
end ShapeContracts
