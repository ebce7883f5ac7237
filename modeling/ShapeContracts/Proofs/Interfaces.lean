import ShapeContracts.Proofs.CommentTexts
import ShapeContracts.Proofs.FatalExact
import ShapeContracts.Proofs.Placement
import ShapeContracts.Proofs.Signatures

/-! Interfaces of services, as they stand in their files: a method for each entry of the list of operations, in
its order. The method of an operation is the one that was registered for it; any other entry keeps its place
with a marker. -/
namespace ShapeContracts

namespace Service

inductive Spells (name : String) : List String → String → Prop where
  | empty : Spells name [] (String.join ["export interface ", name, " \x7b\x7d"])
  | methods {texts : List String} (some : texts ≠ []) : Spells name texts
      (String.join ["export interface ", name, " \x7b\n", "\n\n".intercalate texts, "\n\x7d"])

open Fragment (spelled)

variable {b : Fragment.Bindings}

theorem interfaceSpells (name : String) {methods : List (List Fragment)} {texts : List String}
    (each : methods.map (spelled b) = texts.map String.toList) :
    ∃ body, Spells name texts body ∧ spelled b (interface name methods) = body.toList := by
  cases methods with
  | nil =>
    obtain rfl := List.map_eq_nil_iff.mp each.symm
    refine ⟨_, .empty, ?_⟩
    refine (Fragment.spelledRaw b _).trans ?_
    simp
  | cons method rest =>
    have some : texts ≠ [] := fun none => by simp [none] at each
    refine ⟨_, .methods some, ?_⟩
    rw [interface, if_neg (by simp), Fragment.spelledCons, Fragment.spelledAppend, Fragment.spelledJoined, each,
      Fragment.spelledRaw, Fragment.spelledRaw]
    simp

theorem spellsMethod {name body text : String} {texts : List String} (spells : Spells name texts body)
    (mem : text ∈ texts) : text.toList <:+: body.toList := by
  have joined : text.toList <:+: ("\n\n".intercalate texts).toList := by
    clear spells
    induction texts with
    | nil => contradiction
    | cons first rest ih =>
      cases rest with
      | nil => simp [List.mem_singleton.mp mem]
      | cons next rest =>
        rw [String.intercalate_cons_of_ne_nil (List.cons_ne_nil _ _), String.toList_append, String.toList_append]
        rcases List.mem_cons.mp mem with rfl | mem
        · exact ⟨[], _, (List.append_assoc ..).symm⟩
        · exact (ih mem).trans (List.suffix_append _ _).isInfix
  cases spells with
  | empty => contradiction
  | methods some =>
    refine joined.trans ⟨("export interface " ++ name ++ " \x7b\n").toList, "\n\x7d".toList, ?_⟩
    simp

theorem fallbackSpelled (target name : String) : spelled b (fallback target name) = (String.join
    ["  // UNRESOLVED: operation target ", target, " is not generated.\n  ", Naming.methodName name,
      "(input: unknown): unknown;"]).toList := by
  rw [fallback, Fragment.spelledRaw]
  simp [Comment.line]

theorem declaredSpelled (s : Signature) (source : FileKey) (m : CodeModules) : spelled b (declared s source m) =
    (s.unresolved.toList ++ s.doc.toList).flatMap (fun block => Comment.moved 2 block.toList) ++
      ("  " ++ s.method ++ "(input: ").toList ++ spelled b [s.input.code source m] ++ "): ".toList ++
      spelled b [s.output.code source m] ++ ";".toList := by
  have pieces : declared s source m = [.raw (String.join (((s.unresolved.toList ++ s.doc.toList).flatMap
      Comment.indented).map (fun line => line ++ "\n")) ++ "  " ++ s.method ++ "(input: ")] ++
    [s.input.code source m] ++ [.raw "): "] ++ [s.output.code source m] ++ [.raw ";"] := rfl
  simp only [pieces, Fragment.spelledAppend, Fragment.spelledRaw, String.toList_append, Comment.blocksMoved,
    List.append_assoc]

end Service

namespace Contracts

variable {job : Job} {c : Contracts}

inductive Typed (c : Contracts) (file : FileKey) : TypeRef → String → Prop where
  | void : Typed c file .void "void"
  | unknown : Typed c file .unknown "unknown"
  | infer {r : SchemaRef} {z name : String}
      (bound : (c.imports file).Imports c.job.settings.codeModules.validators "z" z)
      (written : c.ImportsAs file c.job.settings.codeModules.validators "z" z) (linked : c.Linked file r name) :
      Typed c file (.infer r) (String.join [z, ".infer<typeof ", name, ">"])

inductive Method (c : Contracts) (file : FileKey) (target : String) : String → Prop where
  | declared {input output : Option String} {errors : List String} {traits : Traits} {s : Signature}
      {takes gives : String}
      (found : c.job.model.shape? target = some (.operation input output errors traits))
      (signed : c.run.signatures.lookup target = some s) (signs : c.Signs target input output errors traits s)
      (accepts : c.Typed file s.input takes) (returns : c.Typed file s.output gives) :
      Method c file target (String.join [String.ofList ((s.unresolved.toList ++ s.doc.toList).flatMap
        (fun block => Comment.moved 2 block.toList)), "  ", Naming.methodName (ShapeId.localName target),
        "(input: ", takes, "): ", gives, ";"])
  | fallback (other : ∀ input output errors traits,
        c.job.model.shape? target ≠ some (.operation input output errors traits)) :
      Method c file target (String.join ["  // UNRESOLVED: operation target ", target, " is not generated.\n  ",
        Naming.methodName (ShapeId.localName target), "(input: unknown): unknown;"])

theorem typeTyped (done : ofModel job = .ok c) {file : FileKey} (written : c.run.codeOf file ≠ [])
    {target : String} {s : Signature} (signed : c.run.signatures.lookup target = some s) {t : TypeRef}
    (shown : t = s.input ∨ t = s.output)
    (inside : Fragment.partLeaves 0 [t.code file c.job.settings.codeModules] ⊆ c.leaves file) :
    ∃ text, c.Typed file t text ∧
      Fragment.spelled (c.imports file) [t.code file c.job.settings.codeModules] = text.toList := by
  cases t with
  | void => exact ⟨_, .void, Fragment.spelledRaw _ _⟩
  | unknown => exact ⟨_, .unknown, Fragment.spelledRaw _ _⟩
  | infer r =>
    have refers : s.Refers r := shown.imp Eq.symm Eq.symm
    have row : Fragment.partLeaves 0 [(TypeRef.infer r).code file c.job.settings.codeModules] =
        [.imported "z" c.job.settings.codeModules.validators, .text ".infer<typeof ".toList, c.refLeaf file r,
          .text ['>']] := by
      simp [TypeRef.code, Fragment.partLeaves, Fragment.leaves, Fragment.reindentZero, Schema.lower,
        Schema.refLeaves, refLeaf]
    rw [row] at inside
    obtain ⟨z, bound, validators⟩ := importSpelled c (inside List.mem_cons_self)
    obtain ⟨body, file'⟩ : ∃ body, (file, c.fileWith file body) ∈ c.files :=
      ⟨_, (finishedFile done).mpr ⟨written, rfl⟩⟩
    have linked := referenceSpelled done (denotesNames done (signedDenotes done signed refers))
      (inside (by simp))
    refine ⟨_, .infer bound (importsWritten file' bound) linked, ?_⟩
    rw [Fragment.spelled, row, List.flatMap_cons, validators]
    simp [Fragment.Leaf.spelling]

theorem methodMade (done : ofModel job = .ok c) {file : FileKey} (written : c.run.codeOf file ≠ [])
    {target : String} {method : List Fragment}
    (made : Service.method c.scope c.run.signatures file target = .ok method)
    (inside : Fragment.partLeaves 0 method ⊆ c.leaves file) : ∃ text, c.Method file target text ∧
      Fragment.spelled (c.imports file) method = text.toList := by
  obtain ⟨rfl, -, -, -⟩ := finishedTrace done
  unfold Service.method at made
  split at made
  · rename_i s signed
    obtain rfl := pureOk.mp made
    obtain ⟨input, output, errors, traits, found⟩ := signedOperation done signed
    obtain ⟨s', signed', signs⟩ := operationSigned done found
    obtain rfl := Option.some.inj (signed.symm.trans signed')
    have part : ∀ f ∈ Service.declared s file c.job.settings.codeModules,
        Fragment.partLeaves 0 [f] ⊆ c.leaves file :=
      fun f mem => List.Subset.trans (Fragment.partsMem (List.cons_subset.mpr ⟨mem, List.nil_subset _⟩)) inside
    obtain ⟨takes, accepts, takesText⟩ := typeTyped done written signed (.inl rfl)
      (part _ (by simp [Service.declared]))
    obtain ⟨gives, returns, givesText⟩ := typeTyped done written signed (.inr rfl)
      (part _ (by simp [Service.declared]))
    refine ⟨_, .declared found signed signs accepts returns, ?_⟩
    refine (Service.declaredSpelled s file c.job.settings.codeModules).trans ?_
    rw [takesText, givesText, signs.named]
    simp
  · rename_i unsigned
    obtain ⟨parts, named, made⟩ := bindOk.mp made
    obtain rfl := pureOk.mp made
    rw [← ShapeId.parseLocal named]
    refine ⟨_, .fallback (fun input output errors traits found => ?_), Service.fallbackSpelled _ _⟩
    obtain ⟨s, signed, -⟩ := operationSigned done found
    cases unsigned.symm.trans signed

theorem methodsEach (done : ofModel job = .ok c) {file : FileKey} (written : c.run.codeOf file ≠ [])
    {targets : List String} {methods : List (List Fragment)}
    (made : Service.methods c.scope c.run.signatures file targets = .ok methods)
    (inside : ∀ method ∈ methods, Fragment.partLeaves 0 method ⊆ c.leaves file) :
    ∃ texts, List.Forall₂ (c.Method file) targets texts ∧
      methods.map (Fragment.spelled (c.imports file)) = texts.map String.toList := by
  induction targets generalizing methods with
  | nil =>
    obtain rfl := pureOk.mp made
    exact ⟨[], .nil, rfl⟩
  | cons target rest ih =>
    obtain ⟨method, first, made⟩ := bindOk.mp made
    obtain ⟨later, others, made⟩ := bindOk.mp made
    obtain rfl := pureOk.mp made
    obtain ⟨here, behind⟩ := List.forall_mem_cons.mp inside
    obtain ⟨text, own, same⟩ := methodMade done written first here
    obtain ⟨texts, each, alike⟩ := ih others behind
    exact ⟨text :: texts, .cons own each, congrArg₂ List.cons same alike⟩

def documentation (traits : Traits) : String :=
  ((Comment.docBlock? traits.documentation).map (fun block => block ++ "\n")).getD ""

structure Serves (c : Contracts) (id : String) (operations : List String) (traits : Traits) (file : FileKey)
    (f : Fragment) : Prop where
  there : f ∈ c.run.codeOf file
  whole : ∃ methods body, List.Forall₂ (c.Method file) operations methods ∧
    Service.Spells (Naming.serviceName (ShapeId.localName id)) methods body ∧
    f.print (c.imports file) = (documentation traits ++ body, c.imports file) ∧
    c.Shows file (documentation traits ++ body)

theorem serviceServes (done : ofModel job = .ok c) {id : String} {version : Option String}
    {operations resources : List String} {traits : Traits} {file : FileKey}
    (found : job.model.shape? id = some (.service version operations resources traits))
    (routed : job.fileOf id = .ok file) :
    ∃ f, c.Writes file (.kind .service, id, .service version operations resources traits) f ∧
      c.Serves id operations traits file f := by
  obtain rfl := (finishedTrace done).1
  have listed : (Pass.kind .service, id, Shape.service version operations resources traits) ∈
      c.job.contents file :=
    contentsMem.mpr ⟨Run.workAll.mpr ⟨Entries.memOfLookup found, .inl ⟨_, rfl, rfl⟩⟩, rfl, routed⟩
  obtain ⟨f, there, writes⟩ := writtenBy done listed
  refine ⟨f, writes, there, ?_⟩
  obtain ⟨e, made, code⟩ := writes
  obtain ⟨parts, named, made⟩ := bindOk.mp made
  obtain ⟨key, routed', made⟩ := bindOk.mp made
  obtain ⟨methods, each, made⟩ := bindOk.mp made
  obtain rfl := pureOk.mp made
  cases code
  rw [ShapeId.parseLocal named]
  have written := List.ne_nil_of_mem there
  have inside : ∀ method ∈ methods, Fragment.partLeaves 0 method ⊆ c.leaves file := by
    intro method mem
    refine List.Subset.trans ?_ (Fragment.fileLeavesMem there)
    rw [Fragment.leaves]
    exact Fragment.partsMem (fun f part => List.mem_append_right _ (Service.interfaceMem _ mem part))
  obtain ⟨texts, each, same⟩ := methodsEach done written each inside
  obtain ⟨body, spells, whole⟩ := Service.interfaceSpells (Naming.serviceName parts.name) same
  refine ⟨texts, body, each, spells, fragmentPrinted done there ?_⟩
  rw [Fragment.spelledSequence, Fragment.spelledAppend, whole, String.toList_append, documentation]
  cases Comment.docBlock? traits.documentation with
  | none => rfl
  | some block => exact congrArg (· ++ _) (Fragment.spelledRaw _ _)

theorem showsInfix {file : FileKey} {text : String} {cs : List Char} (shown : c.Shows file text)
    (inside : cs <:+: text.toList) : c.Shows file (String.ofList cs) := by
  obtain ⟨front, back, there⟩ := shown
  obtain ⟨before, after, split⟩ := inside
  refine ⟨front ++ before, after ++ back, ?_⟩
  rw [← split] at there
  simpa using there

theorem methodShown (done : ofModel job = .ok c) {id : String} {version : Option String}
    {operations resources : List String} {traits : Traits} {file : FileKey}
    (found : job.model.shape? id = some (.service version operations resources traits))
    (routed : job.fileOf id = .ok file) {target : String} (offered : target ∈ operations) :
    ∃ text, c.Method file target text ∧ ∀ cs, cs <:+: text.toList → c.Shows file (String.ofList cs) := by
  obtain ⟨f, -, serves⟩ := serviceServes done found routed
  obtain ⟨methods, body, each, spells, -, shown⟩ := serves.whole
  obtain ⟨text, listed, method⟩ := Entries.paired each offered
  refine ⟨text, method, fun cs inside => showsInfix shown ?_⟩
  rw [String.toList_append]
  exact (inside.trans (Service.spellsMethod spells listed)).trans (List.suffix_append _ _).isInfix

theorem interfaceFaithful (done : ofModel job = .ok c) {id : String} {version : Option String}
    {operations resources : List String} {traits : Traits}
    (found : job.model.shape? id = some (.service version operations resources traits)) :
    ∃ file f, job.fileOf id = .ok file ∧
      c.Writes file (.kind .service, id, .service version operations resources traits) f ∧
      c.Serves id operations traits file f := by
  obtain ⟨file, placed⟩ := declaredPlaced done (Entries.memOfLookup found) rfl
  have routed := (finishedTrace done).1 ▸ placed.routed
  obtain ⟨f, writes, serves⟩ := serviceServes done found routed
  exact ⟨file, f, routed, writes, serves⟩

def market : Model where
  version := "2.0"
  shapes := [
    ("com.amazonaws.s3#Market", .service none
      ["com.amazonaws.s3#Sell", "com.amazonaws.s3#Gone", "com.amazonaws.s3#Sell", "com.amazonaws.s3#Leave"] []
      .empty),
    ("com.amazonaws.s3#Sell", .operation (some "com.amazonaws.s3#Goods") (some "com.amazonaws.s3#Coins") []
      .empty),
    ("com.amazonaws.s3#Goods", .struct [] .empty),
    ("com.amazonaws.s3#Coins", .list ⟨"smithy.api#Integer", .empty⟩ .empty),
    ("com.amazonaws.s3#Leave", .operation none (some "smithy.api#Unit") [] .empty)]
  metadata := []
  distinct := by decide
  membersDistinct := by simp [Shape.memberNames]

theorem marketFaithful : ∃ c file f, ofModel ⟨market, .standard⟩ = .ok c ∧
    Job.fileOf ⟨market, .standard⟩ "com.amazonaws.s3#Market" = .ok file ∧
    c.Serves "com.amazonaws.s3#Market" ["com.amazonaws.s3#Sell", "com.amazonaws.s3#Gone",
      "com.amazonaws.s3#Sell", "com.amazonaws.s3#Leave"] .empty file f := by
  obtain ⟨c, done⟩ : ∃ c, ofModel ⟨market, .standard⟩ = .ok c :=
    completes (fun b => by cases b <;> rfl) (by decide)
  obtain ⟨file, f, routed, -, serves⟩ := interfaceFaithful done
    (rfl : Model.shape? _ "com.amazonaws.s3#Market" = _)
  exact ⟨c, file, f, done, routed, serves⟩

end Contracts
end ShapeContracts
