import ShapeContracts.Proofs.Links

/-! Signatures. A finished run holds one for every operation of the model, and for nothing else; it is the
one that the operation is generated as, wherever the operation stands in the document. -/
namespace ShapeContracts

theorem Operation.emissionOk {scope : Scope} {id : String} {input output : Option String}
    {errors : List String} {traits : Traits} {e : Emission}
    (made : emission scope id input output errors traits = .ok e) :
    ∃ parts takes missingInput gives missingOutput throws, ShapeId.parse id = .ok parts ∧
      typeRef scope input = .ok (takes, missingInput) ∧ typeRef scope output = .ok (gives, missingOutput) ∧
      throwsLines scope errors = .ok throws ∧ e = .ofSignature ⟨Naming.methodName parts.name, takes, gives,
        docBlock? traits.documentation throws,
        unresolvedNote? parts.name (missingInput.toList ++ missingOutput.toList)⟩ := by
  obtain ⟨parts, named, made⟩ := bindOk.mp made
  obtain ⟨takes, input, made⟩ := bindOk.mp made
  obtain ⟨gives, output, made⟩ := bindOk.mp made
  obtain ⟨throws, errors, made⟩ := bindOk.mp made
  exact ⟨parts, takes.1, takes.2, gives.1, gives.2, throws, named, input, output, errors,
    (pureOk.mp made).symm⟩

namespace Contracts

inductive Types (c : Contracts) : Option String → TypeRef → List String → Prop where
  | absent : Types c none .void []
  | unit : Types c (some Builtin.unit.id) .void []
  | validator {target : String} {kind : ShapeKind} {file : FileKey} (apart : target ≠ Builtin.unit.id)
      (modelled : c.job.model.kind? target = some kind) (validated : kind = .enum ∨ kind = .struct)
      (provides : c.Provides file target ⟨.constant, Naming.schemaName (ShapeId.localName target)⟩) :
      Types c (some target) (.infer ⟨target, Naming.schemaName (ShapeId.localName target), file, kind⟩) []
  | unresolved {target : String} (apart : target ≠ Builtin.unit.id)
      (other : ∀ kind, c.job.model.kind? target = some kind → kind ≠ .enum ∧ kind ≠ .struct) :
      Types c (some target) .unknown [target]

inductive Incomplete (name : String) : List String → Option String → Prop where
  | complete : Incomplete name [] none
  | missing {targets : List String} (lost : targets ≠ []) : Incomplete name targets
      (some (String.join ["// UNRESOLVED: operation ", name, " references unresolved target(s): ",
        ", ".intercalate targets, "."]))

theorem incompleteMissing {name : String} {targets : List String} {comment : Option String}
    (incomplete : Incomplete name targets comment) (lost : targets ≠ []) : comment = some (String.join
      ["// UNRESOLVED: operation ", name, " references unresolved target(s): ", ", ".intercalate targets, "."]) := by
  cases incomplete with
  | complete => contradiction
  | missing => rfl

theorem unresolvedIncomplete (name : String) (targets : List String) :
    Incomplete name targets (Operation.unresolvedNote? name targets) := by
  unfold Operation.unresolvedNote?
  split
  · rename_i none
    obtain rfl := List.isEmpty_iff.mp none
    exact .complete
  · rename_i some
    have spelled : Comment.line (String.join ["UNRESOLVED: operation ", name,
        " references unresolved target(s): ", ", ".intercalate targets, "."]) =
        String.join ["// UNRESOLVED: operation ", name, " references unresolved target(s): ",
          ", ".intercalate targets, "."] := by
      rw [Comment.line, ← String.toList_inj]
      simp
    rw [spelled]
    exact .missing (List.isEmpty_iff.not.mp some)

structure Signs (c : Contracts) (id : String) (input output : Option String) (errors : List String)
    (traits : Traits) (s : Signature) : Prop where
  named : s.method = Naming.methodName (ShapeId.localName id)
  typed : ∃ missingInput missingOutput, c.Types input s.input missingInput ∧
    c.Types output s.output missingOutput ∧
    Incomplete (ShapeId.localName id) (missingInput ++ missingOutput) s.unresolved
  documented : ∃ throws, Operation.throwsLines c.scope errors = .ok throws ∧
    s.doc = Operation.docBlock? traits.documentation throws

variable {job : Job} {c : Contracts}

theorem typesInfer (done : ofModel job = .ok c) {target : String} {symbol : Symbol}
    (apart : target ≠ Builtin.unit.id) (registered : c.scope.symbols.lookup? target = some symbol)
    (standalone : symbol.isStandalone = true) :
    c.Types (some target) (.infer ⟨target, symbol.schemaName, symbol.fileKey, symbol.kind⟩) [] := by
  obtain ⟨kinded, alone, routed, parts, named, same⟩ := denotesNames done
    (r := ⟨target, symbol.schemaName, symbol.fileKey, symbol.kind⟩) ⟨symbol, registered, standalone, rfl⟩
  have provides := standaloneProvides done kinded alone routed named
  rw [← ShapeId.parseLocal named] at provides same
  obtain ⟨shape, found, shaped, -⟩ := schemaKindSome.mp kinded
  have modelled : c.job.model.kind? target = some symbol.kind := by
    rw [(finishedTrace done).1, Model.kind?, found]
    exact shaped
  have validated : symbol.kind = .enum ∨ symbol.kind = .struct := by
    cases kind : symbol.kind <;> simp_all [ShapeKind.isStandalone]
  simp only at same
  rw [same]
  exact .validator apart modelled validated provides

theorem typesUnknown (discovered : c.scope.Discovered) {target : String} (apart : target ≠ Builtin.unit.id)
    (inlined : ∀ symbol, c.scope.symbols.lookup? target = some symbol → symbol.isStandalone = false) :
    c.Types (some target) .unknown [target] := by
  refine .unresolved apart (fun kind modelled => ?_)
  have expanded : ¬ kind.isStandalone = true := by
    intro standalone
    have kinded : c.job.model.schemaKind? target = some kind := by
      rw [Model.schemaKind?, modelled, Option.filter_some, ShapeKind.standaloneBears standalone, if_pos rfl]
    obtain ⟨symbol, registered, rfl⟩ := Scope.registeredSome discovered kinded
    exact Bool.false_ne_true ((inlined symbol registered).symm.trans standalone)
  exact ⟨fun same => expanded (same ▸ rfl), fun same => expanded (same ▸ rfl)⟩

theorem typesMade (done : ofModel job = .ok c) {target missing : Option String} {t : TypeRef}
    (made : Operation.typeRef c.scope target = .ok (t, missing)) : c.Types target t missing.toList := by
  obtain ⟨-, discovered, -, -⟩ := finishedTrace done
  cases target with
  | none =>
    cases pureOk.mp made
    exact .absent
  | some target =>
    simp only [Operation.typeRef] at made
    split at made
    · rename_i unit
      cases pureOk.mp made
      exact unit ▸ .unit
    rename_i apart
    obtain ⟨parts, -, made⟩ := bindOk.mp made
    split at made
    · rename_i symbol registered
      split at made
      · rename_i standalone
        cases pureOk.mp made
        exact typesInfer done apart registered standalone
      · rename_i inlined
        cases pureOk.mp made
        refine typesUnknown discovered apart (fun other there => ?_)
        obtain rfl := Option.some.inj (registered.symm.trans there)
        exact Bool.eq_false_iff.mpr inlined
    · rename_i unregistered
      cases pureOk.mp made
      refine typesUnknown discovered apart (fun symbol there => ?_)
      exact absurd (there.symm.trans unregistered) (Option.some_ne_none symbol)

theorem emissionSigns (done : ofModel job = .ok c) {id : String} {input output : Option String}
    {errors : List String} {traits : Traits} {s : Signature}
    (made : Operation.emission c.scope id input output errors traits = .ok (.ofSignature s)) :
    c.Signs id input output errors traits s := by
  obtain ⟨parts, takes, missingInput, gives, missingOutput, throws, named, input, output, errors, same⟩ :=
    Operation.emissionOk made
  obtain rfl : s = _ := Option.some.inj (congrArg Emission.signature same)
  rw [← ShapeId.parseLocal named]
  exact ⟨rfl, ⟨_, _, typesMade done input, typesMade done output, unresolvedIncomplete _ _⟩, throws, errors,
    rfl⟩

def Operates (c : Contracts) (id : String) (s : Signature) : Prop :=
  ∃ input output errors traits, c.job.model.shape? id = some (.operation input output errors traits) ∧
    Operation.emission c.scope id input output errors traits = .ok (.ofSignature s)

theorem signedOperates (done : ofModel job = .ok c) {id : String} {s : Signature}
    (signed : c.run.signatures.lookup id = some s) : c.Operates id s := by
  obtain ⟨p, shape, run, e, mem, scopes, made, contributed⟩ := signedFrom done signed
  obtain rfl := (finishedTrace done).1
  have operation : p = .kind .operation := by
    by_contra apart
    exact absurd (contributed.symm.trans (Run.unsigned mem apart made)) (Option.some_ne_none s)
  subst operation
  have kinded : shape.kind? = some .operation := Run.workKind mem rfl
  have found : c.job.model.shape? id = some shape :=
    Entries.lookupOfMem c.job.model.distinct (Run.workAll.mp mem).1
  cases shape with
  | operation input output errors traits =>
    refine ⟨input, output, errors, traits, found, ?_⟩
    simp only [Run.contribution, Run.emission, scopes] at made
    obtain ⟨_, _, _, _, _, _, -, -, -, -, rfl⟩ := Operation.emissionOk made
    obtain rfl := Option.some.inj contributed
    exact made
  | _ => cases kinded

theorem operationSigned (done : ofModel job = .ok c) {id : String} {input output : Option String}
    {errors : List String} {traits : Traits}
    (found : job.model.shape? id = some (.operation input output errors traits)) :
    ∃ s, c.run.signatures.lookup id = some s ∧ c.Signs id input output errors traits s := by
  obtain ⟨rfl, -, -, trace⟩ := finishedTrace done
  have listed : (Pass.kind .operation, id, Shape.operation input output errors traits) ∈
      Run.work c.job.model Pass.all :=
    Run.workAll.mpr ⟨Entries.memOfLookup found, .inl ⟨_, rfl, rfl⟩⟩
  have held := Run.traceHolds Emission.signature Run.addSignatures trace (.inr ⟨_, _, listed, fun run e made => ?_⟩)
  · obtain ⟨s, signed⟩ := Entries.lookupSome.mpr held
    obtain ⟨input', output', errors', traits', found', made⟩ := signedOperates done signed
    cases found.symm.trans found'
    exact ⟨s, signed, emissionSigns done made⟩
  · obtain ⟨_, _, _, _, _, _, -, -, -, -, rfl⟩ := Operation.emissionOk made
    exact ⟨_, rfl⟩

theorem signedOperation (done : ofModel job = .ok c) {id : String} {s : Signature}
    (signed : c.run.signatures.lookup id = some s) :
    ∃ input output errors traits, job.model.shape? id = some (.operation input output errors traits) := by
  obtain ⟨input, output, errors, traits, found, -⟩ := signedOperates done signed
  exact ⟨input, output, errors, traits, (finishedTrace done).1 ▸ found⟩

end Contracts
end ShapeContracts
