import Mathlib.Data.List.Forall2
import ShapeContracts.Proofs.Exports
import ShapeContracts.Proofs.LoadOrder

/-! What a finished run has written. The fragments of a file are, in order, those of the shapes that
declare something in it, and every fragment exports the names that the shape's local name gives. -/
namespace ShapeContracts

def Pass.exports (localName : String) : Pass → List Export
  | kind .enum =>
    [⟨.enumeration, Naming.typeName localName⟩, ⟨.constant, Naming.schemaName localName⟩]
  | kind .struct => [⟨.constant, Naming.schemaName localName⟩]
  | errorClasses => [⟨.errorClass, Naming.errorClassName localName⟩]
  | kind .service => [⟨.interface, Naming.serviceName localName⟩]
  | _ => []

def Pass.declares : Pass → Bool
  | kind .enum | kind .struct | errorClasses | kind .service => true
  | _ => false

structure Pass.IsOrder (order : List Pass) : Prop where
  once : order.Perm Pass.all
  signed : ∃ before after, order = before ++ .kind .service :: after ∧ .kind .operation ∈ before

theorem Pass.allOrder : IsOrder Pass.all :=
  ⟨.refl _, Pass.all.dropLast, [], rfl, by decide⟩

theorem Pass.orderSplit {order : List Pass} (ordered : IsOrder order) :
    ∃ first second, order = first ++ second ∧ .kind .service ∉ first ∧ .kind .operation ∉ second := by
  obtain ⟨before, after, same, signed⟩ := ordered.signed
  have once : order.Nodup := ordered.once.nodup_iff.mpr (by decide)
  rw [same, List.nodup_append] at once
  exact ⟨before, _, same, fun mem => once.2.2 _ mem _ List.mem_cons_self rfl,
    fun mem => once.2.2 _ signed _ mem rfl⟩

theorem Fragment.solidText {ls : List Leaf} (solid : Solid ls) (b : Bindings) (header imports : String) :
    fileText header imports (printLeaves b ls).1 = String.ofList (header.toList ++
      (if imports.isEmpty then [] else '\n' :: '\n' :: imports.toList) ++
        '\n' :: '\n' :: (printLeaves b ls).1 ++ ['\n']) := by
  have trimmed := solidTrim solid b (header.toList ++
    (if imports.isEmpty then [] else '\n' :: '\n' :: imports.toList) ++ ['\n', '\n'])
  simp only [List.append_assoc, List.cons_append, List.nil_append] at trimmed
  simp only [fileText, List.append_assoc, List.cons_append, trimmed]

namespace Job

def writes (job : Job) (key : FileKey) (x : Pass × String × Shape) : Bool :=
  x.1.declares && (job.fileOf x.2.1).toOption == some key

def contents (job : Job) (key : FileKey) : List (Pass × String × Shape) :=
  (Run.work job.model Pass.all).filter (job.writes key)

end Job

namespace Run

variable {job : Job} {r r' : Run}

theorem addCodeOf (r : Run) (id : String) (e : Emission) (key : FileKey) :
    (r.add id e).codeOf key = r.codeOf key ++
      ((e.code.toList.filter (fun c => c.1 == key)).map Prod.snd) := by
  obtain ⟨schema, code, signature⟩ := e
  cases schema <;> cases code <;> cases signature <;> simp [add, addSchema, addCode, addSignature, codeOf]

inductive Contribution (r : Run) (job : Job) (id : String) : Pass → Shape → Emission → Prop where
  | enumeration {members traits parts symbol} (named : ShapeId.parse id = .ok parts)
      (registered : r.symbols.lookup? id = some symbol) :
      r.Contribution job id (.kind .enum) (.enum members traits)
        (.declared (Enum.schema symbol.typeName members) symbol.fileKey
          (.sequence [Enum.declaration symbol.typeName parts.name members
              (Comment.above traits Enum.shapeTraits ("enum " ++ parts.name)), .raw "\n",
            .exportConst [] symbol.schemaName ((Enum.schema symbol.typeName members).lower
              symbol.fileKey job.settings.codeModules)]))
  | struct {members traits parts symbol fields} (named : ShapeId.parse id = .ok parts)
      (registered : r.symbols.lookup? id = some symbol)
      (each : Structure.fields (r.scope job) parts.name symbol.fileKey members = .ok fields) :
      r.Contribution job id (.kind .struct) (.struct members traits)
        (.declared (.object fields) symbol.fileKey
          (.exportConst (Comment.above traits
              (if traits.error.isSome then Structure.errorTraits else Structure.shapeTraits)
              ("structure " ++ parts.name)) symbol.schemaName
            ((Schema.object fields).lower symbol.fileKey job.settings.codeModules)))
  | errorClass {members traits parts symbol body} (front : String) (closed : body = front ++ "\x7d")
      (named : ShapeId.parse id = .ok parts) (registered : r.symbols.lookup? id = some symbol) :
      r.Contribution job id .errorClasses (.struct members traits)
        (.ofCode symbol.fileKey (.sequence [.raw (String.join ["export class ", symbol.typeName,
          " extends "]), .imported ErrorClass.base job.settings.modules.runtime, .raw body]))
  | operation {input output errors traits parts inputType outputType doc note}
      (named : ShapeId.parse id = .ok parts)
      (takes : ∃ missing, Operation.typeRef (r.scope job) input = .ok (inputType, missing))
      (gives : ∃ missing, Operation.typeRef (r.scope job) output = .ok (outputType, missing)) :
      r.Contribution job id (.kind .operation) (.operation input output errors traits)
        (.ofSignature ⟨Naming.methodName parts.name, inputType, outputType, doc, note⟩)
  | service {version operations resources traits parts key methods} (doc : List Fragment)
      (plain : ∀ f ∈ doc, ∃ text, f = .raw text) (named : ShapeId.parse id = .ok parts)
      (routed : (r.scope job).outputFileKey id = .ok key)
      (each : Service.methods (r.scope job) r.signatures key operations = .ok methods) :
      r.Contribution job id (.kind .service) (.service version operations resources traits)
        (.ofCode key (.sequence (doc ++ Service.interface (Naming.serviceName parts.name) methods)))
  | expanded {kind shape s} (kinded : shape.kind? = some kind) (inlined : shape.isExpanded = true)
      (body : (r.scope job).inlineEmission id = .ok (.ofSchema s)) :
      r.Contribution job id (.kind kind) shape (.ofSchema s)

theorem contributionOk {p : Pass} {id : String} {shape : Shape} {e : Emission}
    (here : (p, id, shape) ∈ work job.model Pass.all)
    (made : r.contribution job p id shape = .ok e) : r.Contribution job id p shape e := by
  have inlined : ∀ kind, shape.kind? = some kind → shape.isExpanded = true →
      (r.scope job).inlineEmission id = .ok e → r.Contribution job id (.kind kind) shape e := by
    intro kind kinded expanded made
    have body := made
    obtain ⟨key, -, made⟩ := bindOk.mp made
    obtain ⟨s, -, made⟩ := bindOk.mp made
    obtain rfl := pureOk.mp made
    exact .expanded kinded expanded body
  rcases (workAll.mp here).2 with ⟨kind, rfl, kinded⟩ | ⟨rfl, kinded, -⟩
  · cases shape with
    | enum members traits =>
      obtain rfl := Option.some.inj kinded
      obtain ⟨parts, named, made⟩ := bindOk.mp made
      obtain ⟨symbol, registered, made⟩ := bindOk.mp made
      obtain rfl := pureOk.mp made
      exact .enumeration named (Scope.symbolOk.mp registered)
    | struct members traits =>
      obtain rfl := Option.some.inj kinded
      obtain ⟨parts, named, made⟩ := bindOk.mp made
      obtain ⟨symbol, registered, made⟩ := bindOk.mp made
      obtain ⟨fields, each, made⟩ := bindOk.mp made
      obtain rfl := pureOk.mp made
      exact .struct named (Scope.symbolOk.mp registered) each
    | operation input output errors traits =>
      obtain rfl := Option.some.inj kinded
      obtain ⟨parts, named, made⟩ := bindOk.mp made
      obtain ⟨inputType, takes, made⟩ := bindOk.mp made
      obtain ⟨outputType, gives, made⟩ := bindOk.mp made
      obtain ⟨throws, -, made⟩ := bindOk.mp made
      obtain rfl := pureOk.mp made
      exact .operation named ⟨_, takes⟩ ⟨_, gives⟩
    | service version operations resources traits =>
      obtain rfl := Option.some.inj kinded
      obtain ⟨parts, named, made⟩ := bindOk.mp made
      obtain ⟨key, routed, made⟩ := bindOk.mp made
      obtain ⟨methods, each, made⟩ := bindOk.mp made
      obtain rfl := pureOk.mp made
      refine .service _ (fun f mem => ?_) named routed each
      rw [Option.toList_map] at mem
      obtain ⟨block, -, same⟩ := List.mem_map.mp mem
      exact ⟨_, same.symm⟩
    | unsupported => contradiction
    | _ => exact inlined kind kinded (by obtain rfl := Option.some.inj kinded; rfl) made
  · cases shape with
    | struct members traits =>
      obtain ⟨parts, named, made⟩ := bindOk.mp made
      obtain ⟨symbol, registered, made⟩ := bindOk.mp made
      obtain rfl := pureOk.mp made
      refine .errorClass (String.join [" \x7b\n  constructor() \x7b\n    super(", Naming.quote parts.name,
        ", ", ErrorClass.literal? (traits.documentation.map Naming.quote), ", ",
        ErrorClass.literal? (traits.httpError.map toString), ");\n    this.name = ",
        Naming.quote symbol.typeName, ";\n  \x7d\n"]) ?_ named (Scope.symbolOk.mp registered)
      apply String.toList_inj.mp
      simp
    | _ => cases kinded

theorem contributionCode (discovered : (r.scope job).Discovered)
    (spaced : r.symbols.primarySpace = job.settings.primarySpace) {p : Pass} {id : String} {shape : Shape}
    {e : Emission} (here : (p, id, shape) ∈ work job.model Pass.all)
    (made : r.contribution job p id shape = .ok e) :
    (p.declares = false ∧ e.code = none) ∨ ∃ key f parts, p.declares = true ∧ e.code = some (key, f) ∧
      job.fileOf id = .ok key ∧ ShapeId.parse id = .ok parts ∧ f.Exports (p.exports parts.name) := by
  obtain ⟨entry, kinds⟩ := workAll.mp here
  have found : job.model.shape? id = some shape := Entries.lookupOfMem job.model.distinct entry
  have routes : ∀ key, outputFileKey r.symbols.primarySpace job.model id = .ok key →
      job.fileOf id = .ok key := by
    intro key there
    rwa [spaced] at there
  have routed : ∀ {symbol : Symbol}, r.symbols.lookup? id = some symbol →
      job.fileOf id = .ok symbol.fileKey :=
    fun registered => routes _ (Scope.registeredKind discovered registered).2.1
  have names := fun symbol parts registered named =>
    @Scope.registeredNames _ discovered id symbol shape parts registered found named
  have contribution := contributionOk here made
  cases contribution with
  | enumeration named registered =>
    obtain ⟨schemaName, typeName⟩ := names _ _ registered named
    refine .inr ⟨_, _, _, rfl, rfl, routed registered, named, ?_⟩
    change _ = Naming.typeName _ at typeName
    rw [Pass.exports, ← schemaName, ← typeName]
    exact .enumeration _ _ _ _ _ _
  | struct named registered each =>
    refine .inr ⟨_, _, _, rfl, rfl, routed registered, named, ?_⟩
    rw [Pass.exports, ← (names _ _ registered named).1]
    exact .constant _ _ _
  | @errorClass members traits parts symbol body front closed named registered =>
    subst closed
    obtain ⟨-, flagged⟩ : (Shape.struct members traits).kind? = some .struct ∧
        (Shape.struct members traits).isError = true := by simpa using kinds
    have typeName := (names _ _ registered named).2
    rw [flagged, if_pos rfl] at typeName
    refine .inr ⟨_, _, _, rfl, rfl, routed registered, named, ?_⟩
    rw [Pass.exports, ← typeName]
    exact .errorClass _ _ _ _
  | operation named takes gives => exact .inl ⟨rfl, rfl⟩
  | service doc plain named there each =>
    exact .inr ⟨_, _, _, rfl, rfl, routes _ there, named, .interface _ _ _⟩
  | expanded kinded inlined body =>
    refine .inl ⟨?_, rfl⟩
    cases shape with
    | enum | struct | operation | service | unsupported => contradiction
    | _ =>
      obtain rfl := Option.some.inj kinded
      rfl

/-! The steps of a trace, with what each of them finds. -/

theorem traceKeeps {P : Run → Prop} {w : List (Pass × String × Shape)}
    (kept : ∀ (r : Run) (x : Pass × String × Shape) (e : Emission), x ∈ w → P r →
      r.contribution job x.1 x.2.1 x.2.2 = .ok e → P (r.add x.2.1 e))
    (h : Trace job r w r') (start : P r) : P r' := by
  induction h with
  | done r => exact start
  | step made tail ih =>
    exact ih (fun r x e mem => kept r x e (List.mem_cons_of_mem _ mem))
      (kept _ _ _ List.mem_cons_self start made)

theorem traceCode (key : FileKey) {P : Run → Prop} {w : List (Pass × String × Shape)}
    (kept : ∀ (r : Run) (x : Pass × String × Shape) (e : Emission), x ∈ w → P r →
      r.contribution job x.1 x.2.1 x.2.2 = .ok e → P (r.add x.2.1 e))
    (routes : ∀ (r : Run) (x : Pass × String × Shape) (e : Emission), x ∈ w → P r →
      r.contribution job x.1 x.2.1 x.2.2 = .ok e →
        (job.writes key x = true ↔ ∃ f, e.code = some (key, f)))
    (h : Trace job r w r') (start : P r) : ∃ fs, r'.codeOf key = r.codeOf key ++ fs ∧
      List.Forall₂ (fun x f => x ∈ w ∧ ∃ r₁ e, P r₁ ∧ r₁.contribution job x.1 x.2.1 x.2.2 = .ok e ∧
        e.code = some (key, f)) (w.filter (job.writes key)) fs := by
  induction h with
  | done r => exact ⟨[], by simp, .nil⟩
  | @step r r' p id shape e rest made tail ih =>
    obtain ⟨fs, written, each⟩ := ih (fun r x e mem => kept r x e (List.mem_cons_of_mem _ mem))
      (fun r x e mem => routes r x e (List.mem_cons_of_mem _ mem))
      (kept _ _ _ List.mem_cons_self start made)
    have here := routes r (p, id, shape) e List.mem_cons_self start made
    rw [addCodeOf] at written
    by_cases writes : job.writes key (p, id, shape) = true
    · obtain ⟨f, code⟩ := here.mp writes
      refine ⟨f :: fs, by simpa [code] using written, ?_⟩
      rw [List.filter_cons_of_pos writes]
      exact .cons ⟨List.mem_cons_self, r, e, start, made, code⟩
        (each.imp (fun _ _ h => ⟨List.mem_cons_of_mem _ h.1, h.2⟩))
    · refine ⟨fs, ?_, ?_⟩
      · have silent : e.code.toList.filter (fun c => c.1 == key) = [] := by
          refine List.filter_eq_nil_iff.mpr (fun entry mem same => writes (here.mpr ⟨entry.2, ?_⟩))
          rw [Option.mem_toList.mp mem, ← beq_iff_eq.mp same]
        simpa [silent] using written
      · rw [List.filter_cons_of_neg writes]
        exact each.imp (fun _ _ h => ⟨List.mem_cons_of_mem _ h.1, h.2⟩)

theorem workPass {m : Model} {passes : List Pass} {x : Pass × String × Shape}
    (mem : x ∈ work m passes) : x.1 ∈ passes :=
  (workMem.mp mem).1

theorem workKind {m : Model} {x : Pass × String × Shape} {kind : ShapeKind}
    (mem : x ∈ work m Pass.all) (same : x.1 = .kind kind) : x.2.2.kind? = some kind := by
  rcases (workAll.mp mem).2 with ⟨kind', same', shaped⟩ | ⟨other, -⟩
  · rw [same] at same'
    cases same'
    exact shaped
  · rw [same] at other
    contradiction

theorem contributionSame {x : Pass × String × Shape} (mem : x ∈ work job.model Pass.all)
    (symbols : r.symbols = r'.symbols) (signed : x.1 = .kind .service → r.signatures = r'.signatures) :
    r.contribution job x.1 x.2.1 x.2.2 = r'.contribution job x.1 x.2.1 x.2.2 := by
  have scopes : r.scope job = r'.scope job := by rw [scope, scope, symbols]
  obtain ⟨p, id, shape⟩ := x
  cases p with
  | errorClasses => cases shape <;> simp only [contribution, classEmission, scopes]
  | kind kind =>
    have shaped : shape.kind? = some kind := workKind mem rfl
    cases shape with
    | service version operations resources traits =>
      obtain rfl := Option.some.inj shaped
      simp only [contribution, emission, scopes, signed rfl]
    | _ => simp only [contribution, emission, scopes]

theorem unsigned {x : Pass × String × Shape} {e : Emission} (mem : x ∈ work job.model Pass.all)
    (apart : x.1 ≠ .kind .operation) (made : r.contribution job x.1 x.2.1 x.2.2 = .ok e) :
    e.signature = none := by
  have contribution := contributionOk mem made
  obtain ⟨p, id, shape⟩ := x
  cases contribution with
  | operation => contradiction
  | _ => rfl

theorem contributionRoutes (discovered : (r.scope job).Discovered)
    (spaced : r.symbols.primarySpace = job.settings.primarySpace) {key : FileKey}
    {x : Pass × String × Shape} {e : Emission} (mem : x ∈ work job.model Pass.all)
    (made : r.contribution job x.1 x.2.1 x.2.2 = .ok e) :
    job.writes key x = true ↔ ∃ f, e.code = some (key, f) := by
  rcases contributionCode discovered spaced mem made with
    ⟨plain, none⟩ | ⟨there, f, parts, declares, code, routed, -⟩
  · simp [Job.writes, plain, none]
  · simp [Job.writes, declares, code, routed, Except.toOption]

def Writes (r : Run) (job : Job) (key : FileKey) (x : Pass × String × Shape) (f : Fragment) : Prop :=
  ∃ e, r.contribution job x.1 x.2.1 x.2.2 = .ok e ∧ e.code = some (key, f)

theorem orderedCode {order : List Pass} (ordered : Pass.IsOrder order)
    (trace : Trace job r (work job.model order) r') (discovered : (r.scope job).Discovered)
    (spaced : r.symbols.primarySpace = job.settings.primarySpace) (key : FileKey) : ∃ fs,
      r'.codeOf key = r.codeOf key ++ fs ∧
        List.Forall₂ (r'.Writes job key) ((work job.model order).filter (job.writes key)) fs := by
  have symbols : r'.symbols = r.symbols := traceSymbols trace
  have listed : ∀ x ∈ work job.model order, x ∈ work job.model Pass.all :=
    fun x => (workPerm ordered.once).mem_iff.mp
  obtain ⟨first, second, rfl, early, late⟩ := Pass.orderSplit ordered
  have parts : work job.model (first ++ second) = work job.model first ++ work job.model second :=
    List.flatMap_append
  rw [parts] at trace listed ⊢
  obtain ⟨middle, head, tail⟩ := traceAppend.mp trace
  have here : ∀ x ∈ work job.model first, x ∈ work job.model Pass.all :=
    fun x mem => listed x (List.mem_append_left _ mem)
  have there : ∀ x ∈ work job.model second, x ∈ work job.model Pass.all :=
    fun x mem => listed x (List.mem_append_right _ mem)
  have silent : ∀ {r₁ : Run} {x : Pass × String × Shape} {e : Emission}, x ∈ work job.model second →
      r₁.contribution job x.1 x.2.1 x.2.2 = .ok e → e.signature = none :=
    fun mem made => unsigned (there _ mem) (fun same => late (same ▸ workPass mem)) made
  have routes : ∀ {r₁ : Run} {x : Pass × String × Shape} {e : Emission}, r₁.symbols = r.symbols →
      x ∈ work job.model Pass.all → r₁.contribution job x.1 x.2.1 x.2.2 = .ok e →
        (job.writes key x = true ↔ ∃ f, e.code = some (key, f)) := by
    intro r₁ x e same mem made
    have scopes : r₁.scope job = r.scope job := by rw [scope, scope, same]
    exact contributionRoutes (scopes ▸ discovered) (same ▸ spaced) mem made
  -- nothing signs once the services have begun, so each of them sees the signatures of the end
  have signatures : r'.signatures = middle.signatures := by
    refine traceKeeps (P := fun r => r.signatures = middle.signatures) ?_ tail rfl
    intro r₁ x e mem kept made
    rw [addSignatures, silent mem made]
    exact kept
  obtain ⟨fs, before, eachBefore⟩ := traceCode key (P := fun r₁ => r₁.symbols = r.symbols)
    (fun _ _ _ _ kept _ => (addSymbols ..).trans kept)
    (fun _ _ _ mem kept made => routes kept (here _ mem) made) head rfl
  obtain ⟨gs, after, eachAfter⟩ := traceCode key
    (P := fun r₁ => r₁.symbols = r.symbols ∧ r₁.signatures = r'.signatures)
    (by
      intro r₁ x e mem kept made
      rw [addSymbols, addSignatures, silent mem made]
      exact kept)
    (fun _ _ _ mem kept made => routes kept.1 (there _ mem) made) tail
    ⟨(traceSymbols tail).symm.trans symbols, signatures.symm⟩
  refine ⟨fs ++ gs, by rw [after, before, List.append_assoc], ?_⟩
  rw [List.filter_append]
  refine List.rel_append (eachBefore.imp ?_) (eachAfter.imp ?_)
  · rintro x f ⟨mem, r₁, e, same, made, code⟩
    have replayed := contributionSame (here x mem) (same.trans symbols.symm)
      (fun service => absurd (service ▸ workPass mem) early)
    exact ⟨e, by rw [← replayed, made], code⟩
  · rintro x f ⟨mem, r₁, e, ⟨same, signed⟩, made, code⟩
    have replayed := contributionSame (there x mem) (same.trans symbols.symm) (fun _ => signed)
    exact ⟨e, by rw [← replayed, made], code⟩

end Run

namespace Contracts

variable {job : Job} {c : Contracts}

def Writes (c : Contracts) (key : FileKey) (x : Pass × String × Shape) (f : Fragment) : Prop :=
  ∃ e, c.run.contribution c.job x.1 x.2.1 x.2.2 = .ok e ∧ e.code = some (key, f)

theorem finishedCode (done : ofModel job = .ok c) (key : FileKey) :
    List.Forall₂ (c.Writes key) (job.contents key) (c.run.codeOf key) := by
  obtain ⟨rfl, discovered, spaced, trace⟩ := finishedTrace done
  obtain ⟨fs, written, each⟩ := Run.orderedCode Pass.allOrder trace discovered spaced key
  rw [written]
  exact each

theorem contentsMem {key : FileKey} {x : Pass × String × Shape} : x ∈ job.contents key ↔
    x ∈ Run.work job.model Pass.all ∧ x.1.declares = true ∧ job.fileOf x.2.1 = .ok key := by
  simp only [Job.contents, Job.writes, List.mem_filter, Bool.and_eq_true, beq_iff_eq]
  cases job.fileOf x.2.1 <;> simp [Except.toOption]

theorem writtenBy (done : ofModel job = .ok c) {key : FileKey} {x : Pass × String × Shape}
    (mem : x ∈ job.contents key) : ∃ f ∈ c.run.codeOf key, c.Writes key x f :=
  Entries.paired (finishedCode done key) mem

theorem writtenFor (done : ofModel job = .ok c) {key : FileKey} {f : Fragment}
    (mem : f ∈ c.run.codeOf key) : ∃ x ∈ job.contents key, c.Writes key x f :=
  Entries.paired (finishedCode done key).flip mem

theorem writtenExports (done : ofModel job = .ok c) {key : FileKey} {x : Pass × String × Shape}
    {f : Fragment} (mem : x ∈ job.contents key) (writes : c.Writes key x f) :
    ∃ parts, ShapeId.parse x.2.1 = .ok parts ∧ f.Exports (x.1.exports parts.name) := by
  obtain ⟨e, made, code⟩ := writes
  obtain ⟨rfl, discovered, spaced, -⟩ := finishedTrace done
  rcases Run.contributionCode discovered spaced (contentsMem.mp mem).1 made with
    ⟨-, silent⟩ | ⟨there, f', parts, -, code', -, named, exports⟩
  · rw [silent] at code
    contradiction
  · cases code.symm.trans code'
    exact ⟨parts, named, exports⟩

inductive Provides (c : Contracts) (key : FileKey) (id : String) (e : Export) : Prop where
  | of {p shape parts f} (mem : (p, id, shape) ∈ c.job.contents key) (there : f ∈ c.run.codeOf key)
      (writes : c.Writes key (p, id, shape) f) (named : ShapeId.parse id = .ok parts)
      (exports : f.Exports (p.exports parts.name)) (listed : e ∈ p.exports parts.name)

theorem contentProvides (done : ofModel job = .ok c) {key : FileKey} {p : Pass} {id : String}
    {shape : Shape} (mem : (p, id, shape) ∈ job.contents key) {parts : ShapeId}
    (named : ShapeId.parse id = .ok parts) {e : Export} (listed : e ∈ p.exports parts.name) :
    c.Provides key id e := by
  obtain ⟨f, there, writes⟩ := writtenBy done mem
  obtain ⟨parts', named', exports⟩ := writtenExports done mem writes
  obtain rfl := Except.ok.inj (named.symm.trans named')
  exact .of ((finishedTrace done).1 ▸ mem) there writes named exports listed

theorem standaloneProvides (done : ofModel job = .ok c) {id : String} {kind : ShapeKind}
    {key : FileKey} {parts : ShapeId} (kinded : job.model.schemaKind? id = some kind)
    (standalone : kind.isStandalone = true) (routed : job.fileOf id = .ok key)
    (named : ShapeId.parse id = .ok parts) :
    c.Provides key id ⟨.constant, Naming.schemaName parts.name⟩ := by
  obtain ⟨shape, found, shaped, -⟩ := schemaKindSome.mp kinded
  have work : (Pass.kind kind, id, shape) ∈ Run.work job.model Pass.all :=
    Run.workAll.mpr ⟨Entries.memOfLookup found, .inl ⟨kind, rfl, shaped⟩⟩
  have listed : (Pass.kind kind).declares = true ∧
      ⟨.constant, Naming.schemaName parts.name⟩ ∈ (Pass.kind kind).exports parts.name := by
    cases kind with
    | enum => exact ⟨rfl, by simp [Pass.exports]⟩
    | struct => exact ⟨rfl, by simp [Pass.exports]⟩
    | _ => contradiction
  exact contentProvides done (contentsMem.mpr ⟨work, listed.1, routed⟩) named listed.2

theorem declaredNames {t : SymbolTable} {id : String} {symbol : Symbol} {key : FileKey}
    (registered : t.lookup? id = some symbol) (standalone : symbol.isStandalone = true)
    (routed : symbol.fileKey = key) :
    symbol.schemaName ∈ t.declaredIn key ∧ symbol.typeName ∈ t.declaredIn key := by
  have stored : (id, symbol) ∈ t.symbols := Entries.memOfLookup registered
  simp only [SymbolTable.declaredIn, memSortedBy, List.mem_eraseDups, List.mem_flatMap,
    List.mem_filter, Bool.and_eq_true, beq_iff_eq]
  exact ⟨⟨_, ⟨stored, standalone, routed⟩, by simp⟩, ⟨_, ⟨stored, standalone, routed⟩, by simp⟩⟩

theorem providedDeclared (done : ofModel job = .ok c) {key : FileKey} {id : String} {e : Export}
    (provides : c.Provides key id e) (plain : e.keyword ≠ .interface) :
    e.name ∈ c.run.symbols.declaredIn key := by
  obtain ⟨rfl, discovered, -, -⟩ := finishedTrace done
  obtain @⟨p, shape, parts, f, mem, there, writes, named, exports, listed⟩ := provides
  obtain ⟨work, -, routed⟩ := contentsMem.mp mem
  obtain ⟨entry, kinds⟩ := Run.workAll.mp work
  have found : c.job.model.shape? id = some shape := Entries.lookupOfMem c.job.model.distinct entry
  have names : ∀ kind, shape.kind? = some kind → kind.isStandalone = true →
      Naming.schemaName parts.name ∈ c.run.symbols.declaredIn key ∧
        (if shape.isError then Naming.errorClassName parts.name else Naming.typeName parts.name) ∈
          c.run.symbols.declaredIn key := by
    intro kind shaped standalone
    obtain ⟨symbol, registered, kinded⟩ := Scope.registeredSome discovered
      (schemaKindSome.mpr ⟨shape, found, shaped, ShapeKind.standaloneBears standalone⟩)
    obtain ⟨schemaName, typeName⟩ := Scope.registeredNames discovered registered found named
    rw [← schemaName, ← typeName]
    refine declaredNames registered ?_ (Except.ok.inj ((writtenFile done registered).symm.trans routed))
    rw [Symbol.isStandalone, kinded, standalone]
  rcases kinds with ⟨kind, rfl, shaped⟩ | ⟨rfl, shaped, flagged⟩
  · cases kind with
    | enum =>
      have plainName : shape.isError = false := by cases shape <;> first | rfl | cases shaped
      have both := names _ shaped rfl
      simp only [plainName, Bool.false_eq_true, if_false] at both
      simp only [Pass.exports, List.mem_cons, List.not_mem_nil, or_false] at listed
      rcases listed with rfl | rfl
      · exact both.2
      · exact both.1
    | struct =>
      rw [List.mem_singleton.mp listed]
      exact (names _ shaped rfl).1
    | service =>
      rw [List.mem_singleton.mp listed] at plain
      contradiction
    | _ => cases listed
  · rw [List.mem_singleton.mp listed]
    have both := names _ shaped rfl
    rw [flagged, if_pos rfl] at both
    exact both.2

/-! The text of a file: the header, the imports, and its leaves in order. -/

def leaves (c : Contracts) (key : FileKey) : List Fragment.Leaf :=
  Fragment.fileLeaves (c.run.codeOf key)

def printed (c : Contracts) (key : FileKey) (ls : List Fragment.Leaf) : Fragment.Printed :=
  Fragment.printLeaves (.ofDeclared (c.run.symbols.declaredIn key)) ls

def imports (c : Contracts) (key : FileKey) : Fragment.Bindings := (c.printed key (c.leaves key)).2

def fileWith (c : Contracts) (key : FileKey) (body : List Char) : String :=
  let block := (c.imports key).importBlock
  String.ofList (c.job.settings.header.toList ++ (if block.isEmpty then [] else '\n' :: '\n' :: block.toList)
    ++ '\n' :: '\n' :: body ++ ['\n'])

theorem writtenKeys {key : FileKey} : key ∈ c.run.fileKeys ↔ c.run.codeOf key ≠ [] := by
  simp only [Run.fileKeys, memSortedBy, List.mem_eraseDups, List.mem_map, Run.codeOf, ne_eq,
    List.map_eq_nil_iff, List.filter_eq_nil_iff, not_forall, Bool.not_eq_true, beq_eq_false_iff_ne,
    Decidable.not_not, exists_prop]

theorem finishedFile (done : ofModel job = .ok c) {key : FileKey} {text : String} :
    (key, text) ∈ c.files ↔ c.run.codeOf key ≠ [] ∧
      text = c.fileWith key (c.printed key (c.leaves key)).1 := by
  have listed : (key, text) ∈ c.files ↔ c.run.codeOf key ≠ [] ∧ text = c.run.render c.job key := by
    rw [← writtenKeys, files, Run.files, List.mem_map]
    constructor
    · rintro ⟨key, mem, same⟩
      cases same
      exact ⟨mem, rfl⟩
    · rintro ⟨mem, rfl⟩
      exact ⟨key, mem, rfl⟩
  rw [listed]
  refine and_congr_right (fun some => ?_)
  have solid : Fragment.Solid (c.leaves key) := by
    refine Fragment.fileSolid some (fun f mem => ?_)
    obtain ⟨x, inside, writes⟩ := writtenFor done mem
    obtain ⟨parts, -, exports⟩ := writtenExports done inside writes
    exact Fragment.exportsSolid exports
  have rendered : c.run.render c.job key = fileText c.job.settings.header (c.imports key).importBlock
      (c.printed key (c.leaves key)).1 := by
    unfold Run.render imports printed leaves
    rw [Fragment.printAllLeaves]
  rw [rendered, fileWith, printed, Fragment.solidText solid]

/-- A generated file shows a text behind its imports. -/
def Shows (c : Contracts) (key : FileKey) (text : String) : Prop :=
  ∃ front back, (key, c.fileWith key (front ++ text.toList ++ back)) ∈ c.files

theorem rowShown (done : ofModel job = .ok c) {key : FileKey} (written : c.run.codeOf key ≠ [])
    {before row after : List Fragment.Leaf} (place : c.leaves key = before ++ row ++ after) :
    ∃ back, (key, c.fileWith key ((c.printed key before).1 ++
      (Fragment.printLeaves (c.printed key before).2 row).1 ++ back)) ∈ c.files := by
  refine ⟨(Fragment.printLeaves (Fragment.printLeaves (c.printed key before).2 row).2 after).1, ?_⟩
  refine (finishedFile done).mpr ⟨written, ?_⟩
  rw [place, printed, printed, Fragment.printAppend, Fragment.printAppend]

theorem placeShown (done : ofModel job = .ok c) {key : FileKey} {before after : List Fragment.Leaf}
    {leaf : Fragment.Leaf} (place : c.leaves key = before ++ leaf :: after) : ∃ back, (key, c.fileWith key
      ((c.printed key before).1 ++ (leaf.print (c.printed key before).2).1 ++ back)) ∈ c.files := by
  have written : c.run.codeOf key ≠ [] := by
    intro none
    rw [leaves, none, Fragment.fileLeaves] at place
    simp at place
  have row : c.leaves key = before ++ [leaf] ++ after := by simp [place]
  obtain ⟨back, shown⟩ := rowShown done written row
  exact ⟨back, by simpa [Fragment.printLeaves] using shown⟩

theorem codeShown (done : ofModel job = .ok c) {key : FileKey} {f : Fragment} {cs : List Char}
    (there : f ∈ c.run.codeOf key) (shown : Fragment.Shows (Fragment.leaves 0 f) cs) :
    c.Shows key (String.ofList cs) := by
  obtain ⟨front, back, shown⟩ := shown
  obtain ⟨before, after, place⟩ := List.append_of_mem (Fragment.fileLeavesMem there shown)
  obtain ⟨rest, written⟩ := placeShown done place
  refine ⟨(c.printed key before).1 ++ front, back ++ rest, ?_⟩
  simpa [Fragment.Leaf.print] using written

theorem providesShown (done : ofModel job = .ok c) {key : FileKey} {id : String} {e : Export}
    (provides : c.Provides key id e) : c.Shows key e.text := by
  obtain @⟨p, shape, parts, f, -, there, -, -, exports, listed⟩ := provides
  simpa using codeShown done there (Fragment.exportsShow exports listed)

end Contracts
end ShapeContracts
