import ShapeContracts.Contracts
import ShapeContracts.Proofs.Discovery

/-! A run as a trace of contributions. Discovery fixes the symbols; the passes then go through one
list of work, and each step adds what one shape contributes. A finished run has recorded exactly one
schema for every shape that bears one. -/
namespace ShapeContracts

inductive Scope.Declares (scope : Scope) (id : String) : Shape → Schema → Prop where
  | enum {members traits symbol} (registered : scope.symbols.lookup? id = some symbol) :
      scope.Declares id (.enum members traits) (Enum.schema symbol.typeName members)
  | struct {members traits parts symbol fields} (named : ShapeId.parse id = .ok parts)
      (registered : scope.symbols.lookup? id = some symbol)
      (each : Structure.fields scope parts.name symbol.fileKey members = .ok fields) :
      scope.Declares id (.struct members traits) (.object fields)
  | expanded {shape key s} (inlined : shape.isExpanded = true)
      (routed : scope.outputFileKey id = .ok key) (body : scope.expand id key [id] = .ok s) :
      scope.Declares id shape s

theorem Scope.declaresUnique {scope : Scope} {id : String} {shape : Shape} {s s' : Schema}
    (left : scope.Declares id shape s) (right : scope.Declares id shape s') : s = s' := by
  cases left with
  | enum registered =>
    cases right with
    | enum registered' => rw [Option.some.inj (registered.symm.trans registered')]
    | expanded inlined => contradiction
  | struct named registered each =>
    cases right with
    | struct named' registered' each' =>
      cases Except.ok.inj (named.symm.trans named')
      cases Option.some.inj (registered.symm.trans registered')
      rw [Except.ok.inj (each.symm.trans each')]
    | expanded inlined => contradiction
  | expanded inlined routed body =>
    cases right with
    | enum => contradiction
    | struct => contradiction
    | expanded inlined' routed' body' =>
      cases Except.ok.inj (routed.symm.trans routed')
      exact Except.ok.inj (body.symm.trans body')

theorem Scope.declaresKind {scope : Scope} {id : String} {shape : Shape} {s : Schema}
    (declares : scope.Declares id shape s) :
    ∃ kind, shape.kind? = some kind ∧ kind.isSchemaBearing = true := by
  cases declares with
  | enum => exact ⟨_, rfl, rfl⟩
  | struct => exact ⟨_, rfl, rfl⟩
  | expanded inlined => cases shape <;> first | exact ⟨_, rfl, rfl⟩ | contradiction

theorem Scope.symbolOk {scope : Scope} {id : String} {symbol : Symbol} :
    scope.symbol id = .ok symbol ↔ scope.symbols.lookup? id = some symbol := by
  unfold Scope.symbol
  cases scope.symbols.lookup? id with
  | none => simp
  | some s => simp

namespace Run

def contribution (r : Run) (job : Job) : Pass → String → Shape → Except Failure Emission
  | .kind _ => r.emission job
  | .errorClasses => r.classEmission job

def work (m : Model) (passes : List Pass) : List (Pass × String × Shape) :=
  passes.flatMap (fun p => (p.entries m).map (fun e => (p, e)))

inductive Trace (job : Job) : Run → List (Pass × String × Shape) → Run → Prop where
  | done (r : Run) : Trace job r [] r
  | step {r r' : Run} {p : Pass} {id : String} {shape : Shape} {e : Emission}
      {rest : List (Pass × String × Shape)} (made : r.contribution job p id shape = .ok e)
      (tail : Trace job (r.add id e) rest r') : Trace job r ((p, id, shape) :: rest) r'

theorem traceAppend {job : Job} {r r' : Run} {first second : List (Pass × String × Shape)} :
    Trace job r (first ++ second) r' ↔ ∃ middle, Trace job r first middle ∧ Trace job middle second r' := by
  induction first generalizing r with
  | nil =>
    constructor
    · exact fun h => ⟨r, .done r, h⟩
    · rintro ⟨middle, head, tail⟩
      cases head
      exact tail
  | cons x rest ih =>
    constructor
    · intro h
      cases h with
      | step made tail =>
        obtain ⟨middle, head, tail⟩ := ih.mp tail
        exact ⟨middle, .step made head, tail⟩
    · rintro ⟨middle, head, tail⟩
      cases head with
      | step made head => exact .step made (ih.mpr ⟨middle, head, tail⟩)

theorem addEachExact {job : Job} {p : Pass} {entries : List (String × Shape)} {r r' : Run} :
    addEach (fun r => r.contribution job p) entries r = (.ok (), r') ↔
      Trace job r (entries.map (fun e => (p, e))) r' := by
  induction entries generalizing r with
  | nil =>
    constructor
    · intro ok
      cases ok
      exact .done _
    · intro h
      cases h
      rfl
  | cons entry rest ih =>
    obtain ⟨id, shape⟩ := entry
    rw [addEach]
    constructor
    · intro ok
      cases made : r.contribution job p id shape with
      | error e => simp [made] at ok
      | ok e =>
        simp only [made] at ok
        exact .step made (ih.mp ok)
    · intro h
      cases h with
      | step made tail =>
        simp only [made]
        exact ih.mpr tail

theorem passExact {job : Job} {p : Pass} {r r' : Run} :
    r.pass job p = (.ok (), r') ↔ Trace job r ((p.entries job.model).map (fun e => (p, e))) r' := by
  rw [← addEachExact]
  cases p <;> rfl

theorem passesExact {job : Job} {passes : List Pass} {r r' : Run} :
    r.passes job passes = (.ok (), r') ↔ Trace job r (work job.model passes) r' := by
  induction passes generalizing r with
  | nil =>
    constructor
    · intro ok
      cases ok
      exact .done _
    · intro h
      cases h
      rfl
  | cons p rest ih =>
    have split : work job.model (p :: rest) =
        (p.entries job.model).map (fun e => (p, e)) ++ work job.model rest := rfl
    rw [split, traceAppend, Run.passes]
    cases stepped : r.pass job p with
    | mk result middle =>
      cases result with
      | error e =>
        constructor
        · intro ok
          cases ok
        · rintro ⟨middle', head, -⟩
          rw [passExact.mpr head] at stepped
          cases stepped
      | ok u =>
        constructor
        · exact fun ok => ⟨middle, passExact.mp stepped, ih.mp ok⟩
        · rintro ⟨middle', head, tail⟩
          rw [passExact.mpr head] at stepped
          cases stepped
          exact ih.mpr tail

theorem generateExact {job : Job} {r : Run} :
    (start job).generate job = (.ok (), r) ↔
      ∃ n table, (SymbolTable.empty job.settings.primarySpace).discover job.model = (.ok n, table) ∧
        Trace job { start job with symbols := table } (work job.model Pass.all) r := by
  unfold generate discover
  cases found : (start job).symbols.discover job.model with
  | mk result table =>
    change (SymbolTable.empty job.settings.primarySpace).discover job.model = _ at found
    rw [found]
    cases result with
    | error e => simp
    | ok n =>
      rw [passesExact]
      constructor
      · exact fun h => ⟨n, table, rfl, h⟩
      · rintro ⟨n', table', same, h⟩
        cases same
        exact h

/-! What a step keeps, and from it what a whole trace keeps. -/

theorem addSymbols (r : Run) (id : String) (e : Emission) : (r.add id e).symbols = r.symbols := by
  obtain ⟨schema, code, signature⟩ := e
  cases schema <;> cases code <;> cases signature <;> rfl

theorem addKeepsSymbols (table : SymbolTable) {job : Job} (r : Run) (p : Pass) (id : String)
    (shape : Shape) (e : Emission) (same : r.symbols = table)
    (_ : r.contribution job p id shape = .ok e) : (r.add id e).symbols = table := by
  rw [addSymbols, same]

theorem addRecorded (r : Run) (id : String) (e : Emission) :
    (r.add id e).recorded = e.schema.elim r.recorded (fun s => Json.put id s r.recorded) := by
  obtain ⟨schema, code, signature⟩ := e
  cases schema <;> cases code <;> cases signature <;> rfl

theorem addSignatures (r : Run) (id : String) (e : Emission) :
    (r.add id e).signatures = e.signature.elim r.signatures (fun s => Json.put id s r.signatures) := by
  obtain ⟨schema, code, signature⟩ := e
  cases schema <;> cases code <;> cases signature <;> rfl

variable {job : Job} {r r' : Run} {w : List (Pass × String × Shape)}

theorem traceSymbols (h : Trace job r w r') : r'.symbols = r.symbols := by
  induction h with
  | done r => rfl
  | step made tail ih => rw [ih, addSymbols]

theorem traceDistinct (h : Trace job r w r') (distinct : (r.recorded.map Prod.fst).Nodup) :
    (r'.recorded.map Prod.fst).Nodup := by
  induction h with
  | done r => exact distinct
  | @step r r' p id shape e rest made tail ih =>
    refine ih ?_
    rw [addRecorded]
    cases e.schema with
    | none => exact distinct
    | some s => exact Json.putDistinct distinct

theorem traceEach {P : Run → Prop} (kept : ∀ (r : Run) (p : Pass) (id : String) (shape : Shape)
      (e : Emission), P r → r.contribution job p id shape = .ok e → P (r.add id e))
    (h : Trace job r w r') (start : P r) {p : Pass} {id : String} {shape : Shape}
    (mem : (p, id, shape) ∈ w) :
    ∃ (r₁ : Run) (e : Emission), P r₁ ∧ r₁.contribution job p id shape = .ok e := by
  induction h with
  | done r => contradiction
  | step made tail ih =>
    rcases List.mem_cons.mp mem with same | mem
    · cases same
      exact ⟨_, _, start, made⟩
    · exact ih (kept _ _ _ _ _ start made) mem

theorem traceTotal {P : Run → Prop} (kept : ∀ (r : Run) (p : Pass) (id : String) (shape : Shape)
      (e : Emission), P r → r.contribution job p id shape = .ok e → P (r.add id e))
    (total : ∀ (r : Run) (p : Pass) (id : String) (shape : Shape), P r → (p, id, shape) ∈ w →
      ∃ e, r.contribution job p id shape = .ok e)
    (start : P r) : ∃ r', Trace job r w r' := by
  induction w generalizing r with
  | nil => exact ⟨r, .done r⟩
  | cons x rest ih =>
    obtain ⟨p, id, shape⟩ := x
    obtain ⟨e, made⟩ := total r p id shape start List.mem_cons_self
    obtain ⟨r', tail⟩ := ih (fun r p id shape h mem => total r p id shape h (List.mem_cons_of_mem _ mem))
      (kept _ _ _ _ _ start made)
    exact ⟨r', .step made tail⟩

/-! What a run keeps under identifiers: the schemas that are recorded, and the signatures. A trace finds what it
started with and what its shapes contribute. -/

section Kept

variable {α : Type} {kept : Run → List (String × α)} (part : Emission → Option α)

theorem traceFinds (added : ∀ (r : Run) (id : String) (e : Emission),
      kept (r.add id e) = (part e).elim (kept r) (fun a => Json.put id a (kept r)))
    (h : Trace job r w r') {id : String} {a : α} (found : (kept r').lookup id = some a) :
    (kept r).lookup id = some a ∨ ∃ (p : Pass) (shape : Shape) (r₁ : Run) (e : Emission), (p, id, shape) ∈ w ∧
      r₁.symbols = r.symbols ∧ r₁.contribution job p id shape = .ok e ∧ part e = some a := by
  induction h with
  | done r => exact .inl found
  | @step r r' p name shape e rest made tail ih =>
    rcases ih found with before | ⟨p', shape', r₁, e', mem, symbols, made', contributes⟩
    · rw [added] at before
      cases contributed : part e with
      | none =>
        rw [contributed] at before
        exact .inl before
      | some a' =>
        simp only [contributed, Option.elim_some, Entries.lookupPut] at before
        split at before
        · rename_i same
          subst same
          exact .inr ⟨p, shape, r, e, List.mem_cons_self, rfl, made, contributed.trans before⟩
        · exact .inl before
    · exact .inr ⟨p', shape', r₁, e', List.mem_cons_of_mem _ mem, by rw [symbols, addSymbols], made',
        contributes⟩

theorem traceHolds (added : ∀ (r : Run) (id : String) (e : Emission),
      kept (r.add id e) = (part e).elim (kept r) (fun a => Json.put id a (kept r)))
    (h : Trace job r w r') {id : String}
    (found : id ∈ (kept r).map Prod.fst ∨ ∃ p shape, (p, id, shape) ∈ w ∧
      ∀ (r₁ : Run) (e : Emission), r₁.contribution job p id shape = .ok e → ∃ a, part e = some a) :
    id ∈ (kept r').map Prod.fst := by
  induction h with
  | done r =>
    rcases found with there | ⟨p, shape, mem, _⟩
    · exact there
    · contradiction
  | @step r r' p name shape e rest made tail ih =>
    refine ih ?_
    have now : id ∈ (kept r).map Prod.fst ∨ (id = name ∧ ∃ a, part e = some a) →
        id ∈ (kept (r.add name e)).map Prod.fst := by
      intro there
      rw [added]
      cases contributed : part e with
      | none => simpa [contributed] using there
      | some a =>
        rw [Option.elim_some, ← Entries.lookupSome, Entries.lookupPut]
        by_cases same : id = name
        · exact ⟨a, if_pos same⟩
        · rw [if_neg same, Entries.lookupSome]
          exact there.resolve_right (fun h => same h.1)
    rcases found with there | ⟨p', shape', mem, contributes⟩
    · exact .inl (now (.inl there))
    · rcases List.mem_cons.mp mem with same | mem
      · cases same
        exact .inl (now (.inr ⟨rfl, contributes _ _ made⟩))
      · exact .inr ⟨p', shape', mem, contributes⟩

end Kept

/-! The contributions of the kinds. -/

theorem passAll (kind : ShapeKind) : Pass.kind kind ∈ Pass.all := by
  rcases kind with (_ | _ | _ | _ | _ | _ | _) | _ <;> decide

theorem workMem {m : Model} {passes : List Pass} {p : Pass} {e : String × Shape} :
    (p, e) ∈ work m passes ↔ p ∈ passes ∧ e ∈ p.entries m := by
  simp only [work, List.mem_flatMap, List.mem_map]
  constructor
  · rintro ⟨p', here, entry, mem, same⟩
    cases same
    exact ⟨here, mem⟩
  · rintro ⟨here, mem⟩
    exact ⟨p, here, _, mem, rfl⟩

theorem workAll {m : Model} {p : Pass} {id : String} {shape : Shape} :
    (p, id, shape) ∈ work m Pass.all ↔ (id, shape) ∈ m.shapes ∧
      ((∃ kind, p = .kind kind ∧ shape.kind? = some kind) ∨
        (p = .errorClasses ∧ shape.kind? = some .struct ∧ shape.isError = true)) := by
  rw [workMem]
  cases p with
  | kind kind => simp [Pass.entries, Model.ofKind, passAll]
  | errorClasses =>
    have here : Pass.errorClasses ∈ Pass.all := by decide
    simp only [Pass.entries, Model.ofKind, here, true_and, List.mem_filter, beq_iff_eq, reduceCtorEq,
      false_and, exists_false, false_or]
    exact and_assoc

theorem classSchema {id : String} {shape : Shape} {e : Emission}
    (made : r.classEmission job id shape = .ok e) : e.schema = none := by
  cases shape with
  | struct members traits =>
    obtain ⟨parts, named, made⟩ := bindOk.mp made
    obtain ⟨symbol, registered, made⟩ := bindOk.mp made
    obtain rfl := pureOk.mp made
    rfl
  | _ =>
    obtain rfl := pureOk.mp made
    rfl

theorem emissionSchema {id : String} {shape : Shape} {kind : ShapeKind} {e : Emission}
    (shaped : shape.kind? = some kind) (made : r.emission job id shape = .ok e) :
    (kind.isSchemaBearing = true ∧ ∃ s, e.schema = some s ∧ (r.scope job).Declares id shape s) ∨
      (kind.isSchemaBearing = false ∧ e.schema = none) := by
  have inlined : (r.scope job).inlineEmission id = .ok e → shape.isExpanded = true →
      ∃ s, e.schema = some s ∧ (r.scope job).Declares id shape s := by
    intro made expanded
    obtain ⟨key, routed, made⟩ := bindOk.mp made
    obtain ⟨s, body, made⟩ := bindOk.mp made
    obtain rfl := pureOk.mp made
    exact ⟨s, rfl, .expanded expanded routed body⟩
  cases shape with
  | enum members traits =>
    obtain rfl := Option.some.inj shaped
    obtain ⟨parts, named, made⟩ := bindOk.mp made
    obtain ⟨symbol, registered, made⟩ := bindOk.mp made
    obtain rfl := pureOk.mp made
    exact .inl ⟨rfl, _, rfl, .enum (Scope.symbolOk.mp registered)⟩
  | struct members traits =>
    obtain rfl := Option.some.inj shaped
    obtain ⟨parts, named, made⟩ := bindOk.mp made
    obtain ⟨symbol, registered, made⟩ := bindOk.mp made
    obtain ⟨fields, each, made⟩ := bindOk.mp made
    obtain rfl := pureOk.mp made
    exact .inl ⟨rfl, _, rfl, .struct named (Scope.symbolOk.mp registered) each⟩
  | operation input output errors traits =>
    obtain rfl := Option.some.inj shaped
    obtain ⟨parts, named, made⟩ := bindOk.mp made
    obtain ⟨inputType, hi, made⟩ := bindOk.mp made
    obtain ⟨outputType, ho, made⟩ := bindOk.mp made
    obtain ⟨throws, ht, made⟩ := bindOk.mp made
    obtain rfl := pureOk.mp made
    exact .inr ⟨rfl, rfl⟩
  | service version operations resources traits =>
    obtain rfl := Option.some.inj shaped
    obtain ⟨parts, named, made⟩ := bindOk.mp made
    obtain ⟨key, routed, made⟩ := bindOk.mp made
    obtain ⟨methods, hm, made⟩ := bindOk.mp made
    obtain rfl := pureOk.mp made
    exact .inr ⟨rfl, rfl⟩
  | unsupported => contradiction
  | _ =>
    obtain rfl := Option.some.inj shaped
    exact .inl ⟨rfl, inlined made rfl⟩

/-! What a trace through all passes records, in whatever order they run. -/

theorem workPerm {m : Model} {order : List Pass} (perm : order.Perm Pass.all) :
    (work m order).Perm (work m Pass.all) :=
  perm.flatMap_right _

variable {order : List Pass}

theorem recordedDeclares (perm : order.Perm Pass.all) (trace : Trace job r (work job.model order) r')
    (fresh : r.recorded = []) {id : String} {s : Schema} (there : r'.recorded.lookup id = some s) :
    ∃ shape, job.model.shape? id = some shape ∧ (r.scope job).Declares id shape s := by
  rcases traceFinds Emission.schema addRecorded trace there with before | ⟨p, shape, r₁, e, mem, symbols, made, schema⟩
  · rw [fresh] at before
    contradiction
  obtain ⟨entry, kinds⟩ := workAll.mp ((workPerm perm).mem_iff.mp mem)
  refine ⟨shape, Entries.lookupOfMem job.model.distinct entry, ?_⟩
  rcases kinds with ⟨kind, rfl, shaped⟩ | ⟨rfl, -, -⟩
  · have scopes : r₁.scope job = r.scope job := by rw [scope, scope, symbols]
    rcases emissionSchema shaped made with ⟨-, s', contributed, declares⟩ | ⟨-, none⟩
    · rw [← scopes, Option.some.inj (schema.symm.trans contributed)]
      exact declares
    · rw [none] at schema
      contradiction
  · rw [classSchema made] at schema
    contradiction

theorem recordedAll (perm : order.Perm Pass.all) (trace : Trace job r (work job.model order) r')
    {id : String} {kind : ShapeKind} (kinded : job.model.schemaKind? id = some kind) :
    ∃ s, r'.recorded.lookup id = some s := by
  obtain ⟨shape, found, shaped, bears⟩ := schemaKindSome.mp kinded
  have mem : (Pass.kind kind, id, shape) ∈ work job.model order :=
    (workPerm perm).mem_iff.mpr (workAll.mpr ⟨Entries.memOfLookup found, .inl ⟨kind, rfl, shaped⟩⟩)
  refine Entries.lookupSome.mpr (traceHolds Emission.schema addRecorded trace (.inr ⟨_, shape, mem, fun r e made => ?_⟩))
  rcases emissionSchema shaped made with ⟨-, s, contributed, -⟩ | ⟨silent, -⟩
  · exact ⟨s, contributed⟩
  · rw [bears] at silent
    contradiction

end Run

namespace Contracts

variable {job : Job} {c : Contracts}

def scope (c : Contracts) : Scope := c.run.scope c.job

theorem finishedTrace (done : ofModel job = .ok c) :
    c.job = job ∧ c.scope.Discovered ∧ c.scope.symbols.primarySpace = job.settings.primarySpace ∧
      Run.Trace job { Run.start job with symbols := c.run.symbols }
        (Run.work job.model Pass.all) c.run := by
  obtain ⟨same, generated⟩ := ofModelOk.mp done
  obtain ⟨n, table, discovered, trace⟩ := Run.generateExact.mp generated
  have symbols : c.run.symbols = table := Run.traceSymbols trace
  obtain ⟨spaced, complete⟩ := discoverOk job.settings discovered
  subst same
  rw [← symbols] at complete spaced trace
  exact ⟨rfl, complete, spaced, trace⟩

theorem finishedDistinct (done : ofModel job = .ok c) : (c.run.recorded.map Prod.fst).Nodup :=
  Run.traceDistinct (finishedTrace done).2.2.2 List.nodup_nil

theorem schemaRecorded (done : ofModel job = .ok c) (id : String) :
    c.schema? id = c.run.recorded.lookup id :=
  Entries.lookupPerm (sortedByPerm _ _).symm (finishedDistinct done) id

theorem finishedDeclares (done : ofModel job = .ok c) {id : String} {s : Schema}
    (there : c.schema? id = some s) :
    ∃ shape, job.model.shape? id = some shape ∧ c.scope.Declares id shape s := by
  obtain ⟨rfl, -, -, trace⟩ := finishedTrace done
  rw [schemaRecorded done] at there
  exact Run.recordedDeclares (.refl _) trace rfl there

theorem finishedAll (done : ofModel job = .ok c) {id : String} {kind : ShapeKind}
    (kinded : job.model.schemaKind? id = some kind) : ∃ s, c.schema? id = some s := by
  rw [schemaRecorded done]
  exact Run.recordedAll (.refl _) (finishedTrace done).2.2.2 kinded

theorem finishedKind (done : ofModel job = .ok c) {id : String} {kind : ShapeKind}
    (kinded : job.model.schemaKind? id = some kind) :
    ∃ s shape, c.schema? id = some s ∧ job.model.shape? id = some shape ∧ shape.kind? = some kind ∧
      c.scope.Declares id shape s := by
  obtain ⟨s, there⟩ := finishedAll done kinded
  obtain ⟨shape, found, declares⟩ := finishedDeclares done there
  obtain ⟨shape', found', shaped, -⟩ := schemaKindSome.mp kinded
  obtain rfl := Option.some.inj (found.symm.trans found')
  exact ⟨s, shape, there, found, shaped, declares⟩

theorem finishedSchema (done : ofModel job = .ok c) {id : String} {s : Schema} :
    c.schema? id = some s ↔ ∃ shape, job.model.shape? id = some shape ∧ c.scope.Declares id shape s := by
  constructor
  · exact finishedDeclares done
  · rintro ⟨shape, found, declares⟩
    obtain ⟨kind, shaped, bears⟩ := Scope.declaresKind declares
    obtain ⟨s', shape', there, found', -, declares'⟩ :=
      finishedKind done (schemaKindSome.mpr ⟨shape, found, shaped, bears⟩)
    obtain rfl := Option.some.inj (found.symm.trans found')
    rw [there, Scope.declaresUnique declares declares']

theorem structFields (done : ofModel job = .ok c) {id : String} {members : List (String × Member)}
    {traits : Traits} {s : Schema} (found : job.model.shape? id = some (.struct members traits))
    (recorded : c.schema? id = some s) : ∃ symbol fields, c.scope.symbols.lookup? id = some symbol ∧
      s = .object fields ∧
        Structure.fields c.scope (ShapeId.localName id) symbol.fileKey members = .ok fields := by
  obtain ⟨shape, found', declares⟩ := finishedDeclares done recorded
  cases found.symm.trans found'
  cases declares with
  | expanded inlined => contradiction
  | struct named registered each =>
    rw [ShapeId.parseLocal named]
    exact ⟨_, _, registered, rfl, each⟩

theorem schemaless (done : ofModel job = .ok c) {id : String}
    (plain : job.model.schemaKind? id = none) : c.schema? id = none := by
  cases there : c.schema? id with
  | none => rfl
  | some s =>
    obtain ⟨shape, found, declares⟩ := finishedDeclares done there
    obtain ⟨kind, shaped, bears⟩ := Scope.declaresKind declares
    cases plain.symm.trans (schemaKindSome.mpr ⟨shape, found, shaped, bears⟩)

end Contracts
end ShapeContracts
