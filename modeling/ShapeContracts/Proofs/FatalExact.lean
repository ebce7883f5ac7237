import ShapeContracts.Proofs.References

/-! A run fails exactly on the fatal conditions. What a shape's own generation shows of it is what
the conditions say; that nested expansions add nothing is the totality of resolution in a model
without such a condition, for every stack of shapes that may be under expansion. -/
namespace ShapeContracts

variable {m : Model} {scope : Scope}

theorem sparedNone (spared : m.SparesPrelude) (b : Builtin) : m.kind? b.id = none := by
  rw [Model.kind?, spared b]
  rfl

theorem sparedKind (spared : m.SparesPrelude) {target : String} {kind : ShapeKind}
    (kinded : m.kind? target = some kind) : Builtin.ofId? target = none := by
  cases known : Builtin.ofId? target with
  | none => rfl
  | some b =>
    rw [Builtin.ofIdSome known, sparedNone spared b] at kinded
    contradiction

theorem soundNamed (sound : ¬ m.Fatal) {id : String} {shape : Shape} {kind : ShapeKind}
    (entry : (id, shape) ∈ m.shapes) (kinded : shape.kind? = some kind) :
    ∃ parts, ShapeId.parse id = .ok parts :=
  ShapeId.parseOk.mpr (Decidable.not_not.mp fun malformed => sound (.malformedId entry kinded malformed))

theorem soundTargets (sound : ¬ m.Fatal) {id : String} {shape : Shape}
    (entry : (id, shape) ∈ m.shapes) : ∀ target ∈ shape.targets, '#' ∈ target.toList :=
  fun _ refers => Decidable.not_not.mp fun malformed => sound (.malformedTarget entry refers malformed)

theorem soundKeys (sound : ¬ m.Fatal) {id : String} {key value : Member} {traits : Traits}
    (entry : (id, .map key value traits) ∈ m.shapes) : m.Keys key.target :=
  Decidable.not_not.mp fun apart => sound (.unkeyed entry apart)

theorem soundDefaults (sound : ¬ m.Fatal) {id name : String} {members : List (String × Member)}
    {traits : Traits} {member : Member} (entry : (id, .struct members traits) ∈ m.shapes)
    (here : (name, member) ∈ members) {value : Json} {kind : Option ShapeKind}
    (given : member.traits.defaultValue = some value)
    (resolves : m.targetKind? member.target = some kind) : fitsDefault kind value = true := by
  cases fits : fitsDefault kind value with
  | true => rfl
  | false => exact absurd (.unfitDefault entry here given resolves fits) sound

theorem keysKind (spared : m.SparesPrelude) {target : String} :
    m.Keys target ↔ ∃ kind, m.targetKind? target = some (some kind) ∧ kind.isStringCompatible = true := by
  unfold Model.Keys Model.targetKind?
  cases known : Builtin.ofId? target with
  | some b =>
    rw [Builtin.ofIdSome known, sparedNone spared b]
    cases b <;> simp [Builtin.kind?, ShapeKind.isStringCompatible, Builtin.id]
  | none =>
    have apart : target ≠ Builtin.string.id := by
      rintro rfl
      rw [Builtin.idRead] at known
      contradiction
    simp only [apart, false_or, Model.schemaKind?]
    cases m.kind? target with
    | none => simp
    | some kind =>
      rw [Option.filter_some]
      cases kind with
      | scalar s => cases s <;> simp [ShapeKind.isStringCompatible, ShapeKind.isSchemaBearing]
      | _ => simp [ShapeKind.isStringCompatible, ShapeKind.isSchemaBearing]

namespace Scope

variable {source : FileKey}

theorem keySchemaOk {map target : String} {r : Resolution} :
    (∃ s, keySchema map target r = .ok s) ↔
      r.resolved = true ∧ ∃ kind, r.kind = some kind ∧ kind.isStringCompatible = true := by
  unfold keySchema
  cases r.resolved with
  | false => simp
  | true =>
    cases r.kind with
    | none => simp
    | some kind => cases fits : kind.isStringCompatible <;> simp [fits]

theorem resolvedFresh (discovered : scope.Discovered) {target : String} {stack : List String}
    {r : Resolution} (fresh : target ∉ stack)
    (ok : resolveIn scope target source .deferred stack = .ok r) :
    '#' ∈ target.toList ∧
      scope.model.targetKind? target = if r.resolved then some r.kind else none := by
  unfold Model.targetKind?
  have h := resolveOk.mp ok
  cases h with
  | recursive visited => contradiction
  | builtin _ known =>
    rw [known]
    exact ⟨Builtin.ofIdSome known ▸ builtinNamed _, rfl⟩
  | missing _ foreign named absent =>
    rw [foreign, (registeredNone discovered).mp absent]
    exact ⟨ShapeId.parseOk.mp ⟨_, named⟩, rfl⟩
  | declared _ foreign named registered _ =>
    rw [foreign, (registeredKind discovered registered).1]
    exact ⟨ShapeId.parseOk.mp ⟨_, named⟩, rfl⟩
  | inlined _ foreign named registered _ _ =>
    rw [foreign, (registeredKind discovered registered).1]
    exact ⟨ShapeId.parseOk.mp ⟨_, named⟩, rfl⟩

theorem compoundKeys {id : String} {shape : Shape} (spared : scope.model.SparesPrelude)
    (found : scope.model.shape? id = some shape) (compound : shape.isCompound = true) :
    ¬ scope.model.Keys id := by
  rintro (rfl | kinded | kinded)
  · rw [spared] at found
    contradiction
  all_goals
    rw [Model.kind?, found, Option.bind_some] at kinded
    cases shape <;> simp_all [Shape.isCompound, Shape.kind?]

theorem expandFrom (discovered : scope.Discovered) (spared : scope.model.SparesPrelude)
    (sound : ¬ scope.model.Fatal) {id : String} {shape : Shape} {kind : ShapeKind}
    {stack : List String} (found : scope.model.shape? id = some shape)
    (kinded : shape.kind? = some kind)
    (nested : shape.isCompound = true → (∀ s ∈ stack, ¬ scope.model.Keys s) ∧
      ∀ target, '#' ∈ target.toList → ∃ r, resolveIn scope target source .deferred stack = .ok r) :
    ∃ s, expand scope id source stack = .ok s := by
  have entry : (id, shape) ∈ scope.model.shapes := Entries.memOfLookup found
  have targets := soundTargets sound entry
  obtain ⟨parts, named⟩ := soundNamed sound entry kinded
  simp only [expandOk]
  cases shape with
  | scalar s traits => exact ⟨_, .scalar found named⟩
  | list member traits =>
    obtain ⟨-, total⟩ := nested rfl
    obtain ⟨r, item⟩ := total member.target (targets _ List.mem_cons_self)
    exact ⟨_, .list found named item⟩
  | map key value traits =>
    obtain ⟨plain, total⟩ := nested rfl
    obtain ⟨k, keys⟩ := total key.target (targets _ List.mem_cons_self)
    obtain ⟨r, values⟩ := total value.target (targets _ (List.mem_cons_of_mem _ List.mem_cons_self))
    have keyed := soundKeys sound entry
    obtain ⟨-, resolved⟩ := resolvedFresh discovered (fun visited => plain _ visited keyed) keys
    obtain ⟨kind, kinded, fits⟩ := (keysKind spared).mp keyed
    rw [kinded] at resolved
    split at resolved
    · rename_i there
      obtain ⟨s, made⟩ := keySchemaOk.mpr ⟨there, kind, (Option.some.inj resolved).symm, fits⟩
      exact ⟨_, .map found named keys made values⟩
    · contradiction
  | union members traits =>
    obtain ⟨-, total⟩ := nested rfl
    have each : ∀ m ∈ members, ∃ r, resolveIn scope m.2.target source .deferred stack = .ok r :=
      fun m hm => total _ (targets _ (List.mem_map_of_mem hm))
    refine ⟨_, .union (fun target => ((resolveIn scope target source .deferred stack).toOption).getD
      (.placeholder false)) found named (fun m hm => ?_)⟩
    obtain ⟨r, resolved⟩ := each m hm
    simp [resolved, Except.toOption]
  | _ => exact ⟨_, .other found named rfl⟩

theorem resolveTotal (discovered : scope.Discovered) (spared : scope.model.SparesPrelude)
    (sound : ¬ scope.model.Fatal) {stack : List String} (plain : ∀ s ∈ stack, ¬ scope.model.Keys s)
    {target : String} (wellFormed : '#' ∈ target.toList) :
    ∃ r, resolveIn scope target source .deferred stack = .ok r := by
  induction room : scope.room stack using Nat.strongRecOn generalizing stack target with
  | ind n ih =>
    subst room
    obtain ⟨parts, named⟩ := ShapeId.parseOk.mpr wellFormed
    simp only [resolveOk]
    by_cases visited : target ∈ stack
    · exact ⟨_, .recursive visited⟩
    cases foreign : Builtin.ofId? target with
    | some b => exact ⟨_, .builtin visited foreign⟩
    | none =>
      cases registered : scope.symbols.lookup? target with
      | none => exact ⟨_, .missing visited foreign named registered⟩
      | some symbol =>
        by_cases standalone : symbol.isStandalone = true
        · exact ⟨_, .declared visited foreign named registered standalone⟩
        obtain ⟨shape, found, kinded, -⟩ := schemaKindSome.mp (registeredKind discovered registered).1
        obtain ⟨s, body⟩ : ∃ s, expand scope target source (stack ++ [target]) = .ok s := by
          refine expandFrom discovered spared sound found kinded (fun compound => ?_)
          have plain' : ∀ s ∈ stack ++ [target], ¬ scope.model.Keys s := by
            intro s hs
            rcases List.mem_append.mp hs with hs | hs
            · exact plain s hs
            · rw [List.mem_singleton.mp hs]
              exact compoundKeys spared found compound
          refine ⟨plain', fun target' wellFormed' => ?_⟩
          exact ih _ (roomPush (Entries.lookupSome.mp ⟨_, registered⟩) visited) plain' wellFormed' rfl
        exact ⟨_, .inlined visited foreign named registered (by simpa using standalone) body⟩

end Scope

namespace Run

variable {job : Job} {r : Run}

def Signed (r : Run) : Prop := ∀ id s, r.signatures.lookup id = some s → '#' ∈ id.toList

theorem emissionNamed {id : String} {shape : Shape} {e : Emission}
    (made : r.emission job id shape = .ok e) : '#' ∈ id.toList := by
  rw [← ShapeId.parseOk]
  cases shape with
  | enum | struct | operation | service =>
    obtain ⟨parts, named, -⟩ := bindOk.mp made
    exact ⟨parts, named⟩
  | _ =>
    obtain ⟨key, routed, -⟩ := bindOk.mp made
    obtain ⟨parts, named, -⟩ := bindOk.mp routed
    exact ⟨parts, named⟩

theorem contributionSigns {p : Pass} {id : String} {shape : Shape} {e : Emission}
    (made : r.contribution job p id shape = .ok e) : e.signature = none ∨ '#' ∈ id.toList := by
  cases p with
  | kind kind => exact .inr (emissionNamed made)
  | errorClasses =>
    cases shape with
    | struct members traits =>
      obtain ⟨parts, named, -⟩ := bindOk.mp made
      exact .inr (ShapeId.parseOk.mp ⟨parts, named⟩)
    | _ =>
      obtain rfl := pureOk.mp made
      exact .inl rfl

def Ready (table : SymbolTable) (r : Run) : Prop := r.symbols = table ∧ r.Signed

theorem startReady (job : Job) (table : SymbolTable) :
    Ready table { start job with symbols := table } :=
  ⟨rfl, fun _ _ none => by contradiction⟩

theorem addReady (job : Job) (table : SymbolTable) (r : Run) (p : Pass) (id : String) (shape : Shape)
    (e : Emission) (ready : r.Ready table) (made : r.contribution job p id shape = .ok e) :
    (r.add id e).Ready table := by
  refine ⟨addKeepsSymbols table r p id shape e ready.1 made, fun i s found => ?_⟩
  rw [addSignatures] at found
  cases signed : e.signature with
  | none =>
    rw [signed] at found
    exact ready.2 i s found
  | some signature =>
    simp only [signed, Option.elim_some, Entries.lookupPut] at found
    split at found
    · rename_i same
      rcases contributionSigns made with none | named
      · rw [signed] at none
        contradiction
      · exact same ▸ named
    · exact ready.2 i s found

/-! From the contributions to the conditions. -/

theorem emissionTargets (discovered : (r.scope job).Discovered) (signed : r.Signed) {id : String}
    {shape : Shape} {e : Emission} (found : job.model.shape? id = some shape)
    (made : r.emission job id shape = .ok e) : ∀ target ∈ shape.targets, '#' ∈ target.toList := by
  have named := emissionNamed made
  cases shape with
  | struct members traits =>
    obtain ⟨parts, -, made⟩ := bindOk.mp made
    obtain ⟨symbol, -, made⟩ := bindOk.mp made
    obtain ⟨fields, each, -⟩ := bindOk.mp made
    intro target refers
    obtain ⟨m, hm, rfl⟩ := List.mem_map.mp refers
    obtain ⟨k, resolved, -⟩ := Structure.fieldOk.mp (Structure.fieldsOk.mp ⟨fields, each⟩ m hm)
    exact (Scope.resolvedFresh discovered List.not_mem_nil resolved).1
  | operation input output errors traits =>
    obtain ⟨parts, -, made⟩ := bindOk.mp made
    obtain ⟨inputType, hi, made⟩ := bindOk.mp made
    obtain ⟨outputType, ho, made⟩ := bindOk.mp made
    obtain ⟨throws, ht, -⟩ := bindOk.mp made
    intro target refers
    simp only [Shape.targets, List.mem_append, Option.mem_toList] at refers
    rcases refers with (refers | refers) | refers
    · exact Operation.typeRefOk.mp ⟨_, hi⟩ target refers
    · exact Operation.typeRefOk.mp ⟨_, ho⟩ target refers
    · exact Operation.throwsLinesOk.mp ⟨_, ht⟩ target refers
  | service version operations resources traits =>
    obtain ⟨parts, -, made⟩ := bindOk.mp made
    obtain ⟨key, -, made⟩ := bindOk.mp made
    obtain ⟨methods, hm, -⟩ := bindOk.mp made
    exact (Service.methodsOk signed).mp ⟨methods, hm⟩
  | enum | scalar | unsupported => simp [Shape.targets]
  | _ =>
    obtain ⟨key, -, made⟩ := bindOk.mp made
    obtain ⟨s, body, -⟩ := bindOk.mp made
    intro target refers
    obtain ⟨k, resolved, -⟩ := Scope.expansionHolds found rfl (Scope.expandOk.mp body) target refers
    by_cases visited : target ∈ [id]
    · rw [List.mem_singleton.mp visited]
      exact named
    · exact (Scope.resolvedFresh discovered visited resolved).1

theorem emissionKeys (discovered : (r.scope job).Discovered) (spared : job.model.SparesPrelude)
    {id : String} {key value : Member} {traits : Traits} {e : Emission}
    (found : job.model.shape? id = some (.map key value traits))
    (made : r.emission job id (.map key value traits) = .ok e) : job.model.Keys key.target := by
  obtain ⟨source, -, made⟩ := bindOk.mp made
  obtain ⟨s, body, -⟩ := bindOk.mp made
  have expansion := Scope.expandOk.mp body
  cases expansion with
  | @map _ _ _ _ k keyed _ here _ keys fits _ =>
    cases found.symm.trans here
    obtain ⟨resolved, kind, kinded, compatible⟩ := Scope.keySchemaOk.mp ⟨keyed, fits⟩
    have fresh : key.target ∉ [id] := by
      intro visited
      have h := Scope.resolveOk.mp keys
      cases h with
      | recursive _ => contradiction
      | _ => contradiction
    obtain ⟨-, same⟩ := Scope.resolvedFresh discovered fresh keys
    rw [resolved, if_pos rfl, kinded] at same
    exact (keysKind spared).mpr ⟨kind, same, compatible⟩
  | absent missing => cases found.symm.trans missing
  | scalar here => cases found.symm.trans here
  | list here => cases found.symm.trans here
  | union _ here => cases found.symm.trans here
  | other here _ apart =>
    cases found.symm.trans here
    contradiction

theorem emissionDefaults (discovered : (r.scope job).Discovered) {id : String}
    {members : List (String × Member)} {traits : Traits} {e : Emission}
    (made : r.emission job id (.struct members traits) = .ok e) :
    ∀ m ∈ members, ∀ value kind, m.2.traits.defaultValue = some value →
      job.model.targetKind? m.2.target = some kind → fitsDefault kind value = true := by
  obtain ⟨parts, -, made⟩ := bindOk.mp made
  obtain ⟨symbol, -, made⟩ := bindOk.mp made
  obtain ⟨fields, each, -⟩ := bindOk.mp made
  intro m hm value kind given kinded
  obtain ⟨k, resolved, fits⟩ := Structure.fieldOk.mp (Structure.fieldsOk.mp ⟨fields, each⟩ m hm)
  obtain ⟨-, same⟩ := Scope.resolvedFresh discovered List.not_mem_nil resolved
  change job.model.targetKind? m.2.target = _ at same
  rw [kinded] at same
  split at same
  · rename_i there
    rw [Option.some.inj same]
    exact fits there value given
  · contradiction

/-! From the conditions to the contributions. -/

theorem outputRouted (scope : Scope) {id : String} {parts : ShapeId}
    (named : ShapeId.parse id = .ok parts) : ∃ key, scope.outputFileKey id = .ok key :=
  ⟨_, bindOk.mpr ⟨parts, named, rfl⟩⟩

theorem fieldTotal {scope : Scope} (discovered : scope.Discovered)
    (spared : scope.model.SparesPrelude) (sound : ¬ scope.model.Fatal) {id owner : String}
    {source : FileKey} {members : List (String × Member)} {traits : Traits}
    (entry : (id, .struct members traits) ∈ scope.model.shapes) {name : String} {member : Member}
    (here : (name, member) ∈ members) :
    ∃ f, Structure.field scope owner source name member = .ok f := by
  have wellFormed := soundTargets sound entry member.target (List.mem_map_of_mem here)
  obtain ⟨k, resolved⟩ : ∃ k, scope.resolveIn member.target source .deferred [] = .ok k :=
    Scope.resolveTotal discovered spared sound (by simp) wellFormed
  refine Structure.fieldOk.mpr ⟨k, resolved, fun there value given => ?_⟩
  obtain ⟨-, kinded⟩ := Scope.resolvedFresh discovered List.not_mem_nil resolved
  rw [if_pos there] at kinded
  exact soundDefaults sound entry here given kinded

theorem inlineTotal {scope : Scope} (discovered : scope.Discovered)
    (spared : scope.model.SparesPrelude) (sound : ¬ scope.model.Fatal) {id : String} {shape : Shape}
    {kind : ShapeKind} {parts : ShapeId} (found : scope.model.shape? id = some shape)
    (kinded : shape.kind? = some kind) (named : ShapeId.parse id = .ok parts) :
    ∃ e, scope.inlineEmission id = .ok e := by
  obtain ⟨key, routed⟩ := outputRouted scope named
  obtain ⟨s, body⟩ : ∃ s, scope.expand id key [id] = .ok s := by
    refine Scope.expandFrom discovered spared sound found kinded (fun compound => ?_)
    have plain : ∀ s ∈ [id], ¬ scope.model.Keys s := by
      simpa using Scope.compoundKeys spared found compound
    exact ⟨plain, fun _ wellFormed => Scope.resolveTotal discovered spared sound plain wellFormed⟩
  exact ⟨_, bindOk.mpr ⟨key, routed, bindOk.mpr ⟨s, body, rfl⟩⟩⟩

theorem emissionFrom (signed : r.Signed) {id : String} {shape : Shape} {kind : ShapeKind}
    {parts : ShapeId} (kinded : shape.kind? = some kind) (named : ShapeId.parse id = .ok parts)
    (targets : ∀ target ∈ shape.targets, '#' ∈ target.toList)
    (registered : kind.isStandalone = true → ∃ symbol, (r.scope job).symbols.lookup? id = some symbol)
    (each : ∀ members traits symbol, shape = .struct members traits →
      (r.scope job).symbols.lookup? id = some symbol →
        ∃ fs, Structure.fields (r.scope job) parts.name symbol.fileKey members = .ok fs)
    (inlined : shape.isExpanded = true → ∃ e, (r.scope job).inlineEmission id = .ok e) :
    ∃ e, r.emission job id shape = .ok e := by
  cases shape with
  | enum members traits =>
    obtain rfl := Option.some.inj kinded
    obtain ⟨symbol, there⟩ := registered rfl
    exact ⟨_, bindOk.mpr ⟨parts, named, bindOk.mpr ⟨symbol, Scope.symbolOk.mpr there, rfl⟩⟩⟩
  | struct members traits =>
    obtain rfl := Option.some.inj kinded
    obtain ⟨symbol, there⟩ := registered rfl
    obtain ⟨fields, made⟩ := each members traits symbol rfl there
    exact ⟨_, bindOk.mpr ⟨parts, named, bindOk.mpr ⟨symbol, Scope.symbolOk.mpr there,
      bindOk.mpr ⟨fields, made, rfl⟩⟩⟩⟩
  | operation input output errors traits =>
    simp only [Shape.targets, List.mem_append, Option.mem_toList] at targets
    obtain ⟨inputType, hi⟩ : ∃ t, Operation.typeRef (r.scope job) input = .ok t :=
      Operation.typeRefOk.mpr (fun id given => targets id (.inl (.inl given)))
    obtain ⟨outputType, ho⟩ : ∃ t, Operation.typeRef (r.scope job) output = .ok t :=
      Operation.typeRefOk.mpr (fun id given => targets id (.inl (.inr given)))
    obtain ⟨throws, ht⟩ : ∃ lines, Operation.throwsLines (r.scope job) errors = .ok lines :=
      Operation.throwsLinesOk.mpr (fun id given => targets id (.inr given))
    exact ⟨_, bindOk.mpr ⟨parts, named, bindOk.mpr ⟨inputType, hi, bindOk.mpr ⟨outputType, ho,
      bindOk.mpr ⟨throws, ht, rfl⟩⟩⟩⟩⟩
  | service version operations resources traits =>
    obtain ⟨key, routed⟩ := outputRouted (r.scope job) named
    obtain ⟨methods, hm⟩ : ∃ ms, Service.methods (r.scope job) r.signatures key operations = .ok ms :=
      (Service.methodsOk signed).mpr targets
    exact ⟨_, bindOk.mpr ⟨parts, named, bindOk.mpr ⟨key, routed, bindOk.mpr ⟨methods, hm, rfl⟩⟩⟩⟩
  | unsupported => contradiction
  | _ => exact inlined rfl

theorem emissionTotal (discovered : (r.scope job).Discovered) (spared : job.model.SparesPrelude)
    (sound : ¬ job.model.Fatal) (signed : r.Signed) {id : String} {shape : Shape} {kind : ShapeKind}
    (entry : (id, shape) ∈ job.model.shapes) (kinded : shape.kind? = some kind) :
    ∃ e, r.emission job id shape = .ok e := by
  have found : job.model.shape? id = some shape := Entries.lookupOfMem job.model.distinct entry
  obtain ⟨parts, named⟩ := soundNamed sound entry kinded
  refine emissionFrom signed kinded named (soundTargets sound entry) (fun standalone => ?_) ?_
    (fun _ => inlineTotal discovered spared sound found kinded named)
  · obtain ⟨symbol, there, -⟩ := Scope.registeredSome discovered
      (schemaKindSome.mpr ⟨shape, found, kinded, ShapeKind.standaloneBears standalone⟩)
    exact ⟨symbol, there⟩
  · intro members traits symbol same there
    subst same
    exact Structure.fieldsOk.mpr (fun m hm => fieldTotal discovered spared sound entry hm)

theorem classTotal (discovered : (r.scope job).Discovered) (sound : ¬ job.model.Fatal) {id : String}
    {shape : Shape} (entry : (id, shape) ∈ job.model.shapes) (kinded : shape.kind? = some .struct) :
    ∃ e, r.classEmission job id shape = .ok e := by
  cases shape with
  | struct members traits =>
    obtain ⟨parts, named⟩ := soundNamed sound entry kinded
    obtain ⟨symbol, there, -⟩ := Scope.registeredSome discovered (schemaKindSome.mpr
      ⟨_, Entries.lookupOfMem job.model.distinct entry, kinded, rfl⟩)
    exact ⟨_, bindOk.mpr ⟨parts, named, bindOk.mpr ⟨symbol, Scope.symbolOk.mpr there, rfl⟩⟩⟩
  | _ => exact ⟨_, rfl⟩

theorem contributionTotal (discovered : (r.scope job).Discovered) (spared : job.model.SparesPrelude)
    (sound : ¬ job.model.Fatal) (signed : r.Signed) {p : Pass} {id : String} {shape : Shape}
    (mem : (p, id, shape) ∈ work job.model Pass.all) :
    ∃ e, r.contribution job p id shape = .ok e := by
  obtain ⟨entry, kinds⟩ := workAll.mp mem
  rcases kinds with ⟨kind, rfl, kinded⟩ | ⟨rfl, kinded, -⟩
  · exact emissionTotal discovered spared sound signed entry kinded
  · exact classTotal discovered sound entry kinded

end Run

namespace Contracts

variable {job : Job}

theorem finishedSound {c : Contracts} (spared : job.model.SparesPrelude)
    (done : ofModel job = .ok c) : ¬ job.model.Fatal := by
  obtain ⟨same, discovered, -, trace⟩ := finishedTrace done
  have ready := Run.startReady job c.run.symbols
  -- each shape contributed at some point of the run, and the contribution excludes its conditions
  have contributed : ∀ {id shape kind}, (id, shape) ∈ job.model.shapes → shape.kind? = some kind →
      ∃ (r : Run) (e : Emission), ((r.scope job).Discovered ∧ r.Signed) ∧
        r.emission job id shape = .ok e := by
    intro id shape kind entry kinded
    obtain ⟨r, e, ⟨symbols, signed⟩, made⟩ := Run.traceEach (Run.addReady job c.run.symbols) trace ready
      (Run.workAll.mpr ⟨entry, .inl ⟨kind, rfl, kinded⟩⟩)
    refine ⟨r, e, ⟨?_, signed⟩, made⟩
    intro id'
    have h := discovered id'
    simpa only [scope, Run.scope, symbols, same] using h
  intro fatal
  cases fatal with
  | malformedId entry kinded malformed =>
    obtain ⟨r, e, -, made⟩ := contributed entry kinded
    exact malformed (Run.emissionNamed made)
  | @malformedTarget id shape target entry refers malformed =>
    obtain ⟨kind, kinded⟩ : ∃ kind, shape.kind? = some kind := by
      cases shape <;> first | exact ⟨_, rfl⟩ | contradiction
    obtain ⟨r, e, ⟨known, signed⟩, made⟩ := contributed entry kinded
    exact malformed (Run.emissionTargets known signed
      (Entries.lookupOfMem job.model.distinct entry) made target refers)
  | unkeyed entry apart =>
    obtain ⟨r, e, ⟨known, -⟩, made⟩ := contributed entry rfl
    exact apart (Run.emissionKeys known spared
      (Entries.lookupOfMem job.model.distinct entry) made)
  | @unfitDefault id members traits name member value kind entry here given resolves unfit =>
    obtain ⟨r, e, ⟨known, -⟩, made⟩ := contributed entry rfl
    have fits := Run.emissionDefaults known made _ here value kind given resolves
    rw [unfit] at fits
    contradiction

theorem completes (spared : job.model.SparesPrelude) (sound : ¬ job.model.Fatal) :
    ∃ c, ofModel job = .ok c := by
  cases found : (Run.start job).symbols.discover job.model with
  | mk result table =>
    cases result with
    | error e =>
      obtain ⟨id, -, kind, kinded, malformed⟩ := discoverError (congrArg Prod.fst found)
      obtain ⟨shape, here, shaped, -⟩ := schemaKindSome.mp kinded
      exact absurd (.malformedId (Entries.memOfLookup here) shaped malformed) sound
    | ok n =>
      obtain ⟨-, discovered⟩ := discoverOk job.settings found
      obtain ⟨r, trace⟩ := Run.traceTotal (Run.addReady job table)
        (fun r p id shape ready mem => by
          have scopes : r.scope job = Scope.mk job.model table job.settings := by
            rw [Run.scope, ready.1]
          exact Run.contributionTotal (scopes ▸ discovered) spared sound ready.2 mem)
        (Run.startReady job table)
      exact ⟨⟨job, r⟩, ofModelOk.mpr ⟨rfl, Run.generateExact.mpr ⟨n, table, found, trace⟩⟩⟩

theorem failsExactly (spared : job.model.SparesPrelude) :
    (∃ e, ofModel job = .error e) ↔ job.model.Fatal := by
  constructor
  · rintro ⟨e, failed⟩
    refine Classical.byContradiction fun sound => ?_
    obtain ⟨c, done⟩ := completes spared sound
    rw [failed] at done
    contradiction
  · intro fatal
    cases outcome : ofModel job with
    | error e => exact ⟨e, rfl⟩
    | ok c => exact absurd fatal (finishedSound spared outcome)

def flagged : Model where
  version := "2.0"
  shapes := [("example#Flags", .map ⟨Builtin.boolean.id, .empty⟩ ⟨Builtin.string.id, .empty⟩ .empty)]
  metadata := []
  distinct := by simp
  membersDistinct := by simp [Shape.memberNames]

theorem flaggedFails : ∃ e, ofModel ⟨flagged, .standard⟩ = .error e := by
  have spared : flagged.SparesPrelude := fun b => by cases b <;> rfl
  refine (failsExactly spared).mpr (.unkeyed List.mem_cons_self ?_)
  rintro (same | kinded | kinded) <;> contradiction

end Contracts
end ShapeContracts
