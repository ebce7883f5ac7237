import ShapeContracts.Proofs.RecursiveMarkers
import ShapeContracts.Proofs.Routing

/-! A shape that is expanded where it is used is the shape that is recorded. The two expansions are made
for different files, so they differ in which references are deferred, at every depth, and in nothing
else; evaluation does not see that. -/
namespace ShapeContracts

namespace Schema

mutual

def undeferred : Schema → Schema
  | .lazy inner => undeferred inner
  | .array item min max unique => .array (undeferred item) min max unique
  | .record key value => .record (undeferred key) (undeferred value)
  | .union members => .union (undeferredAll members)
  | .object fields => .object (undeferredFields fields)
  | .refine inner check => .refine (undeferred inner) check
  | .optional inner => .optional (undeferred inner)
  | .withDefault inner value => .withDefault (undeferred inner) value
  | .marked comment inner => .marked comment (undeferred inner)
  | s => s

def undeferredAll : List Schema → List Schema
  | [] => []
  | s :: rest => undeferred s :: undeferredAll rest

def undeferredFields : List (String × Schema × List String) → List (String × Schema × List String)
  | [] => []
  | (name, s, comments) :: rest => (name, undeferred s, comments) :: undeferredFields rest

end

theorem undeferredMembers {members members' : List Schema}
    (alike : List.Forall₂ (fun s s' => s.undeferred = s'.undeferred) members members') :
    undeferredAll members = undeferredAll members' := by
  induction alike with
  | nil => rfl
  | cons head _ ih => rw [undeferredAll, undeferredAll, head, ih]

theorem undeferredNamed {fields fields' : List (String × Schema × List String)}
    (alike : FieldsAlike (fun s s' => s.undeferred = s'.undeferred) fields fields') :
    undeferredFields fields = undeferredFields fields' := by
  induction alike with
  | nil => rfl
  | @cons f f' rest rest' head _ ih =>
    obtain ⟨name, s, comments⟩ := f
    obtain ⟨name', s', comments'⟩ := f'
    obtain ⟨rfl, same, rfl⟩ := head
    change s.undeferred = s'.undeferred at same
    rw [undeferredFields, undeferredFields, same, ih]

mutual

theorem placelessUndeferred (s : Schema) : s.undeferred.placeless = s.placeless := by
  match s with
  | .lazy inner => simp only [undeferred, placeless, placelessUndeferred inner]
  | .array item min max unique => simp only [undeferred, placeless, placelessUndeferred item]
  | .record key value =>
    simp only [undeferred, placeless, placelessUndeferred key, placelessUndeferred value]
  | .union members => simp only [undeferred, placeless, placelessUndeferredAll members]
  | .object fields => simp only [undeferred, placeless, placelessUndeferredFields fields]
  | .refine inner check => simp only [undeferred, placeless, placelessUndeferred inner]
  | .optional inner => simp only [undeferred, placeless, placelessUndeferred inner]
  | .withDefault inner value => simp only [undeferred, placeless, placelessUndeferred inner]
  | .marked comment inner => simp only [undeferred, placeless, placelessUndeferred inner]
  | .string .. | .number .. | .bigint | .boolean | .bytes | .unknown | .dateTime | .httpDate
  | .epochSeconds | .enum .. | .ref r => rfl

theorem placelessUndeferredAll (members : List Schema) :
    placelessAll (undeferredAll members) = placelessAll members := by
  match members with
  | [] => rfl
  | s :: rest =>
    simp only [undeferredAll, placelessAll, placelessUndeferred s, placelessUndeferredAll rest]

theorem placelessUndeferredFields (fields : List (String × Schema × List String)) :
    placelessFields (undeferredFields fields) = placelessFields fields := by
  match fields with
  | [] => rfl
  | (name, s, comments) :: rest =>
    simp only [undeferredFields, placelessFields, placelessUndeferred s, placelessUndeferredFields rest]

end

theorem validateUndeferred {s s' : Schema} (same : s.undeferred = s'.undeferred) (schemas : Schemas)
    (j : Json) : s.validate schemas j = s'.validate schemas j := by
  have placed : s.placeless = s'.placeless := by
    rw [← placelessUndeferred s, same, placelessUndeferred]
  have evaluated := (evaluatePlaceless (Entries.lookupMap placeless schemas)).1
  rw [validate, validate, ← evaluated, ← evaluated, placed]

end Schema

def Likeness.undeferred : Likeness where
  files := (· = ·)
  sources _ _ := True
  schemas s s' := s.undeferred = s'.undeferred
  own _ := trivial
  refl _ := rfl
  ref name kind file _ := by
    have erased : ∀ target symbol source, (Scope.refSchema target symbol source true).undeferred =
        .ref ⟨target, symbol.schemaName, symbol.fileKey, symbol.kind⟩ := by
      intro target symbol source
      unfold Scope.refSchema
      split <;> rfl
    rw [erased, erased, name, kind, file]
  array _ _ _ h := by simp only [Schema.undeferred, h]
  record hk hv := by simp only [Schema.undeferred, hk, hv]
  union h := by simp only [Schema.undeferred, Schema.undeferredMembers h]
  object h := by simp only [Schema.undeferred, Schema.undeferredNamed h]
  refine _ h := by simp only [Schema.undeferred, h]
  optional h := by simp only [Schema.undeferred, h]
  withDefault _ h := by simp only [Schema.undeferred, h]
  marked _ h := by simp only [Schema.undeferred, h]

namespace Scope

variable {scope : Scope} {source source' : FileKey}

theorem undeferredSelf (discovered : scope.Discovered) :
    Alike .undeferred (fun _ => True) scope scope where
  discovered := discovered
  discovered' := discovered
  shapes _ := rfl
  onward _ _ _ _ := trivial
  files _ routed routed' := Except.ok.inj (routed.symm.trans routed')
  scalars _ _ _ := rfl

theorem resolveInlined (discovered : scope.Discovered) {id : String} {shape : Shape}
    (found : scope.model.shape? id = some shape) (inlined : shape.isExpanded = true)
    (foreign : Builtin.ofId? id = none) (lazyInFile : Bool) {r : Resolution} :
    scope.resolve id source ⟨none, lazyInFile⟩ = .ok r ↔
      ∃ s, scope.expand id source [id] = .ok s ∧ r = .found s shape.kind? := by
  -- whether references are deferred is not asked for a shape that is expanded in place: it is asked only further
  -- in, where they always are
  obtain ⟨kind, shaped, kinded⟩ := expandedBears found inlined
  obtain ⟨symbol, registered, same⟩ := registeredSome discovered kinded
  obtain ⟨-, -, parts, named⟩ := registeredKind discovered registered
  have here : ¬ id ∉ scope.symbols.ids :=
    not_not_intro (Entries.lookupSome.mp ⟨symbol, registered⟩)
  have apart : symbol.isStandalone = false := by
    rw [Shape.expandedKind shaped, Bool.and_eq_true] at inlined
    simpa [Symbol.isStandalone, same] using inlined.2
  rw [resolve, resolveIn]
  simp only [Option.toList_none, List.append_nil, List.not_mem_nil, if_false, foreign, if_neg here,
    SymbolTable.standalone?, SymbolTable.kind?, registered, Option.filter_some, apart,
    Bool.false_eq_true, Option.map_some, same, shaped, List.nil_append, bindOk, pureOk]
  constructor
  · rintro ⟨_, -, s, body, rfl⟩
    exact ⟨s, body, rfl⟩
  · rintro ⟨s, body, rfl⟩
    exact ⟨parts, named, s, body, rfl⟩

theorem recordedInlined {id : String} {parts : ShapeId} (named : ShapeId.parse id = .ok parts) :
    ∃ own, ∀ s, scope.inlineEmission id = .ok (.ofSchema s) ↔ scope.expand id own [id] = .ok s := by
  obtain ⟨own, routed⟩ := Run.outputRouted scope named
  refine ⟨own, fun s => ⟨fun emitted => ?_, fun body => ?_⟩⟩
  · obtain ⟨own', routed', emitted⟩ := bindOk.mp emitted
    obtain ⟨s', body, same⟩ := bindOk.mp emitted
    obtain rfl := Except.ok.inj (routed.symm.trans routed')
    cases pureOk.mp same
    exact body
  · exact bindOk.mpr ⟨own, routed, bindOk.mpr ⟨s, body, rfl⟩⟩

theorem expandsElsewhere (discovered : scope.Discovered) {id : String} {s : Schema}
    (body : scope.expand id source [id] = .ok s) (source' : FileKey) :
    ∃ s', scope.expand id source' [id] = .ok s' ∧ s.undeferred = s'.undeferred :=
  expandAlike (undeferredSelf discovered) trivial trivial body

theorem inlinedAsRecorded {m : Model} {settings : Settings} {space : String} {n : Nat}
    {table : SymbolTable} (discovers : (SymbolTable.empty space).discover m = (.ok n, table))
    {id : String} {shape : Shape} (found : m.shape? id = some shape)
    (inlined : shape.isExpanded = true) (foreign : Builtin.ofId? id = none) (source : FileKey)
    (lazyInFile : Bool) :
    let scope : Scope := ⟨m, table, settings⟩
    ((∃ r, scope.resolve id source ⟨none, lazyInFile⟩ = .ok r) ↔
      ∃ s, scope.inlineEmission id = .ok (.ofSchema s)) ∧
    ∀ r s, scope.resolve id source ⟨none, lazyInFile⟩ = .ok r →
      scope.inlineEmission id = .ok (.ofSchema s) →
        r.schema.undeferred = s.undeferred ∧
          ∀ schemas j, r.schema.validate schemas j = s.validate schemas j := by
  intro scope
  obtain ⟨-, discovered⟩ := discoverOk settings discovers
  obtain ⟨kind, shaped, kinded⟩ := expandedBears found inlined
  obtain ⟨symbol, registered, -⟩ := registeredSome discovered kinded
  obtain ⟨-, -, parts, named⟩ := registeredKind discovered registered
  obtain ⟨own, recorded⟩ : ∃ own, ∀ s, scope.inlineEmission id = .ok (.ofSchema s) ↔
    scope.expand id own [id] = .ok s := recordedInlined named
  have used : ∀ {r}, scope.resolve id source ⟨none, lazyInFile⟩ = .ok r ↔
      ∃ s, scope.expand id source [id] = .ok s ∧ r = .found s shape.kind? :=
    resolveInlined discovered found inlined foreign lazyInFile
  refine ⟨⟨?_, ?_⟩, ?_⟩
  · rintro ⟨r, resolved⟩
    obtain ⟨s, body, -⟩ := used.mp resolved
    obtain ⟨s', body', -⟩ := expandsElsewhere discovered body own
    exact ⟨s', (recorded s').mpr body'⟩
  · rintro ⟨s, emitted⟩
    obtain ⟨s', body', -⟩ := expandsElsewhere discovered ((recorded s).mp emitted) source
    exact ⟨_, used.mpr ⟨s', body', rfl⟩⟩
  · intro r s resolved emitted
    obtain ⟨inPlace, body, rfl⟩ := used.mp resolved
    obtain ⟨s', body', same⟩ := expandsElsewhere discovered body own
    obtain rfl := Except.ok.inj (body'.symm.trans ((recorded s).mp emitted))
    exact ⟨same, Schema.validateUndeferred same⟩

theorem orchardInlined : ∃ table r s,
    resolve ⟨orchard, table, .standard⟩ "example#Nodes" (.shared "example" .structures) .deferred = .ok r ∧
      inlineEmission ⟨orchard, table, .standard⟩ "example#Nodes" = .ok (.ofSchema s) ∧
        r.schema.undeferred = s.undeferred ∧
          ∀ schemas j, r.schema.validate schemas j = s.validate schemas j := by
  have found : orchard.shape? "example#Nodes" = some (.list ⟨"example#Node", .empty⟩ .empty) := rfl
  obtain ⟨n, table, source, s, discovers, body⟩ := orchardExpands "example#Nodes" found rfl
  have discovered := (discoverOk .standard discovers).2
  obtain ⟨s', body', -⟩ := expandsElsewhere discovered body (.shared "example" .structures)
  have resolved := (resolveInlined discovered found rfl rfl true).mpr ⟨s', body', rfl⟩
  obtain ⟨succeeds, alike⟩ :=
    inlinedAsRecorded discovers found rfl rfl (.shared "example" .structures) true
  obtain ⟨recorded, emitted⟩ := succeeds.mp ⟨_, resolved⟩
  exact ⟨table, _, recorded, resolved, emitted, alike _ recorded resolved emitted⟩

end Scope
end ShapeContracts
