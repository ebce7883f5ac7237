import ShapeContracts.Proofs.Resolution

/-! The symbol table after discovery. Registering never changes what is stored, and every stored
symbol is the one that the model determines; so a completed discovery leaves exactly the symbols of
the shapes that bear a schema, and it fails only on an identifier of such a shape. -/
namespace ShapeContracts

def Model.schemaKind? (m : Model) (id : String) : Option ShapeKind :=
  (m.kind? id).filter ShapeKind.isSchemaBearing

theorem schemaKindSome {m : Model} {id : String} {kind : ShapeKind} :
    m.schemaKind? id = some kind ↔
      ∃ shape, m.shape? id = some shape ∧ shape.kind? = some kind ∧ kind.isSchemaBearing = true := by
  unfold Model.schemaKind? Model.kind?
  cases m.shape? id with
  | none => simp
  | some shape =>
    simp only [Option.bind_some, Option.some.injEq, exists_eq_left']
    cases shape.kind? with
    | none => simp
    | some k =>
      simp only [Option.filter_some, Option.some.injEq]
      by_cases bears : k.isSchemaBearing = true
      · simp only [bears, if_true, Option.some.injEq]
        exact ⟨fun same => ⟨same, same ▸ bears⟩, fun h => h.1⟩
      · simp only [bears, Bool.false_eq_true, if_false, reduceCtorEq, false_iff, not_and]
        exact fun same => same ▸ bears

theorem ShapeKind.standaloneBears {kind : ShapeKind} (standalone : kind.isStandalone = true) :
    kind.isSchemaBearing = true := by
  cases kind <;> first | rfl | contradiction

theorem expandedBears {m : Model} {id : String} {shape : Shape} (found : m.shape? id = some shape)
    (inlined : shape.isExpanded = true) :
    ∃ kind, shape.kind? = some kind ∧ m.schemaKind? id = some kind := by
  obtain ⟨kind, shaped⟩ : ∃ kind, shape.kind? = some kind := by
    cases shape <;> first | exact ⟨_, rfl⟩ | contradiction
  rw [Shape.expandedKind shaped, Bool.and_eq_true] at inlined
  exact ⟨kind, shaped, schemaKindSome.mpr ⟨shape, found, shaped, inlined.1⟩⟩

theorem symbolOfNone (space : String) {m : Model} {id : String} :
    symbolOf space m id = .ok none ↔ m.schemaKind? id = none := by
  unfold symbolOf Model.schemaKind? Model.kind?
  cases m.shape? id with
  | none => simp
  | some shape =>
    simp only [Option.bind_some]
    cases shape.kind? with
    | none => simp
    | some kind =>
      by_cases bears : kind.isSchemaBearing = true
      · cases made : Symbol.make space m id shape kind <;>
          simp [bears, made, Functor.map, Except.map]
      · simp [bears]

theorem symbolOfSome {space : String} {m : Model} {id : String} {symbol : Symbol} :
    symbolOf space m id = .ok (some symbol) → m.schemaKind? id = some symbol.kind ∧
      outputFileKey space m id = .ok symbol.fileKey ∧ ∃ parts, ShapeId.parse id = .ok parts := by
  intro ok
  rw [schemaKindSome]
  unfold symbolOf at ok
  cases found : m.shape? id with
  | none => simp [found] at ok
  | some shape =>
    simp only [found] at ok
    cases kinded : shape.kind? with
    | none => simp [kinded] at ok
    | some kind =>
      simp only [kinded] at ok
      split at ok
      · rename_i bears
        obtain ⟨made, hm, ok⟩ := bindOk.mp ok
        obtain rfl := Option.some.inj (pureOk.mp ok)
        obtain ⟨parts, named, hm⟩ := bindOk.mp hm
        obtain ⟨key, routed, hm⟩ := bindOk.mp hm
        obtain rfl := pureOk.mp hm
        exact ⟨⟨shape, rfl, kinded, bears⟩, routed, parts, named⟩
      · simp at ok

theorem symbolOfNames {space : String} {m : Model} {id : String} {symbol : Symbol} {shape : Shape}
    {parts : ShapeId} (found : m.shape? id = some shape) (named : ShapeId.parse id = .ok parts)
    (ok : symbolOf space m id = .ok (some symbol)) :
    symbol.schemaName = Naming.schemaName parts.name ∧ symbol.typeName =
      if shape.isError then Naming.errorClassName parts.name else Naming.typeName parts.name := by
  unfold symbolOf at ok
  simp only [found] at ok
  cases kinded : shape.kind? with
  | none => simp [kinded] at ok
  | some kind =>
    simp only [kinded] at ok
    split at ok
    · obtain ⟨made, hm, ok⟩ := bindOk.mp ok
      obtain rfl := Option.some.inj (pureOk.mp ok)
      obtain ⟨parts', named', hm⟩ := bindOk.mp hm
      obtain ⟨key, routed, hm⟩ := bindOk.mp hm
      obtain rfl := pureOk.mp hm
      obtain rfl := Except.ok.inj (named.symm.trans named')
      exact ⟨rfl, rfl⟩
    · simp at ok

theorem symbolOfError {space : String} {m : Model} {id : String} {e : Failure} :
    symbolOf space m id = .error e → ∃ kind, m.schemaKind? id = some kind ∧ '#' ∉ id.toList := by
  intro failed
  cases kinded : m.schemaKind? id with
  | none => simp [(symbolOfNone space).mpr kinded] at failed
  | some kind =>
    refine ⟨kind, rfl, fun named => ?_⟩
    obtain ⟨parts, named⟩ := ShapeId.parseOk.mpr named
    obtain ⟨shape, found, shaped, bears⟩ := schemaKindSome.mp kinded
    simp [symbolOf, found, shaped, bears, Symbol.make, outputFileKey, named, bind, Except.bind, pure,
      Except.pure] at failed

namespace SymbolTable

def Sound (t : SymbolTable) (m : Model) : Prop :=
  ∀ id symbol, t.lookup? id = some symbol → symbolOf t.primarySpace m id = .ok (some symbol)

theorem emptySound (space : String) (m : Model) : (empty space).Sound m := by
  intro id symbol found
  contradiction

theorem lookupGrown (t : SymbolTable) (id : String) (symbol : Symbol) (i : String) :
    lookup? { t with symbols := t.symbols ++ [(id, symbol)] } i =
      (t.lookup? i).or (if i = id then some symbol else none) := by
  simp only [lookup?, List.lookup_append, Entries.lookupCons, List.lookup_nil]

theorem registerStep {t t' : SymbolTable} {m : Model} {id : String}
    {result : Except Failure (Option Symbol)} (sound : t.Sound m)
    (done : t.register m id = (result, t')) :
    t'.Sound m ∧ t'.primarySpace = t.primarySpace ∧
      (∀ i s, t.lookup? i = some s → t'.lookup? i = some s) ∧
      symbolOf t.primarySpace m id = result.map (fun _ => t'.lookup? id) := by
  unfold register at done
  cases found : t.lookup? id with
  | some symbol =>
    simp only [found, Prod.mk.injEq] at done
    obtain ⟨rfl, rfl⟩ := done
    exact ⟨sound, rfl, fun _ _ h => h, by rw [sound id symbol found, found]; rfl⟩
  | none =>
    simp only [found] at done
    cases determined : symbolOf t.primarySpace m id with
    | error e =>
      simp only [determined, Prod.mk.injEq] at done
      obtain ⟨rfl, rfl⟩ := done
      exact ⟨sound, rfl, fun _ _ h => h, rfl⟩
    | ok o =>
      cases o with
      | none =>
        simp only [determined, Prod.mk.injEq] at done
        obtain ⟨rfl, rfl⟩ := done
        exact ⟨sound, rfl, fun _ _ h => h, by rw [found]; rfl⟩
      | some symbol =>
        simp only [determined, Prod.mk.injEq] at done
        obtain ⟨rfl, rfl⟩ := done
        have grown := lookupGrown t id symbol
        have kept : ∀ i s, t.lookup? i = some s →
            lookup? { t with symbols := t.symbols ++ [(id, symbol)] } i = some s := by
          intro i s h
          rw [grown, h, Option.some_or]
        have added : lookup? { t with symbols := t.symbols ++ [(id, symbol)] } id = some symbol := by
          rw [grown, found, Option.none_or, if_pos rfl]
        refine ⟨fun i s h => ?_, rfl, kept, by rw [added]; rfl⟩
        rw [grown] at h
        cases before : t.lookup? i with
        | some s' =>
          rw [before, Option.some_or] at h
          rw [← h]
          exact sound i s' before
        | none =>
          rw [before, Option.none_or] at h
          split at h
          · rename_i same
            rw [same, ← h]
            exact determined
          · contradiction

theorem registerAllRun {t t' : SymbolTable} {m : Model} {ids : List String} (sound : t.Sound m)
    (done : t.registerAll m ids = (.ok (), t')) :
    t'.Sound m ∧ t'.primarySpace = t.primarySpace ∧
      (∀ i s, t.lookup? i = some s → t'.lookup? i = some s) ∧
      ∀ id ∈ ids, symbolOf t.primarySpace m id = .ok (t'.lookup? id) := by
  induction ids generalizing t with
  | nil =>
    simp only [registerAll, Prod.mk.injEq, true_and] at done
    subst done
    exact ⟨sound, rfl, fun _ _ h => h, by simp⟩
  | cons id rest ih =>
    rw [registerAll] at done
    cases stepped : t.register m id with
    | mk result t₁ =>
      rw [stepped] at done
      cases result with
      | error e => simp at done
      | ok o =>
        obtain ⟨sound₁, space₁, kept₁, at₁⟩ := registerStep sound stepped
        obtain ⟨sound', space', kept', each⟩ := ih sound₁ done
        rw [space₁] at space' each
        refine ⟨sound', space', fun i s h => kept' i s (kept₁ i s h), fun i hi => ?_⟩
        rcases List.mem_cons.mp hi with rfl | hi
        · rw [at₁]
          cases stored : t₁.lookup? i with
          | some s => rw [kept' i s stored]; rfl
          | none =>
            cases later : t'.lookup? i with
            | none => rfl
            | some s =>
              have determined := sound' i s later
              rw [space', at₁, stored] at determined
              simp [Except.map] at determined
        · exact each i hi

theorem registerAllError {t : SymbolTable} {m : Model} {ids : List String} {e : Failure}
    (sound : t.Sound m) (failed : (t.registerAll m ids).1 = .error e) :
    ∃ id ∈ ids, ∃ kind, m.schemaKind? id = some kind ∧ '#' ∉ id.toList := by
  induction ids generalizing t with
  | nil => simp [registerAll] at failed
  | cons id rest ih =>
    rw [registerAll] at failed
    cases stepped : t.register m id with
    | mk result t₁ =>
      rw [stepped] at failed
      obtain ⟨sound₁, space₁, kept₁, at₁⟩ := registerStep sound stepped
      cases result with
      | error e' => exact ⟨id, List.mem_cons_self, symbolOfError at₁⟩
      | ok o =>
        obtain ⟨i, hi, bad⟩ := ih sound₁ failed
        exact ⟨i, List.mem_cons_of_mem _ hi, bad⟩

end SymbolTable

def Scope.Discovered (scope : Scope) : Prop :=
  ∀ id, symbolOf scope.symbols.primarySpace scope.model id = .ok (scope.symbols.lookup? id)

namespace Scope

variable {scope : Scope}

theorem registeredKind (discovered : scope.Discovered) {id : String} {symbol : Symbol}
    (registered : scope.symbols.lookup? id = some symbol) :
    scope.model.schemaKind? id = some symbol.kind ∧
      ShapeContracts.outputFileKey scope.symbols.primarySpace scope.model id = .ok symbol.fileKey ∧
      ∃ parts, ShapeId.parse id = .ok parts :=
  symbolOfSome (by rw [discovered id, registered])

theorem registeredNames (discovered : scope.Discovered) {id : String} {symbol : Symbol} {shape : Shape}
    {parts : ShapeId} (registered : scope.symbols.lookup? id = some symbol)
    (found : scope.model.shape? id = some shape) (named : ShapeId.parse id = .ok parts) :
    symbol.schemaName = Naming.schemaName parts.name ∧ symbol.typeName =
      if shape.isError then Naming.errorClassName parts.name else Naming.typeName parts.name :=
  symbolOfNames found named (by rw [discovered id, registered])

theorem registeredNone (discovered : scope.Discovered) {id : String} :
    scope.symbols.lookup? id = none ↔ scope.model.schemaKind? id = none := by
  rw [← symbolOfNone scope.symbols.primarySpace, discovered id]
  simp

theorem registeredSome (discovered : scope.Discovered) {id : String} {kind : ShapeKind}
    (kinded : scope.model.schemaKind? id = some kind) :
    ∃ symbol, scope.symbols.lookup? id = some symbol ∧ symbol.kind = kind := by
  cases registered : scope.symbols.lookup? id with
  | none => simp [(registeredNone discovered).mp registered] at kinded
  | some symbol =>
    have h := (registeredKind discovered registered).1.symm.trans kinded
    exact ⟨symbol, rfl, Option.some.inj h⟩

theorem inlinedShape (discovered : scope.Discovered) {target : String} {symbol : Symbol}
    (registered : scope.symbols.lookup? target = some symbol) (apart : symbol.isStandalone = false) :
    ∃ shape, scope.model.shape? target = some shape ∧ shape.kind? = some symbol.kind ∧
      shape.isExpanded = true := by
  obtain ⟨shape, found, shaped, bears⟩ := schemaKindSome.mp (registeredKind discovered registered).1
  exact ⟨shape, found, shaped, Shape.bearingExpanded shaped bears apart⟩

end Scope

theorem discoverOk {space : String} {m : Model} (settings : Settings) {n : Nat} {t : SymbolTable}
    (done : (SymbolTable.empty space).discover m = (.ok n, t)) :
    t.primarySpace = space ∧ (Scope.mk m t settings).Discovered := by
  unfold SymbolTable.discover at done
  cases stepped : (SymbolTable.empty space).registerAll m (m.shapes.map Prod.fst) with
  | mk result t' =>
    rw [stepped] at done
    cases result with
    | error e => simp at done
    | ok u =>
      simp only [Prod.mk.injEq] at done
      obtain ⟨-, rfl⟩ := done
      obtain ⟨sound, spaced, -, each⟩ := SymbolTable.registerAllRun (SymbolTable.emptySound space m) stepped
      refine ⟨spaced, fun id => ?_⟩
      change symbolOf t'.primarySpace m id = .ok (t'.lookup? id)
      by_cases here : id ∈ m.shapes.map Prod.fst
      · rw [spaced]
        exact each id here
      · have none : m.schemaKind? id = none := by
          simp [Model.schemaKind?, Model.kind?, Model.shape?, Entries.lookupNone.mpr here]
        have absent := (symbolOfNone t'.primarySpace).mpr none
        cases stored : t'.lookup? id with
        | none => exact absent
        | some symbol => simp [sound id symbol stored] at absent

theorem discoverError {space : String} {m : Model} {e : Failure}
    (failed : ((SymbolTable.empty space).discover m).1 = .error e) :
    ∃ id ∈ m.shapes.map Prod.fst, ∃ kind, m.schemaKind? id = some kind ∧ '#' ∉ id.toList := by
  unfold SymbolTable.discover at failed
  cases stepped : (SymbolTable.empty space).registerAll m (m.shapes.map Prod.fst) with
  | mk result t' =>
    rw [stepped] at failed
    cases result with
    | error e' =>
      exact SymbolTable.registerAllError (SymbolTable.emptySound space m) (congrArg Prod.fst stepped)
    | ok u => simp at failed

end ShapeContracts
