import ShapeContracts.Proofs.Discovery

/-! The symbol table under calls in any order, failing ones among them. Each call keeps what is stored and adds
nothing but symbols that the model determines, so a run of calls does; a completed discovery stores all of
them, whatever came before it. -/
namespace ShapeContracts

def Model.bearing (m : Model) : List String :=
  (m.shapes.filter (fun e => e.2.kind?.any ShapeKind.isSchemaBearing)).map Prod.fst

theorem Model.bearingDistinct (m : Model) : m.bearing.Nodup :=
  m.distinct.sublist (List.filter_sublist.map _)

theorem bearingKind {m : Model} {id : String} : id ∈ m.bearing ↔ ∃ kind, m.schemaKind? id = some kind := by
  simp only [Model.bearing, List.mem_map, List.mem_filter, Option.any_eq_true, schemaKindSome]
  constructor
  · rintro ⟨⟨id, shape⟩, ⟨entry, kind, shaped, bears⟩, rfl⟩
    exact ⟨kind, shape, Entries.lookupOfMem m.distinct entry, shaped, bears⟩
  · rintro ⟨kind, shape, found, shaped, bears⟩
    exact ⟨(id, shape), ⟨Entries.memOfLookup found, kind, shaped, bears⟩, rfl⟩

inductive SymbolFor (m : Model) (space id : String) : Symbol → Prop where
  | of {shape : Shape} {kind : ShapeKind} {parts : ShapeId} (found : m.shape? id = some shape)
      (kinded : shape.kind? = some kind) (bears : kind.isSchemaBearing = true)
      (named : ShapeId.ofString? id = some parts) : SymbolFor m space id
        { schemaName := Naming.schemaName parts.name
          typeName := if shape.isError then Naming.errorClassName parts.name else Naming.typeName parts.name
          fileKey := if parts.space = space then .primary (.ofShape (some shape))
            else .shared parts.space (.ofShape (some shape))
          kind := kind }

theorem symbolMade {m : Model} {space id : String} {symbol : Symbol} (made : SymbolFor m space id symbol) :
    symbolOf space m id = .ok (some symbol) := by
  obtain @⟨shape, kind, parts, found, kinded, bears, named⟩ := made
  have parsed : ShapeId.parse id = .ok parts := by rw [ShapeId.parse, named]
  simp only [symbolOf, found, kinded, bears, if_true, Symbol.make, outputFileKey, parsed]
  rfl

theorem symbolDetermined {m : Model} {space id : String} {symbol : Symbol} :
    symbolOf space m id = .ok (some symbol) ↔ SymbolFor m space id symbol := by
  refine ⟨fun ok => ?_, symbolMade⟩
  obtain ⟨kind, kinded⟩ : ∃ kind, m.schemaKind? id = some kind := ⟨_, (symbolOfSome ok).1⟩
  obtain ⟨shape, found, shaped, bears⟩ := schemaKindSome.mp kinded
  obtain ⟨-, -, parts, named⟩ := symbolOfSome ok
  have parsed : ShapeId.ofString? id = some parts := by
    unfold ShapeId.parse at named
    split at named <;> grind
  have made : SymbolFor m space id _ := .of found shaped bears parsed
  obtain rfl := Option.some.inj (Except.ok.inj (ok.symm.trans (symbolMade made)))
  exact made

structure SymbolTable.Faithful (t : SymbolTable) (space : String) (m : Model) : Prop where
  spaced : t.primarySpace = space
  sound : t.Sound m
  distinct : t.ids.Nodup

def SymbolTable.Extends (t' t : SymbolTable) : Prop :=
  ∀ id symbol, t.lookup? id = some symbol → t'.lookup? id = some symbol

inductive Call where
  | register (id : String)
  | discover
  deriving DecidableEq, Repr

namespace SymbolTable

def call (m : Model) (t : SymbolTable) : Call → SymbolTable
  | .register id => (t.register m id).2
  | .discover => (t.discover m).2

def calls (t : SymbolTable) (m : Model) (made : List Call) : SymbolTable := made.foldl (call m) t

variable {m : Model} {space : String} {t t' : SymbolTable}

theorem isRegisteredIff {id : String} : t.isRegistered id = true ↔ ∃ symbol, t.lookup? id = some symbol := by
  rw [isRegistered, List.contains_iff_mem, lookup?, Entries.lookupSome, ids]

theorem extendsRefl : t.Extends t := fun _ _ found => found

theorem extendsTrans {t'' : SymbolTable} (later : t''.Extends t') (sooner : t'.Extends t) : t''.Extends t :=
  fun id symbol found => later id symbol (sooner id symbol found)

theorem emptyFaithful : (empty space).Faithful space m := ⟨rfl, emptySound space m, .nil⟩

theorem registerFails {id : String} {e : Failure} (failed : (t.register m id).1 = .error e) :
    (t.register m id).2 = t := by
  unfold register at failed ⊢
  repeat' split at failed
  all_goals first
    | rfl
    | contradiction

theorem registerDistinct {id : String} (distinct : t.ids.Nodup) : (t.register m id).2.ids.Nodup := by
  unfold register
  cases found : t.lookup? id with
  | some symbol => exact distinct
  | none =>
    dsimp only
    have fresh : id ∉ t.ids := Entries.lookupNone.mp found
    split
    · exact distinct
    · exact distinct
    · rw [ids, List.map_append, List.nodup_append]
      refine ⟨distinct, List.nodup_cons.mpr ⟨List.not_mem_nil, .nil⟩, ?_⟩
      rintro x stored y added rfl
      rw [List.mem_singleton.mp added] at stored
      exact fresh stored

theorem registerKeeps (id : String) (faithful : t.Faithful space m) :
    (t.register m id).2.Faithful space m ∧ (t.register m id).2.Extends t := by
  obtain ⟨sound, spaced, kept, -⟩ := registerStep faithful.sound (Prod.eta (t.register m id)).symm
  exact ⟨⟨spaced.trans faithful.spaced, sound, registerDistinct faithful.distinct⟩, kept⟩

theorem registerAllKeeps (ids : List String) (faithful : t.Faithful space m) :
    (t.registerAll m ids).2.Faithful space m ∧ (t.registerAll m ids).2.Extends t := by
  induction ids generalizing t with
  | nil => exact ⟨faithful, extendsRefl⟩
  | cons id rest ih =>
    obtain ⟨kept, grown⟩ := registerKeeps id faithful
    rw [registerAll]
    split
    · rename_i stepped
      rw [stepped] at kept grown
      exact ⟨kept, grown⟩
    · rename_i stepped
      rw [stepped] at kept grown
      obtain ⟨later, further⟩ := ih kept
      exact ⟨later, extendsTrans further grown⟩

theorem discoverTable : (t.discover m).2 = (t.registerAll m (m.shapes.map Prod.fst)).2 := by
  unfold discover
  split <;> rename_i stepped <;> rw [stepped]

theorem callKeeps (c : Call) (faithful : t.Faithful space m) :
    (call m t c).Faithful space m ∧ (call m t c).Extends t := by
  cases c with
  | register id => exact registerKeeps id faithful
  | discover =>
    rw [call, discoverTable]
    exact registerAllKeeps _ faithful

theorem callsKeep (made : List Call) (faithful : t.Faithful space m) :
    (t.calls m made).Faithful space m ∧ (t.calls m made).Extends t := by
  induction made generalizing t with
  | nil => exact ⟨faithful, extendsRefl⟩
  | cons c rest ih =>
    obtain ⟨kept, grown⟩ := callKeeps c faithful
    obtain ⟨later, further⟩ := ih kept
    exact ⟨later, extendsTrans further grown⟩

theorem storedBears (faithful : t.Faithful space m) {id : String} (stored : t.isRegistered id = true) :
    id ∈ m.bearing := by
  obtain ⟨symbol, found⟩ := isRegisteredIff.mp stored
  exact bearingKind.mpr ⟨_, (symbolOfSome (faithful.sound id symbol found)).1⟩

theorem discoverAnswers {n : Nat} (done : (t.discover m).1 = .ok n) :
    (t.registerAll m (m.shapes.map Prod.fst)).1 = .ok () ∧ n = (t.discover m).2.size := by
  unfold discover at done ⊢
  split at done
  · contradiction
  · rename_i stepped
    rw [stepped]
    exact ⟨rfl, (Except.ok.inj done).symm⟩

theorem discoverStores (faithful : t.Faithful space m) {n : Nat} (done : (t.discover m).1 = .ok n) {id : String} :
    (t.discover m).2.isRegistered id = true ↔ id ∈ m.bearing := by
  obtain ⟨kept, -⟩ := callKeeps .discover faithful
  refine ⟨storedBears kept, fun bears => ?_⟩
  obtain ⟨complete, -⟩ := discoverAnswers done
  obtain ⟨-, -, -, each⟩ := registerAllRun faithful.sound
    (Prod.ext complete rfl : t.registerAll m (m.shapes.map Prod.fst) = (.ok (), _))
  obtain ⟨kind, kinded⟩ := bearingKind.mp bears
  obtain ⟨shape, found, -⟩ := schemaKindSome.mp kinded
  have determined := each id (List.mem_map_of_mem (Entries.memOfLookup found))
  rw [isRegisteredIff, discoverTable]
  cases stored : (t.registerAll m (m.shapes.map Prod.fst)).2.lookup? id with
  | some symbol => exact ⟨symbol, rfl⟩
  | none =>
    rw [stored, symbolOfNone, kinded] at determined
    contradiction

theorem discoverCounts (faithful : t.Faithful space m) {n : Nat} (done : (t.discover m).1 = .ok n) :
    n = m.bearing.length := by
  obtain ⟨kept, -⟩ := callKeeps .discover faithful
  have same : (t.discover m).2.ids.Perm m.bearing := by
    refine (List.perm_ext_iff_of_nodup kept.distinct m.bearingDistinct).mpr (fun id => ?_)
    rw [← discoverStores faithful done, isRegistered, List.contains_iff_mem]
    rfl
  rw [(discoverAnswers done).2, ← same.length_eq, ids, List.length_map, size]

theorem discoverSucceeds (faithful : t.Faithful space m) :
    (∃ n, (t.discover m).1 = .ok n) ↔ ∀ id ∈ m.bearing, '#' ∈ id.toList := by
  constructor
  · rintro ⟨n, done⟩ id bears
    obtain ⟨symbol, stored⟩ := isRegisteredIff.mp ((discoverStores faithful done).mpr bears)
    obtain ⟨kept, -⟩ := callKeeps .discover faithful
    exact ShapeId.parseOk.mp (symbolOfSome (kept.sound id symbol stored)).2.2
  · intro named
    cases answer : (t.discover m).1 with
    | ok n => exact ⟨n, rfl⟩
    | error e =>
      have failed : (t.registerAll m (m.shapes.map Prod.fst)).1 = .error e := by
        unfold discover at answer
        split at answer
        · rename_i stepped
          rw [stepped, Except.error.inj answer]
        · contradiction
      obtain ⟨id, -, kind, kinded, unnamed⟩ := registerAllError faithful.sound failed
      exact absurd (named id (bearingKind.mpr ⟨kind, kinded⟩)) unnamed

theorem declaredRise (file : FileKey) :
    (t.declaredIn file).Pairwise (fun a b => Text.lt a b = true) := by
  refine Entries.sortedRises id ?_
  rw [List.map_id]
  exact Entries.eraseDupsDistinct _

theorem declaredExactly (faithful : t.Faithful space m) {file : FileKey} {name : String} :
    name ∈ t.declaredIn file ↔ ∃ id symbol, t.lookup? id = some symbol ∧
      (symbol.kind = .enum ∨ symbol.kind = .struct) ∧ symbol.fileKey = file ∧
      (name = symbol.schemaName ∨ name = symbol.typeName) := by
  have standalone (symbol : Symbol) :
      symbol.isStandalone = true ↔ symbol.kind = .enum ∨ symbol.kind = .struct := by
    rw [Symbol.isStandalone]
    cases symbol.kind <;> simp [ShapeKind.isStandalone]
  simp only [declaredIn, memSortedBy, List.mem_eraseDups, List.mem_flatMap, List.mem_filter, Bool.and_eq_true,
    beq_iff_eq, standalone, List.mem_cons, List.not_mem_nil, or_false]
  constructor
  · rintro ⟨⟨id, symbol⟩, ⟨stored, kinded, routed⟩, named⟩
    exact ⟨id, symbol, Entries.lookupOfMem faithful.distinct stored, kinded, routed, named⟩
  · rintro ⟨id, symbol, found, kinded, routed, named⟩
    exact ⟨(id, symbol), ⟨Entries.memOfLookup found, kinded, routed⟩, named⟩

theorem callsDetermine (m : Model) (space : String) (before later : List Call) :
    let t := (empty space).calls m before
    (∀ id symbol, t.lookup? id = some symbol →
      (∀ s, SymbolFor m space id s ↔ s = symbol) ∧ (t.calls m later).lookup? id = some symbol) ∧
    t.ids.Nodup ∧ (∀ id, t.isRegistered id = true → id ∈ m.bearing) ∧
    (∀ id e, (t.register m id).1 = .error e → (t.register m id).2 = t) ∧
    ((∃ n, (t.discover m).1 = .ok n) ↔ ∀ id ∈ m.bearing, '#' ∈ id.toList) ∧
    (∀ n, (t.discover m).1 = .ok n → n = m.bearing.length ∧
      ∀ id, (t.discover m).2.isRegistered id = true ↔ id ∈ m.bearing) ∧
    ∀ file, (t.declaredIn file).Pairwise (fun a b => Text.lt a b = true) ∧
      ∀ name, name ∈ t.declaredIn file ↔ ∃ id symbol, t.lookup? id = some symbol ∧
        (symbol.kind = .enum ∨ symbol.kind = .struct) ∧ symbol.fileKey = file ∧
        (name = symbol.schemaName ∨ name = symbol.typeName) := by
  intro t
  obtain ⟨faithful, -⟩ : t.Faithful space m ∧ t.Extends (empty space) := callsKeep before emptyFaithful
  obtain ⟨-, grown⟩ := callsKeep later faithful
  refine ⟨fun id symbol stored => ⟨fun s => ?_, grown id symbol stored⟩, faithful.distinct,
    fun id => storedBears faithful, fun id e => registerFails, discoverSucceeds faithful,
    fun n done => ⟨discoverCounts faithful done, fun id => discoverStores faithful done⟩,
    fun file => ⟨declaredRise file, fun name => declaredExactly faithful⟩⟩
  have determined := faithful.sound id symbol stored
  rw [faithful.spaced] at determined
  rw [← symbolDetermined, determined, Except.ok.injEq, Option.some.injEq, eq_comm]

def crates : Model where
  version := "2.0"
  shapes := [("example#Crate", .struct [] .empty), ("Loose", .list ⟨"smithy.api#String", .empty⟩ .empty),
    ("example#Ship", .operation none none [] .empty), ("example#Colour", .enum [] .empty)]
  metadata := []
  distinct := by decide
  membersDistinct := by simp [Shape.memberNames]

theorem cratesDetermined :
    (∃ symbol e,
      ((empty "example").calls crates [.register "example#Crate", .discover]).lookup? "example#Crate" =
        some symbol ∧
      SymbolFor crates "example" "example#Crate" symbol ∧
      ((empty "example").calls crates [.register "example#Crate", .discover, .register "example#Gone",
        .discover]).lookup? "example#Crate" = some symbol ∧
      (((empty "example").calls crates [.register "example#Crate", .discover]).register crates "Loose").1 =
        .error e ∧
      (((empty "example").calls crates [.register "example#Crate", .discover]).register crates "Loose").2 =
        (empty "example").calls crates [.register "example#Crate", .discover]) ∧
    ∃ n, (((empty "example").calls (crates.without ["Loose"]) [.register "example#Colour"]).discover
        (crates.without ["Loose"])).1 = .ok n ∧ n = 2 ∧
      (((empty "example").calls (crates.without ["Loose"]) [.register "example#Colour"]).discover
        (crates.without ["Loose"])).2.isRegistered "example#Crate" = true := by
  obtain ⟨symbols, -, -, failures, -⟩ := callsDetermine crates "example" [.register "example#Crate", .discover]
    [.register "example#Gone", .discover]
  obtain ⟨-, -, -, -, succeeds, discovers, -⟩ :=
    callsDetermine (crates.without ["Loose"]) "example" [.register "example#Colour"] []
  have stored : isRegistered ((empty "example").calls crates [.register "example#Crate", .discover])
      "example#Crate" = true := rfl
  obtain ⟨symbol, found⟩ := isRegisteredIff.mp stored
  obtain ⟨determined, kept⟩ := symbols _ _ found
  obtain ⟨n, done⟩ := succeeds.mpr (by decide)
  obtain ⟨count, complete⟩ := discovers n done
  exact ⟨⟨symbol, .malformedId "Loose", found, (determined symbol).mpr rfl, kept, rfl, failures _ _ rfl⟩,
    n, done, count, (complete _).mpr (by decide)⟩

end SymbolTable
end ShapeContracts
