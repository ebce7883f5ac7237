import ShapeContracts.Proofs.Correspondence
import ShapeContracts.Proofs.Termination

/-! Where files go does not show in validation. Evaluation sees neither the file of a reference nor that
it is deferred; so schemas that differ in these alone accept the same values with the same issues,
and settings that agree on the formats of timestamps give such schemas. -/
namespace ShapeContracts

namespace Schema

mutual

def placeless : Schema → Schema
  | .ref r => .ref { r with fileKey := .primary .schema }
  | .lazy inner => placeless inner
  | .array item min max unique => .array (placeless item) min max unique
  | .record key value => .record (placeless key) (placeless value)
  | .union members => .union (placelessAll members)
  | .object fields => .object (placelessFields fields)
  | .refine inner check => .refine (placeless inner) check
  | .optional inner => .optional (placeless inner)
  | .withDefault inner value => .withDefault (placeless inner) value
  | .marked comment inner => .marked comment (placeless inner)
  | s => s

def placelessAll : List Schema → List Schema
  | [] => []
  | s :: rest => placeless s :: placelessAll rest

def placelessFields : List (String × Schema × List String) → List (String × Schema × List String)
  | [] => []
  | (name, s, comments) :: rest => (name, placeless s, comments) :: placelessFields rest

end

theorem placelessMembers {members members' : List Schema}
    (alike : List.Forall₂ (fun s s' => s.placeless = s'.placeless) members members') :
    placelessAll members = placelessAll members' := by
  induction alike with
  | nil => rfl
  | cons head _ ih => rw [placelessAll, placelessAll, head, ih]

theorem placelessNamed {fields fields' : List (String × Schema × List String)}
    (alike : FieldsAlike (fun s s' => s.placeless = s'.placeless) fields fields') :
    placelessFields fields = placelessFields fields' := by
  induction alike with
  | nil => rfl
  | @cons f f' rest rest' head _ ih =>
    obtain ⟨name, s, comments⟩ := f
    obtain ⟨name', s', comments'⟩ := f'
    obtain ⟨rfl, same, rfl⟩ := head
    change s.placeless = s'.placeless at same
    rw [placelessFields, placelessFields, same, ih]

theorem evaluatePlaceless {schemas schemas' : Schemas}
    (same : ∀ id, schemas'.lookup id = (schemas.lookup id).map placeless) :
    (∀ s value followed,
      evaluate schemas' (placeless s) value followed = evaluate schemas s value followed) ∧
    (∀ fields entries,
      evaluateFields schemas' (placelessFields fields) entries = evaluateFields schemas fields entries) ∧
    (∀ first rest j followed, evaluateUnion schemas' (placeless first) (placelessAll rest) j followed =
      evaluateUnion schemas first rest j followed) ∧
    (∀ issues members j followed, evaluateOthers schemas' issues (placelessAll members) j followed =
      evaluateOthers schemas issues members j followed) ∧
    (∀ key value entries, evaluateEntries schemas' (placeless key) (placeless value) entries =
      evaluateEntries schemas key value entries) ∧
    ∀ item items i, evaluateItems schemas' (placeless item) items i = evaluateItems schemas item items i := by
  -- by the recursion of evaluation itself: through a reference it goes on in the schemas, so that an induction on
  -- the schema would not do
  have ids : ∀ id, id ∈ schemas'.ids ↔ id ∈ schemas.ids := by
    intro id
    rw [Schemas.ids, Schemas.ids, ← Entries.lookupSome, ← Entries.lookupSome, same]
    cases schemas.lookup id <;> simp
  have behind : ∀ id, schemas'.get id = placeless (schemas.get id) := by
    intro id
    rw [Schemas.get, Schemas.get, same]
    cases schemas.lookup id <;> rfl
  apply evaluate.mutual_induct schemas
  -- the references
  case case7 | case8 | case9 =>
    intros
    simp_all [evaluate, placeless]
  -- an absent value, and a value of another form: the schema is left as it is but for its parts
  case case12 =>
    intro followed s
    intros
    cases s <;> simp_all [evaluate, placeless, mismatch, expected]
  case case18 =>
    intro followed s j _ _ _ _ _ _ _ array record nil cons object
    cases s with
    | array =>
      cases j with
      | array => exact (array _ _ _ _ _ rfl rfl).elim
      | _ => simp [evaluate, placeless, evaluateSimple, mismatch, expected]
    | record =>
      cases j with
      | object => exact (record _ _ _ rfl rfl).elim
      | _ => simp [evaluate, placeless, evaluateSimple, mismatch, expected]
    | object =>
      cases j with
      | object => exact (object _ _ rfl rfl).elim
      | _ => simp [evaluate, placeless, evaluateSimple, mismatch, expected]
    | union members => cases members <;> simp_all
    | _ => simp_all [evaluate, placeless]
  case case15 =>
    intros
    simp only [evaluate, placeless, placelessAll]
  case case1 | case2 | case3 | case4 | case5 | case6 | case10 | case11 | case13 | case14 | case16
      | case17 =>
    intros
    simp only [evaluate, placeless, placelessAll, *]
  -- members, alternatives, entries and items, one after the other
  case case19 | case20 =>
    intros
    simp only [evaluateFields, placelessFields, *]
  case case21 | case22 | case23 =>
    intros
    simp only [evaluateUnion, *]
  case case24 | case25 | case26 | case27 =>
    intros
    simp only [evaluateOthers, placelessAll, *]
  case case28 | case29 =>
    intros
    simp only [evaluateEntries, *]
  case case30 | case31 =>
    intros
    simp only [evaluateItems, *]

end Schema

def Likeness.placeless : Likeness where
  files _ _ := True
  sources _ _ := True
  schemas s s' := s.placeless = s'.placeless
  own _ := trivial
  refl _ := rfl
  ref name kind _ _ := by
    have erased : ∀ target symbol source, (Scope.refSchema target symbol source true).placeless =
        .ref ⟨target, symbol.schemaName, .primary .schema, symbol.kind⟩ := by
      intro target symbol source
      unfold Scope.refSchema
      split <;> rfl
    rw [erased, erased, name, kind]
  array _ _ _ h := by simp only [Schema.placeless, h]
  record hk hv := by simp only [Schema.placeless, hk, hv]
  union h := by simp only [Schema.placeless, Schema.placelessMembers h]
  object h := by simp only [Schema.placeless, Schema.placelessNamed h]
  refine _ h := by simp only [Schema.placeless, h]
  optional h := by simp only [Schema.placeless, h]
  withDefault _ h := by simp only [Schema.placeless, h]
  marked _ h := by simp only [Schema.placeless, h]

def Model.TimesAlike (m : Model) (settings settings' : Settings) : Prop :=
  ∀ id traits parts, m.shape? id = some (.scalar .timestamp traits) → ShapeId.parse id = .ok parts →
    settings.defaultsToDateTime parts.space = settings'.defaultsToDateTime parts.space

theorem Scope.routedAlike {m : Model} {table table' : SymbolTable} {settings settings' : Settings}
    (times : m.TimesAlike settings settings') (discovered : (Scope.mk m table settings).Discovered)
    (discovered' : (Scope.mk m table' settings').Discovered) :
    Alike .placeless (fun _ => True) ⟨m, table, settings⟩ ⟨m, table', settings'⟩ where
  discovered := discovered
  discovered' := discovered'
  shapes _ := rfl
  onward _ _ _ _ := trivial
  files _ _ _ := trivial
  scalars {id kind traits parts} _ found named := by
    cases kind with
    | timestamp => simp only [scalarSchema, times id traits parts found named]
    | _ => rfl

namespace Contracts

variable {m : Model} {settings settings' : Settings} {c d : Contracts}

theorem finishesRouted (times : m.TimesAlike settings settings')
    (done : ofModel ⟨m, settings⟩ = .ok c) : ∃ d, ofModel ⟨m, settings'⟩ = .ok d := by
  obtain ⟨same, discovered, -, trace⟩ := finishedTrace done
  have view : c.scope = ⟨m, c.run.symbols, settings⟩ := by rw [scope, Run.scope, same]
  rw [view] at discovered
  cases found : (Run.start ⟨m, settings'⟩).symbols.discover m with
  | mk result table =>
    cases result with
    | error e =>
      obtain ⟨id, -, kind, kinded, malformed⟩ := discoverError (congrArg Prod.fst found)
      obtain ⟨symbol, registered, -⟩ := Scope.registeredSome discovered kinded
      exact absurd (ShapeId.parseOk.mp (Scope.registeredKind discovered registered).2.2) malformed
    | ok n =>
      have alike := Scope.routedAlike times discovered (discoverOk settings' found).2
      obtain ⟨r, trace'⟩ : ∃ r, Run.Trace ⟨m, settings'⟩
          { Run.start ⟨m, settings'⟩ with symbols := table } (Run.work m Pass.all) r :=
        Run.traceAlike (Run.startReady ⟨m, settings⟩ c.run.symbols)
          (Run.startReady ⟨m, settings'⟩ table) alike (fun _ mem => ⟨mem, mem⟩) trace
      exact ⟨⟨⟨m, settings'⟩, r⟩, ofModelOk.mpr ⟨rfl, Run.generateExact.mpr ⟨n, table, found, trace'⟩⟩⟩

theorem schemaRouted (times : m.TimesAlike settings settings')
    (done : ofModel ⟨m, settings⟩ = .ok c) (done' : ofModel ⟨m, settings'⟩ = .ok d) (id : String) :
    (c.schema? id).map Schema.placeless = (d.schema? id).map Schema.placeless := by
  obtain ⟨same, discovered, -, -⟩ := finishedTrace done
  obtain ⟨same', discovered', -, -⟩ := finishedTrace done'
  have view : c.scope = ⟨m, c.run.symbols, settings⟩ := by rw [scope, Run.scope, same]
  have view' : d.scope = ⟨m, d.run.symbols, settings'⟩ := by rw [scope, Run.scope, same']
  rw [view] at discovered
  rw [view'] at discovered'
  cases kinded : m.schemaKind? id with
  | none => rw [schemaless done kinded, schemaless done' kinded]
  | some kind =>
    obtain ⟨s, shape, there, found, -, declares⟩ := finishedKind done kinded
    rw [view] at declares
    obtain ⟨s', declares', alike⟩ :=
      Scope.declaresAlike (Scope.routedAlike times discovered discovered') trivial found declares
    rw [← view'] at declares'
    rw [there, (finishedSchema done').mpr ⟨shape, found, declares'⟩]
    exact congrArg some alike

theorem routingInvisible (times : m.TimesAlike settings settings') :
    ((∃ c, ofModel ⟨m, settings⟩ = .ok c) ↔ ∃ d, ofModel ⟨m, settings'⟩ = .ok d) ∧
    ∀ c d, ofModel ⟨m, settings⟩ = .ok c → ofModel ⟨m, settings'⟩ = .ok d →
      ∀ id kind, m.schemaKind? id = some kind →
        ∀ j, ∃ o, c.validate id j = .ok o ∧ d.validate id j = .ok o ∧ o ≠ .endless := by
  have back : m.TimesAlike settings' settings :=
    fun id traits parts found named => (times id traits parts found named).symm
  refine ⟨⟨fun ⟨c, done⟩ => finishesRouted times done, fun ⟨d, done⟩ => finishesRouted back done⟩, ?_⟩
  intro c d done done' id kind kinded j
  obtain ⟨s, there⟩ := finishedAll done kinded
  obtain ⟨s', there'⟩ := finishedAll done' kinded
  have erased := schemaRouted times done done'
  have placed : s.placeless = s'.placeless := by
    have same := erased id
    rw [there, there'] at same
    exact Option.some.inj same
  -- both runs evaluate as the schemas without places do
  let common : Schemas := c.schemas.map (fun e => (e.1, e.2.placeless))
  have mine : ∀ id, common.lookup id = (c.schemas.lookup id).map Schema.placeless :=
    Entries.lookupMap Schema.placeless c.schemas
  have yours : ∀ id, common.lookup id = (d.schemas.lookup id).map Schema.placeless :=
    fun id => (mine id).trans (erased id)
  have left := (Schema.evaluatePlaceless mine).1 s (some j) []
  have right := (Schema.evaluatePlaceless yours).1 s' (some j) []
  have same : s.validate c.schemas j = s'.validate d.schemas j := by
    rw [Schema.validate, Schema.validate, ← left, ← right, placed]
  have settled : (s.validate c.schemas j).Settled :=
    Outcome.settledMap (Schema.evaluateSettled (x := (s, some j))
      (fun _ _ found => finishedClosed done found) (finishedClosed done there) (.inl rfl))
  refine ⟨s.validate c.schemas j, by rw [validate, there], by rw [validate, there', same], ?_⟩
  intro endless
  rw [endless] at settled
  exact settled

def dated : Model where
  version := "2.0"
  shapes := [
    ("com.amazonaws.s3#Version", .struct [("created", ⟨"com.amazonaws.shared#Instant", .empty⟩),
      ("previous", ⟨"com.amazonaws.s3#Version", .empty⟩)] .empty),
    ("com.amazonaws.shared#Instant", .scalar .timestamp .empty)]
  metadata := []
  distinct := by decide
  membersDistinct := by simp [Shape.memberNames]

def relocated : Settings :=
  { Settings.standard with
    primarySpace := "com.amazonaws.shared"
    modules := ⟨"zod", "runtime"⟩
    header := "// Relocated." }

theorem datedRouted : ∃ c d, ofModel ⟨dated, .standard⟩ = .ok c ∧ ofModel ⟨dated, relocated⟩ = .ok d ∧
    ∀ j, ∃ o, c.validate "com.amazonaws.s3#Version" j = .ok o ∧
      d.validate "com.amazonaws.s3#Version" j = .ok o := by
  have times : dated.TimesAlike .standard relocated := by
    intro id traits parts found named
    have listed := Entries.memOfLookup found
    simp only [dated, List.mem_cons, Prod.mk.injEq, List.not_mem_nil, or_false] at listed
    obtain ⟨-, other⟩ | ⟨rfl, -⟩ := listed
    · cases other
    · obtain rfl := Except.ok.inj ((show ShapeId.parse "com.amazonaws.shared#Instant" = .ok ⟨_, _⟩ from
        rfl).symm.trans named)
      decide
  obtain ⟨c, done⟩ : ∃ c, ofModel ⟨dated, .standard⟩ = .ok c :=
    completes (fun b => by cases b <;> rfl) (by decide)
  obtain ⟨finishes, agree⟩ := routingInvisible times
  obtain ⟨d, done'⟩ := finishes.mp ⟨c, done⟩
  refine ⟨c, d, done, done', fun j => ?_⟩
  obtain ⟨o, validated, validated', -⟩ := agree c d done done' "com.amazonaws.s3#Version" .struct rfl j
  exact ⟨o, validated, validated'⟩

end Contracts
end ShapeContracts
