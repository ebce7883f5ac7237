import Mathlib.Data.List.Forall2
import ShapeContracts.Proofs.FatalExact

/-! Two scopes side by side. Where they have the same shapes and route them alike, references,
expansions and fields come out alike in both; so what one run declares, the other declares alike. -/
namespace ShapeContracts

def Schema.FieldsAlike (alike : Schema → Schema → Prop)
    (fields fields' : List (String × Schema × List String)) : Prop :=
  List.Forall₂ (fun f f' => f.1 = f'.1 ∧ alike f.2.1 f'.2.1 ∧ f.2.2 = f'.2.2) fields fields'

/-- A likeness of schemas that their constructors keep, with a likeness of the files of declarations
and one, no finer, of the files that schemas are made for. -/
structure Likeness where
  files : FileKey → FileKey → Prop
  sources : FileKey → FileKey → Prop
  schemas : Schema → Schema → Prop
  own : ∀ {key key'}, files key key' → sources key key'
  refl : ∀ s, schemas s s
  ref : ∀ {target : String} {symbol symbol' : Symbol} {source source' : FileKey},
    symbol.schemaName = symbol'.schemaName → symbol.kind = symbol'.kind →
      files symbol.fileKey symbol'.fileKey → sources source source' →
        schemas (Scope.refSchema target symbol source true) (Scope.refSchema target symbol' source' true)
  array : ∀ {s s'} min max unique, schemas s s' →
    schemas (.array s min max unique) (.array s' min max unique)
  record : ∀ {k k' v v'}, schemas k k' → schemas v v' → schemas (.record k v) (.record k' v')
  union : ∀ {members members'}, List.Forall₂ schemas members members' →
    schemas (.union members) (.union members')
  object : ∀ {fields fields'}, Schema.FieldsAlike schemas fields fields' →
    schemas (.object fields) (.object fields')
  refine : ∀ {s s'} check, schemas s s' → schemas (.refine s check) (.refine s' check)
  optional : ∀ {s s'}, schemas s s' → schemas (.optional s) (.optional s')
  withDefault : ∀ {s s'} value, schemas s s' → schemas (.withDefault s value) (.withDefault s' value)
  marked : ∀ {s s'} comment, schemas s s' → schemas (.marked comment s) (.marked comment s')

namespace Likeness

theorem fieldsSame {fields fields' : List (String × Schema × List String)}
    (alike : Schema.FieldsAlike (· = ·) fields fields') : fields = fields' := by
  rw [← List.forall₂_eq_eq_eq]
  refine List.Forall₂.imp ?_ alike
  rintro ⟨name, s, comments⟩ ⟨name', s', comments'⟩ ⟨rfl, rfl, rfl⟩
  rfl

def same : Likeness where
  files := (· = ·)
  sources := (· = ·)
  schemas := (· = ·)
  own same := same
  refl _ := rfl
  ref name kind file source := by
    subst source
    unfold Scope.refSchema
    rw [name, kind, file]
  array _ _ _ h := by rw [h]
  record hk hv := by rw [hk, hv]
  union h := by rw [List.forall₂_eq_eq_eq] at h; rw [h]
  object h := by rw [fieldsSame h]
  refine _ h := by rw [h]
  optional h := by rw [h]
  withDefault _ h := by rw [h]
  marked _ h := by rw [h]

variable {like : Likeness} {s s' : Schema}

theorem notes (notes : List String) (alike : like.schemas s s') :
    like.schemas (.withNotes notes s) (.withNotes notes s') := by
  induction notes with
  | nil => exact alike
  | cons note rest ih => exact like.marked note ih

theorem optionalUnlessRequired (traits : Traits) (alike : like.schemas s s') :
    like.schemas (Structure.optionalUnlessRequired traits s)
      (Structure.optionalUnlessRequired traits s') := by
  unfold Structure.optionalUnlessRequired
  split
  · exact alike
  · exact like.optional alike

theorem constrain (traits : Traits) (alike : like.schemas s s') :
    like.schemas (Structure.constrain s traits) (Structure.constrain s' traits) := by
  have refined : ∀ checks : List Check,
      like.schemas (checks.foldl .refine s) (checks.foldl .refine s') := by
    intro checks
    induction checks generalizing s s' with
    | nil => exact alike
    | cons check rest ih => exact ih (like.refine check alike)
  exact optionalUnlessRequired traits (refined _)

end Likeness

/-- Resolutions that differ in their schemas at most, and not in that of a timestamp: a member may
replace the format inside it. -/
structure Resolution.Alike (like : Likeness) (r r' : Resolution) : Prop where
  schema : like.schemas r.schema r'.schema
  resolved : r.resolved = r'.resolved
  kind : r.kind = r'.kind
  recursive : r.recursive = r'.recursive
  timestamp : r.kind = some (.scalar .timestamp) → r.schema = r'.schema

theorem Resolution.alikeRefl (like : Likeness) (r : Resolution) : r.Alike like r :=
  ⟨like.refl _, rfl, rfl, rfl, fun _ => rfl⟩

def Shape.isAggregate : Shape → Bool
  | .struct .. => true
  | shape => shape.isCompound

theorem schemaKindSame {m n : Model} {id : String} (same : m.shape? id = n.shape? id) :
    m.schemaKind? id = n.schemaKind? id := by
  rw [Model.schemaKind?, Model.schemaKind?, Model.kind?, Model.kind?, same]

/-- Two discovered scopes that agree on the shapes `inside`, to which their members keep. -/
structure Scope.Alike (like : Likeness) (inside : String → Prop) (scope scope' : Scope) : Prop where
  discovered : scope.Discovered
  discovered' : scope'.Discovered
  shapes : ∀ {id}, inside id → scope.model.shape? id = scope'.model.shape? id
  onward : ∀ {id shape target}, inside id → scope.model.shape? id = some shape →
    shape.isAggregate = true → target ∈ shape.targets → inside target
  files : ∀ {id key key'}, inside id → scope.outputFileKey id = .ok key →
    scope'.outputFileKey id = .ok key' → like.files key key'
  scalars : ∀ {id kind traits parts}, inside id → scope.model.shape? id = some (.scalar kind traits) →
    ShapeId.parse id = .ok parts →
      scope.scalarSchema parts.space traits kind = scope'.scalarSchema parts.space traits kind

namespace Scope

theorem alikeSelf {scope : Scope} (discovered : scope.Discovered) :
    Alike .same (fun _ => True) scope scope where
  discovered := discovered
  discovered' := discovered
  shapes _ := rfl
  onward _ _ _ _ := trivial
  files _ routed routed' := Except.ok.inj (routed.symm.trans routed')
  scalars _ _ _ := rfl

variable {like : Likeness} {inside : String → Prop} {scope scope' : Scope} {source source' : FileKey}

theorem registeredAlike (alike : Alike like inside scope scope') {id : String} {symbol : Symbol}
    (here : inside id) (registered : scope.symbols.lookup? id = some symbol) :
    ∃ symbol', scope'.symbols.lookup? id = some symbol' ∧ symbol.kind = symbol'.kind ∧
      symbol.schemaName = symbol'.schemaName ∧ symbol.typeName = symbol'.typeName ∧
      like.files symbol.fileKey symbol'.fileKey := by
  obtain ⟨kinded, routed, parts, named⟩ := registeredKind alike.discovered registered
  have found := alike.shapes here
  obtain ⟨symbol', registered', kinded'⟩ :=
    registeredSome alike.discovered' ((schemaKindSame found).symm.trans kinded)
  obtain ⟨shape, there, -⟩ := schemaKindSome.mp kinded
  obtain ⟨schemaName, typeName⟩ := registeredNames alike.discovered registered there named
  obtain ⟨schemaName', typeName'⟩ :=
    registeredNames alike.discovered' registered' (found.symm.trans there) named
  exact ⟨symbol', registered', kinded'.symm, schemaName.trans schemaName'.symm,
    typeName.trans typeName'.symm,
    alike.files here routed (registeredKind alike.discovered' registered').2.1⟩

theorem absentAlike (alike : Alike like inside scope scope') {id : String} (here : inside id)
    (absent : scope.symbols.lookup? id = none) : scope'.symbols.lookup? id = none := by
  rw [registeredNone alike.discovered']
  rw [registeredNone alike.discovered] at absent
  rw [← schemaKindSame (alike.shapes here), absent]

theorem markAlike {r r' : Resolution} (alike : r.Alike like r') (role target owner : String) :
    like.schemas (markUnresolved r role target owner) (markUnresolved r' role target owner) := by
  unfold markUnresolved
  rw [alike.resolved, alike.recursive]
  split
  · exact alike.schema
  · exact like.marked _ alike.schema

theorem keyAlike {map target : String} {r r' : Resolution} (alike : r.Alike like r') {s : Schema}
    (fits : keySchema map target r = .ok s) :
    ∃ s', keySchema map target r' = .ok s' ∧ like.schemas s s' := by
  have fitting := keySchemaOk.mp ⟨s, fits⟩
  rw [alike.resolved, alike.kind] at fitting
  obtain ⟨s', fits'⟩ := keySchemaOk.mpr fitting
  refine ⟨s', fits', ?_⟩
  rw [keySchemaOf fits, keySchemaOf fits']
  exact alike.schema

theorem expansionAlike (alike : Alike like inside scope scope')
    {resolves resolves' : String → Resolution → Prop}
    (nested : ∀ t r, inside t → resolves t r → ∃ r', resolves' t r' ∧ r.Alike like r')
    {id : String} {s : Schema} (here : inside id) (expansion : scope.Expansion resolves id s) :
    ∃ s', scope'.Expansion resolves' id s' ∧ like.schemas s s' ∧
      ∀ traits, scope.model.shape? id = some (.scalar .timestamp traits) → s = s' := by
  have same := alike.shapes here
  cases expansion with
  | absent missing => exact ⟨_, .absent (same.symm.trans missing), like.refl _, fun _ _ => rfl⟩
  | @scalar kind traits parts found named =>
    refine ⟨_, .scalar (same.symm.trans found) named, ?_⟩
    rw [alike.scalars here found named]
    exact ⟨like.refl _, fun _ _ => rfl⟩
  | list found named item =>
    obtain ⟨r', item', matched⟩ := nested _ _ (alike.onward here found rfl List.mem_cons_self) item
    exact ⟨_, .list (same.symm.trans found) named item',
      Likeness.notes _ (like.array _ _ _ (markAlike matched _ _ _)),
      fun _ scalar => by cases found.symm.trans scalar⟩
  | @map key value traits parts k keyed r found named keys fits values =>
    obtain ⟨k', keys', matched⟩ := nested _ _ (alike.onward here found rfl List.mem_cons_self) keys
    obtain ⟨r', values', matched'⟩ :=
      nested _ _ (alike.onward here found rfl (List.mem_cons_of_mem _ List.mem_cons_self)) values
    obtain ⟨keyed', fits', keyedAlike⟩ := keyAlike matched fits
    exact ⟨_, .map (same.symm.trans found) named keys' fits' values',
      Likeness.notes _ (like.record keyedAlike (markAlike matched' _ _ _)),
      fun _ scalar => by cases found.symm.trans scalar⟩
  | @union members traits parts rs found named alternatives =>
    have each : ∀ t, ∃ r', ∀ m ∈ members, m.2.target = t → resolves' t r' ∧ (rs t).Alike like r' := by
      intro t
      by_cases used : ∃ m ∈ members, m.2.target = t
      · obtain ⟨m, hm, rfl⟩ := used
        obtain ⟨r', resolved, matched⟩ :=
          nested _ _ (alike.onward here found rfl (List.mem_map_of_mem hm)) (alternatives m hm)
        exact ⟨r', fun _ _ _ => ⟨resolved, matched⟩⟩
      · exact ⟨rs t, fun m hm target => absurd ⟨m, hm, target⟩ used⟩
    obtain ⟨rs', matched⟩ := Classical.axiomOfChoice each
    refine ⟨_, .union rs' (same.symm.trans found) named (fun m hm => (matched _ m hm rfl).1),
      Likeness.notes _ (like.union ?_), fun _ scalar => by cases found.symm.trans scalar⟩
    rw [List.forall₂_map_left_iff, List.forall₂_map_right_iff]
    exact List.forall₂_same.mpr (fun m hm => markAlike (matched _ m hm rfl).2 _ _ _)
  | other found named apart =>
    exact ⟨_, .other (same.symm.trans found) named apart, like.refl _, fun _ _ => rfl⟩

theorem resolvedAlike (alike : Alike like inside scope scope') (sources : like.sources source source')
    {target : String} {stack : List String} {r : Resolution} (here : inside target)
    (ok : resolveIn scope target source .deferred stack = .ok r) :
    ∃ r', resolveIn scope' target source' .deferred stack = .ok r' ∧ r.Alike like r' := by
  refine referenceInduct (P := fun stack target r => inside target →
    ∃ r', resolveIn scope' target source' .deferred stack = .ok r' ∧ r.Alike like r') ?_ ok here
  intro stack target r reference here
  cases reference with
  | recursive visited => exact ⟨_, resolveOk.mpr (.recursive visited), Resolution.alikeRefl _ _⟩
  | builtin fresh known => exact ⟨_, resolveOk.mpr (.builtin fresh known), Resolution.alikeRefl _ _⟩
  | missing fresh foreign named absent =>
    exact ⟨_, resolveOk.mpr (.missing fresh foreign named (absentAlike alike here absent)),
      Resolution.alikeRefl _ _⟩
  | @declared symbol parts fresh foreign named registered standalone =>
    obtain ⟨symbol', registered', kinded, schemaName, -, files⟩ :=
      registeredAlike alike here registered
    rw [Symbol.isStandalone, kinded] at standalone
    refine ⟨_, resolveOk.mpr (.declared fresh foreign named registered' standalone),
      like.ref schemaName kinded files sources, rfl, congrArg some kinded, rfl, fun timestamp => ?_⟩
    rw [← kinded, Option.some.inj timestamp] at standalone
    contradiction
  | @inlined symbol parts s fresh foreign named registered apart body =>
    obtain ⟨symbol', registered', kinded, -⟩ := registeredAlike alike here registered
    obtain ⟨shape, found, shaped, -⟩ := inlinedShape alike.discovered registered apart
    obtain ⟨s', body', matched, whole⟩ :=
      expansionAlike alike (fun t r mem resolved => resolved mem) here body
    rw [Symbol.isStandalone, kinded] at apart
    refine ⟨_, resolveOk.mpr (.inlined fresh foreign named registered' apart (expandOk.mpr body')),
      matched, rfl, congrArg some kinded, rfl, fun timestamp => ?_⟩
    rw [Option.some.inj timestamp] at shaped
    cases shape <;> cases shaped
    exact whole _ found

theorem expandAlike (alike : Alike like inside scope scope') (sources : like.sources source source')
    {id : String} {stack : List String} {s : Schema} (here : inside id)
    (ok : expand scope id source stack = .ok s) :
    ∃ s', expand scope' id source' stack = .ok s' ∧ like.schemas s s' := by
  obtain ⟨s', body, matched, -⟩ := expansionAlike alike
    (fun t r mem resolved => resolvedAlike alike sources mem resolved) here (expandOk.mp ok)
  exact ⟨s', expandOk.mpr body, matched⟩

end Scope

namespace Structure

variable {like : Likeness} {inside : String → Prop} {scope scope' : Scope} {source source' : FileKey}

theorem targetAlike {r r' : Resolution} (alike : r.Alike like r') (traits : Traits) :
    like.schemas (targetSchema r traits) (targetSchema r' traits) := by
  unfold targetSchema
  rw [← alike.kind]
  split
  · rename_i format timestamp given
    rw [alike.timestamp timestamp]
    exact like.refl _
  · exact alike.schema

theorem memberAlike {r r' : Resolution} (alike : r.Alike like r') {traits : Traits}
    {location : String} {s : Schema} (made : memberSchema r traits location = .ok s) :
    ∃ s', memberSchema r' traits location = .ok s' ∧ like.schemas s s' := by
  have constrained := like.constrain traits (targetAlike alike traits)
  unfold memberSchema at made ⊢
  split at made
  · obtain ⟨value, given, made⟩ := bindOk.mp made
    obtain rfl := pureOk.mp made
    exact ⟨_, bindOk.mpr ⟨value, alike.kind ▸ given, rfl⟩, like.withDefault value constrained⟩
  · obtain rfl := pureOk.mp made
    exact ⟨_, rfl, constrained⟩

theorem fieldAlike (alike : Scope.Alike like inside scope scope')
    (sources : like.sources source source') {owner name : String} {member : Member}
    {f : String × Schema × List String} (here : inside member.target)
    (made : field scope owner source name member = .ok f) :
    ∃ f', field scope' owner source' name member = .ok f' ∧
      f.1 = f'.1 ∧ like.schemas f.2.1 f'.2.1 ∧ f.2.2 = f'.2.2 := by
  obtain ⟨r, resolved, made⟩ := bindOk.mp made
  obtain ⟨r', resolved', matched⟩ := Scope.resolvedAlike alike sources here resolved
  split at made
  · rename_i found
    obtain ⟨s, schema, made⟩ := bindOk.mp made
    obtain rfl := pureOk.mp made
    obtain ⟨s', schema', alike'⟩ := memberAlike matched schema
    refine ⟨(name, s', _), bindOk.mpr ⟨r', resolved', ?_⟩, rfl, alike', rfl⟩
    rw [if_pos (matched.resolved ▸ found)]
    exact bindOk.mpr ⟨s', schema', rfl⟩
  · rename_i absent
    obtain rfl := pureOk.mp made
    refine ⟨_, bindOk.mpr ⟨r', resolved', ?_⟩, rfl, like.refl _, rfl⟩
    rw [if_neg (matched.resolved ▸ absent), matched.recursive]
    rfl

theorem fieldsAlike (alike : Scope.Alike like inside scope scope')
    (sources : like.sources source source') {owner : String} {members : List (String × Member)}
    {fs : List (String × Schema × List String)} (here : ∀ m ∈ members, inside m.2.target)
    (made : fields scope owner source members = .ok fs) :
    ∃ fs', fields scope' owner source' members = .ok fs' ∧ Schema.FieldsAlike like.schemas fs fs' := by
  induction members generalizing fs with
  | nil =>
    obtain rfl := pureOk.mp made
    exact ⟨[], rfl, .nil⟩
  | cons m rest ih =>
    obtain ⟨name, member⟩ := m
    obtain ⟨head, first, made⟩ := bindOk.mp made
    obtain ⟨tail, others, made⟩ := bindOk.mp made
    obtain rfl := pureOk.mp made
    obtain ⟨head', first', matched⟩ := fieldAlike alike sources (here _ List.mem_cons_self) first
    obtain ⟨tail', others', each⟩ := ih (fun m mem => here m (List.mem_cons_of_mem _ mem)) others
    exact ⟨_, bindOk.mpr ⟨head', first', bindOk.mpr ⟨tail', others', rfl⟩⟩, .cons matched each⟩

end Structure

theorem Scope.declaresAlike {like : Likeness} {inside : String → Prop} {scope scope' : Scope}
    (alike : Alike like inside scope scope') {id : String} {shape : Shape} {s : Schema}
    (here : inside id) (found : scope.model.shape? id = some shape)
    (declares : scope.Declares id shape s) : ∃ s', scope'.Declares id shape s' ∧ like.schemas s s' := by
  cases declares with
  | enum registered =>
    obtain ⟨symbol', registered', -, -, typeName, -⟩ := registeredAlike alike here registered
    exact ⟨_, .enum registered', typeName ▸ like.refl _⟩
  | struct named registered each =>
    obtain ⟨symbol', registered', -, -, -, files⟩ := registeredAlike alike here registered
    obtain ⟨fields', each', matched⟩ := Structure.fieldsAlike alike (like.own files)
      (fun m mem => alike.onward here found rfl (List.mem_map_of_mem mem)) each
    exact ⟨_, .struct named registered' each', like.object matched⟩
  | expanded inlined routed body =>
    obtain ⟨parts, named, -⟩ := bindOk.mp routed
    obtain ⟨key', routed'⟩ : ∃ key', scope'.outputFileKey id = .ok key' :=
      ⟨_, bindOk.mpr ⟨parts, named, rfl⟩⟩
    obtain ⟨s', body', matched⟩ := expandAlike alike (like.own (alike.files here routed routed')) here body
    exact ⟨s', .expanded inlined routed' body', matched⟩

namespace Run

variable {job job' : Job} {r q : Run}

theorem emissionInlined {id : String} {shape : Shape} (inlined : shape.isExpanded = true) :
    r.emission job id shape = (r.scope job).inlineEmission id := by
  cases shape <;> first | rfl | contradiction

theorem emissionAlike {like : Likeness} {inside : String → Prop}
    (alike : Scope.Alike like inside (r.scope job) (q.scope job')) (signed : r.Signed)
    (signed' : q.Signed) {id : String} {shape : Shape} {kind : ShapeKind} {e : Emission}
    (here : inside id) (found : job.model.shape? id = some shape) (kinded : shape.kind? = some kind)
    (made : r.emission job id shape = .ok e) : ∃ e', q.emission job' id shape = .ok e' := by
  have found' : job'.model.shape? id = some shape := (alike.shapes here).symm.trans found
  obtain ⟨parts, named⟩ := ShapeId.parseOk.mpr (emissionNamed made)
  refine emissionFrom signed' kinded named (emissionTargets alike.discovered signed found made) ?_ ?_ ?_
  · intro standalone
    obtain ⟨symbol, there, -⟩ := Scope.registeredSome alike.discovered'
      (schemaKindSome.mpr ⟨shape, found', kinded, ShapeKind.standaloneBears standalone⟩)
    exact ⟨symbol, there⟩
  · intro members traits symbol' same there'
    subst same
    obtain ⟨parts', named', made⟩ := bindOk.mp made
    obtain rfl := Except.ok.inj (named.symm.trans named')
    obtain ⟨symbol, there, made⟩ := bindOk.mp made
    obtain ⟨fs, each, -⟩ := bindOk.mp made
    obtain ⟨other, there'', -, -, -, files⟩ := Scope.registeredAlike alike here (Scope.symbolOk.mp there)
    obtain rfl := Option.some.inj (there''.symm.trans there')
    obtain ⟨fs', each', -⟩ := Structure.fieldsAlike alike (like.own files)
      (fun m mem => alike.onward here found rfl (List.mem_map_of_mem mem)) each
    exact ⟨fs', each'⟩
  · intro inlined
    rw [emissionInlined inlined] at made
    obtain ⟨key, routed, made⟩ := bindOk.mp made
    obtain ⟨s, body, -⟩ := bindOk.mp made
    obtain ⟨key', routed'⟩ := outputRouted (q.scope job') named
    obtain ⟨s', body', -⟩ := Scope.expandAlike alike (like.own (alike.files here routed routed')) here body
    exact ⟨_, bindOk.mpr ⟨key', routed', bindOk.mpr ⟨s', body', rfl⟩⟩⟩

theorem contributionAlike {like : Likeness} {inside : String → Prop}
    (alike : Scope.Alike like inside (r.scope job) (q.scope job')) (signed : r.Signed)
    (signed' : q.Signed) {p : Pass} {id : String} {shape : Shape} (here : inside id)
    (mem : (p, id, shape) ∈ work job.model Pass.all)
    (made : ∃ e, r.contribution job p id shape = .ok e) :
    ∃ e', q.contribution job' p id shape = .ok e' := by
  obtain ⟨entry, kinds⟩ := workAll.mp mem
  obtain ⟨e, made⟩ := made
  rcases kinds with ⟨kind, rfl, kinded⟩ | ⟨rfl, kinded, -⟩
  · exact emissionAlike alike signed signed' here (Entries.lookupOfMem job.model.distinct entry) kinded made
  · cases shape with
    | struct members traits =>
      obtain ⟨parts, named, made⟩ := bindOk.mp made
      obtain ⟨symbol, there, -⟩ := bindOk.mp made
      obtain ⟨symbol', there', -⟩ := Scope.registeredAlike alike here (Scope.symbolOk.mp there)
      exact ⟨_, bindOk.mpr ⟨parts, named, bindOk.mpr ⟨symbol', Scope.symbolOk.mpr there', rfl⟩⟩⟩
    | _ => cases kinded

theorem traceAlike {like : Likeness} {r' : Run} {table table' : SymbolTable}
    {w w' : List (Pass × String × Shape)} (ready : r.Ready table) (ready' : q.Ready table')
    (alike : Scope.Alike like (fun _ => True) (r.scope job) (q.scope job'))
    (listed : ∀ x ∈ w', x ∈ w ∧ x ∈ work job.model Pass.all) (trace : Trace job r w r') :
    ∃ q', Trace job' q w' q' := by
  refine traceTotal (addReady job' table') (fun q₁ p id shape ready₂ mem => ?_) ready'
  obtain ⟨here, entry⟩ := listed _ mem
  obtain ⟨r₁, e, ready₁, made⟩ := traceEach (addReady job table) trace ready here
  have scopes : Scope.Alike like (fun _ => True) (r₁.scope job) (q₁.scope job') := by
    rw [scope, scope, ready₁.1, ready₂.1, ← ready.1, ← ready'.1]
    exact alike
  exact contributionAlike scopes ready₁.2 ready₂.2 trivial entry ⟨e, made⟩

end Run
end ShapeContracts
