import ShapeContracts.Proofs.Fatal

/-! References inside schemas. Every one of them is to a registered declaration that the model reaches
from the shape, and is deferred exactly when the declaration stands in the file of the schema. -/
namespace ShapeContracts

inductive Schema.Refers : Schema → SchemaRef → Bool → Prop where
  | here (r : SchemaRef) : Refers (.ref r) r false
  | lazy {inner r d} (inside : Refers inner r d) : Refers (.lazy inner) r true
  | item {item min max unique r d} (inside : Refers item r d) :
      Refers (.array item min max unique) r d
  | key {key value r d} (inside : Refers key r d) : Refers (.record key value) r d
  | value {key value r d} (inside : Refers value r d) : Refers (.record key value) r d
  | member {members s r d} (mem : s ∈ members) (inside : Refers s r d) : Refers (.union members) r d
  | field {fields name s comments r d} (mem : (name, s, comments) ∈ fields)
      (inside : Refers s r d) : Refers (.object fields) r d
  | refine {inner check r d} (inside : Refers inner r d) : Refers (.refine inner check) r d
  | optional {inner r d} (inside : Refers inner r d) : Refers (.optional inner) r d
  | withDefault {inner value r d} (inside : Refers inner r d) : Refers (.withDefault inner value) r d
  | marked {comment inner r d} (inside : Refers inner r d) : Refers (.marked comment inner) r d

namespace Schema

variable {s : Schema} {r : SchemaRef} {d : Bool}

theorem refersNotes {notes : List String} : (withNotes notes s).Refers r d ↔ s.Refers r d := by
  induction notes with
  | nil => rfl
  | cons note rest ih =>
    rw [← ih]
    constructor
    · intro h
      cases h with
      | marked inside => exact inside
    · exact .marked

theorem refersReplaced {replacement : Schema} :
    (s.replaceMarked replacement).Refers r d ↔ replacement.Refers r d := by
  fun_induction replaceMarked s replacement with
  | case1 replacement comment inner ih =>
    rw [← ih]
    constructor
    · intro h
      cases h with
      | marked inside => exact inside
    · exact .marked
  | case2 => rfl

theorem timestampPlain (format : TimestampFormat) : ¬ (ofTimestampFormat format).Refers r d := by
  intro h
  cases format <;> cases h

theorem scalarPlain {scope : Scope} {space : String} {traits : Traits} (kind : Scalar) :
    ¬ (scope.scalarSchema space traits kind).Refers r d := by
  cases kind with
  | timestamp =>
    simp only [Scope.scalarSchema]
    split
    · exact timestampPlain _
    · split <;> exact fun h => by cases h
  | _ => exact fun h => by cases h

theorem builtinPlain (b : Builtin) : ¬ b.schema.Refers r d := by
  cases b <;> exact fun h => by cases h

end Schema

inductive Model.LeadsTo (m : Model) : String → String → Prop where
  | declared {id kind} (foreign : Builtin.ofId? id = none) (kinded : m.schemaKind? id = some kind)
      (standalone : kind.isStandalone = true) : m.LeadsTo id id
  | through {id shape target last} (foreign : Builtin.ofId? id = none)
      (found : m.shape? id = some shape) (compound : shape.isCompound = true)
      (refers : target ∈ shape.targets) (rest : m.LeadsTo target last) : m.LeadsTo id last

namespace Scope

variable {scope : Scope} {source : FileKey}

def Points (scope : Scope) (source : FileKey) (r : SchemaRef) (d : Bool) : Prop :=
  ∃ symbol, scope.symbols.lookup? r.shapeId = some symbol ∧ symbol.isStandalone = true ∧
    r = ⟨r.shapeId, symbol.schemaName, symbol.fileKey, symbol.kind⟩ ∧
    (d = true ↔ symbol.fileKey = source)

theorem refSchemaRefers {target : String} {symbol : Symbol} {r : SchemaRef} {d : Bool} :
    (refSchema target symbol source true).Refers r d ↔
      r = ⟨target, symbol.schemaName, symbol.fileKey, symbol.kind⟩ ∧
        (d = true ↔ symbol.fileKey = source) := by
  unfold refSchema
  by_cases same : symbol.fileKey = source
  · rw [if_pos ⟨rfl, same⟩]
    constructor
    · intro h
      cases h with
      | lazy inside =>
        cases inside
        exact ⟨rfl, by simp [same]⟩
    · rintro ⟨rfl, deferred⟩
      rw [deferred.mpr same]
      exact .lazy (.here _)
  · rw [if_neg (fun h => same h.2)]
    constructor
    · intro h
      cases h
      exact ⟨rfl, by simp [same]⟩
    · rintro ⟨rfl, deferred⟩
      cases d with
      | true => exact absurd (deferred.mp rfl) same
      | false => exact .here _

theorem markRefers {res : Resolution} {role target owner : String} {r : SchemaRef} {d : Bool} :
    (markUnresolved res role target owner).Refers r d ↔ res.schema.Refers r d := by
  unfold markUnresolved
  split
  · rfl
  · constructor
    · intro h
      cases h with
      | marked inside => exact inside
    · exact .marked

theorem keySchemaOf {map target : String} {res : Resolution} {s : Schema}
    (fits : keySchema map target res = .ok s) : s = res.schema := by
  unfold keySchema at fits
  split at fits
  · contradiction
  · split at fits
    · split at fits
      · exact (pureOk.mp fits).symm
      · contradiction
    · contradiction

theorem keyResolved {map target : String} {res : Resolution} {s : Schema}
    (fits : keySchema map target res = .ok s) : res.resolved = true := by
  cases state : res.resolved with
  | true => rfl
  | false => simp [keySchema, state] at fits

theorem expansionRefers {resolves : String → Resolution → Prop} {id : String} {s : Schema}
    {r : SchemaRef} {d : Bool} (expansion : scope.Expansion resolves id s) (inside : s.Refers r d) :
    ∃ shape, scope.model.shape? id = some shape ∧ shape.isCompound = true ∧
      ∃ target ∈ shape.targets, ∃ res, resolves target res ∧ res.schema.Refers r d := by
  cases expansion with
  | absent => cases inside
  | other => cases inside
  | scalar => exact absurd (Schema.refersNotes.mp inside) (Schema.scalarPlain _)
  | list found named item =>
    cases Schema.refersNotes.mp inside with
    | item inside =>
      exact ⟨_, found, rfl, _, List.mem_cons_self, _, item, markRefers.mp inside⟩
  | map found named keys fits values =>
    cases Schema.refersNotes.mp inside with
    | key inside =>
      refine ⟨_, found, rfl, _, List.mem_cons_self, _, keys, ?_⟩
      rwa [keySchemaOf fits] at inside
    | value inside =>
      exact ⟨_, found, rfl, _, List.mem_cons_of_mem _ List.mem_cons_self, _, values,
        markRefers.mp inside⟩
  | union rs found named alternatives =>
    cases Schema.refersNotes.mp inside with
    | member mem inside =>
      obtain ⟨m, hm, rfl⟩ := List.mem_map.mp mem
      exact ⟨_, found, rfl, _, List.mem_map_of_mem hm, _, alternatives m hm, markRefers.mp inside⟩

theorem expansionHolds {resolves : String → Resolution → Prop} {id : String} {shape : Shape}
    {s : Schema} (found : scope.model.shape? id = some shape) (compound : shape.isCompound = true)
    (expansion : scope.Expansion resolves id s) : ∀ target ∈ shape.targets, ∃ res,
      resolves target res ∧ ∀ r d, res.schema.Refers r d → s.Refers r d := by
  intro target refers
  cases expansion with
  | absent missing => cases found.symm.trans missing
  | scalar here =>
    cases found.symm.trans here
    contradiction
  | list here named item =>
    cases found.symm.trans here
    obtain rfl := List.mem_singleton.mp refers
    exact ⟨_, item, fun r d inside => Schema.refersNotes.mpr (.item (markRefers.mpr inside))⟩
  | map here named keys fits values =>
    cases found.symm.trans here
    rcases List.mem_cons.mp refers with rfl | refers
    · refine ⟨_, keys, fun r d inside => Schema.refersNotes.mpr (.key ?_)⟩
      rwa [keySchemaOf fits]
    · obtain rfl := List.mem_singleton.mp refers
      exact ⟨_, values, fun r d inside => Schema.refersNotes.mpr (.value (markRefers.mpr inside))⟩
  | union rs here named alternatives =>
    cases found.symm.trans here
    obtain ⟨m, hm, rfl⟩ := List.mem_map.mp refers
    exact ⟨_, alternatives m hm, fun r d inside => Schema.refersNotes.mpr
      (.member (List.mem_map_of_mem hm) (markRefers.mpr inside))⟩
  | other here named apart =>
    cases found.symm.trans here
    cases shape <;> contradiction

theorem resolvedRefers (discovered : scope.Discovered) {target : String} {stack : List String}
    {res : Resolution} (ok : resolveIn scope target source .deferred stack = .ok res)
    {r : SchemaRef} {d : Bool} (inside : res.schema.Refers r d) :
    scope.Points source r d ∧ scope.model.LeadsTo target r.shapeId := by
  suffices h : ∀ r d, res.schema.Refers r d →
      scope.Points source r d ∧ scope.model.LeadsTo target r.shapeId from h r d inside
  clear inside r d
  refine referenceInduct (P := fun _ target res => ∀ r d, res.schema.Refers r d →
    scope.Points source r d ∧ scope.model.LeadsTo target r.shapeId) ?_ ok
  intro stack target res reference r d inside
  cases reference with
  | recursive => cases inside
  | missing => cases inside
  | @builtin b => exact absurd inside (Schema.builtinPlain b)
  | @declared symbol parts fresh foreign named registered standalone =>
    obtain ⟨rfl, deferred⟩ := refSchemaRefers.mp inside
    exact ⟨⟨symbol, registered, standalone, rfl, deferred⟩,
      .declared foreign (registeredKind discovered registered).1 standalone⟩
  | inlined fresh foreign named registered apart body =>
    obtain ⟨shape, found, compound, target', refers, res', resolved, inside'⟩ :=
      expansionRefers body inside
    obtain ⟨points, leads⟩ := resolved r d inside'
    exact ⟨points, .through foreign found compound refers leads⟩

theorem resolvedKind (discovered : scope.Discovered) {target : String} {stack : List String}
    {res : Resolution} (ok : resolveIn scope target source .deferred stack = .ok res)
    {r : SchemaRef} {d : Bool} (inside : res.schema.Refers r d) :
    res.resolved = true ∧ res.kind ≠ some (.scalar .timestamp) := by
  have reference := resolveOk.mp ok
  cases reference with
  | recursive => cases inside
  | missing => cases inside
  | @builtin b => exact absurd inside (Schema.builtinPlain b)
  | @declared symbol parts fresh foreign named registered standalone =>
    refine ⟨rfl, fun kinded => ?_⟩
    rw [Symbol.isStandalone, Option.some.inj kinded] at standalone
    contradiction
  | @inlined symbol parts s fresh foreign named registered apart body =>
    refine ⟨rfl, fun kinded => ?_⟩
    obtain ⟨shape, found, compound, -⟩ := expansionRefers (expandOk.mp body) inside
    obtain ⟨shape', found', shaped, -⟩ := schemaKindSome.mp (registeredKind discovered registered).1
    obtain rfl := Option.some.inj (found.symm.trans found')
    rw [Option.some.inj kinded] at shaped
    cases shape <;> simp [Shape.isCompound, Shape.kind?] at compound shaped

end Scope

namespace Structure

variable {scope : Scope} {owner : String} {source : FileKey} {r : SchemaRef} {d : Bool}

structure Blind {α : Type} (read : Schema → α) : Prop where
  refine : ∀ s check, read (.refine s check) = read s
  optional : ∀ s, read (.optional s) = read s
  withDefault : ∀ s value, read (.withDefault s value) = read s

variable {α : Type} {read : Schema → α}

theorem blindOptional (blind : Blind read) (traits : Traits) (s : Schema) :
    read (optionalUnlessRequired traits s) = read s := by
  unfold optionalUnlessRequired
  split
  · rfl
  · exact blind.optional s

theorem blindRefined (blind : Blind read) (checks : List Check) (s : Schema) :
    read (checks.foldl .refine s) = read s := by
  induction checks generalizing s with
  | nil => rfl
  | cons check rest ih => exact (ih (.refine s check)).trans (blind.refine s check)

theorem blindMember (blind : Blind read) {r : Resolution} {traits : Traits} {location : String}
    {s : Schema} (made : memberSchema r traits location = .ok s) :
    read s = read (targetSchema r traits) := by
  have constrained : read (constrain (targetSchema r traits) traits) = read (targetSchema r traits) :=
    (blindOptional blind _ _).trans (blindRefined blind _ _)
  unfold memberSchema at made
  split at made
  · obtain ⟨value, -, made⟩ := bindOk.mp made
    obtain rfl := pureOk.mp made
    exact (blind.withDefault _ _).trans constrained
  · obtain rfl := pureOk.mp made
    exact constrained

theorem refersBlind : Blind (fun s => s.Refers r d) where
  refine s check := by
    refine propext ⟨fun h => ?_, .refine⟩
    cases h with
    | refine inside => exact inside
  optional s := by
    refine propext ⟨fun h => ?_, .optional⟩
    cases h with
    | optional inside => exact inside
  withDefault s value := by
    refine propext ⟨fun h => ?_, .withDefault⟩
    cases h with
    | withDefault inside => exact inside

theorem targetCases (res : Resolution) (traits : Traits) :
    (∃ format, res.kind = some (.scalar .timestamp) ∧ traits.timestampFormat = some format ∧
      targetSchema res traits = res.schema.replaceMarked (.ofTimestampFormat format)) ∨
    ((res.kind = some (.scalar .timestamp) → traits.timestampFormat = none) ∧
      targetSchema res traits = res.schema) := by
  unfold targetSchema
  split
  · rename_i format kinded given
    exact .inl ⟨format, kinded, given, rfl⟩
  · rename_i plain
    exact .inr ⟨fun kinded => Option.eq_none_iff_forall_ne_some.mpr (fun format => plain format kinded),
      rfl⟩

theorem targetRefers {res : Resolution} {traits : Traits}
    (apart : res.schema.Refers r d → res.kind ≠ some (.scalar .timestamp)) :
    (targetSchema res traits).Refers r d ↔ res.schema.Refers r d := by
  obtain ⟨format, kinded, -, same⟩ | ⟨-, same⟩ := targetCases res traits
  · rw [same]
    constructor
    · exact fun h => absurd (Schema.refersReplaced.mp h) (Schema.timestampPlain format)
    · exact fun h => absurd kinded (apart h)
  · rw [same]

theorem fieldRefers (discovered : scope.Discovered) {name : String} {member : Member}
    {f : String × Schema × List String} (ok : field scope owner source name member = .ok f) :
    f.2.1.Refers r d ↔ ∃ res, scope.resolveIn member.target source .deferred [] = .ok res ∧
      res.schema.Refers r d := by
  obtain ⟨res, resolved, ok⟩ := bindOk.mp ok
  change scope.resolveIn member.target source .deferred [] = .ok res at resolved
  have only : (∃ res, scope.resolveIn member.target source .deferred [] = .ok res ∧
      res.schema.Refers r d) ↔ res.schema.Refers r d := by
    rw [resolved]
    simp
  have kinds := fun h => Scope.resolvedKind (r := r) (d := d) discovered resolved h
  rw [only]
  split at ok
  · obtain ⟨s, made, ok⟩ := bindOk.mp ok
    obtain rfl := pureOk.mp ok
    exact (iff_of_eq (blindMember refersBlind made)).trans (targetRefers (fun h => (kinds h).2))
  · rename_i absent
    obtain rfl := pureOk.mp ok
    constructor
    · exact fun h => nomatch (iff_of_eq (blindOptional refersBlind _ _)).mp h
    · exact fun h => absurd (kinds h).1 absent

theorem fieldsMem {members : List (String × Member)} {fs : List (String × Schema × List String)}
    (ok : fields scope owner source members = .ok fs) {f : String × Schema × List String} :
    f ∈ fs ↔ ∃ m ∈ members, field scope owner source m.1 m.2 = .ok f := by
  induction members generalizing fs with
  | nil =>
    obtain rfl := pureOk.mp ok
    simp
  | cons m rest ih =>
    obtain ⟨name, member⟩ := m
    obtain ⟨head, first, ok⟩ := bindOk.mp ok
    obtain ⟨tail, others, ok⟩ := bindOk.mp ok
    obtain rfl := pureOk.mp ok
    simp only [List.mem_cons, ih others, exists_eq_or_imp, first, Except.ok.injEq, eq_comm]

theorem fieldsRefers (discovered : scope.Discovered) {members : List (String × Member)}
    {fs : List (String × Schema × List String)} (ok : fields scope owner source members = .ok fs) :
    (Schema.object fs).Refers r d ↔ ∃ m ∈ members, ∃ res,
      scope.resolveIn m.2.target source .deferred [] = .ok res ∧ res.schema.Refers r d := by
  constructor
  · intro h
    cases h with
    | field mem inside =>
      obtain ⟨m, hm, made⟩ := (fieldsMem ok).mp mem
      exact ⟨m, hm, (fieldRefers discovered made).mp inside⟩
  · rintro ⟨m, hm, there⟩
    obtain ⟨f, made⟩ := fieldsOk.mp ⟨fs, ok⟩ m hm
    obtain ⟨name, s, comments⟩ := f
    exact .field ((fieldsMem ok).mpr ⟨m, hm, made⟩) ((fieldRefers discovered made).mpr there)

end Structure

theorem Scope.declaredRefers {scope : Scope} (discovered : scope.Discovered) {id : String}
    {shape : Shape} {s : Schema} (declares : scope.Declares id shape s) {r : SchemaRef} {d : Bool}
    (inside : s.Refers r d) : ∃ source, scope.Points source r d := by
  cases declares with
  | enum => cases inside
  | @struct members traits parts symbol fields named registered each =>
    obtain ⟨m, hm, res, resolved, inside⟩ := (Structure.fieldsRefers discovered each).mp inside
    exact ⟨_, (resolvedRefers discovered resolved inside).1⟩
  | expanded inlined routed body =>
    obtain ⟨shape, found, compound, target, refers, res, resolved, inside⟩ :=
      expansionRefers (expandOk.mp body) inside
    exact ⟨_, (resolvedRefers discovered resolved inside).1⟩

namespace Contracts

variable {job : Job} {c : Contracts}

inductive Stands : ShapeKind → Schema → Prop where
  | struct (fields : List (String × Schema × List String)) : Stands .struct (.object fields)
  | enum (typeName : String) (values : List String) : Stands .enum (.enum typeName values)

theorem finishedRefers (done : ofModel job = .ok c) {id : String} {s : Schema}
    (found : c.schema? id = some s) {r : SchemaRef} {d : Bool} (inside : s.Refers r d) :
    ∃ t, c.schema? r.shapeId = some t ∧ Stands r.kind t := by
  obtain ⟨same, discovered, -⟩ := finishedTrace done
  obtain ⟨shape, -, declares⟩ := finishedDeclares done found
  obtain ⟨source, symbol, registered, standalone, whole, -⟩ :=
    Scope.declaredRefers discovered declares inside
  have known : job.model.schemaKind? r.shapeId = some symbol.kind :=
    same ▸ (Scope.registeredKind discovered registered).1
  obtain ⟨t, shape', there, -, shaped, declares'⟩ := finishedKind done known
  refine ⟨t, there, ?_⟩
  rw [Symbol.isStandalone] at standalone
  rw [congrArg SchemaRef.kind whole]
  cases declares' with
  | enum =>
    rw [← Option.some.inj shaped]
    exact .enum _ _
  | struct =>
    rw [← Option.some.inj shaped]
    exact .struct _
  | expanded inlined => cases inlined.symm.trans (Shape.standaloneWhole shaped standalone)

end Contracts
end ShapeContracts
