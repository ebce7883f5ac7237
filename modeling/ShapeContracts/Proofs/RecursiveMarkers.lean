import Mathlib.Logic.Relation
import ShapeContracts.Proofs.LoadOrder
import ShapeContracts.Proofs.Placeholders

/-! Markers of recursive references. An expansion keeps the shapes on its way on a stack, so it marks a
reference exactly when the reference closes a cycle of shapes that are expanded in place; a shape
that two branches share is on no stack of its own and gives no marker. -/
namespace ShapeContracts

open Relation (ReflTransGen TransGen)

namespace Comment

def Recursive (note : String) : Prop :=
  ∃ subject, note = String.join ["UNRESOLVED: ", subject, " is a recursive reference."]

theorem unresolvedRecursive {role target owner : String} {recursive : Bool} :
    Recursive (unresolvedNote role target owner recursive) ↔ recursive = true := by
  constructor
  · rintro ⟨subject, same⟩
    cases recursive with
    | true => rfl
    | false =>
      -- the two reasons differ before their final stop
      have ends := congrArg (fun s => s.toList.reverse[1]?) same
      simp [unresolvedNote] at ends
  · rintro rfl
    refine ⟨String.join [role, " target ", target, " for ", owner], ?_⟩
    apply String.toList_inj.mp
    simp [unresolvedNote]

theorem unmappedPlain (key : String) (value : Json) (location : String) :
    ¬ Recursive (unmappedNote key value location) := by
  rintro ⟨subject, same⟩
  have starts := congrArg (fun s => s.toList[2]?) same
  simp [unmappedNote] at starts

end Comment

theorem Shape.notesPlain {shape : Shape} {id note : String} (mem : note ∈ shape.notes id) :
    ¬ Comment.Recursive note := by
  unfold Shape.notes at mem
  split at mem
  · obtain ⟨entry, -, rfl⟩ := List.mem_map.mp mem
    exact Comment.unmappedPlain _ _ _
  · contradiction

namespace Schema

def MarksRecursion (s : Schema) (note : String) : Prop :=
  Comment.Recursive note ∧ ∃ inner path, (Schema.marked note inner).Occurs path s

variable {s : Schema} {note : String}

theorem unmarkedUnknown : ¬ Schema.unknown.MarksRecursion note := by
  rintro ⟨-, inner, path, occurs⟩
  cases occurs

theorem unmarkedTimestamp (format : TimestampFormat) :
    ¬ (ofTimestampFormat format).MarksRecursion note := by
  rintro ⟨-, inner, path, occurs⟩
  cases format <;> cases occurs

theorem unmarkedScalar {scope : Scope} {space : String} {traits : Traits} (kind : Scalar) :
    ¬ (scope.scalarSchema space traits kind).MarksRecursion note := by
  cases kind with
  | timestamp =>
    simp only [Scope.scalarSchema]
    split
    · exact unmarkedTimestamp _
    · split
      · exact unmarkedTimestamp .dateTime
      · exact unmarkedTimestamp .httpDate
  | _ =>
    rintro ⟨-, inner, path, occurs⟩
    cases occurs

theorem unmarkedBuiltin (b : Builtin) : ¬ b.schema.MarksRecursion note := by
  rintro ⟨-, inner, path, occurs⟩
  cases b <;> cases occurs

theorem unmarkedReference {target : String} {symbol : Symbol} {source : FileKey} {lazyInFile : Bool} :
    ¬ (Scope.refSchema target symbol source lazyInFile).MarksRecursion note := by
  rintro ⟨-, inner, path, occurs⟩
  unfold Scope.refSchema at occurs
  split at occurs
  · cases occurs with
    | lazy inside => cases inside
  · cases occurs

theorem marksMarked {comment : String} :
    (Schema.marked comment s).MarksRecursion note ↔
      (Comment.Recursive note ∧ note = comment) ∨ s.MarksRecursion note := by
  constructor
  · rintro ⟨recursive, inner, path, occurs⟩
    cases occurs with
    | here => exact .inl ⟨recursive, rfl⟩
    | marked inside => exact .inr ⟨recursive, inner, path, inside⟩
  · rintro (⟨recursive, rfl⟩ | ⟨recursive, inner, path, inside⟩)
    · exact ⟨recursive, s, [], .here⟩
    · exact ⟨recursive, inner, path, .marked inside⟩

theorem marksNotes {notes : List String} (plain : ∀ n ∈ notes, ¬ Comment.Recursive n) :
    (withNotes notes s).MarksRecursion note ↔ s.MarksRecursion note := by
  induction notes with
  | nil => rfl
  | cons n rest ih =>
    have other := plain n List.mem_cons_self
    have rest := ih (fun m mem => plain m (List.mem_cons_of_mem _ mem))
    refine marksMarked.trans (Iff.trans ⟨fun marks => marks.resolve_left ?_, .inr⟩ rest)
    rintro ⟨recursive, rfl⟩
    exact other recursive

theorem marksArray {min max : Option Nat} {unique : Bool} :
    (Schema.array s min max unique).MarksRecursion note ↔ s.MarksRecursion note := by
  constructor
  · rintro ⟨recursive, inner, path, occurs⟩
    cases occurs with
    | item inside => exact ⟨recursive, inner, _, inside⟩
  · rintro ⟨recursive, inner, path, inside⟩
    exact ⟨recursive, inner, _, .item inside⟩

theorem marksRecord {key : Schema} : (Schema.record key s).MarksRecursion note ↔
    key.MarksRecursion note ∨ s.MarksRecursion note := by
  constructor
  · rintro ⟨recursive, inner, path, occurs⟩
    cases occurs with
    | key inside => exact .inl ⟨recursive, inner, _, inside⟩
    | value inside => exact .inr ⟨recursive, inner, _, inside⟩
  · rintro (⟨recursive, inner, path, inside⟩ | ⟨recursive, inner, path, inside⟩)
    · exact ⟨recursive, inner, _, .key inside⟩
    · exact ⟨recursive, inner, _, .value inside⟩

theorem marksUnion {members : List Schema} : (Schema.union members).MarksRecursion note ↔
    ∃ s ∈ members, s.MarksRecursion note := by
  constructor
  · rintro ⟨recursive, inner, path, occurs⟩
    cases occurs with
    | alternative nth inside => exact ⟨_, List.mem_of_getElem? nth, recursive, inner, _, inside⟩
  · rintro ⟨s, mem, recursive, inner, path, inside⟩
    obtain ⟨i, nth⟩ := List.getElem?_of_mem mem
    exact ⟨recursive, inner, _, .alternative nth inside⟩

end Schema

def Shape.held : Shape → List String
  | .list member _ => [member.target]
  | .map _ value _ => [value.target]
  | .union members _ => members.map (fun m => m.2.target)
  | _ => []

namespace Model

def Inline (m : Model) (id : String) : Prop :=
  ∃ kind, m.schemaKind? id = some kind ∧ kind ≠ .enum ∧ kind ≠ .struct

def Nests (m : Model) (outer inner : String) : Prop :=
  m.Inline outer ∧ m.Inline inner ∧ ∃ shape, m.shape? outer = some shape ∧ inner ∈ shape.held

def CycleFrom (m : Model) (id on : String) : Prop :=
  ReflTransGen m.Nests id on ∧ TransGen m.Nests on on

variable {m : Model}

theorem inlineStandalone {kind : ShapeKind} :
    kind.isStandalone = false ↔ kind ≠ .enum ∧ kind ≠ .struct := by
  cases kind <;> simp [ShapeKind.isStandalone]

theorem heldInline {id target : String} {shape : Shape} (found : m.shape? id = some shape)
    (held : target ∈ shape.held) : m.Inline id := by
  have compound : shape.isCompound = true := by
    cases shape with
    | list | map | union => rfl
    | _ => contradiction
  obtain ⟨kind, kinded, apart⟩ := compoundKind found compound
  exact ⟨kind, kinded, inlineStandalone.mp apart⟩

theorem cycleStep {id next on : String} (nests : m.Nests id next) (cycle : m.CycleFrom next on) :
    m.CycleFrom id on :=
  ⟨.head nests cycle.1, cycle.2⟩

theorem cycleNext {id on : String} (cycle : m.CycleFrom id on) :
    ∃ next, m.Nests id next ∧ m.CycleFrom next on := by
  -- a way to a cycle never ends, for it can always go round the cycle once more
  obtain ⟨way, round⟩ := cycle
  rcases way.cases_head with rfl | ⟨next, nests, rest⟩
  · obtain ⟨next, nests, rest⟩ := TransGen.head'_iff.mp round
    exact ⟨next, nests, rest, round⟩
  · exact ⟨next, nests, rest, round⟩

end Model

namespace Scope

variable {scope : Scope} {source : FileKey}

theorem marksReference {r : Resolution} {role target owner note : String}
    (opened : r.resolved = false → r.schema = .unknown) :
    (markUnresolved r role target owner).MarksRecursion note ↔
      (r.resolved = true ∧ r.schema.MarksRecursion note) ∨
        (r.resolved = false ∧ r.recursive = true ∧
          note = Comment.unresolvedNote role target owner true) := by
  unfold markUnresolved
  cases state : r.resolved with
  | true => simp
  | false =>
    rw [if_neg (by decide), opened state, Schema.marksMarked]
    simp only [Schema.unmarkedUnknown, or_false, Bool.false_eq_true, false_and, false_or, true_and]
    constructor
    · rintro ⟨recursive, rfl⟩
      have again := Comment.unresolvedRecursive.mp recursive
      exact ⟨again, by rw [again]⟩
    · rintro ⟨again, rfl⟩
      exact ⟨Comment.unresolvedRecursive.mpr rfl, by rw [again]⟩

theorem openUnknown {target : String} {stack : List String} {r : Resolution}
    (ok : resolveIn scope target source .deferred stack = .ok r) :
    r.resolved = false → r.schema = .unknown := by
  intro opened
  have reference := resolveOk.mp ok
  cases reference with
  | recursive | missing => rfl
  | builtin | declared | inlined => contradiction

theorem keyUnmarked (discovered : scope.Discovered) {map target note : String} {stack : List String}
    {r : Resolution} {s : Schema} (ok : resolveIn scope target source .deferred stack = .ok r)
    (fits : keySchema map target r = .ok s) : ¬ s.MarksRecursion note := by
  have closed := keyResolved fits
  rw [keySchemaOf fits]
  have reference := resolveOk.mp ok
  cases reference with
  | recursive | missing => contradiction
  | @builtin b => exact Schema.unmarkedBuiltin b
  | declared => exact Schema.unmarkedReference
  | @inlined symbol parts t fresh foreign named registered apart body =>
    obtain ⟨shape, found, shaped, inlined⟩ := inlinedShape discovered registered apart
    have compatible : symbol.kind.isStringCompatible = true := by
      cases other : symbol.kind.isStringCompatible with
      | true => rfl
      | false => simp [keySchema, Resolution.found, other] at fits
    have scalar : ∃ kind traits, shape = .scalar kind traits := by
      cases shape with
      | scalar kind traits => exact ⟨kind, traits, rfl⟩
      | list | map | union =>
        rw [← Option.some.inj shaped] at compatible
        contradiction
      | _ => contradiction
    obtain ⟨kind, traits, rfl⟩ := scalar
    have expansion := expandOk.mp body
    cases expansion with
    | absent missing => cases found.symm.trans missing
    | scalar => exact fun marks => Schema.unmarkedScalar _ ((Schema.marksNotes (fun _ => Shape.notesPlain)).mp marks)
    | list other | map other | union _ other => cases found.symm.trans other
    | other found' _ whole =>
      cases found.symm.trans found'
      contradiction

theorem expansionMarked (discovered : scope.Discovered) {id note : String} {stack : List String}
    {s : Schema} (ok : expand scope id source stack = .ok s) (marks : s.MarksRecursion note) :
    ∃ shape, scope.model.shape? id = some shape ∧ ∃ target ∈ shape.held, ∃ role owner r,
      resolveIn scope target source .deferred stack = .ok r ∧
        (markUnresolved r role target owner).MarksRecursion note := by
  have expansion := expandOk.mp ok
  cases expansion with
  | absent | other => exact absurd marks Schema.unmarkedUnknown
  | scalar => exact absurd ((Schema.marksNotes (fun _ => Shape.notesPlain)).mp marks) (Schema.unmarkedScalar _)
  | list found named item =>
    rw [Schema.marksNotes (fun _ => Shape.notesPlain), Schema.marksArray] at marks
    exact ⟨_, found, _, List.mem_singleton_self _, _, _, _, item, marks⟩
  | map found named keys fits values =>
    rw [Schema.marksNotes (fun _ => Shape.notesPlain), Schema.marksRecord] at marks
    have inside := marks.resolve_left (keyUnmarked discovered keys fits)
    exact ⟨_, found, _, List.mem_singleton_self _, _, _, _, values, inside⟩
  | union rs found named alternatives =>
    rw [Schema.marksNotes (fun _ => Shape.notesPlain), Schema.marksUnion] at marks
    obtain ⟨t, mem, inside⟩ := marks
    obtain ⟨m, listed, rfl⟩ := List.mem_map.mp mem
    exact ⟨_, found, _, List.mem_map_of_mem listed, _, _, _, alternatives m listed, inside⟩

theorem expansionMarking {id : String} {shape : Shape} {stack : List String} {s : Schema}
    (found : scope.model.shape? id = some shape) (ok : expand scope id source stack = .ok s)
    {target : String} (held : target ∈ shape.held) : ∃ role owner r,
      resolveIn scope target source .deferred stack = .ok r ∧
        ∀ note, (markUnresolved r role target owner).MarksRecursion note → s.MarksRecursion note := by
  have expansion := expandOk.mp ok
  cases expansion with
  | absent missing => cases found.symm.trans missing
  | scalar found' =>
    cases found.symm.trans found'
    contradiction
  | other found' named apart =>
    cases found.symm.trans found'
    cases shape <;> contradiction
  | @list member traits parts r found' named item =>
    cases found.symm.trans found'
    obtain rfl := List.mem_singleton.mp held
    refine ⟨"list member", parts.name, _, item, fun note marks => ?_⟩
    rwa [Schema.marksNotes (fun _ => Shape.notesPlain), Schema.marksArray]
  | @map key value traits parts k keyed r found' named keys fits values =>
    cases found.symm.trans found'
    obtain rfl := List.mem_singleton.mp held
    refine ⟨"map value", parts.name, _, values, fun note marks => ?_⟩
    rw [Schema.marksNotes (fun _ => Shape.notesPlain), Schema.marksRecord]
    exact .inr marks
  | @union members traits parts rs found' named alternatives =>
    cases found.symm.trans found'
    obtain ⟨m, listed, rfl⟩ := List.mem_map.mp held
    refine ⟨"union member", parts.name ++ "." ++ m.1, _, alternatives m listed, fun note marks => ?_⟩
    rw [Schema.marksNotes (fun _ => Shape.notesPlain), Schema.marksUnion]
    exact ⟨_, List.mem_map_of_mem listed, marks⟩

theorem markedCycle (discovered : scope.Discovered) {id note : String} {stack : List String} {s : Schema}
    (ok : expand scope id source stack = .ok s)
    (under : ∀ t ∈ stack, scope.model.Inline t ∧ ReflTransGen scope.model.Nests t id)
    (marks : s.MarksRecursion note) : ∃ role target owner,
      note = Comment.unresolvedNote role target owner true ∧ scope.model.CycleFrom id target := by
  -- every shape on the stack leads to the one that is expanded, so a reference back to it closes a cycle
  induction room : scope.room stack using Nat.strongRecOn generalizing id stack s with
  | ind n ih =>
    subst room
    obtain ⟨shape, found, target, held, role, owner, r, resolved, inside⟩ :=
      expansionMarked discovered ok marks
    have outer := Model.heldInline found held
    have reference := resolveOk.mp resolved
    rcases (marksReference (openUnknown resolved)).mp inside with ⟨closed, deeper⟩ | ⟨opened, again, rfl⟩
    · cases reference with
      | recursive | missing => contradiction
      | @builtin b => exact absurd deeper (Schema.unmarkedBuiltin b)
      | declared => exact absurd deeper Schema.unmarkedReference
      | @inlined symbol parts t fresh foreign named registered apart body =>
        have inner : scope.model.Inline target :=
          ⟨_, (registeredKind discovered registered).1, Model.inlineStandalone.mp apart⟩
        have nests : scope.model.Nests id target := ⟨outer, inner, shape, found, held⟩
        have under' : ∀ t ∈ stack ++ [target],
            scope.model.Inline t ∧ ReflTransGen scope.model.Nests t target := by
          intro t mem
          rcases List.mem_append.mp mem with mem | mem
          · exact ⟨(under t mem).1, (under t mem).2.tail nests⟩
          · rw [List.mem_singleton.mp mem]
            exact ⟨inner, .refl⟩
        obtain ⟨role', on, owner', same, cycle⟩ := ih _
          (roomPush (Entries.lookupSome.mp ⟨_, registered⟩) fresh) body under' deeper rfl
        exact ⟨role', on, owner', same, Model.cycleStep nests cycle⟩
    · refine ⟨role, target, owner, rfl, ?_⟩
      cases reference with
      | missing | builtin | declared | inlined => contradiction
      | recursive visited =>
        obtain ⟨inner, way⟩ := under target visited
        have nests : scope.model.Nests id target := ⟨outer, inner, shape, found, held⟩
        exact Model.cycleStep nests ⟨.refl, .tail' way nests⟩

theorem cycleMarked (discovered : scope.Discovered) (spared : scope.model.SparesPrelude)
    {id on : String} {stack : List String} {s : Schema} (ok : expand scope id source stack = .ok s)
    (cycle : scope.model.CycleFrom id on) : ∃ note, s.MarksRecursion note := by
  -- the way goes on for ever and the stack has room for each shape once, so it meets the stack
  induction room : scope.room stack using Nat.strongRecOn generalizing id stack s with
  | ind n ih =>
    subst room
    obtain ⟨next, ⟨-, ⟨kind, kinded, apart⟩, shape, found, held⟩, cycle⟩ := Model.cycleNext cycle
    obtain ⟨role, owner, r, resolved, carries⟩ := expansionMarking found ok held
    have reference := resolveOk.mp resolved
    obtain ⟨symbol, registered, rfl⟩ := registeredSome discovered kinded
    have foreign : Builtin.ofId? next = none := by
      obtain ⟨shape', found', shaped, -⟩ := schemaKindSome.mp kinded
      have known : scope.model.kind? next = some symbol.kind := by
        rw [Model.kind?, found', Option.bind_some, shaped]
      exact sparedKind spared known
    have whole := openUnknown resolved
    cases reference with
    | recursive visited =>
      exact ⟨_, carries _ ((marksReference whole).mpr (.inr ⟨rfl, rfl, rfl⟩))⟩
    | builtin _ known => cases foreign.symm.trans known
    | missing _ _ _ absent => cases registered.symm.trans absent
    | declared _ _ _ registered' standalone =>
      cases registered.symm.trans registered'
      cases (Model.inlineStandalone.mpr apart).symm.trans standalone
    | inlined fresh _ _ registered' _ body =>
      obtain ⟨note, marks⟩ := ih _ (roomPush (Entries.lookupSome.mp ⟨_, registered⟩) fresh) body cycle rfl
      exact ⟨note, carries note ((marksReference whole).mpr (.inl ⟨rfl, marks⟩))⟩

theorem marksCycles {m : Model} {settings : Settings} {space : String} {n : Nat} {table : SymbolTable}
    (discovers : (SymbolTable.empty space).discover m = (.ok n, table)) (spared : m.SparesPrelude)
    {id : String} {shape : Shape} (found : m.shape? id = some shape) (compound : shape.isCompound = true)
    {s : Schema} (ok : expand ⟨m, table, settings⟩ id source [id] = .ok s) :
    ((∃ note, s.MarksRecursion note) ↔ ∃ on, m.CycleFrom id on) ∧
      ∀ note, s.MarksRecursion note → ∃ role target owner,
        note = Comment.unresolvedNote role target owner true ∧ m.CycleFrom id target := by
  obtain ⟨-, discovered⟩ := discoverOk settings discovers
  have start : ∀ t ∈ [id], m.Inline t ∧ ReflTransGen m.Nests t id := by
    intro t mem
    obtain ⟨kind, kinded, apart⟩ := Model.compoundKind found compound
    rw [List.mem_singleton.mp mem]
    exact ⟨⟨kind, kinded, Model.inlineStandalone.mp apart⟩, .refl⟩
  have named : ∀ note, s.MarksRecursion note → ∃ role target owner,
      note = Comment.unresolvedNote role target owner true ∧ m.CycleFrom id target :=
    fun note marks => markedCycle discovered ok start marks
  refine ⟨⟨?_, ?_⟩, named⟩
  · rintro ⟨note, marks⟩
    obtain ⟨role, target, owner, -, cycle⟩ := named note marks
    exact ⟨target, cycle⟩
  · rintro ⟨on, cycle⟩
    exact cycleMarked discovered spared ok cycle

def orchard : Model where
  version := "2.0"
  shapes := [
    ("example#Trees", .list ⟨"example#Tree", .empty⟩ .empty),
    ("example#Tree", .union [("grove", ⟨"example#Trees", .empty⟩), ("pair", ⟨"example#Pair", .empty⟩)] .empty),
    ("example#Pair", .union [("left", ⟨"example#Leaves", .empty⟩), ("right", ⟨"example#Leaves", .empty⟩)]
      .empty),
    ("example#Leaves", .list ⟨"smithy.api#String", .empty⟩ .empty),
    ("example#Nodes", .list ⟨"example#Node", .empty⟩ .empty),
    ("example#Node", .struct [("nodes", ⟨"example#Nodes", .empty⟩)] .empty)]
  metadata := []
  distinct := by decide
  membersDistinct := by simp [Shape.memberNames]

theorem orchardExpands (id : String) {shape : Shape}
    (found : orchard.shape? id = some shape) (inlined : shape.isExpanded = true) :
    ∃ n table source s,
      (SymbolTable.empty Settings.standard.primarySpace).discover orchard = (.ok n, table) ∧
        expand ⟨orchard, table, .standard⟩ id source [id] = .ok s := by
  obtain ⟨c, done⟩ : ∃ c, Contracts.ofModel ⟨orchard, .standard⟩ = .ok c :=
    Contracts.completes (fun b => by cases b <;> rfl) (by decide)
  obtain ⟨source, s, -, body⟩ := Contracts.recordedBody done found inlined
  obtain ⟨same, generated⟩ := Contracts.ofModelOk.mp done
  obtain ⟨n, table, discovers, trace⟩ := Run.generateExact.mp generated
  have symbols : c.run.symbols = table := Run.traceSymbols trace
  rw [Contracts.scope, Run.scope, symbols, same] at body
  exact ⟨n, table, source, s, discovers, body⟩

theorem orchardMarks : (∃ table source s,
      expand ⟨orchard, table, .standard⟩ "example#Trees" source ["example#Trees"] = .ok s ∧
        ∃ note, s.MarksRecursion note) ∧
    (∃ table source s,
      expand ⟨orchard, table, .standard⟩ "example#Pair" source ["example#Pair"] = .ok s ∧
        ¬ ∃ note, s.MarksRecursion note) ∧
    ∃ table source s,
      expand ⟨orchard, table, .standard⟩ "example#Nodes" source ["example#Nodes"] = .ok s ∧
        ¬ ∃ note, s.MarksRecursion note := by
  have spared : orchard.SparesPrelude := fun b => by cases b <;> rfl
  refine ⟨?_, ?_, ?_⟩
  · obtain ⟨n, table, source, s, discovers, ok⟩ := orchardExpands "example#Trees" rfl rfl
    have out : orchard.Nests "example#Trees" "example#Tree" :=
      ⟨⟨.list, rfl, by decide⟩, ⟨.union, rfl, by decide⟩, _, rfl, List.mem_singleton_self _⟩
    have back : orchard.Nests "example#Tree" "example#Trees" :=
      ⟨⟨.union, rfl, by decide⟩, ⟨.list, rfl, by decide⟩, _, rfl, List.mem_cons_self⟩
    have cycle : orchard.CycleFrom "example#Trees" "example#Trees" := ⟨.refl, .tail (.single out) back⟩
    exact ⟨table, source, s, ok, (marksCycles discovers spared rfl rfl ok).1.mpr ⟨_, cycle⟩⟩
  · obtain ⟨n, table, source, s, discovers, ok⟩ := orchardExpands "example#Pair" rfl rfl
    refine ⟨table, source, s, ok, fun marked => ?_⟩
    obtain ⟨on, cycle⟩ := (marksCycles discovers spared rfl rfl ok).1.mp marked
    obtain ⟨next, ⟨-, -, shape, found, held⟩, cycle⟩ := Model.cycleNext cycle
    obtain rfl := Option.some.inj found
    obtain rfl : next = "example#Leaves" := by simpa [Shape.held] using held
    obtain ⟨last, ⟨-, ⟨kind, kinded, -⟩, shape, found, held⟩, -⟩ := Model.cycleNext cycle
    obtain rfl := Option.some.inj found
    obtain rfl := List.mem_singleton.mp held
    contradiction
  · obtain ⟨n, table, source, s, discovers, ok⟩ := orchardExpands "example#Nodes" rfl rfl
    refine ⟨table, source, s, ok, fun marked => ?_⟩
    obtain ⟨on, cycle⟩ := (marksCycles discovers spared rfl rfl ok).1.mp marked
    obtain ⟨next, ⟨-, ⟨kind, kinded, apart⟩, shape, found, held⟩, -⟩ := Model.cycleNext cycle
    obtain rfl := Option.some.inj found
    obtain rfl := List.mem_singleton.mp held
    obtain rfl := Option.some.inj kinded
    exact apart.2 rfl

end Scope
end ShapeContracts
