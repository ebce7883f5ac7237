import ShapeContracts.Proofs.Registration
import ShapeContracts.Proofs.TraitMarkers

/-! What the kind of a resolution tells about its schema. The kinds with a declaration stand for a reference to
the target, every other kind for its own validator under comment markers, whatever the model, the file, the
options and the stack are; so a format given by a member changes that validator alone, and the keys of
records are strings or references to enumerations. -/
namespace ShapeContracts

namespace Schema

inductive Forms : ShapeKind → Schema → Prop where
  | blob : Forms (.scalar .blob) .bytes
  | boolean : Forms (.scalar .boolean) .boolean
  | document : Forms (.scalar .document) .unknown
  | integer {min max} : Forms (.scalar .integer) (.number true min max)
  | long : Forms (.scalar .long) .bigint
  | string {min max pattern} : Forms (.scalar .string) (.string min max pattern)
  | timestamp (format : TimestampFormat) : Forms (.scalar .timestamp) (.ofTimestampFormat format)
  | list {item min max unique} : Forms .list (.array item min max unique)
  | map {key value} : Forms .map (.record key value)
  | union {members} : Forms .union (.union members)

/-- A validator of the keys of a record, and whether the record may leave some of its keys out. -/
inductive KeyForm : Schema → Bool → Prop where
  | text {notes core} (form : Forms (.scalar .string) core) : KeyForm (.withNotes notes core) false
  | enumeration {r} (kinded : r.kind = .enum) : KeyForm (.ref r) true
  | deferred {r} (kinded : r.kind = .enum) : KeyForm (.lazy (.ref r)) true

def Keyed (s : Schema) : Prop :=
  ∀ path key value, (Schema.record key value).Occurs path s → KeyForm key key.isEnumRef

variable {s t : Schema}

theorem keyedBare (same : s.bare = t.bare) (keyed : t.Keyed) : s.Keyed := by
  intro path key value occurs
  have inside := occursBare rfl occurs
  rw [same] at inside
  obtain ⟨path', within⟩ : ∃ path', (Schema.record key value).Occurs path' t :=
    ⟨path, bareOccurs inside⟩
  exact keyed path' key value within

theorem keyedAtomic (atomic : s.Atomic) : s.Keyed := by
  intro path key value occurs
  obtain ⟨v, around, place, held⟩ := occursPlace rfl occurs []
  cases place with
  | here =>
    rw [atomic.bare] at held
    exact absurd (held ▸ .key) (atomic.partless .key key [])
  | part inside rest =>
    rw [atomic.bare] at inside
    exact absurd inside (atomic.partless _ _ _)

theorem keyedUnknown : Schema.unknown.Keyed := keyedAtomic (builtinAtomic .document)

theorem keyedRef (ref : SchemaRef) : (Schema.ref ref).Keyed := by
  intro path key value occurs
  cases occurs

theorem keyedArray {min max : Option Nat} {unique : Bool} (keyed : s.Keyed) :
    (Schema.array s min max unique).Keyed := by
  intro path key value occurs
  cases occurs with
  | item inside => exact keyed _ _ _ inside

theorem keyedUnion {members : List Schema} (keyed : ∀ s ∈ members, s.Keyed) : (Schema.union members).Keyed := by
  intro path key value occurs
  cases occurs with
  | alternative nth inside => exact keyed _ (List.mem_of_getElem? nth) _ _ _ inside

theorem keyedRecord {key value : Schema} (form : KeyForm key key.isEnumRef) (keys : key.Keyed)
    (values : value.Keyed) : (Schema.record key value).Keyed := by
  intro path key' value' occurs
  cases occurs with
  | here => exact form
  | key inside => exact keys _ _ _ inside
  | value inside => exact values _ _ _ inside

theorem textForm {notes : List String} (form : Forms (.scalar .string) s) :
    KeyForm (withNotes notes s) (withNotes notes s).isEnumRef := by
  have plain : (withNotes notes s).isEnumRef = false := by
    cases form
    cases notes <;> rfl
  rw [plain]
  exact .text form

theorem timestampReplaced (form : Forms (.scalar .timestamp) s) (notes : List String) (replacement : Schema) :
    (withNotes notes s).replaceMarked replacement = withNotes notes replacement := by
  rw [replaceWithNotes]
  cases form with
  | timestamp format => cases format <;> rfl

theorem timestampUnnoted (format : TimestampFormat) : (ofTimestampFormat format).notes = [] := by
  cases format <;> rfl

end Schema

theorem ShapeKind.standaloneKinds {kind : ShapeKind} :
    kind.isStandalone = true ↔ kind = .enum ∨ kind = .struct := by
  cases kind <;> simp [isStandalone]

/-- What a resolution says about the schema of a target that is used in a file. -/
structure Resolution.Tells (r : Resolution) (target : String) (source : FileKey) (options : ResolveOptions) :
    Prop where
  unresolved : r.resolved = false → r.schema = .unknown ∧ r.kind = none
  recursive : r.recursive = true → r.resolved = false
  kindless : r.resolved = true → r.kind = none → target = Builtin.unit.id
  declared : ∀ kind, r.kind = some kind → kind = .enum ∨ kind = .struct →
    ∃ ref : SchemaRef, ref.shapeId = target ∧ ref.kind = kind ∧
      r.schema = if options.lazyInFile = true ∧ ref.fileKey = source then .lazy (.ref ref) else .ref ref
  inlined : ∀ kind, r.kind = some kind → kind ≠ .enum → kind ≠ .struct →
    ∃ notes core, r.schema = .withNotes notes core ∧ core.Forms kind

namespace Scope

open Schema (Forms KeyForm)

variable {scope : Scope} {source : FileKey} {options : ResolveOptions} {stack : List String} {target : String}
  {r : Resolution}

inductive Answer (scope : Scope) (source : FileKey) (options : ResolveOptions) (stack : List String)
    (target : String) : Resolution → Prop where
  | recursive : Answer scope source options stack target (.placeholder true)
  | builtin {b} (known : Builtin.ofId? target = some b) : Answer scope source options stack target b.resolution
  | missing : Answer scope source options stack target (.placeholder false)
  | declared {symbol} (registered : scope.symbols.lookup? target = some symbol)
      (standalone : symbol.isStandalone = true) : Answer scope source options stack target
        (.found (refSchema target symbol source options.lazyInFile) (some symbol.kind))
  | inlined {symbol s} (registered : scope.symbols.lookup? target = some symbol)
      (apart : symbol.isStandalone = false) (fresh : target ∉ stack)
      (body : expand scope target source (stack ++ [target]) = .ok s) :
      Answer scope source options stack target (.found s (some symbol.kind))

theorem resolveAnswer (ok : resolveIn scope target source options stack = .ok r) :
    Answer scope source options stack target r := by
  rw [resolveIn] at ok
  by_cases visited : target ∈ options.current.toList ++ stack
  · rw [if_pos visited] at ok
    obtain rfl := pureOk.mp ok
    exact .recursive
  rw [if_neg visited] at ok
  cases known : Builtin.ofId? target with
  | some b =>
    rw [known] at ok
    obtain rfl := pureOk.mp ok
    exact .builtin known
  | none =>
    rw [known] at ok
    obtain ⟨parts, -, ok⟩ := bindOk.mp ok
    cases registered : scope.symbols.lookup? target with
    | none =>
      have absent : target ∉ scope.symbols.ids := Entries.lookupNone.mp registered
      rw [if_pos absent] at ok
      obtain rfl := pureOk.mp ok
      exact .missing
    | some symbol =>
      have here : ¬ target ∉ scope.symbols.ids := not_not_intro (Entries.lookupSome.mp ⟨symbol, registered⟩)
      rw [if_neg here] at ok
      simp only [SymbolTable.standalone?, SymbolTable.kind?, registered, Option.filter_some,
        Option.map_some] at ok
      cases standalone : symbol.isStandalone with
      | true =>
        simp only [standalone, if_true] at ok
        obtain rfl := pureOk.mp ok
        exact .declared registered standalone
      | false =>
        simp only [standalone, Bool.false_eq_true, if_false] at ok
        obtain ⟨s, body, ok⟩ := bindOk.mp ok
        obtain rfl := pureOk.mp ok
        exact .inlined registered standalone (fun mem => visited (List.mem_append_right _ mem)) body

theorem scalarForms (space : String) (traits : Traits) (kind : Scalar) :
    Forms (.scalar kind) (scope.scalarSchema space traits kind) := by
  cases kind with
  | timestamp =>
    simp only [scalarSchema]
    split
    · exact .timestamp _
    · split
      · exact .timestamp .dateTime
      · exact .timestamp .httpDate
  | _ => constructor

theorem builtinForms {b : Builtin} {kind : ShapeKind} (kinded : b.kind? = some kind) : Forms kind b.schema := by
  cases b with
  | unit => contradiction
  | timestamp =>
    obtain rfl := Option.some.inj kinded
    exact .timestamp .dateTime
  | _ =>
    obtain rfl := Option.some.inj kinded
    constructor

theorem expansionForms {resolves : String → Resolution → Prop} {id : String} {shape : Shape}
    {kind : ShapeKind} {s : Schema} (found : scope.model.shape? id = some shape)
    (kinded : shape.kind? = some kind) (inlined : shape.isExpanded = true)
    (expansion : scope.Expansion resolves id s) : ∃ notes core, s = .withNotes notes core ∧ Forms kind core := by
  cases expansion with
  | absent missing => cases found.symm.trans missing
  | other found' named apart =>
    cases found.symm.trans found'
    cases inlined.symm.trans apart
  | scalar found' named =>
    cases found.symm.trans found'
    obtain rfl := Option.some.inj kinded
    exact ⟨_, _, rfl, scalarForms _ _ _⟩
  | list found' | map found' | union _ found' =>
    cases found.symm.trans found'
    obtain rfl := Option.some.inj kinded
    exact ⟨_, _, rfl, by constructor⟩

theorem storedShape (sound : scope.symbols.Sound scope.model) {symbol : Symbol}
    (registered : scope.symbols.lookup? target = some symbol) : ∃ shape, scope.model.shape? target = some shape ∧
      shape.kind? = some symbol.kind ∧ symbol.kind.isSchemaBearing = true :=
  schemaKindSome.mp (symbolOfSome (sound target symbol registered)).1

theorem answerTells (sound : scope.symbols.Sound scope.model)
    (answer : Answer scope source options stack target r) : r.Tells target source options := by
  cases answer with
  | recursive | missing =>
    exact ⟨fun _ => ⟨rfl, rfl⟩, fun _ => rfl, nofun, nofun, nofun⟩
  | @builtin b known =>
    refine ⟨nofun, nofun, fun _ kindless => ?_, fun kind kinded standalone => ?_,
      fun kind kinded _ _ => ⟨[], b.schema, rfl, builtinForms kinded⟩⟩
    · rw [Builtin.ofIdSome known]
      cases b <;> first | rfl | contradiction
    · rcases standalone with rfl | rfl <;> cases b <;> contradiction
  | @declared symbol registered standalone =>
    refine ⟨nofun, nofun, nofun, fun kind kinded _ => ?_, fun kind kinded enumless structless => ?_⟩
    · obtain rfl := Option.some.inj kinded
      exact ⟨⟨target, symbol.schemaName, symbol.fileKey, symbol.kind⟩, rfl, rfl, rfl⟩
    · obtain rfl := Option.some.inj kinded
      exact ((ShapeKind.standaloneKinds.mp standalone).elim enumless structless).elim
  | @inlined symbol s registered apart fresh body =>
    refine ⟨nofun, nofun, nofun, fun kind kinded standalone => ?_, fun kind kinded _ _ => ?_⟩
    · obtain rfl := Option.some.inj kinded
      cases apart.symm.trans (ShapeKind.standaloneKinds.mpr standalone)
    · obtain rfl := Option.some.inj kinded
      obtain ⟨shape, found, shaped, bears⟩ := storedShape sound registered
      exact expansionForms found shaped (Shape.bearingExpanded shaped bears apart) (expandOk.mp body)

theorem tellsKey (tells : r.Tells target source options) {map key : String} {s : Schema}
    (fits : keySchema map key r = .ok s) : KeyForm s s.isEnumRef := by
  obtain ⟨-, kind, kinded, compatible⟩ := keySchemaOk.mp ⟨s, fits⟩
  obtain rfl := keySchemaOf fits
  cases kind with
  | enum =>
    obtain ⟨ref, -, enumerates, schema⟩ := tells.declared .enum kinded (.inl rfl)
    rw [schema]
    split
    · rw [Schema.isEnumRef, Schema.isEnumRef, enumerates]
      exact .deferred enumerates
    · rw [Schema.isEnumRef, enumerates]
      exact .enumeration enumerates
  | scalar scalar =>
    obtain rfl : scalar = .string := by
      cases scalar <;> first | rfl | contradiction
    obtain ⟨notes, core, schema, form⟩ := tells.inlined _ kinded nofun nofun
    rw [schema]
    exact Schema.textForm form
  | _ => contradiction

/-! Records, through any depth of expansion. -/

theorem answerKeyed (inner : ∀ s, target ∈ scope.symbols.ids → target ∉ stack →
      expand scope target source (stack ++ [target]) = .ok s → s.Keyed)
    (answer : Answer scope source options stack target r) : r.schema.Keyed := by
  cases answer with
  | recursive | missing => exact Schema.keyedUnknown
  | @builtin b known => exact Schema.keyedAtomic (Schema.builtinAtomic b)
  | @declared symbol registered standalone =>
    refine Schema.keyedBare ?_ (Schema.keyedRef ⟨target, symbol.schemaName, symbol.fileKey, symbol.kind⟩)
    simp only [Resolution.found, refSchema]
    split <;> rfl
  | inlined registered apart fresh body => exact inner _ (Entries.lookupSome.mp ⟨_, registered⟩) fresh body

theorem markedKeyed {role owner : String} (keyed : r.schema.Keyed) :
    (markUnresolved r role target owner).Keyed := by
  unfold markUnresolved
  split
  · exact keyed
  · exact Schema.keyedBare (t := r.schema) rfl keyed

theorem expandKeyed (sound : scope.symbols.Sound scope.model) {id : String} {s : Schema}
    (ok : expand scope id source stack = .ok s) : s.Keyed := by
  -- on the room that the stack leaves, as the expansion itself
  induction room : scope.room stack using Nat.strongRecOn generalizing id stack s with
  | ind n ih =>
    subst room
    have nested : ∀ {t r'}, resolveIn scope t source .deferred stack = .ok r' → r'.schema.Keyed := by
      intro t r' resolved
      refine answerKeyed (fun s registered fresh body => ?_) (resolveAnswer resolved)
      exact ih _ (roomPush registered fresh) body rfl
    cases expandOk.mp ok with
    | absent | other => exact Schema.keyedUnknown
    | scalar found named =>
      exact Schema.keyedBare (bareNotes _ _) (Schema.keyedAtomic (Schema.scalarAtomic _ _ _ _))
    | list found named item =>
      exact Schema.keyedBare (bareNotes _ _) (Schema.keyedArray (markedKeyed (nested item)))
    | map found named keys fits values =>
      refine Schema.keyedBare (bareNotes _ _) (Schema.keyedRecord ?_ ?_ (markedKeyed (nested values)))
      · exact tellsKey (answerTells sound (resolveAnswer keys)) fits
      · rw [keySchemaOf fits]
        exact nested keys
    | union rs found named alternatives =>
      refine Schema.keyedBare (bareNotes _ _) (Schema.keyedUnion fun s mem => ?_)
      obtain ⟨m, listed, rfl⟩ := List.mem_map.mp mem
      exact markedKeyed (nested (alternatives m listed))

theorem resolvedKeyed (sound : scope.symbols.Sound scope.model)
    (ok : resolveIn scope target source options stack = .ok r) : r.schema.Keyed :=
  answerKeyed (fun _ _ _ body => expandKeyed sound body) (resolveAnswer ok)

/-! Members of structures. -/

variable {owner name : String} {member : Member} {f : String × Schema × List String}

theorem memberKeyed (sound : scope.symbols.Sound scope.model)
    (made : Structure.field scope owner source name member = .ok f) : f.2.1.Keyed := by
  cases Structure.fieldMade made with
  | @found r s resolved closed formed =>
    have bare := Structure.blindMember Structure.bareBlind formed
    obtain ⟨format, -, -, target⟩ | ⟨-, target⟩ := Structure.targetCases r member.traits
    · rw [target, Structure.bareReplaced] at bare
      exact Schema.keyedBare bare (Schema.keyedAtomic (Schema.timestampAtomic format))
    · rw [target] at bare
      exact Schema.keyedBare bare (resolvedKeyed sound resolved)
  | lost =>
    exact Schema.keyedBare (Structure.blindOptional Structure.bareBlind _ _) Schema.keyedUnknown

theorem memberFormatted (tells : r.Tells member.target source .deferred)
    (resolved : scope.resolve member.target source .deferred = .ok r)
    (made : Structure.field scope owner source name member = .ok f) {format : TimestampFormat}
    (kinded : r.kind = some (.scalar .timestamp)) (given : member.traits.timestampFormat = some format) :
    ∃ notes core, r.schema = .withNotes notes core ∧ Forms (.scalar .timestamp) core ∧
      Structure.targetSchema r member.traits = .withNotes notes (.ofTimestampFormat format) ∧
      f.2.1.bare = .ofTimestampFormat format ∧ f.2.1.notes = notes := by
  obtain ⟨notes, core, schema, form⟩ := tells.inlined _ kinded nofun nofun
  have target : Structure.targetSchema r member.traits = .withNotes notes (.ofTimestampFormat format) := by
    simp only [Structure.targetSchema, kinded, given, schema]
    exact Schema.timestampReplaced form notes _
  refine ⟨notes, core, schema, form, target, ?_⟩
  cases Structure.fieldMade made with
  | found resolved' closed formed =>
    cases resolved.symm.trans resolved'
    rw [Structure.blindMember Structure.bareBlind formed, Structure.blindMember Schema.notesBlind formed, target,
      bareNotes, (Schema.timestampAtomic format).bare, Schema.notesAdded, Schema.timestampUnnoted, List.append_nil]
    exact ⟨rfl, rfl⟩
  | lost resolved' unresolved =>
    cases resolved.symm.trans resolved'
    cases (tells.unresolved unresolved).2.symm.trans kinded

theorem kindTellsForm (m : Model) (space : String) (settings : Settings) (source : FileKey) :
    let scope : Scope := ⟨m, ((SymbolTable.empty space).discover m).2, settings⟩
    (∀ target options stack r, scope.resolveIn target source options stack = .ok r →
      r.Tells target source options ∧ r.schema.Keyed) ∧
    (∀ id stack s, scope.expand id source stack = .ok s → s.Keyed) ∧
    ∀ owner name member r f, scope.resolve member.target source .deferred = .ok r →
      Structure.field scope owner source name member = .ok f →
        f.2.1.Keyed ∧ ∀ format, r.kind = some (.scalar .timestamp) →
          member.traits.timestampFormat = some format →
            ∃ notes core, r.schema = .withNotes notes core ∧ Forms (.scalar .timestamp) core ∧
              Structure.targetSchema r member.traits = .withNotes notes (.ofTimestampFormat format) ∧
              f.2.1.bare = .ofTimestampFormat format ∧ f.2.1.notes = notes := by
  intro scope
  have sound : scope.symbols.Sound scope.model :=
    (SymbolTable.callKeeps (t := .empty space) .discover SymbolTable.emptyFaithful).1.sound
  refine ⟨fun target options stack r ok => ⟨answerTells sound (resolveAnswer ok), resolvedKeyed sound ok⟩,
    fun id stack s ok => expandKeyed sound ok, fun owner name member r f resolved made => ?_⟩
  have tells : r.Tells member.target source .deferred := answerTells sound (resolveAnswer resolved)
  exact ⟨memberKeyed sound made, fun format kinded given => memberFormatted tells resolved made kinded given⟩

def opened : Member := ⟨"example#Day", { Traits.empty with timestampFormat := some .epochSeconds }⟩

def dayTraits : Traits :=
  { Traits.empty with timestampFormat := some .dateTime, extra := [("example#local", .object [])] }

def almanac : Model where
  version := "2.0"
  shapes := [
    ("example#Calendar", .struct [("opened", opened)] .empty),
    ("example#Day", .scalar .timestamp dayTraits),
    ("example#Days", .map ⟨"example#Season", .empty⟩ ⟨"example#Day", .empty⟩ .empty),
    ("example#Season", .enum [] .empty)]
  metadata := []
  distinct := by decide
  membersDistinct := by simp [Shape.memberNames]

def almanacScope : Scope := ⟨almanac, ((SymbolTable.empty "example").discover almanac).2, .standard⟩

def dayNote : String := Comment.unmappedNote "example#local" (.object []) "timestamp example#Day"

theorem dayResolves (source : FileKey) {stack : List String} (fresh : "example#Day" ∉ stack) :
    almanacScope.resolveIn "example#Day" source .deferred stack =
      .ok (.found (.marked dayNote .dateTime) (some (.scalar .timestamp))) := by
  have found : almanac.shape? "example#Day" = some (.scalar .timestamp dayTraits) := rfl
  have registered : almanacScope.symbols.lookup? "example#Day" =
      some ⟨"daySchema", "Day", .primary .schema, .scalar .timestamp⟩ := rfl
  have noted : (Shape.scalar .timestamp dayTraits).notes "example#Day" = [dayNote] := by decide +kernel
  have body : almanacScope.expand "example#Day" source (stack ++ ["example#Day"]) =
      .ok (.withNotes [dayNote] .dateTime) := by
    rw [expandOk, ← noted]
    exact .scalar found rfl
  exact resolveOk.mpr (.inlined fresh rfl rfl registered rfl body)

theorem daysExpand (source : FileKey) : ∃ key value,
    almanacScope.expand "example#Days" source ["example#Days"] = .ok (.withNotes [] (.record key value)) := by
  have found : almanac.shape? "example#Days" =
      some (.map ⟨"example#Season", .empty⟩ ⟨"example#Day", .empty⟩ .empty) := rfl
  have registered : almanacScope.symbols.lookup? "example#Season" =
      some ⟨"seasonSchema", "Season", .primary .enums, .enum⟩ := rfl
  have keys : almanacScope.resolveIn "example#Season" source .deferred ["example#Days"] = .ok _ :=
    resolveOk.mpr (.declared (by decide) rfl rfl registered rfl)
  have values : almanacScope.resolveIn "example#Day" source .deferred ["example#Days"] = .ok _ :=
    dayResolves source (by decide)
  have plain : (Shape.map ⟨"example#Season", .empty⟩ ⟨"example#Day", .empty⟩ .empty).notes "example#Days" = [] :=
    rfl
  simp only [expandOk, ← plain]
  exact ⟨_, _, .map found rfl keys rfl values⟩

theorem almanacTells :
    (∃ r key value, almanacScope.resolveIn "example#Days" (.primary .enums) .eager [] = .ok r ∧
      r.kind = some .map ∧ r.Tells "example#Days" (.primary .enums) .eager ∧ r.schema = .record key value ∧
        KeyForm key key.isEnumRef) ∧
    (∃ s, almanacScope.expand "example#Days" (.primary .enums) ["example#Days"] = .ok s ∧ s.Keyed) ∧
    ∃ r f, almanacScope.resolve "example#Day" (.primary .structures) .deferred = .ok r ∧
      r.schema = .marked dayNote .dateTime ∧ r.kind = some (.scalar .timestamp) ∧
        Structure.field almanacScope "Calendar" (.primary .structures) "opened" opened = .ok f ∧
          f.2.1.Keyed ∧ f.2.1.bare = .epochSeconds ∧ f.2.1.notes = [dayNote] := by
  obtain ⟨resolutions, expansions, -⟩ := kindTellsForm almanac "example" .standard (.primary .enums)
  obtain ⟨-, -, members⟩ := kindTellsForm almanac "example" .standard (.primary .structures)
  obtain ⟨key, value, body⟩ := daysExpand (.primary .enums)
  have resolved := dayResolves (.primary .structures) List.not_mem_nil
  refine ⟨?_, ⟨_, body, expansions _ _ _ body⟩, ?_⟩
  · have answer : almanacScope.resolveIn "example#Days" (.primary .enums) .eager [] =
        .ok (.found (.record key value) (some .map)) := by
      rw [resolveIn]
      exact bindOk.mpr ⟨_, rfl, bindOk.mpr ⟨_, body, rfl⟩⟩
    obtain ⟨tells, keyed⟩ := resolutions _ _ _ _ answer
    exact ⟨_, key, value, answer, rfl, tells, rfl, keyed _ _ _ .here⟩
  · obtain ⟨f, made⟩ : ∃ f,
        Structure.field almanacScope "Calendar" (.primary .structures) "opened" opened = .ok f :=
      ⟨_, bindOk.mpr ⟨_, resolved, rfl⟩⟩
    obtain ⟨keyed, formatted⟩ := members "Calendar" "opened" opened _ f resolved made
    obtain ⟨notes, core, schema, form, -, bare, noted⟩ := formatted .epochSeconds rfl rfl
    have held : [dayNote] = notes := by
      have read := congrArg Schema.notes schema
      cases form with
      | timestamp format => rwa [Schema.notesAdded, Schema.timestampUnnoted, List.append_nil] at read
    exact ⟨_, f, resolved, rfl, rfl, made, keyed, bare, noted.trans held.symm⟩

end Scope
end ShapeContracts
