import ShapeContracts.Proofs.IssuePaths
import ShapeContracts.Proofs.Links

/-! Defaults of members: the value that stands for an absent member against the validator that the member
has, and the code that carries it. A default is read for the kind of the target; a validator also comes
from the format of timestamps, which no default is read for. -/
namespace ShapeContracts

namespace Outcome

def issues : Outcome α → List Issue
  | invalid issues => issues
  | _ => []

def Misfits (o : Outcome α) : Prop := ∃ i ∈ o.issues, i.path = [] ∧ i.code = .invalidType

variable {o : Outcome α}

theorem misfitsMap {f : α → β} : (o.map f).Misfits ↔ o.Misfits := by
  cases o <;> exact Iff.rfl

theorem validFits {a : α} : ¬ (valid a).Misfits := by
  rintro ⟨i, mem, -⟩
  contradiction

theorem finishFits {issues : List Issue} {a : α} (plain : ∀ i ∈ issues, i.Plain) :
    ¬ (finish issues a).Misfits := by
  unfold finish
  split
  · exact validFits
  · rintro ⟨i, mem, -, misfit⟩
    exact (plain i mem).typed misfit

theorem issueMisfits {code : IssueCode} {message : String} :
    (issue code message : Outcome α).Misfits ↔ code = .invalidType := by
  constructor
  · rintro ⟨i, mem, -, misfit⟩
    obtain rfl := List.mem_singleton.mp mem
    exact misfit
  · rintro rfl
    exact ⟨_, List.mem_singleton_self _, rfl, rfl⟩

theorem bindMisfits {f : α → Outcome β} (fits : ∀ a, ¬ (f a).Misfits) : (o.bind f).Misfits ↔ o.Misfits := by
  cases o with
  | valid a => exact iff_of_false (fits a) validFits
  | _ => exact Iff.rfl

end Outcome

namespace Schema

variable {schemas : Schemas} {s : Schema} {value : Option Json} {followed : List String}

theorem boundedMisfits (checks : List Check) :
    (evaluate schemas (checks.foldl .refine s) value followed).Misfits ↔
      (evaluate schemas s value followed).Misfits := by
  induction checks generalizing s with
  | nil => exact Iff.rfl
  | cons check rest ih =>
    rw [List.foldl_cons, ih, evaluate]
    refine Outcome.bindMisfits (fun parsed => Outcome.finishFits (fun i mem => ?_))
    obtain ⟨j, -, mem⟩ := Option.bind_eq_some_iff.mp (Option.mem_toList.mp mem)
    exact Issue.plainCheck i mem

theorem textFits {min max : Option Nat} {pattern : Option String} {text : String} :
    ¬ (evaluate schemas (.string min max pattern) (some (.string text)) followed).Misfits := by
  rw [evaluate.eq_def]
  exact fun misfits => Outcome.finishFits Issue.plainText (Outcome.misfitsMap.mp misfits)

theorem bytesAccepted (schemas : Schemas) (bytes : List UInt8) (followed : List String) :
    evaluate schemas .bytes (some (DefaultValue.bytes bytes).toJson) followed =
      .valid (some (DefaultValue.bytes bytes).toJson) := by
  have each : (bytes.map (fun b => Json.ofNat b.toNat)).all Json.isByte = true := by
    rw [List.all_eq_true]
    intro j mem
    obtain ⟨b, -, rfl⟩ := List.mem_map.mp mem
    exact decide_eq_true b.toNat_lt
  rw [evaluate.eq_def]
  simp only [DefaultValue.toJson, evaluateSimple, each]
  rfl

theorem bytesFit {bytes : List UInt8} :
    ¬ (evaluate schemas .bytes (some (DefaultValue.bytes bytes).toJson) followed).Misfits := by
  rw [bytesAccepted]
  exact Outcome.validFits

theorem timestampMisfits (format : TimestampFormat) {text : String} :
    (evaluate schemas (.ofTimestampFormat format) (some (.string text)) followed).Misfits ↔
      format = .epochSeconds := by
  cases format with
  | dateTime =>
    rw [ofTimestampFormat, evaluate.eq_def]
    simp only [evaluateSimple, Outcome.misfitsMap]
    split
    · exact iff_of_false Outcome.validFits (by decide)
    · rw [Outcome.issueMisfits]
      decide
  | httpDate =>
    rw [ofTimestampFormat, evaluate.eq_def]
    simp only [evaluateSimple, Outcome.misfitsMap]
    split
    · exact iff_of_false Outcome.validFits (by decide)
    · rw [Outcome.issueMisfits]
      decide
  | epochSeconds =>
    rw [ofTimestampFormat, evaluate.eq_def]
    exact iff_of_true (Outcome.misfitsMap.mpr (Outcome.issueMisfits.mpr rfl)) rfl

theorem scalarMisfits {scope : Scope} {space : String} {traits : Traits} {kind : Scalar}
    {format : TimestampFormat} (formatted : kind = .timestamp →
      scope.scalarSchema space traits .timestamp = .ofTimestampFormat format) {j : Json}
    (fits : fitsDefault (some (.scalar kind)) j = true) :
    (evaluate schemas (scope.scalarSchema space traits kind)
      (some (Interpretation.filled (some (.scalar kind)) j)) followed).Misfits ↔
        kind = .timestamp ∧ format = .epochSeconds := by
  have other (apart : kind ≠ .timestamp) (typed : ¬ (evaluate schemas (scope.scalarSchema space traits kind)
      (some (Interpretation.filled (some (.scalar kind)) j)) followed).Misfits) :
      (evaluate schemas (scope.scalarSchema space traits kind)
        (some (Interpretation.filled (some (.scalar kind)) j)) followed).Misfits ↔
          kind = .timestamp ∧ format = .epochSeconds :=
    iff_of_false typed (fun both => apart both.1)
  cases kind with
  | timestamp =>
    cases j with
    | string text =>
      rw [formatted rfl]
      exact (timestampMisfits format).trans (iff_and_self.mpr (fun _ => rfl))
    | _ => contradiction
  | string =>
    cases j with
    | string text => exact other (by decide) textFits
    | _ => contradiction
  | blob =>
    cases j with
    | string text => exact other (by decide) bytesFit
    | _ => contradiction
  | boolean =>
    cases j with
    | bool b =>
      refine other (by decide) ?_
      rw [Scope.scalarSchema, evaluate.eq_def]
      exact Outcome.validFits
    | _ => contradiction
  | document =>
    refine other (by decide) ?_
    rw [Scope.scalarSchema, evaluate.eq_def]
    exact Outcome.validFits
  | integer | long => contradiction

theorem builtinFits (scope : Scope) {b : Builtin} {j : Json} (fits : fitsDefault b.kind? j = true) :
    ¬ (evaluate schemas b.schema (some (Interpretation.filled b.kind? j)) followed).Misfits := by
  have plain (kind : Scalar) (fits : fitsDefault (some (.scalar kind)) j = true) :
      ¬ (evaluate schemas (scope.scalarSchema "" { Traits.empty with timestampFormat := some .dateTime } kind)
        (some (Interpretation.filled (some (.scalar kind)) j)) followed).Misfits := by
    intro misfits
    have formatted : kind = .timestamp → scope.scalarSchema "" { Traits.empty with
        timestampFormat := some .dateTime } .timestamp = .ofTimestampFormat .dateTime := fun _ => rfl
    cases ((scalarMisfits formatted fits).mp misfits).2
  cases b with
  | string => exact plain .string fits
  | boolean => exact plain .boolean fits
  | integer => exact plain .integer fits
  | long => exact plain .long fits
  | blob => exact plain .blob fits
  | timestamp => exact plain .timestamp fits
  | document => exact plain .document fits
  | unit => contradiction

theorem enumFits {typeName text : String} {members : List (String × Member)} :
    ¬ (evaluate schemas (Enum.schema typeName members) (some (.string text)) followed).Misfits := by
  rw [Enum.schema, evaluate.eq_def]
  simp only [evaluateSimple, Outcome.misfitsMap]
  split
  · exact Outcome.validFits
  · rw [Outcome.issueMisfits]
    decide

end Schema

namespace Job

variable (job : Job)

def formatAt (target : String) : TimestampFormat :=
  match Builtin.ofId? target, job.model.shape? target with
  | none, some (.scalar _ traits) => Interpretation.formatOf job target traits
  | _, _ => .dateTime

def memberFormat (member : Member) : TimestampFormat :=
  member.traits.timestampFormat.getD (job.formatAt member.target)

end Job

namespace Contracts

variable {c : Contracts} {source : FileKey}

theorem declaredFits {id : String} {shape : Shape} {t : Schema} {j : Json} {followed : List String}
    (declares : c.scope.Declares id shape t) (standalone : shape.isExpanded = false)
    (fits : fitsDefault shape.kind? j = true) :
    ¬ (Schema.evaluate c.schemas t (some (Interpretation.filled shape.kind? j)) followed).Misfits := by
  cases declares with
  | enum =>
    cases j with
    | string text => exact Schema.enumFits
    | _ => contradiction
  | struct => contradiction
  | expanded inlined => cases inlined.symm.trans standalone

theorem expansionMisfits {resolves : String → Resolution → Prop} {id : String} {shape : Shape}
    {s : Schema} {j : Json} (foreign : Builtin.ofId? id = none) (found : c.job.model.shape? id = some shape)
    (inline : shape.isExpanded = true) (expansion : c.scope.Expansion resolves id s)
    (fits : fitsDefault shape.kind? j = true) :
    (Schema.evaluate c.schemas s (some (Interpretation.filled shape.kind? j)) []).Misfits ↔
      shape.kind? = some (.scalar .timestamp) ∧ c.job.formatAt id = .epochSeconds := by
  cases expansion with
  | absent missing => cases found.symm.trans missing
  | other here _ plain =>
    cases found.symm.trans here
    cases inline.symm.trans plain
  | @scalar kind traits parts here named =>
    cases found.symm.trans here
    have format : c.job.formatAt id = Interpretation.formatOf c.job id traits := by
      rw [Job.formatAt, foreign, found]
    rw [Schema.evaluateNotes, format]
    refine (Schema.scalarMisfits (fun _ => formattedSchema named) fits).trans (and_congr_left' ?_)
    simp [Shape.kind?]
  | list here | map here | union _ here =>
    cases found.symm.trans here
    contradiction

theorem resolvedMisfits (done : ofModel c.job = .ok c) {target : String} {stack : List String}
    {res : Resolution} (ok : c.scope.resolveIn target source .deferred stack = .ok res) {j : Json}
    (fits : fitsDefault res.kind j = true) :
    (Schema.evaluate c.schemas res.schema (some (Interpretation.filled res.kind j)) []).Misfits ↔
      res.kind = some (.scalar .timestamp) ∧ c.job.formatAt target = .epochSeconds := by
  obtain ⟨-, discovered, -⟩ := finishedTrace done
  have reference := Scope.resolveOk.mp ok
  cases reference with
  | recursive | missing => contradiction
  | @builtin b fresh known =>
    refine iff_of_false (Schema.builtinFits c.scope fits) ?_
    rw [Job.formatAt, known]
    exact fun both => by cases both.2
  | @declared symbol parts fresh foreign named registered standalone =>
    obtain ⟨t, shape, there, -, kinded, declares⟩ :=
      finishedKind done (Scope.registeredKind discovered registered).1
    rw [Resolution.found, ← kinded] at fits ⊢
    rw [evaluateRef there]
    refine iff_of_false (declaredFits declares (Shape.standaloneWhole kinded standalone) fits) ?_
    rintro ⟨timestamp, -⟩
    rw [Symbol.isStandalone, Option.some.inj (kinded.symm.trans timestamp)] at standalone
    contradiction
  | @inlined symbol parts s fresh foreign named registered apart body =>
    obtain ⟨shape, found, kinded, inline⟩ := Scope.inlinedShape discovered registered apart
    rw [Resolution.found, ← kinded] at fits ⊢
    exact expansionMisfits foreign found inline (Scope.expandOk.mp body) fits

theorem targetMisfits (done : ofModel c.job = .ok c) {member : Member} {res : Resolution}
    (ok : c.scope.resolveIn member.target source .deferred [] = .ok res) {j : Json}
    (fits : fitsDefault res.kind j = true) :
    (Schema.evaluate c.schemas (Structure.targetSchema res member.traits)
      (some (Interpretation.filled res.kind j)) []).Misfits ↔
        res.kind = some (.scalar .timestamp) ∧ c.job.memberFormat member = .epochSeconds := by
  obtain ⟨format, kinded, given, same⟩ | ⟨plain, same⟩ := Structure.targetCases res member.traits
  · rw [kinded] at fits
    rw [same, Schema.evaluateReplaced, Job.memberFormat, given, kinded, Option.getD_some]
    cases j with
    | string text => exact (Schema.timestampMisfits format).trans (iff_and_self.mpr (fun _ => rfl))
    | _ => contradiction
  · rw [same, resolvedMisfits done ok fits]
    refine and_congr_right (fun timestamp => ?_)
    rw [Job.memberFormat, plain timestamp, Option.getD_none]

theorem defaultMade (done : ofModel c.job = .ok c) {owner name : String} {member : Member}
    {f : String × Schema × List String} (made : Structure.field c.scope owner source name member = .ok f)
    {value : Json} (given : member.traits.defaultValue = some value) {kind : Option ShapeKind}
    (resolves : c.job.model.targetKind? member.target = some kind) :
    ∃ res d location, c.scope.resolveIn member.target source .deferred [] = .ok res ∧ res.kind = kind ∧
      Structure.defaultValue value kind location = .ok d ∧
      f.2.1 = .withDefault (Structure.constrain (Structure.targetSchema res member.traits) member.traits) d := by
  obtain ⟨-, discovered, -⟩ := finishedTrace done
  have field := Structure.fieldMade made
  cases field with
  | @found res s resolved closed formed =>
    obtain ⟨-, targeted⟩ := Scope.resolvedFresh discovered List.not_mem_nil resolved
    rw [if_pos closed] at targeted
    obtain rfl : kind = res.kind := Option.some.inj (resolves.symm.trans targeted)
    unfold Structure.memberSchema at formed
    rw [given] at formed
    obtain ⟨d, read, formed⟩ := bindOk.mp formed
    exact ⟨res, d, _, resolved, rfl, read, (pureOk.mp formed).symm⟩
  | lost resolved unresolved =>
    obtain ⟨-, targeted⟩ := Scope.resolvedFresh discovered List.not_mem_nil resolved
    rw [unresolved] at targeted
    cases resolves.symm.trans targeted

theorem lostMade (done : ofModel c.job = .ok c) {owner name : String} {member : Member}
    {f : String × Schema × List String} (made : Structure.field c.scope owner source name member = .ok f)
    (lost : c.job.model.targetKind? member.target = none) :
    f.2.1 = Structure.optionalUnlessRequired member.traits .unknown := by
  obtain ⟨-, discovered, -⟩ := finishedTrace done
  have field := Structure.fieldMade made
  cases field with
  | found resolved closed =>
    obtain ⟨-, targeted⟩ := Scope.resolvedFresh discovered List.not_mem_nil resolved
    rw [if_pos closed] at targeted
    cases lost.symm.trans targeted
  | lost => rfl

theorem memberMisfits (done : ofModel c.job = .ok c) {owner name : String} {member : Member}
    {f : String × Schema × List String} (made : Structure.field c.scope owner source name member = .ok f)
    {value : Json} (given : member.traits.defaultValue = some value) {kind : Option ShapeKind}
    (resolves : c.job.model.targetKind? member.target = some kind) :
    Schema.evaluate c.schemas f.2.1 none [] = .valid (some (Interpretation.filled kind value)) ∧
      ((Schema.evaluate c.schemas f.2.1 (some (Interpretation.filled kind value)) []).Misfits ↔
        kind = some (.scalar .timestamp) ∧ c.job.memberFormat member = .epochSeconds) := by
  obtain ⟨res, d, location, resolved, rfl, read, formed⟩ := defaultMade done made given resolves
  have fits := (Structure.defaultValueOk location).mp ⟨d, read⟩
  rw [formed]
  refine ⟨?_, ?_⟩
  · rw [Schema.evaluate, Structure.defaultFilled read]
  · rw [Schema.evaluate, Structure.constrain, Schema.constrainPresent, Schema.boundedMisfits]
    exact targetMisfits done resolved fits

theorem memberField {job : Job} (done : ofModel job = .ok c) {id : String} {members : List (String × Member)}
    {traits : Traits} (found : job.model.shape? id = some (.struct members traits)) {name : String}
    {member : Member} (listed : (name, member) ∈ members) :
    ∃ source fields s comments, c.schema? id = some (.object fields) ∧ (fields.map Prod.fst).Nodup ∧
      fields.lookup name = some (s, comments) ∧
      Structure.field c.scope (ShapeId.localName id) source name member = .ok (name, s, comments) := by
  obtain ⟨symbol, fields, ⟨label, s, comments⟩, -, recorded, each, there, made⟩ :=
    memberMade done found listed
  obtain rfl : label = name := by
    have field := Structure.fieldMade made
    cases field <;> rfl
  have distinct : (fields.map Prod.fst).Nodup := by
    rw [Structure.fieldNames each]
    exact job.model.membersDistinct _ (Entries.memOfLookup found)
  exact ⟨symbol.fileKey, fields, s, comments, recorded, distinct, Entries.lookupOfMem distinct there, made⟩

theorem defaultsTyped {job : Job} (done : ofModel job = .ok c) {id : String}
    {members : List (String × Member)} {traits : Traits}
    (found : job.model.shape? id = some (.struct members traits)) {name : String} {member : Member}
    (listed : (name, member) ∈ members) {value : Json} (given : member.traits.defaultValue = some value)
    {kind : Option ShapeKind} (resolves : job.model.targetKind? member.target = some kind) :
    ∃ fields s comments, c.schema? id = some (.object fields) ∧
      fields.lookup name = some (s, comments) ∧
      Schema.evaluate c.schemas s none [] = .valid (some (Interpretation.filled kind value)) ∧
      ((Schema.evaluate c.schemas s (some (Interpretation.filled kind value)) []).Misfits ↔
        kind = some (.scalar .timestamp) ∧ job.memberFormat member = .epochSeconds) := by
  obtain ⟨rfl, -⟩ := finishedTrace done
  obtain ⟨source, fields, s, comments, recorded, -, there, made⟩ := memberField done found listed
  exact ⟨fields, s, comments, recorded, there, memberMisfits done made given resolves⟩

def Ledger.opened : Member where
  target := Builtin.timestamp.id
  traits := { Traits.empty with
    defaultValue := some (.string "1985-04-12T23:20:50Z"), timestampFormat := some .epochSeconds }

def Ledger.closed : Member where
  target := Builtin.timestamp.id
  traits := { Traits.empty with defaultValue := some (.string "1985-04-12T23:20:50Z") }

def Ledger.keeper : Member where
  target := "example#Keeper"
  traits := { Traits.empty with defaultValue := some (.string "nobody") }

def Ledger.members : List (String × Member) :=
  [("opened", Ledger.opened), ("closed", Ledger.closed), ("keeper", Ledger.keeper)]

def ledger : Model where
  version := "2.0"
  shapes := [("example#Ledger", .struct Ledger.members .empty)]
  metadata := []
  distinct := by decide
  membersDistinct := by simp [Shape.memberNames, Ledger.members]

theorem ledgerCompletes : ∃ c, ofModel ⟨ledger, .standard⟩ = .ok c :=
  completes (fun b => by cases b <;> rfl) (by decide)

theorem ledgerShape : ledger.shape? "example#Ledger" = some (.struct Ledger.members .empty) := rfl

theorem closedTyped : ∃ c fields s comments, ofModel ⟨ledger, .standard⟩ = .ok c ∧
    c.schema? "example#Ledger" = some (.object fields) ∧ fields.lookup "closed" = some (s, comments) ∧
    Schema.evaluate c.schemas s none [] = .valid (some (.string "1985-04-12T23:20:50Z")) ∧
    ¬ (Schema.evaluate c.schemas s (some (.string "1985-04-12T23:20:50Z")) []).Misfits := by
  obtain ⟨c, done⟩ := ledgerCompletes
  have listed : ("closed", Ledger.closed) ∈ Ledger.members := .tail _ (.head _)
  have resolves : ledger.targetKind? Ledger.closed.target = some (some (.scalar .timestamp)) := rfl
  have dated : Job.memberFormat ⟨ledger, .standard⟩ Ledger.closed = .dateTime := rfl
  obtain ⟨fields, s, comments, recorded, there, filled, typed⟩ :=
    defaultsTyped done ledgerShape listed rfl resolves
  refine ⟨c, fields, s, comments, done, recorded, there, filled, fun misfits => ?_⟩
  cases dated.symm.trans (typed.mp misfits).2

theorem openedMisfits : ∃ c fields s comments, ofModel ⟨ledger, .standard⟩ = .ok c ∧
    c.schema? "example#Ledger" = some (.object fields) ∧ fields.lookup "opened" = some (s, comments) ∧
    Schema.evaluate c.schemas s none [] = .valid (some (.string "1985-04-12T23:20:50Z")) ∧
    (Schema.evaluate c.schemas s (some (.string "1985-04-12T23:20:50Z")) []).Misfits := by
  obtain ⟨c, done⟩ := ledgerCompletes
  obtain ⟨same, -⟩ := finishedTrace done
  have listed : ("opened", Ledger.opened) ∈ Ledger.members := .head _
  obtain ⟨source, fields, s, comments, recorded, -, there, made⟩ := memberField done ledgerShape listed
  have resolves : c.job.model.targetKind? Ledger.opened.target = some (some (.scalar .timestamp)) := by
    rw [same]
    rfl
  have seconds : c.job.memberFormat Ledger.opened = .epochSeconds := by
    rw [same]
    rfl
  have done' : ofModel c.job = .ok c := by rw [same]; exact done
  obtain ⟨filled, typed⟩ := memberMisfits done' made rfl resolves
  exact ⟨c, fields, s, comments, done, recorded, there, filled, typed.mpr ⟨rfl, seconds⟩⟩

theorem fieldWritten (done : ofModel c.job = .ok c) {id : String} {members : List (String × Member)}
    {traits : Traits} (found : c.job.model.shape? id = some (.struct members traits))
    {fields : List (String × Schema × List String)} (recorded : c.schema? id = some (.object fields)) {name : String}
    {s : Schema} {comments : List String} (there : fields.lookup name = some (s, comments)) :
    ∃ file lines const properties, c.job.fileOf id = .ok file ∧
      Fragment.exportConst lines const ((Schema.object fields).lower file c.job.settings.codeModules) ∈
        c.run.codeOf file ∧
      (Schema.object fields).lower file c.job.settings.codeModules =
        Fragment.method (.imported "z" c.job.settings.codeModules.validators) "object" [.object properties] ∧
      properties.lookup name = some (s.lower file c.job.settings.codeModules, comments) := by
  obtain ⟨file, routed⟩ := bearingRouted done (schemaKindSome.mpr ⟨_, found, rfl, rfl⟩)
  obtain ⟨const, written⟩ := structWritten done found routed recorded
  refine ⟨file, _, const, _, routed, written, rfl, ?_⟩
  rw [Schema.lowerFieldsMap]
  exact (Entries.lookupMap (fun f => (f.1.lower file c.job.settings.codeModules, f.2)) fields name).trans
    (by rw [there])

/-- A default is written with the member whenever the target has a kind, and the unit ends the run; but for
a target that bears no schema the member accepts anything, and the default is lost. -/
theorem defaultsWritten {job : Job} {id : String} {members : List (String × Member)} {traits : Traits}
    (found : job.model.shape? id = some (.struct members traits)) {name : String} {member : Member}
    (listed : (name, member) ∈ members) {value : Json} (given : member.traits.defaultValue = some value) :
    (member.target = Builtin.unit.id → ∃ e, ofModel job = .error e) ∧
      ∀ c, ofModel job = .ok c → ∃ file schema lines const properties code comments,
        job.fileOf id = .ok file ∧ c.schema? id = some schema ∧
        Fragment.exportConst lines const (schema.lower file job.settings.codeModules) ∈ c.run.codeOf file ∧
        schema.lower file job.settings.codeModules =
          Fragment.method (.imported "z" job.settings.codeModules.validators) "object" [.object properties] ∧
        properties.lookup name = some (code, comments) ∧
        match job.model.targetKind? member.target with
        | some kind => ∃ inner d, code = Fragment.method inner "default" [DefaultValue.code d] ∧
            d.toJson = Interpretation.filled kind value
        | none => code =
            (Structure.optionalUnlessRequired member.traits .unknown).lower file job.settings.codeModules := by
  refine ⟨fun unit => ?_, fun c done => ?_⟩
  · cases done : ofModel job with
    | error e => exact ⟨e, rfl⟩
    | ok c =>
      obtain ⟨rfl, -⟩ := finishedTrace done
      obtain ⟨source, fields, s, comments, -, -, -, made⟩ := memberField done found listed
      have resolves : c.job.model.targetKind? member.target = some none := by
        rw [unit]
        rfl
      obtain ⟨res, d, location, -, -, read, -⟩ := defaultMade done made given resolves
      contradiction
  · obtain ⟨rfl, -⟩ := finishedTrace done
    obtain ⟨source, fields, s, comments, recorded, -, there, made⟩ := memberField done found listed
    obtain ⟨file, lines, const, properties, routed, written, lowered, code⟩ := fieldWritten done found recorded there
    refine ⟨file, _, lines, const, properties, _, comments, routed, recorded, written, lowered, code, ?_⟩
    cases resolves : c.job.model.targetKind? member.target with
    | some kind =>
      obtain ⟨res, d, location, -, -, read, rfl⟩ := defaultMade done made given resolves
      exact ⟨_, d, rfl, Structure.defaultFilled read⟩
    | none =>
      obtain rfl := lostMade done made resolves
      rfl

theorem closedWritten : ∃ c file schema lines const properties inner d comments,
    ofModel ⟨ledger, .standard⟩ = .ok c ∧ c.schema? "example#Ledger" = some schema ∧
    Fragment.exportConst lines const (schema.lower file Settings.standard.codeModules) ∈ c.run.codeOf file ∧
    schema.lower file Settings.standard.codeModules = Fragment.method
      (.imported "z" Settings.standard.codeModules.validators) "object" [.object properties] ∧
    properties.lookup "closed" = some (Fragment.method inner "default" [DefaultValue.code d], comments) := by
  obtain ⟨c, done⟩ := ledgerCompletes
  have listed : ("closed", Ledger.closed) ∈ Ledger.members := .tail _ (.head _)
  have found : (Job.mk ledger .standard).model.shape? "example#Ledger" =
      some (.struct Ledger.members .empty) := ledgerShape
  obtain ⟨file, schema, lines, const, properties, code, comments, -, recorded, written, lowered, there, rest⟩ :=
    (defaultsWritten found listed rfl).2 c done
  obtain ⟨inner, d, rfl, -⟩ := rest
  exact ⟨c, file, schema, lines, const, properties, inner, d, comments, done, recorded, written, lowered, there⟩

theorem keeperLost : ∃ c fields comments, ofModel ⟨ledger, .standard⟩ = .ok c ∧
    Ledger.keeper.traits.defaultValue = some (.string "nobody") ∧
    ledger.targetKind? Ledger.keeper.target = none ∧
    c.schema? "example#Ledger" = some (.object fields) ∧
    fields.lookup "keeper" = some (.optional .unknown, comments) := by
  obtain ⟨c, done⟩ := ledgerCompletes
  obtain ⟨same, -⟩ := finishedTrace done
  have listed : ("keeper", Ledger.keeper) ∈ Ledger.members := .tail _ (.tail _ (.head _))
  obtain ⟨source, fields, s, comments, recorded, -, there, made⟩ := memberField done ledgerShape listed
  have lost : c.job.model.targetKind? Ledger.keeper.target = none := by
    rw [same]
    rfl
  have done' : ofModel c.job = .ok c := by rw [same]; exact done
  obtain rfl : s = .optional .unknown := lostMade done' made lost
  exact ⟨c, fields, comments, done, rfl, rfl, recorded, there⟩

end Contracts
end ShapeContracts
