import ShapeContracts.Proofs.Agreement
import ShapeContracts.Proofs.Termination

/-! Validation is interpretation. Schemas of references are followed together with the targets that they
stand for: by induction on the size of the value, and for one size on the resolution of the target. -/
namespace ShapeContracts

open Interpretation (interpret interpretMember interpretMembers)

namespace Structure

theorem defaultFilled {value : Json} {kind : Option ShapeKind} {location : String} {d : DefaultValue}
    (made : defaultValue value kind location = .ok d) : d.toJson = Interpretation.filled kind value := by
  cases kind with
  | none => contradiction
  | some kind =>
    cases kind with
    | scalar s =>
      cases s with
      | blob =>
        cases value with
        | string text =>
          cases decoded : Base64.decode? text.toList with
          | none => simp [defaultValue, decoded] at made
          | some bytes =>
            simp only [defaultValue, decoded, pureOk] at made
            subst made
            simp [DefaultValue.toJson, Interpretation.filled, decoded]
        | _ => contradiction
      | _ =>
        cases value <;> simp [defaultValue] at made <;>
          first
            | contradiction
            | (subst made
               rfl)
    | _ =>
      cases value <;> simp [defaultValue] at made <;>
        (subst made
         rfl)

end Structure

namespace Schema

variable {schemas : Schemas} {job : Job} {j : Json}

theorem constrainPresent {traits : Traits} {s : Schema} {followed : List String} :
    evaluate schemas (Structure.optionalUnlessRequired traits s) (some j) followed =
      evaluate schemas s (some j) followed := by
  unfold Structure.optionalUnlessRequired
  split
  · rfl
  · rw [evaluate]

theorem targetAgrees (traits : Traits) {res : Resolution} {read : Option Json}
    (there : (evaluate schemas res.schema (some j) []).Agrees (read.map some)) :
    (evaluate schemas (Structure.targetSchema res traits) (some j) []).Agrees
      ((Interpretation.formatted res.kind traits.timestampFormat j read).map some) := by
  obtain ⟨format, kinded, given, same⟩ | ⟨plain, same⟩ := Structure.targetCases res traits
  · rw [same, kinded, given, evaluateReplaced]
    exact timestampAgrees format
  · rw [same, Interpretation.formattedPlain plain]
    exact there

theorem boundedAgrees (traits : Traits) {s : Schema} {value : Option Json} {read : Option Json}
    (there : (evaluate schemas s value []).Agrees (read.map some)) :
    (evaluate schemas ((Structure.checks traits).foldl .refine s) value []).Agrees
      ((read.filter traits.fits).map some) := by
  have refined := refinedAgrees (Structure.checks traits) there
  cases read with
  | none => exact refined
  | some j =>
    simp only [Option.map_some, Option.filter_some, Option.bind_some, Traits.checksFit] at refined ⊢
    cases within : traits.fits j <;>
      · rw [within] at refined
        exact refined

theorem boundedAbsent (traits : Traits) {s : Schema} {open? : Prop} [Decidable open?]
    (missing : (evaluate schemas s none []).Agrees (if open? then some none else none)) :
    (evaluate schemas ((Structure.checks traits).foldl .refine s) none []).Agrees
      (if open? then some none else none) := by
  have refined := refinedAgrees (Structure.checks traits) missing
  have unbounded : (Structure.checks traits).all
      (fun check => ((none : Option Json).bind check.issue?).isNone) = true := by simp
  by_cases free : open?
  · rw [if_pos free, Option.filter_some, if_pos unbounded] at refined
    rw [if_pos free]
    exact refined
  · rw [if_neg free] at refined ⊢
    exact refined

theorem memberPresent {member : Member} {res : Resolution} {s : Schema} {location : String}
    (targeted : job.model.targetKind? member.target = some res.kind)
    (made : Structure.memberSchema res member.traits location = .ok s)
    (there : (evaluate schemas res.schema (some j) []).Agrees
      ((interpret job [] member.target j).map some)) :
    (evaluate schemas s (some j) []).Agrees (interpretMember job member (some j)) := by
  have bounded := boundedAgrees member.traits (targetAgrees member.traits there)
  rw [interpretMember, Interpretation.present, targeted]
  unfold Structure.memberSchema at made
  cases given : member.traits.defaultValue with
  | some fallback =>
    rw [given] at made
    obtain ⟨d, -, made⟩ := bindOk.mp made
    obtain rfl := pureOk.mp made
    rw [evaluate, Structure.constrain, constrainPresent]
    exact bounded
  | none =>
    rw [given] at made
    obtain rfl := pureOk.mp made
    rw [Structure.constrain, constrainPresent]
    exact bounded

theorem memberAbsent {member : Member} {res : Resolution} {s : Schema} {location : String}
    (targeted : job.model.targetKind? member.target = some res.kind)
    (made : Structure.memberSchema res member.traits location = .ok s)
    (missing : (evaluate schemas (Structure.targetSchema res member.traits) none []).Agrees
      (if res.kind = none ∨ res.kind = some (.scalar .document) then some none else none)) :
    (evaluate schemas s none []).Agrees (interpretMember job member none) := by
  have bounded := boundedAbsent member.traits missing
  rw [interpretMember, Interpretation.absent, targeted]
  unfold Structure.memberSchema at made
  cases given : member.traits.defaultValue with
  | some fallback =>
    rw [given] at made
    obtain ⟨d, filled, made⟩ := bindOk.mp made
    obtain rfl := pureOk.mp made
    rw [evaluate, Structure.defaultFilled filled]
    exact .accepts _
  | none =>
    rw [given] at made
    obtain rfl := pureOk.mp made
    unfold Structure.constrain Structure.optionalUnlessRequired
    cases required : member.traits.isRequired with
    | false =>
      simp only [Bool.false_eq_true, if_false, false_and]
      rw [evaluate]
      exact .accepts _
    | true =>
      simp only [if_true, true_and]
      by_cases free : res.kind = none ∨ res.kind = some (.scalar .document)
      · rw [if_pos free] at bounded
        rw [if_neg (fun shut => free.elim shut.1 shut.2)]
        exact bounded
      · rw [if_neg free] at bounded
        rw [if_pos (not_or.mp free)]
        exact bounded

end Schema

open Relation (TransGen)

def Model.Embeds (m : Model) (outer inner : String) : Prop :=
  ∃ shape, m.shape? outer = some shape ∧ shape.isCompound = true ∧ inner ∈ shape.targets

namespace Contracts

open Schema (evaluate)

variable {c : Contracts}

theorem formattedSchema {id : String} {parts : ShapeId} {traits : Traits}
    (named : ShapeId.parse id = .ok parts) : c.scope.scalarSchema parts.space traits .timestamp =
      .ofTimestampFormat (Interpretation.formatOf c.job id traits) := by
  have read : ShapeId.ofString? id = some parts := by
    unfold ShapeId.parse at named
    split at named
    · rename_i parts' there
      rw [there, Except.ok.inj named]
    · contradiction
  unfold Scope.scalarSchema Interpretation.formatOf
  cases traits.timestampFormat with
  | some format => rfl
  | none =>
    rw [read, Option.getD_none, Option.any_some]
    change (if c.job.settings.defaultsToDateTime parts.space = true then Schema.dateTime
      else Schema.httpDate) = _
    split <;> rfl

theorem evaluateRef {target : String} {t : Schema} (there : c.schema? target = some t)
    (symbol : Symbol) (source : FileKey) (value : Option Json) :
    evaluate c.schemas (Scope.refSchema target symbol source true) value [] =
      evaluate c.schemas t value [target] := by
  obtain ⟨known, behind⟩ := Schema.getFound there
  have followed : evaluate c.schemas (.ref ⟨target, symbol.schemaName, symbol.fileKey, symbol.kind⟩)
      value [] = evaluate c.schemas t value [target] := by
    rw [evaluate, if_neg (not_not_intro known), if_neg List.not_mem_nil, behind]
    rfl
  unfold Scope.refSchema
  split
  · rw [evaluate, followed]
  · exact followed

theorem declaredAbsent {id : String} {shape : Shape} {kind : ShapeKind} {t : Schema}
    {followed : List String} (kinded : shape.kind? = some kind) (standalone : kind.isStandalone = true)
    (declares : c.scope.Declares id shape t) : (evaluate c.schemas t none followed).Agrees none := by
  cases declares with
  | enum =>
    rw [Enum.schema, evaluate.eq_def]
    exact .rejects _
  | struct =>
    rw [evaluate.eq_def]
    exact .rejects _
  | expanded inlined => cases inlined.symm.trans (Shape.standaloneWhole kinded standalone)

theorem expansionAbsent {resolves : String → Resolution → Prop} {id : String} {shape : Shape}
    {s : Schema} (found : c.job.model.shape? id = some shape) (inline : shape.isExpanded = true)
    (expansion : c.scope.Expansion resolves id s) : (evaluate c.schemas s none []).Agrees
      (if shape.kind? = some (.scalar .document) then some none else none) := by
  cases expansion with
  | absent missing => cases found.symm.trans missing
  | other here _ apart =>
    cases found.symm.trans here
    cases inline.symm.trans apart
  | @scalar kind traits parts here named =>
    cases found.symm.trans here
    rw [Schema.evaluateNotes]
    cases kind with
    | timestamp =>
      rw [formattedSchema named]
      cases Interpretation.formatOf c.job id traits <;>
        · rw [Schema.ofTimestampFormat, evaluate.eq_def]
          exact .rejects _
    | document =>
      rw [Scope.scalarSchema, evaluate.eq_def]
      exact .accepts none
    | _ =>
      rw [Scope.scalarSchema, evaluate.eq_def]
      exact .rejects _
  | list here | map here | union _ here =>
    cases found.symm.trans here
    rw [Schema.evaluateNotes, evaluate.eq_def]
    exact .rejects _

theorem resolvedAbsent (done : ofModel c.job = .ok c) {target : String} {source : FileKey}
    {stack : List String} {res : Resolution}
    (ok : c.scope.resolveIn target source .deferred stack = .ok res) (there : res.resolved = true) :
    (evaluate c.schemas res.schema none []).Agrees
      (if res.kind = none ∨ res.kind = some (.scalar .document) then some none else none) := by
  obtain ⟨-, discovered, -⟩ := finishedTrace done
  have reference := Scope.resolveOk.mp ok
  cases reference with
  | recursive => contradiction
  | missing => contradiction
  | @builtin b =>
    rw [Builtin.resolution, Resolution.found, evaluate.eq_def]
    cases b <;> first
      | exact .accepts none
      | exact .rejects _
  | @declared symbol parts fresh foreign named registered standalone =>
    obtain ⟨t, shape, there, -, kinded, declares⟩ :=
      finishedKind done (Scope.registeredKind discovered registered).1
    have closed : ¬ (some symbol.kind = none ∨ some symbol.kind = some (ShapeKind.scalar .document)) := by
      rintro (none | document)
      · contradiction
      · rw [Symbol.isStandalone, Option.some.inj document] at standalone
        contradiction
    rw [Resolution.found, if_neg closed, evaluateRef there]
    exact declaredAbsent kinded standalone declares
  | @inlined symbol parts s fresh foreign named registered apart body =>
    obtain ⟨shape, found, kinded, inline⟩ := Scope.inlinedShape discovered registered apart
    have absent := expansionAbsent found inline (Scope.expandOk.mp body)
    rw [kinded] at absent
    simpa only [Resolution.found, reduceCtorEq, false_or] using absent

theorem targetAbsent (done : ofModel c.job = .ok c) {target : String} {source : FileKey}
    {res : Resolution} (traits : Traits)
    (ok : c.scope.resolveIn target source .deferred [] = .ok res) (there : res.resolved = true) :
    (evaluate c.schemas (Structure.targetSchema res traits) none []).Agrees
      (if res.kind = none ∨ res.kind = some (.scalar .document) then some none else none) := by
  obtain ⟨format, kinded, -, same⟩ | ⟨-, same⟩ := Structure.targetCases res traits
  · rw [same, kinded, Schema.evaluateReplaced, if_neg (by simp)]
    cases format <;>
      · rw [Schema.ofTimestampFormat, evaluate.eq_def]
        exact .rejects _
  · rw [same]
    exact resolvedAbsent done ok there

/-! Structures, whose members are smaller values. -/

theorem fieldAgrees (done : ofModel c.job = .ok c) {owner name : String} {source : FileKey}
    {member : Member} {f : String × Schema × List String}
    (made : Structure.field c.scope owner source name member = .ok f) {value : Option Json}
    (each : ∀ res, c.scope.resolveIn member.target source .deferred [] = .ok res →
      ∀ j, value = some j → (evaluate c.schemas res.schema (some j) []).Agrees
        ((interpret c.job [] member.target j).map some)) :
    f.1 = name ∧ (evaluate c.schemas f.2.1 value []).Agrees (interpretMember c.job member value) := by
  obtain ⟨-, discovered, -⟩ := finishedTrace done
  obtain ⟨res, resolved, made⟩ := bindOk.mp made
  have targeted := (Scope.resolvedFresh discovered List.not_mem_nil resolved).2
  split at made
  · rename_i there
    obtain ⟨s, bounded, made⟩ := bindOk.mp made
    obtain rfl := pureOk.mp made
    rw [if_pos there] at targeted
    refine ⟨rfl, ?_⟩
    cases value with
    | some j => exact Schema.memberPresent targeted bounded (each res resolved j rfl)
    | none =>
      exact Schema.memberAbsent targeted bounded (targetAbsent done member.traits resolved there)
  · rename_i absent
    obtain rfl := pureOk.mp made
    rw [if_neg absent] at targeted
    change c.job.model.targetKind? member.target = none at targeted
    refine ⟨rfl, ?_⟩
    cases value with
    | some j =>
      rw [interpretMember, Interpretation.present, targeted, Schema.constrainPresent, evaluate]
      dsimp only
      rw [Interpretation.interpretUnknown targeted]
      exact .accepts _
    | none =>
      rw [interpretMember, Interpretation.absent, targeted]
      unfold Structure.optionalUnlessRequired
      split <;>
        · rw [evaluate]
          exact .accepts none

theorem fieldsAgree (done : ofModel c.job = .ok c) {owner : String} {source : FileKey}
    {members : List (String × Member)} {fs : List (String × Schema × List String)}
    (made : Structure.fields c.scope owner source members = .ok fs) {entries : List (String × Json)}
    (each : ∀ m ∈ members, ∀ res, c.scope.resolveIn m.2.target source .deferred [] = .ok res →
      ∀ j, entries.lookup m.1 = some j → (evaluate c.schemas res.schema (some j) []).Agrees
        ((interpret c.job [] m.2.target j).map some)) :
    (Schema.evaluateFields c.schemas fs entries).Agrees (interpretMembers c.job members entries) := by
  induction members generalizing fs with
  | nil =>
    obtain rfl := pureOk.mp made
    rw [Schema.evaluateFields, interpretMembers]
    exact .accepts _
  | cons m rest ih =>
    obtain ⟨name, member⟩ := m
    obtain ⟨⟨label, s, comments⟩, first, made⟩ := bindOk.mp made
    obtain ⟨others, later, made⟩ := bindOk.mp made
    obtain rfl := pureOk.mp made
    obtain ⟨rfl, agrees⟩ := fieldAgrees done first (each _ List.mem_cons_self)
    have tail := ih later (fun m mem => each m (List.mem_cons_of_mem _ mem))
    rw [Schema.evaluateFields, interpretMembers]
    refine Outcome.agreesBoth (Outcome.agreesWithin _ agrees) tail (Option.bind_congr fun first _ => ?_)
    cases first <;> rfl

theorem structAgrees (done : ofModel c.job = .ok c) {owner : String} {source : FileKey}
    {members : List (String × Member)} {fs : List (String × Schema × List String)}
    (made : Structure.fields c.scope owner source members = .ok fs)
    (distinct : (members.map Prod.fst).Nodup) {j : Json} {followed : List String}
    (each : ∀ m ∈ members, ∀ res, c.scope.resolveIn m.2.target source .deferred [] = .ok res →
      ∀ j', sizeOf j' < sizeOf j → (evaluate c.schemas res.schema (some j') []).Agrees
        ((interpret c.job [] m.2.target j').map some)) :
    (evaluate c.schemas (.object fs) (some j) followed).Agrees ((match j with
      | .object entries => (interpretMembers c.job members entries).map Json.object
      | _ => none).map some) := by
  rw [evaluate.eq_def]
  cases j with
  | object entries =>
    have fields : (Schema.evaluateFields c.schemas fs entries).Agrees
        (interpretMembers c.job members entries) := by
      refine fieldsAgree done made (fun m mem res resolved j' there => ?_)
      have smaller := Schema.lookupSmaller there
      refine each m mem res resolved j' ?_
      simp only [Json.object.sizeOf_spec]
      omega
    dsimp only
    cases read : interpretMembers c.job members entries with
    | none =>
      rw [read] at fields
      exact Outcome.agreesMap fields
    | some ws =>
      have kept : (ws.map Prod.fst).Nodup :=
        distinct.sublist (Interpretation.interpretMembersNames read)
      rw [read] at fields
      rw [Outcome.agreesValid fields |>.mpr rfl, Outcome.map, Entries.settleNamesOf kept]
      exact .accepts _
  | _ => exact .rejects _

/-- The schema of a resolved target accepts what the target describes, on values below a size. No shape
under expansion, and no union being tried, is met again. -/
def Simulated (c : Contracts) (size : Nat) (stack : List String) (target : String)
    (res : Resolution) : Prop :=
  (∀ s ∈ stack, TransGen c.job.model.Embeds s target) → ∀ j : Json, sizeOf j < size →
    ∀ unions : List String, (∀ u ∈ unions, TransGen c.job.model.Embeds u target) →
      (evaluate c.schemas res.schema (some j) []).Agrees ((interpret c.job unions target j).map some)

theorem expansionAgrees (acyclic : ∀ id, ¬ TransGen c.job.model.Embeds id id) {size : Nat}
    {stack : List String} {id : String} {shape : Shape} {s : Schema}
    (foreign : Builtin.ofId? id = none) (found : c.job.model.shape? id = some shape)
    (inline : shape.isExpanded = true) (expansion : c.scope.Expansion (c.Simulated size stack) id s)
    (under : ∀ t ∈ stack, t = id ∨ TransGen c.job.model.Embeds t id) {j : Json}
    (small : sizeOf j < size) {unions : List String}
    (tried : ∀ u ∈ unions, TransGen c.job.model.Embeds u id) :
    (evaluate c.schemas s (some j) []).Agrees ((interpret c.job unions id j).map some) := by
  have onward {target : String} (embeds : c.job.model.Embeds id target) :
      ∀ t ∈ stack, TransGen c.job.model.Embeds t target := by
    intro t mem
    rcases under t mem with rfl | above
    · exact .single embeds
    · exact .tail above embeds
  cases expansion with
  | absent missing => cases found.symm.trans missing
  | other here _ apart =>
    cases found.symm.trans here
    cases inline.symm.trans apart
  | scalar here named =>
    rw [Schema.evaluateNotes, Interpretation.interpretScalar foreign here]
    exact Schema.scalarAgrees c.scope _ (fun _ => formattedSchema named)
  | @list member traits parts r here named item =>
    rw [Schema.evaluateNotes, Interpretation.interpretList foreign here]
    refine Schema.listAgrees (fun items same j' mem => ?_)
    have smaller := List.sizeOf_lt_of_mem mem
    rw [same, Json.array.sizeOf_spec] at small
    rw [Schema.evaluateMarked]
    exact item (onward ⟨_, here, rfl, List.mem_cons_self⟩) j' (by omega) [] (by simp)
  | @map key value traits parts k keyed r here named keys fits values =>
    rw [Schema.evaluateNotes, Interpretation.interpretMap foreign here]
    refine Schema.mapAgrees (fun entries same e mem => ?_)
    have smaller := List.sizeOf_lt_of_mem mem
    rw [same, Json.object.sizeOf_spec] at small
    obtain ⟨name, j'⟩ := e
    rw [Prod.mk.sizeOf_spec] at smaller
    rw [Schema.evaluateMarked, Scope.keySchemaOf fits]
    refine ⟨keys (onward ⟨_, here, rfl, List.mem_cons_self⟩) _ ?_ [] (by simp),
      values (onward ⟨_, here, rfl, List.mem_cons_of_mem _ List.mem_cons_self⟩) _ ?_ [] (by simp)⟩
    · simp only [Json.string.sizeOf_spec]
      omega
    · dsimp only
      omega
  | @union members traits parts rs here named alternatives =>
    have fresh : id ∉ unions := fun mem => acyclic id (tried id mem)
    rw [Schema.evaluateNotes, Interpretation.interpretUnion foreign here fresh]
    refine Schema.unionAgrees (fun m mem => ?_)
    have embeds : c.job.model.Embeds id m.2.target := ⟨_, here, rfl, List.mem_map_of_mem mem⟩
    rw [Schema.evaluateMarked]
    refine alternatives m mem (onward embeds) j small (unions ++ [id]) (fun u mem => ?_)
    rcases List.mem_append.mp mem with mem | mem
    · exact .tail (tried u mem) embeds
    · rw [List.mem_singleton.mp mem]
      exact .single embeds

theorem declaredAgrees (done : ofModel c.job = .ok c) {size : Nat}
    (smaller : ∀ source target res, c.scope.resolveIn target source .deferred [] = .ok res →
      c.Simulated size [] target res) {id : String} {shape : Shape} {kind : ShapeKind} {t : Schema}
    (foreign : Builtin.ofId? id = none) (found : c.job.model.shape? id = some shape)
    (kinded : shape.kind? = some kind) (standalone : kind.isStandalone = true)
    (declares : c.scope.Declares id shape t) {j : Json} (small : sizeOf j < size + 1)
    {unions followed : List String} :
    (evaluate c.schemas t (some j) followed).Agrees ((interpret c.job unions id j).map some) := by
  cases declares with
  | enum =>
    rw [Interpretation.interpretEnum foreign found]
    exact Schema.enumAgrees
  | @struct members traits parts symbol fields named registered each =>
    have distinct := c.job.model.membersDistinct _ (Entries.memOfLookup found)
    rw [Interpretation.interpretStruct foreign found]
    refine structAgrees done each distinct (fun m mem res resolved j' less => ?_)
    exact smaller _ _ res resolved (by simp) j' (by omega) [] (by simp)
  | expanded inlined => cases inlined.symm.trans (Shape.standaloneWhole kinded standalone)

theorem resolvedSimulated (done : ofModel c.job = .ok c)
    (acyclic : ∀ id, ¬ TransGen c.job.model.Embeds id id) (size : Nat) {source : FileKey}
    {stack : List String} {target : String} {res : Resolution}
    (ok : c.scope.resolveIn target source .deferred stack = .ok res) :
    c.Simulated size stack target res := by
  obtain ⟨-, discovered, -⟩ := finishedTrace done
  -- members of structures make the value smaller, everything else is a step of the resolution
  induction size generalizing source stack target res with
  | zero => exact fun _ j small => absurd small (Nat.not_lt_zero _)
  | succ size ih =>
    refine Scope.referenceInduct (P := c.Simulated (size + 1)) (fun stack target res reference => ?_) ok
    intro under j small unions tried
    cases reference with
    | recursive visited => exact absurd (under target visited) (acyclic target)
    | @builtin b fresh known =>
      rw [Interpretation.interpretBuiltin known]
      exact Schema.builtinAgrees c.scope b
    | missing fresh foreign named absent =>
      have unresolved : c.job.model.targetKind? target = none := by
        have unknown := (Scope.registeredNone discovered).mp absent
        rw [Model.targetKind?, foreign]
        exact Option.map_eq_none_iff.mpr unknown
      rw [Resolution.placeholder, evaluate, Interpretation.interpretUnknown unresolved]
      exact .accepts _
    | @declared symbol parts fresh foreign named registered standalone =>
      obtain ⟨t, shape, there, found, kinded, declares⟩ :=
        finishedKind done (Scope.registeredKind discovered registered).1
      rw [Resolution.found, evaluateRef there]
      exact declaredAgrees done (fun _ _ _ resolved => ih resolved) foreign found kinded standalone
        declares small
    | inlined fresh foreign named registered apart body =>
      obtain ⟨shape, found, -, inline⟩ := Scope.inlinedShape discovered registered apart
      refine expansionAgrees acyclic foreign found inline body (fun t mem => ?_) small tried
      rcases List.mem_append.mp mem with mem | mem
      · exact .inr (under t mem)
      · exact .inl (List.mem_singleton.mp mem)

theorem recordedAgrees (done : ofModel c.job = .ok c) (spared : c.job.model.SparesPrelude)
    (acyclic : ∀ id, ¬ TransGen c.job.model.Embeds id id) {id : String} {s : Schema}
    (recorded : c.schema? id = some s) (j : Json) :
    (evaluate c.schemas s (some j) []).Agrees ((interpret c.job [] id j).map some) := by
  obtain ⟨shape, found, declares⟩ := finishedDeclares done recorded
  obtain ⟨kind, kinded, bears⟩ := Scope.declaresKind declares
  have known : c.job.model.kind? id = some kind := by
    rw [Model.kind?, found, Option.bind_some, kinded]
  have foreign : Builtin.ofId? id = none := sparedKind spared known
  by_cases standalone : kind.isStandalone = true
  · exact declaredAgrees done (fun _ _ _ resolved => resolvedSimulated done acyclic _ resolved)
      foreign found kinded standalone declares (Nat.lt_succ_self _)
  · have inline : shape.isExpanded = true :=
      Shape.bearingExpanded kinded bears (Bool.eq_false_iff.mpr standalone)
    cases declares with
    | enum => contradiction
    | struct => contradiction
    | expanded _ routed body =>
      refine expansionAgrees acyclic foreign found inline
        (Scope.expansionMono (Scope.expandOk.mp body) fun _ _ resolved =>
          resolvedSimulated done acyclic _ resolved)
        (fun t mem => .inl (List.mem_singleton.mp mem)) (Nat.lt_succ_self _) (by simp)

theorem validatesExactly {job : Job} (done : ofModel job = .ok c)
    (spared : job.model.SparesPrelude) (acyclic : ∀ id, ¬ TransGen job.model.Embeds id id)
    {id : String} {kind : ShapeKind} (bears : job.model.schemaKind? id = some kind) (j w : Json) :
    c.validate id j = .ok (.valid w) ↔ interpret job [] id j = some w := by
  obtain ⟨same, -⟩ := finishedTrace done
  subst same
  obtain ⟨s, recorded⟩ := finishedAll done bears
  have agrees := Outcome.agreesMap (f := fun parsed => parsed.getD .null)
    (recordedAgrees done spared acyclic recorded j)
  rw [Option.map_map] at agrees
  rw [validate, recorded, Except.ok.injEq]
  exact (Outcome.agreesValid agrees).trans (by simp [Function.comp_def])

theorem nestedAcyclic (id : String) : ¬ TransGen nested.Embeds id id := by
  intro chain
  have plain : ∀ {outer inner}, nested.Embeds outer inner →
      outer = "other#Nodes" ∧ inner = "example#Node" := by
    rintro outer inner ⟨shape, found, compound, refers⟩
    have entry := Entries.memOfLookup found
    simp only [nested, List.mem_cons, Prod.mk.injEq, List.not_mem_nil, or_false] at entry
    rcases entry with ⟨rfl, rfl⟩ | ⟨rfl, rfl⟩
    · contradiction
    · exact ⟨rfl, List.mem_singleton.mp refers⟩
  have ends : ∀ {outer inner}, TransGen nested.Embeds outer inner →
      outer = "other#Nodes" ∧ inner = "example#Node" := by
    intro outer inner chain
    induction chain with
    | single step => exact plain step
    | tail _ step ih => exact ⟨ih.1, (plain step).2⟩
  obtain ⟨first, last⟩ := ends chain
  rw [first] at last
  contradiction

theorem nestedValidates : ∃ c, ofModel ⟨nested, .standard⟩ = .ok c ∧
    c.validate "example#Node" (.object [("children", .array [.object []])]) =
      .ok (.valid (.object [("children", .array [.object []])])) := by
  have spared : nested.SparesPrelude := fun b => by cases b <;> rfl
  obtain ⟨c, done⟩ : ∃ c, ofModel ⟨nested, .standard⟩ = .ok c := completes spared (by decide)
  have kinded : nested.schemaKind? "example#Node" = some .struct := rfl
  refine ⟨c, done, (validatesExactly done spared nestedAcyclic kinded _ _).mpr ?_⟩
  have node : nested.shape? "example#Node" =
      some (.struct [("children", ⟨"other#Nodes", .empty⟩)] .empty) := rfl
  have nodes : nested.shape? "other#Nodes" = some (.list ⟨"example#Node", .empty⟩ .empty) := rfl
  have listed : nested.targetKind? "other#Nodes" = some (some .list) := rfl
  have hollow : interpret ⟨nested, .standard⟩ [] "example#Node" (.object []) = some (.object []) := by
    rw [Interpretation.interpretStruct rfl node]
    simp [interpretMembers, interpretMember, Interpretation.absent, listed, Traits.empty,
      Traits.isRequired]
  have children : interpret ⟨nested, .standard⟩ [] "other#Nodes" (.array [.object []]) =
      some (.array [.object []]) := by
    rw [Interpretation.interpretList rfl nodes]
    simp [Interpretation.interpretItems, hollow, Traits.lengthFits, Traits.minLength,
      Traits.maxLength, Traits.hasUniqueItems, Traits.empty]
  have unbounded : Traits.empty.fits (.array [.object []]) = true := rfl
  rw [Interpretation.interpretStruct rfl node]
  simp [interpretMembers, interpretMember, Interpretation.present, listed, children,
    Interpretation.formatted, Option.filter_some, unbounded]

end Contracts
end ShapeContracts
