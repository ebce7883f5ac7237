import ShapeContracts.Proofs.Locality
import ShapeContracts.Proofs.Reevaluation

/-! Values that come back from validation are accepted as they are, for shapes that reach no union and no
member with a default; only a union may read a value in another way, and only a default may fill in what is
refused. -/
namespace ShapeContracts

namespace Schema

def fills : Schema → Bool
  | .withDefault .. => true
  | .lazy inner | .refine inner _ | .optional inner | .marked _ inner => fills inner
  | _ => false

theorem fillsNotes (notes : List String) (s : Schema) : (withNotes notes s).fills = s.fills := by
  induction notes with
  | nil => rfl
  | cons note rest ih => exact ih

theorem fillsReplaced (s replacement : Schema) : (s.replaceMarked replacement).fills = replacement.fills := by
  fun_induction replaceMarked s replacement with
  | case1 replacement comment inner ih => exact ih
  | case2 => rfl

theorem fillsRefined (checks : List Check) (s : Schema) : (checks.foldl .refine s).fills = s.fills := by
  induction checks generalizing s with
  | nil => rfl
  | cons check rest ih => exact ih (.refine s check)

theorem timestampUnfilled (format : TimestampFormat) : (ofTimestampFormat format).fills = false := by
  cases format <;> rfl

end Schema

namespace Structure

theorem constrainUnfilled (s : Schema) (traits : Traits) : (constrain s traits).fills = s.fills := by
  unfold constrain optionalUnlessRequired
  split <;> exact Schema.fillsRefined _ _

end Structure

namespace Scope

variable {scope : Scope} {source : FileKey}

theorem scalarUnfilled (space : String) (traits : Traits) (kind : Scalar) :
    (scope.scalarSchema space traits kind).fills = false := by
  cases kind with
  | timestamp =>
    simp only [scalarSchema]
    split
    · exact Schema.timestampUnfilled _
    · split <;> rfl
  | _ => rfl

theorem expansionUnfilled {resolves : String → Resolution → Prop} {id : String} {s : Schema}
    (expansion : scope.Expansion resolves id s) : s.fills = false := by
  cases expansion with
  | absent | other => rfl
  | scalar =>
    rw [Schema.fillsNotes]
    exact scalarUnfilled _ _ _
  | list | map | union =>
    rw [Schema.fillsNotes]
    rfl

theorem resolvedUnfilled {target : String} {stack : List String} {r : Resolution}
    (ok : resolveIn scope target source .deferred stack = .ok r) : r.schema.fills = false := by
  have reference := resolveOk.mp ok
  cases reference with
  | recursive | missing => rfl
  | @builtin b => cases b <;> rfl
  | declared =>
    rw [Resolution.found, refSchema]
    dsimp only
    split <;> rfl
  | inlined _ _ _ _ _ body => exact expansionUnfilled (expandOk.mp body)

theorem madeUnfilled {x : Subject} {s : Schema} {around : List String} (made : scope.Made x s around)
    (free : ∀ member owner, x = .member .structureMember member owner → member.traits.defaultValue = none) :
    s.fills = false := by
  cases made with
  | shape found declares =>
    cases declares with
    | enum | struct => rfl
    | expanded inlined routed body => exact expansionUnfilled (expandOk.mp body)
  | inline inlined visible resolved =>
    unfold markUnresolved
    split <;> exact resolvedUnfilled resolved
  | key visible resolved fits =>
    rw [keySchemaOf fits]
    exact resolvedUnfilled resolved
  | field made =>
    have field := Structure.fieldMade made
    cases field with
    | @found r s resolved closed formed =>
      unfold Structure.memberSchema at formed
      rw [free _ _ rfl] at formed
      obtain rfl := pureOk.mp formed
      rw [Structure.constrainUnfilled]
      obtain ⟨format, -, -, target⟩ | ⟨-, target⟩ := Structure.targetCases r _
      · rw [target, Schema.fillsReplaced]
        exact Schema.timestampUnfilled format
      · rw [target]
        exact resolvedUnfilled resolved
    | lost =>
      unfold Structure.optionalUnlessRequired
      split <;> rfl

theorem shapeUnfilled {id : String} {s : Schema} {around : List String} (made : scope.Made (.shape id) s around) :
    s.fills = false :=
  madeUnfilled made (fun member owner same => by cases same)

end Scope

/-- Values of the shape are read in one way, and nothing is filled in for its members. -/
def Shape.Definite : Shape → Prop
  | .union .. => False
  | .struct members _ => ∀ m ∈ members, m.2.traits.defaultValue = none
  | _ => True

namespace Model

variable {m : Model} {x y : Subject} {step : Step}

def Definite (m : Model) (id : String) : Prop :=
  ∀ i shape, m.Reaches id i → m.shape? i = some shape → shape.Definite

theorem shapeAtFound {shape : Shape} (found : m.shapeAt x = some shape) : m.shape? x.id = some shape := by
  cases x with
  | shape id => exact found
  | member role member owner =>
    rw [shapeAt] at found
    split at found
    · cases found
    · exact found

theorem leadsUses (leads : m.Leads x step y) : m.Uses x.id y.id := by
  cases leads with
  | item found => exact ⟨_, shapeAtFound found, rfl, List.mem_singleton_self _⟩
  | key found => exact ⟨_, shapeAtFound found, rfl, List.mem_cons_self⟩
  | value found => exact ⟨_, shapeAtFound found, rfl, List.mem_cons_of_mem _ List.mem_cons_self⟩
  | alternative found here | field found here =>
    exact ⟨_, shapeAtFound found, rfl, List.mem_map_of_mem (List.mem_of_getElem? here)⟩

theorem definiteHere (definite : m.Definite x.id) {shape : Shape} (found : m.shapeAt x = some shape) :
    shape.Definite :=
  definite x.id shape .refl (shapeAtFound found)

theorem definiteLeads (definite : m.Definite x.id) (leads : m.Leads x step y) : m.Definite y.id :=
  fun i shape reaches found => definite i shape (.head (leadsUses leads) reaches) found

theorem leadsFree (definite : m.Definite x.id) (leads : m.Leads x step y) {member : Member} {owner : String}
    (same : y = .member .structureMember member owner) : member.traits.defaultValue = none := by
  cases leads with
  | field found here =>
    cases same
    exact definiteHere definite found _ (List.mem_of_getElem? here)
  | _ => cases same

end Model

namespace Contracts

variable {job : Job} {c : Contracts} {x : Subject} {s : Schema}

def Follows (c : Contracts) (s : Schema) : Prop :=
  ∃ x, c.Traces x s ∧ s.fills = false ∧ c.job.model.Definite x.id

theorem followsPart (discovered : c.scope.Discovered) (traces : c.Traces x s)
    (definite : c.job.model.Definite x.id) {step : Step} {t : Schema} {beside : List String}
    (inside : s.bare.Part step t beside) : c.Follows t := by
  obtain ⟨made, around, here, bare⟩ := traces
  obtain ⟨y, leads, there⟩ := Scope.madePart discovered here (bare ▸ inside)
  have unfilled := Scope.madeUnfilled there (fun _ _ same => Model.leadsFree definite leads same)
  exact ⟨y, ⟨t, beside, there, rfl⟩, unfilled, Model.definiteLeads definite leads⟩

theorem followsSteady (discovered : c.scope.Discovered) (follows : c.Follows s) : s.Steady := by
  obtain ⟨x, traces, unfilled, definite⟩ := follows
  cases s with
  | withDefault => cases unfilled
  | union members =>
    cases members with
    | nil => rfl
    | cons first rest =>
      obtain ⟨y, leads, -⟩ := tracesPart discovered traces (.alternative (i := 0) rfl)
      cases leads with
      | alternative found => exact (Model.definiteHere definite found).elim
  | object fields =>
    obtain ⟨made, around, here, bare⟩ := traces
    obtain ⟨members, traits, found, names⟩ := Scope.madeObject here bare.symm
    rw [Schema.Steady, names]
    exact c.job.model.membersDistinct _ (Entries.memOfLookup (Model.shapeAtFound found))
  | _ => trivial

theorem followsCalls (done : ofModel c.job = .ok c) {s' : Schema} {value value' : Option Json}
    (follows : c.Follows s) (calls : Schema.Calls c.schemas (s, value) (s', value')) : c.Follows s' := by
  obtain ⟨-, discovered, -⟩ := finishedTrace done
  obtain ⟨x, traces, unfilled, definite⟩ := follows
  cases calls with
  | optional | marked | lazy | refine => exact ⟨x, traces, unfilled, definite⟩
  | withDefault => cases unfilled
  | @ref r t value found =>
    obtain ⟨behind, same, -⟩ := tracesRef done traces found
    exact ⟨_, behind, Scope.shapeUnfilled (finishedMade done found), same ▸ definite⟩
  | member mem =>
    obtain ⟨i, nth⟩ := List.mem_iff_getElem?.mp mem
    exact followsPart discovered traces definite (.alternative nth)
  | item => exact followsPart discovered traces definite .item
  | key => exact followsPart discovered traces definite .key
  | value => exact followsPart discovered traces definite .value
  | field mem =>
    obtain ⟨i, nth⟩ := List.mem_iff_getElem?.mp mem
    exact followsPart discovered traces definite (.field nth)

theorem followsKeeps (done : ofModel c.job = .ok c) (call : Schema × Option Json) (follows : c.Follows call.1)
    (closed : call.1.Closed c.schemas) (years : ∀ j ∈ call.2, j.InYears) :
    Schema.Keeps c.schemas call.1 call.2 := by
  obtain ⟨-, discovered, -⟩ := finishedTrace done
  have all : ∀ id t, c.schemas.lookup id = some t → t.Closed c.schemas :=
    fun _ _ found => finishedClosed done found
  induction Schema.callsEnd all closed with
  | intro call _ ih =>
    refine Schema.stepKeeps (followsSteady discovered follows) years (fun s value calls years' => ?_)
    exact ih (s, value) calls (followsCalls done follows calls) (Schema.callsClosed all calls closed) years'

theorem validatesTwice (done : ofModel job = .ok c) {id : String} (definite : job.model.Definite id)
    {j w : Json} (years : j.InYears) (valid : c.validate id j = .ok (.valid w)) :
    c.validate id w = .ok (.valid w) := by
  obtain ⟨rfl, -⟩ := finishedTrace done
  cases recorded : c.schema? id with
  | none =>
    rw [validate, recorded] at valid
    cases valid
  | some s =>
    have made := finishedMade done recorded
    have follows : c.Follows s := ⟨.shape id, ⟨s, [], made, rfl⟩, Scope.shapeUnfilled made, definite⟩
    have keeps : Schema.Keeps c.schemas s (some j) :=
      followsKeeps done (s, some j) follows (finishedClosed done recorded)
        (fun _ same => Option.some.inj same ▸ years)
    rw [validate, recorded, Except.ok.injEq] at valid ⊢
    obtain ⟨parsed, accepted, rfl⟩ := Outcome.mapValid valid
    obtain ⟨again, there⟩ := keeps [] parsed accepted
    obtain ⟨w, rfl⟩ := Option.isSome_iff_exists.mp there
    rw [Option.getD_some, Schema.validate, again]
    rfl

def Visit.members : List (String × Member) :=
  [("at", ⟨Builtin.timestamp.id, .empty⟩), ("next", ⟨"example#Visit", .empty⟩)]

def visits : Model where
  version := "2.0"
  shapes := [("example#Visit", .struct Visit.members .empty)]
  metadata := []
  distinct := by decide
  membersDistinct := by simp [Shape.memberNames, Visit.members]

def arrival : Timestamp.Written := ⟨⟨1999, 12, 31⟩, ⟨23, 59, 59⟩, "9999999".toList, .behind 0 1⟩

def arrived : List (String × Json) :=
  [("guest", .bool true), ("at", .string "1999-12-31T23:59:59.9999999-00:01")]

def noted : Json := .object [("at", .string "2000-01-01T00:00:59.999Z")]

theorem arrivalNormal : Timestamp.normalize "1999-12-31T23:59:59.9999999-00:01" = .ok "2000-01-01T00:00:59.999Z" := by
  rw [Timestamp.normalize, String.toList_ofList]
  decide +kernel

theorem arrivedYears : (Json.object arrived).InYears := by
  have legible : arrival.Legible := by
    refine ⟨⟨by decide, by decide, by decide, by decide, by decide, List.all_eq_true.mp (by decide), ?_⟩, ?_⟩
    · exact ⟨by decide, by decide⟩
    · exact fun c mem => Timestamp.Written.asciiDecimal (List.all_eq_true.mp (by decide) c mem)
  have spelling : "1999-12-31T23:59:59.9999999-00:01" = arrival.text := by decide +kernel
  have inRange : arrival.cut.InRange := (Timestamp.Written.localYear legible.kept).mp (by decide +kernel)
  intro text holds
  cases holds with
  | member mem inside =>
    simp only [arrived, List.mem_cons, Prod.mk.injEq, List.not_mem_nil, or_false] at mem
    rcases mem with guest | date
    · obtain ⟨rfl, rfl⟩ := guest
      cases inside
    · obtain ⟨rfl, rfl⟩ := date
      cases inside
      exact fun normal accepted => ⟨arrival, legible, spelling, inRange⟩

theorem visitsDefinite : visits.Definite "example#Visit" := by
  intro i shape reaches found
  have entry := Entries.memOfLookup found
  cases List.mem_singleton.mp entry
  intro m mem
  simp only [Visit.members, List.mem_cons, List.not_mem_nil, or_false] at mem
  obtain rfl | rfl := mem <;> rfl

theorem visitsValidate : ∃ c, ofModel ⟨visits, .standard⟩ = .ok c ∧
    c.validate "example#Visit" (.object arrived) = .ok (.valid noted) := by
  have spared : visits.SparesPrelude := fun b => by cases b <;> rfl
  obtain ⟨c, done⟩ : ∃ c, ofModel ⟨visits, .standard⟩ = .ok c := completes spared (by decide)
  obtain ⟨same, -⟩ := finishedTrace done
  have kinded : visits.schemaKind? "example#Visit" = some .struct := rfl
  have visit : visits.shape? "example#Visit" = some (.struct Visit.members .empty) := rfl
  have acyclic : ∀ id, ¬ Relation.TransGen visits.Embeds id id := by
    intro id chain
    obtain ⟨next, first, -⟩ := Relation.TransGen.head'_iff.mp chain
    obtain ⟨shape, found, compound, -⟩ := first
    cases List.mem_singleton.mp (Entries.memOfLookup found)
    cases compound
  obtain ⟨s, recorded⟩ := finishedAll done kinded
  have timed : visits.targetKind? Builtin.timestamp.id = some (some (.scalar .timestamp)) := rfl
  have known : visits.targetKind? "example#Visit" = some (some .struct) := rfl
  have read : Interpretation.interpret ⟨visits, .standard⟩ [] Builtin.timestamp.id
      (.string "1999-12-31T23:59:59.9999999-00:01") = some (.string "2000-01-01T00:00:59.999Z") := by
    rw [Interpretation.interpretBuiltin (Builtin.idRead .timestamp), Interpretation.builtin]
    simp only [Builtin.kind?, Interpretation.scalar, Interpretation.timestamp, arrivalNormal]
  have first : Interpretation.interpretMember ⟨visits, .standard⟩ ⟨Builtin.timestamp.id, .empty⟩
      (some (.string "1999-12-31T23:59:59.9999999-00:01")) = some (some (.string "2000-01-01T00:00:59.999Z")) := by
    rw [Interpretation.interpretMember, Interpretation.present, timed, read]
    rfl
  have second : Interpretation.interpretMember ⟨visits, .standard⟩ ⟨"example#Visit", .empty⟩ none =
      some none := by
    rw [Interpretation.interpretMember, Interpretation.absent, known]
    rfl
  have interpreted : Interpretation.interpret ⟨visits, .standard⟩ [] "example#Visit" (.object arrived) =
      some noted := by
    have written : arrived.lookup "at" = some (.string "1999-12-31T23:59:59.9999999-00:01") := rfl
    have lacking : arrived.lookup "next" = none := rfl
    rw [Interpretation.interpretStruct rfl visit]
    simp only [Visit.members, Interpretation.interpretMembers, written, lacking, first, second]
    rfl
  have agrees := recordedAgrees (by rw [same]; exact done) (by rw [same]; exact spared)
    (by rw [same]; exact acyclic) recorded (.object arrived)
  rw [same, interpreted] at agrees
  refine ⟨c, done, ?_⟩
  rw [validate, recorded]
  dsimp only [Schema.validate]
  rw [(Outcome.agreesValid agrees).mpr rfl]
  rfl

theorem visitTwice : ∃ c, ofModel ⟨visits, .standard⟩ = .ok c ∧
    c.validate "example#Visit" (.object arrived) = .ok (.valid noted) ∧
    c.validate "example#Visit" noted = .ok (.valid noted) := by
  obtain ⟨c, done, valid⟩ := visitsValidate
  exact ⟨c, done, valid, validatesTwice done visitsDefinite arrivedYears valid⟩

end Contracts
end ShapeContracts
