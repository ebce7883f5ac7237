import ShapeContracts.Proofs.Presence
import ShapeContracts.Proofs.Rounding
import ShapeContracts.Proofs.TraitReading

/-! Ranges of members that target longs. The ends of a range and the value are compared as binary64 numbers,
so a value is accepted if it is within the range, or if it is rounded to the same number as the end that
it passes. -/
namespace ShapeContracts

def Binary64.AtMost (a b : Int) : Prop := a ≤ b ∨ ofInt? a = ofInt? b

theorem Number.wideSmall {n : Int} (wide : (Number.whole n).Wide) : n.natAbs ≤ 18446744073709551616 := by
  have bounds : -9223372036854775808 ≤ n ∧ n ≤ 18446744073709551615 := wide
  omega

namespace Binary64

variable {a b : Int}

theorem atMostSafe (small : a.natAbs ≤ 18446744073709551616) (small' : b.natAbs ≤ 18446744073709551616)
    (safe : Json.isSafe a = true ∨ Json.isSafe b = true) : AtMost a b ↔ a ≤ b := by
  have exactly : ofInt? a = ofInt? b → a = b := by
    intro same
    have near : a.natAbs ≤ Json.largestSafe ∨ b.natAbs ≤ Json.largestSafe :=
      safe.imp of_decide_eq_true of_decide_eq_true
    rw [Json.largestSafe] at near
    rcases ofIntApart small small' same with equal | beyond
    · exact equal
    · rcases ofIntApart small' small same.symm with equal | beyond'
      · exact equal.symm
      · omega
  apply Iff.intro
  · intro either
    rcases either with order | same
    · exact order
    · exact Int.le_of_eq (exactly same)
  · exact .inl

end Binary64

namespace Fields

variable {fields : List (String × Json)} {name : String} {edge : Option Int} {read : Option Binary64}

theorem wholeRead (written : optional fields name Json.whole? = some edge)
    (kept : optional fields name Json.float? = some read) : read = edge.bind Binary64.ofInt? := by
  rcases optionalCases written with absent | present
  · obtain ⟨hidden, rfl⟩ := absent
    rcases optionalCases kept with absent | present
    · exact absent.2
    · obtain ⟨j, x, shown, -⟩ := present
      cases hidden.symm.trans shown
  · obtain ⟨j, n, shown, whole, rfl⟩ := present
    rcases optionalCases kept with absent | present
    · cases absent.1.symm.trans shown
    · obtain ⟨j', x, shown', float, rfl⟩ := present
      cases shown.symm.trans shown'
      rw [Option.bind_some, ← float]
      cases j with
      | number m =>
        cases m with
        | whole m =>
          cases whole
          rfl
        | float x => cases whole
      | _ => cases whole

end Fields

namespace Traits
open Fields

variable {document : List (String × Json)} {t : Traits} {min max : Option Int} {n : Int} {x : Binary64}

def Ranges (document : List (String × Json)) (min max : Option Int) : Prop :=
  ∃ range ends, document.lookup Key.range = some range ∧ Fields.ofJson? ["min", "max"] range = some ends ∧
    optional ends "min" Json.whole? = some min ∧ optional ends "max" Json.whole? = some max

theorem rangeRead (reading : Reading document t) (ranges : Ranges document min max) :
    t.minValue = min.bind Binary64.ofInt? ∧ t.maxValue = max.bind Binary64.ofInt? := by
  obtain ⟨range, ends, found, known, lower, upper⟩ := ranges
  have read := reading.range
  rw [Fields.optional, found] at read
  have bounded : (Bounds.ofJson? Json.float? range).map some = some t.range := by
    cases range with
    | null => cases known
    | _ => exact read
  obtain ⟨b, there, kept⟩ := Option.map_eq_some_iff.mp bounded
  obtain ⟨fields, same, there⟩ := Option.bind_eq_some_iff.mp there
  cases known.symm.trans same
  obtain ⟨lowest, low, there⟩ := Option.bind_eq_some_iff.mp there
  obtain ⟨highest, high, there⟩ := Option.bind_eq_some_iff.mp there
  cases there
  rw [minValue, maxValue, ← kept]
  exact ⟨wholeRead lower low, wholeRead upper high⟩

theorem rangeFits (reading : Reading document t) (ranges : Ranges document min max)
    (wide : ∀ a ∈ min.toList ++ max.toList, (Number.whole a).Wide) (small : (Number.whole n).Wide)
    (read : Binary64.ofInt? n = some x) : t.valueFits x = true ↔
      (∀ a ∈ min, Binary64.AtMost a n) ∧ ∀ b ∈ max, Binary64.AtMost n b := by
  obtain ⟨lowest, highest⟩ := rangeRead reading ranges
  rw [valueFits, lowest, highest, Bool.and_eq_true]
  have small' := Number.wideSmall small
  apply and_congr
  · cases min with
    | none => simp
    | some a =>
      have near := Number.wideSmall (wide a (by simp))
      obtain ⟨y, there, -⟩ := Binary64.ofIntRounded near
      rw [Option.bind_some, there]
      simpa [Binary64.AtMost] using Binary64.ofIntLess near small' there read
  · cases max with
    | none => simp
    | some b =>
      have near := Number.wideSmall (wide b (by simp))
      obtain ⟨y, there, -⟩ := Binary64.ofIntRounded near
      rw [Option.bind_some, there]
      simpa [Binary64.AtMost] using Binary64.ofIntLess small' near read there

end Traits

theorem Interpretation.interpretKinded {job : Job} {target : String} {kind : Scalar}
    (kinded : job.model.targetKind? target = some (some (.scalar kind))) (unions : List String) (j : Json) :
    ∃ format traits, interpret job unions target j = scalar format traits kind j := by
  unfold Model.targetKind? at kinded
  cases known : Builtin.ofId? target with
  | some b =>
    rw [known] at kinded
    exact ⟨.dateTime, .empty, by rw [interpretBuiltin known, builtin, Option.some.inj kinded]⟩
  | none =>
    rw [known] at kinded
    obtain ⟨kind', bears, same⟩ := Option.map_eq_some_iff.mp kinded
    obtain ⟨shape, found, shaped, -⟩ := schemaKindSome.mp bears
    rw [same] at shaped
    cases shape with
    | scalar kind'' traits =>
      cases shaped
      exact ⟨_, traits, interpretScalar known found⟩
    | _ => cases shaped

namespace Contracts
variable {c : Contracts}

theorem scalarResolved (done : ofModel c.job = .ok c) {target : String} {source : FileKey} {res : Resolution}
    (ok : c.scope.resolveIn target source .deferred [] = .ok res) {kind : Scalar}
    (kinded : c.job.model.targetKind? target = some (some (.scalar kind))) (j : Json) :
    (Schema.evaluate c.schemas res.schema (some j) []).Agrees
      ((Interpretation.interpret c.job [] target j).map some) := by
  obtain ⟨-, discovered, -⟩ := finishedTrace done
  have targeted := (Scope.resolvedFresh discovered List.not_mem_nil ok).2
  have reference := Scope.resolveOk.mp ok
  cases reference with
  | recursive visited => exact absurd visited List.not_mem_nil
  | @builtin b fresh known =>
    rw [Interpretation.interpretBuiltin known]
    exact Schema.builtinAgrees c.scope b
  | missing => cases kinded.symm.trans targeted
  | @declared symbol parts fresh foreign named registered standalone =>
    have same : some (ShapeKind.scalar kind) = some symbol.kind := Option.some.inj (kinded.symm.trans targeted)
    rw [Symbol.isStandalone, ← Option.some.inj same] at standalone
    contradiction
  | @inlined symbol parts s fresh foreign named registered apart body =>
    have same : some (ShapeKind.scalar kind) = some symbol.kind := Option.some.inj (kinded.symm.trans targeted)
    obtain ⟨shape, found, shaped, -⟩ := Scope.inlinedShape discovered registered apart
    rw [← same] at shaped
    have expansion := Scope.expandOk.mp body
    cases expansion with
    | absent missing => cases found.symm.trans missing
    | @scalar kind' traits parts found' named =>
      cases found.symm.trans found'
      rw [Resolution.found, Schema.evaluateNotes, Interpretation.interpretScalar foreign found]
      exact Schema.scalarAgrees c.scope _ (fun _ => formattedSchema named)
    | list found' | map found' | union _ found' =>
      cases found.symm.trans found'
      cases shaped
    | other found' _ whole =>
      rw [← Option.some.inj (found.symm.trans found')] at whole
      rw [Shape.expandedKind shaped] at whole
      contradiction

variable {owner name : String} {source : FileKey} {member : Member} {s : Schema} {comments : List String} {n : Int}

theorem longAgrees (done : ofModel c.job = .ok c)
    (made : Structure.field c.scope owner source name member = .ok (name, s, comments))
    (long : c.job.model.targetKind? member.target = some (some (.scalar .long))) :
    (Schema.evaluate c.schemas s (some (.number (.whole n))) []).Agrees
      (if member.traits.fits (.number (.whole n)) then some (some (.number (.whole n))) else none) := by
  have agrees : (Schema.evaluate c.schemas s (some (.number (.whole n))) []).Agrees
      (Interpretation.interpretMember c.job member (some (.number (.whole n)))) :=
    (fieldAgrees done made (fun res resolved j _ => scalarResolved done resolved long j)).2
  obtain ⟨format, traits, read⟩ := Interpretation.interpretKinded long [] (.number (.whole n))
  rw [Interpretation.interpretMember, Interpretation.present, long] at agrees
  dsimp only at agrees
  rw [Interpretation.formattedPlain (by simp), read, Interpretation.scalar, Option.filter_some] at agrees
  split at agrees
  · rename_i fits
    rw [if_pos fits]
    exact agrees
  · rename_i fits
    rw [if_neg fits]
    exact agrees

theorem longFits (done : ofModel c.job = .ok c) {id : String}
    {fields : List (String × Schema × List String)} (recorded : c.schema? id = some (.object fields))
    (listed : (name, s, comments) ∈ fields)
    (made : Structure.field c.scope owner source name member = .ok (name, s, comments))
    (long : c.job.model.targetKind? member.target = some (some (.scalar .long)))
    (small : (Number.whole n).Wide) {entries : List (String × Json)}
    (given : entries.lookup name = some (.number (.whole n))) :
    (Schema.evaluate c.schemas s (entries.lookup name) []).issues = [] ↔
      member.traits.fits (.number (.whole n)) = true := by
  have settled : ∀ j ∈ entries.lookup name, j.Settled := by
    intro j there
    cases given.symm.trans there
    exact small
  have faults := memberFaults done recorded listed made settled
  have agrees := longAgrees done made long (n := n)
  rw [given] at faults ⊢
  generalize Schema.evaluate c.schemas s (some (.number (.whole n))) [] = o at faults agrees ⊢
  split at agrees
  · rename_i fits
    cases agrees
    exact iff_of_true rfl fits
  · rename_i unfit
    cases agrees
    obtain ⟨some, -⟩ := faults
    exact iff_of_false some unfit

section

variable {job : Job} {id name : String} {members : List (String × Member)} {traits : Traits} {member : Member}
  {document entries : List (String × Json)} {min max : Option Int} {n : Int}

theorem longAccepted (done : ofModel job = .ok c)
    (found : job.model.shape? id = some (.struct members traits)) (listed : (name, member) ∈ members)
    (long : job.model.targetKind? member.target = some (some (.scalar .long)))
    (read : Traits.ofJson? (.object document) = some member.traits) (ranges : Traits.Ranges document min max)
    (wide : ∀ a ∈ min.toList ++ max.toList, (Number.whole a).Wide) (small : (Number.whole n).Wide)
    (given : entries.lookup name = some (.number (.whole n))) :
    ∃ o, c.validate id (.object entries) = .ok o ∧ o ≠ .endless ∧
      ((∀ i ∈ o.issues, i.path.head? ≠ some (.key name)) ↔
        (∀ a ∈ min, Binary64.AtMost a n) ∧ ∀ b ∈ max, Binary64.AtMost n b) := by
  obtain ⟨rfl, -⟩ := finishedTrace done
  obtain ⟨source, fields, s, comments, recorded, distinct, there, made⟩ := memberField done found listed
  have ends := objectEnds done recorded entries
  obtain ⟨x, rounded, -⟩ := Binary64.ofIntRounded (Number.wideSmall small)
  have fits : member.traits.fits (.number (.whole n)) = member.traits.valueFits x := by
    have float : (Json.number (.whole n)).float? = some x := rounded
    rw [Traits.fits, float]
    rfl
  refine ⟨_, objectOutcome recorded entries, ?_, ?_⟩
  · cases read : Schema.evaluateFields c.schemas fields entries with
    | endless => exact absurd read ends
    | _ => exact fun endless => by cases endless
  · rw [Outcome.issuesMap, Schema.fieldSilent ends distinct there,
      longFits done recorded (Entries.memOfLookup there) made long small given, fits]
    exact Traits.rangeFits (Traits.readingOf read) ranges wide small rounded

/-- A long is accepted for a range exactly if each end that is there is kept or is rounded to the number that
the long is rounded to. So no long within the range is refused, and nothing but rounding accepts another:
where the end or the long is a safe integer, they compare as they are. -/
theorem rangesRound (done : ofModel job = .ok c)
    (found : job.model.shape? id = some (.struct members traits)) (listed : (name, member) ∈ members)
    (long : job.model.targetKind? member.target = some (some (.scalar .long)))
    (read : Traits.ofJson? (.object document) = some member.traits) (ranges : Traits.Ranges document min max)
    (wide : ∀ a ∈ min.toList ++ max.toList, (Number.whole a).Wide) (small : (Number.whole n).Wide)
    (given : entries.lookup name = some (.number (.whole n))) :
    ∃ o, c.validate id (.object entries) = .ok o ∧ o ≠ .endless ∧
      ((∀ i ∈ o.issues, i.path.head? ≠ some (.key name)) ↔
        (∀ a ∈ min, Binary64.AtMost a n) ∧ ∀ b ∈ max, Binary64.AtMost n b) ∧
      ∀ a ∈ min.toList ++ max.toList, Json.isSafe a = true ∨ Json.isSafe n = true →
        (Binary64.AtMost a n ↔ a ≤ n) ∧ (Binary64.AtMost n a ↔ n ≤ a) := by
  obtain ⟨o, validated, ends, accepted⟩ := longAccepted done found listed long read ranges wide small given
  have small' := Number.wideSmall small
  refine ⟨o, validated, ends, accepted, fun a mem safe => ?_⟩
  have near := Number.wideSmall (wide a mem)
  exact ⟨Binary64.atMostSafe near small' safe, Binary64.atMostSafe small' near safe.symm⟩

end

def Gauge.document : List (String × Json) :=
  [(Traits.Key.range, .object [("max", .number (.whole 9007199254740992))])]

def Gauge.reading : Member where
  target := Builtin.long.id
  traits := (Traits.ofJson? (.object Gauge.document)).getD .empty

def Gauge.members : List (String × Member) := [("reading", Gauge.reading)]

def gauge : Model where
  version := "2.0"
  shapes := [("example#Gauge", .struct Gauge.members .empty)]
  metadata := []
  distinct := by decide
  membersDistinct := by simp [Shape.memberNames, Gauge.members]

theorem gaugeCompletes : ∃ c, ofModel ⟨gauge, .standard⟩ = .ok c :=
  completes (fun b => by cases b <;> rfl) (by decide +kernel)

theorem gaugeShape : (Job.mk gauge .standard).model.shape? "example#Gauge" =
    some (.struct Gauge.members .empty) := rfl

theorem readingRead : Traits.ofJson? (.object Gauge.document) = some Gauge.reading.traits := by
  have there : (Traits.ofJson? (.object Gauge.document)).isSome = true := by decide +kernel
  obtain ⟨t, read⟩ := Option.isSome_iff_exists.mp there
  rw [Gauge.reading, read, Option.getD_some]

theorem readingRanges : Traits.Ranges Gauge.document none (some 9007199254740992) :=
  ⟨_, _, rfl, rfl, rfl, rfl⟩

theorem readingWide : ∀ a ∈ (none : Option Int).toList ++ (some 9007199254740992).toList,
    (Number.whole a).Wide := by
  intro a mem
  cases List.mem_singleton.mp mem
  exact ⟨by decide, by decide⟩

theorem readingRefused : ∃ c o, ofModel ⟨gauge, .standard⟩ = .ok c ∧
    c.validate "example#Gauge" (.object [("reading", .number (.whole 9007199254740994))]) = .ok o ∧
    ¬ ∀ i ∈ o.issues, i.path.head? ≠ some (.key "reading") := by
  obtain ⟨c, done⟩ := gaugeCompletes
  have listed : ("reading", Gauge.reading) ∈ Gauge.members := .head _
  have given : [("reading", Json.number (.whole 9007199254740994))].lookup "reading" =
      some (.number (.whole 9007199254740994)) := rfl
  obtain ⟨o, validated, -, accepted, -⟩ := rangesRound done gaugeShape listed rfl readingRead readingRanges
    readingWide ⟨by decide, by decide⟩ given
  refine ⟨c, o, done, validated, fun silent => ?_⟩
  rcases (accepted.mp silent).2 9007199254740992 rfl with order | same
  · exact absurd order (by decide)
  · exact absurd same (by decide +kernel)

theorem readingRounded : ∃ c o, ofModel ⟨gauge, .standard⟩ = .ok c ∧
    Traits.ofJson? (.object Gauge.document) = some Gauge.reading.traits ∧
    Traits.Ranges Gauge.document none (some 9007199254740992) ∧
    c.validate "example#Gauge" (.object [("reading", .number (.whole 9007199254740993))]) = .ok o ∧
    o ≠ .endless ∧ (∀ i ∈ o.issues, i.path.head? ≠ some (.key "reading")) ∧
    ¬ (9007199254740993 : Int) ≤ 9007199254740992 := by
  obtain ⟨c, done⟩ := gaugeCompletes
  have listed : ("reading", Gauge.reading) ∈ Gauge.members := .head _
  have given : [("reading", Json.number (.whole 9007199254740993))].lookup "reading" =
      some (.number (.whole 9007199254740993)) := rfl
  obtain ⟨o, validated, ends, accepted⟩ := longAccepted done gaugeShape listed rfl readingRead readingRanges
    readingWide ⟨by decide, by decide⟩ given
  refine ⟨c, o, done, readingRead, readingRanges, validated, ends, accepted.mpr ⟨nofun, fun b there => ?_⟩,
    by decide⟩
  cases there
  exact .inr (by decide +kernel)

end Contracts
end ShapeContracts
