import ShapeContracts.Evaluation
import ShapeContracts.Proofs.Interpretation
import ShapeContracts.Proofs.References

/-! Evaluation against interpretation, schema by schema. An outcome agrees with a reading when both accept
with the same value or neither accepts; every combinator of outcomes keeps agreement. -/
namespace ShapeContracts

namespace Outcome

inductive Agrees : Outcome α → Option α → Prop where
  | accepts (a : α) : Agrees (.valid a) (some a)
  | rejects (issues : List Issue) : Agrees (.invalid issues) none

variable {o : Outcome α} {r : Option α} {o' : Outcome β} {r' : Option β}

theorem agreesValid (agrees : o.Agrees r) {a : α} : o = .valid a ↔ r = some a := by
  cases agrees <;> simp

theorem agreesMap {f : α → β} (agrees : o.Agrees r) : (o.map f).Agrees (r.map f) := by
  cases agrees with
  | accepts a => exact .accepts (f a)
  | rejects issues => exact .rejects issues

theorem agreesBind {f : α → Outcome β} {g : α → Option β} {joined : Option β} (agrees : o.Agrees r)
    (each : ∀ a, (f a).Agrees (g a)) (same : r.bind g = joined) : (o.bind f).Agrees joined := by
  subst same
  cases agrees with
  | accepts a => exact each a
  | rejects issues => exact .rejects issues

theorem agreesBoth {f : α → β → γ} {joined : Option γ} (agrees : o.Agrees r) (agrees' : o'.Agrees r')
    (same : r.bind (fun a => r'.map (f a)) = joined) : (o.both f o').Agrees joined := by
  subst same
  cases agrees with
  | accepts a =>
    cases agrees' with
    | accepts b => exact .accepts (f a b)
    | rejects issues => exact .rejects issues
  | rejects issues =>
    cases agrees' with
    | accepts b => exact .rejects issues
    | rejects issues' => exact .rejects (issues ++ issues')

theorem agreesWithin (segment : PathSegment) (agrees : o.Agrees r) : (o.within segment).Agrees r := by
  cases agrees with
  | accepts a => exact .accepts a
  | rejects issues => exact .rejects _

theorem agreesFinish {issues : List Issue} {a : α} {fits : Bool} (free : issues = [] ↔ fits = true) :
    (finish issues a).Agrees (if fits then some a else none) := by
  cases issues with
  | nil =>
    rw [if_pos (free.mp rfl)]
    exact .accepts a
  | cons i rest =>
    rw [if_neg (fun fits => List.cons_ne_nil i rest (free.mpr fits))]
    exact .rejects _

end Outcome

/-! Bounds as conditions and as issues. -/
namespace Issue

theorem belowLengthNone (n min : Nat) : (belowLength? n min).isNone = decide (min ≤ n) := by
  unfold belowLength?
  split <;> simp <;> omega

theorem aboveLengthNone (n max : Nat) : (aboveLength? n max).isNone = decide (n ≤ max) := by
  unfold aboveLength?
  split <;> simp <;> omega

theorem belowValueNone (x min : Binary64) : (belowValue? x min).isNone = !x.lt min := by
  unfold belowValue?
  split <;> simp_all

theorem aboveValueNone (x max : Binary64) : (aboveValue? x max).isNone = !max.lt x := by
  unfold aboveValue?
  split <;> simp_all

theorem boundsNone {min max : Option α} {below above : α → Option Issue} :
    (min.bind below).toList ++ (max.bind above).toList = [] ↔
      (min.all (fun a => (below a).isNone) && max.all (fun a => (above a).isNone)) = true := by
  cases min <;> cases max <;> simp

end Issue

namespace Traits

variable {t : Traits}

theorem lengthIssues {n : Nat} : (t.minLength.bind (Issue.belowLength? n)).toList ++
    (t.maxLength.bind (Issue.aboveLength? n)).toList = [] ↔ t.lengthFits n = true := by
  simp only [Issue.boundsNone, Issue.belowLengthNone, Issue.aboveLengthNone, lengthFits]

theorem valueIssues {x : Binary64} : (t.minValue.bind (Issue.belowValue? x)).toList ++
    (t.maxValue.bind (Issue.aboveValue? x)).toList = [] ↔ t.valueFits x = true := by
  simp only [Issue.boundsNone, Issue.belowValueNone, Issue.aboveValueNone, valueFits]

theorem patternIssues {text : String} :
    (t.pattern.bind (fun p => Pattern.issue? p text)).toList = [] ↔ t.patternFits text = true := by
  unfold patternFits
  cases t.pattern with
  | none => simp
  | some pattern =>
    simp only [Option.bind_some, Option.all_some, Pattern.issue?]
    cases Pattern.parse (Pattern.anchored pattern) with
    | error e => simp [Pattern.verdict]
    | ok p => cases found : p.isFoundIn text.toList <;> simp [Pattern.verdict, found]

theorem textIssues {text : String} : Schema.checkText t.minLength t.maxLength t.pattern text = [] ↔
    (t.lengthFits (Text.unitLength text) && t.patternFits text) = true := by
  rw [Schema.checkText, List.append_eq_nil_iff, lengthIssues, patternIssues, Bool.and_eq_true]

theorem checksFit {j : Json} :
    (Structure.checks t).all (fun check => (check.issue? j).isNone) = t.fits j := by
  have length : ((t.minLength.map Check.minLength).toList ++ (t.maxLength.map Check.maxLength).toList).all
      (fun check => (check.issue? j).isNone) = j.length?.all t.lengthFits := by
    unfold lengthFits
    cases measured : j.length? <;> cases t.minLength <;> cases t.maxLength <;>
      simp [Check.issue?, measured, Issue.belowLengthNone, Issue.aboveLengthNone]
  have value : ((t.minValue.map Check.minValue).toList ++ (t.maxValue.map Check.maxValue).toList).all
      (fun check => (check.issue? j).isNone) = j.float?.all t.valueFits := by
    unfold valueFits
    cases measured : j.float? <;> cases t.minValue <;> cases t.maxValue <;>
      simp [Check.issue?, measured, Issue.belowValueNone, Issue.aboveValueNone]
  rw [Structure.checks, List.append_assoc, List.all_append, length, value, fits]

end Traits

namespace Schema

variable {schemas : Schemas} {followed : List String} {j : Json}

theorem timestampAgrees (format : TimestampFormat) :
    (evaluate schemas (.ofTimestampFormat format) (some j) followed).Agrees
      ((Interpretation.timestamp format j).map some) := by
  have simple : ((ofTimestampFormat format).evaluateSimple j).Agrees
      (Interpretation.timestamp format j) := by
    cases format with
    | dateTime =>
      cases j with
      | string text =>
        simp only [ofTimestampFormat, evaluateSimple, Interpretation.timestamp]
        cases Timestamp.normalize text with
        | ok normalized => exact .accepts _
        | error e => exact .rejects _
      | _ => exact .rejects _
    | httpDate =>
      cases j with
      | string text =>
        simp only [ofTimestampFormat, evaluateSimple, Interpretation.timestamp]
        cases Timestamp.checkHttpDate text with
        | ok u => exact .accepts _
        | error e => exact .rejects _
      | _ => exact .rejects _
    | epochSeconds =>
      simp only [ofTimestampFormat, evaluateSimple, Interpretation.timestamp]
      cases j.float? with
      | some x => exact .accepts _
      | none => exact .rejects _
  have lifted := Outcome.agreesMap (f := some) simple
  cases format <;>
    · rw [ofTimestampFormat, evaluate.eq_def]
      exact lifted

theorem numberAgrees {traits : Traits} :
    (evaluate schemas (.number true traits.minValue traits.maxValue) (some j) followed).Agrees
      ((j.float?.bind (fun x => if j.isSafeInteger && traits.valueFits x then some j else none)).map
        some) := by
  rw [evaluate.eq_def]
  refine Outcome.agreesMap ?_
  simp only [evaluateSimple]
  cases j.float? with
  | none => exact .rejects _
  | some x =>
    simp only [checkNumber, Option.bind_some, Bool.true_and]
    cases j.isSafeInteger with
    | false => exact .rejects _
    | true => exact Outcome.agreesFinish (by rw [Traits.valueIssues, Bool.true_and])

theorem stringAgrees {traits : Traits} {text : String} :
    (evaluate schemas (.string traits.minLength traits.maxLength traits.pattern)
      (some (.string text)) followed).Agrees
      ((if traits.lengthFits (Text.unitLength text) && traits.patternFits text
        then some (Json.string text) else none).map some) := by
  rw [evaluate.eq_def]
  exact Outcome.agreesMap (Outcome.agreesFinish Traits.textIssues)

theorem scalarAgrees (scope : Scope) {space : String} {traits : Traits} {format : TimestampFormat}
    (kind : Scalar) (formatted : kind = .timestamp →
      scope.scalarSchema space traits .timestamp = .ofTimestampFormat format) :
    (evaluate schemas (scope.scalarSchema space traits kind) (some j) followed).Agrees
      ((Interpretation.scalar format traits kind j).map some) := by
  cases kind with
  | timestamp =>
    rw [formatted rfl]
    exact timestampAgrees format
  | integer => exact numberAgrees
  | document =>
    rw [Scope.scalarSchema, evaluate.eq_def]
    exact .accepts _
  | string =>
    cases j with
    | string text => exact stringAgrees
    | _ =>
      rw [Scope.scalarSchema, evaluate.eq_def]
      exact .rejects _
  | boolean =>
    rw [Scope.scalarSchema, evaluate.eq_def]
    cases j with
    | bool b => exact .accepts _
    | _ => exact .rejects _
  | long =>
    rw [Scope.scalarSchema, evaluate.eq_def]
    cases j with
    | number n =>
      cases n with
      | whole n => exact .accepts _
      | float x => exact .rejects _
    | _ => exact .rejects _
  | blob =>
    rw [Scope.scalarSchema, evaluate.eq_def]
    cases j with
    | array items =>
      simp only [evaluateSimple, Interpretation.scalar]
      split
      · exact .accepts _
      · exact .rejects _
    | _ => exact .rejects _

theorem builtinAgrees (scope : Scope) (b : Builtin) :
    (evaluate schemas b.schema (some j) followed).Agrees ((Interpretation.builtin b j).map some) := by
  have unbounded (kind : Scalar) (apart : kind ≠ .timestamp) :
      (evaluate schemas (scope.scalarSchema "" .empty kind) (some j) followed).Agrees
        ((Interpretation.scalar .dateTime .empty kind j).map some) :=
    scalarAgrees scope kind (fun same => absurd same apart)
  cases b with
  | string => exact unbounded .string (by decide)
  | boolean => exact unbounded .boolean (by decide)
  | integer => exact unbounded .integer (by decide)
  | long => exact unbounded .long (by decide)
  | blob => exact unbounded .blob (by decide)
  | document => exact unbounded .document (by decide)
  | timestamp => exact timestampAgrees .dateTime
  | unit =>
    rw [Builtin.schema, evaluate.eq_def]
    exact .accepts _

theorem enumAgrees {typeName : String} {members : List (String × Member)} :
    (evaluate schemas (Enum.schema typeName members) (some j) followed).Agrees
      ((match j with
        | .string text =>
          if text ∈ members.map (fun (m : String × Member) => Enum.valueOf m.1 m.2) then some j else none
        | _ => none).map some) := by
  rw [Enum.schema, evaluate.eq_def]
  cases j with
  | string text =>
    refine Outcome.agreesMap ?_
    simp only [evaluateSimple]
    split
    · exact .accepts _
    · exact .rejects _
  | _ => exact .rejects _

/-! Notes, deferral and bounds around a schema. -/

theorem evaluateNotes {notes : List String} {s : Schema} {value : Option Json} :
    evaluate schemas (withNotes notes s) value followed = evaluate schemas s value followed := by
  induction notes with
  | nil => rfl
  | cons note rest ih =>
    have marked : withNotes (note :: rest) s = .marked note (withNotes rest s) := rfl
    rw [marked, evaluate, ih]

theorem evaluateReplaced {s replacement : Schema} {value : Option Json} :
    evaluate schemas (s.replaceMarked replacement) value followed =
      evaluate schemas replacement value followed := by
  fun_induction replaceMarked s replacement with
  | case1 replacement comment inner ih => rw [evaluate, ih]
  | case2 => rfl

theorem evaluateMarked {res : Resolution} {role target owner : String} {value : Option Json} :
    evaluate schemas (Scope.markUnresolved res role target owner) value followed =
      evaluate schemas res.schema value followed := by
  unfold Scope.markUnresolved
  split
  · rfl
  · rw [evaluate]

theorem refinedAgrees (checks : List Check) {s : Schema} {value : Option Json}
    {r : Option (Option Json)} (agrees : (evaluate schemas s value followed).Agrees r) :
    (evaluate schemas (checks.foldl .refine s) value followed).Agrees
      (r.filter (fun parsed => checks.all (fun check => (parsed.bind check.issue?).isNone))) := by
  induction checks generalizing s r with
  | nil =>
    have unbounded : r.filter (fun _ => true) = r := by cases r <;> rfl
    rw [List.foldl_nil]
    simpa only [List.all_nil, unbounded] using agrees
  | cons check rest ih =>
    have once : (evaluate schemas (.refine s check) value followed).Agrees
        (r.filter (fun parsed => (parsed.bind check.issue?).isNone)) := by
      rw [evaluate]
      generalize evaluate schemas s value followed = o at agrees
      cases agrees with
      | rejects issues => exact .rejects issues
      | accepts parsed =>
        rw [Option.filter_some]
        exact Outcome.agreesFinish (by cases parsed.bind check.issue? <;> simp)
    have all := ih once
    rw [Option.filter_filter] at all
    simpa only [List.foldl_cons, List.all_cons] using all

/-! Parts of values. -/

theorem firstRepeatNone {seen texts : List String} {i : Nat} :
    Issue.firstRepeat? seen texts i = none ↔ texts.Nodup ∧ ∀ text ∈ texts, text ∉ seen := by
  induction texts generalizing seen i with
  | nil => simp [Issue.firstRepeat?]
  | cons text rest ih =>
    rw [Issue.firstRepeat?]
    split
    · simp_all
    · rename_i fresh
      rw [ih, List.nodup_cons, List.forall_mem_cons]
      simp only [List.mem_cons, not_or]
      constructor
      · rintro ⟨distinct, apart⟩
        exact ⟨⟨fun mem => (apart text mem).1 rfl, distinct⟩, fresh, fun t mem => (apart t mem).2⟩
      · rintro ⟨⟨absent, distinct⟩, -, apart⟩
        exact ⟨distinct, fun t mem => ⟨fun same => absent (same ▸ mem), apart t mem⟩⟩

theorem uniqueIssues {unique : Bool} {items : List Json} :
    (if unique then (Issue.repeatedItem? items).toList else []) = [] ↔
      (!unique || decide (items.map Json.render).Nodup) = true := by
  cases unique with
  | false => simp
  | true => simp [Issue.repeatedItem?, firstRepeatNone]

theorem uniqueAgrees (unique : Bool) (items : List Json) : (checkUnique unique items).Agrees
    (if !unique || decide (items.map Json.render).Nodup then some (.array items) else none) :=
  Outcome.agreesFinish uniqueIssues

variable {job : Job}

theorem itemsAgrees {item : Schema} {target : String} {items : List Json} {i : Nat}
    (each : ∀ j ∈ items, (evaluate schemas item (some j) []).Agrees
      ((Interpretation.interpret job [] target j).map some)) :
    (evaluateItems schemas item items i).Agrees (Interpretation.interpretItems job target items) := by
  induction items generalizing i with
  | nil =>
    rw [evaluateItems, Interpretation.interpretItems]
    exact .accepts _
  | cons j rest ih =>
    have first := each j List.mem_cons_self
    have others := ih (i := i + 1) (fun j' mem => each j' (List.mem_cons_of_mem _ mem))
    rw [evaluateItems, Interpretation.interpretItems]
    refine Outcome.agreesBoth (Outcome.agreesWithin _ first) others ?_
    rw [Option.bind_map]
    rfl

theorem listAgrees {item : Schema} {target : String} {traits : Traits}
    (each : ∀ items, j = Json.array items → ∀ j' ∈ items, (evaluate schemas item (some j') []).Agrees
      ((Interpretation.interpret job [] target j').map some)) :
    (evaluate schemas (.array item traits.minLength traits.maxLength traits.hasUniqueItems) (some j)
      followed).Agrees ((match j with
        | .array items => (Interpretation.interpretItems job target items).bind (fun read =>
            if traits.lengthFits items.length &&
              (!traits.hasUniqueItems || decide (read.map Json.render).Nodup)
            then some (Json.array read) else none)
        | _ => none).map some) := by
  rw [evaluate.eq_def]
  cases j with
  | array items =>
    refine Outcome.agreesMap ?_
    have long : (checkLength traits.minLength traits.maxLength items).Agrees
        (if traits.lengthFits items.length then some () else none) :=
      Outcome.agreesFinish Traits.lengthIssues
    refine Outcome.agreesBind (Outcome.agreesBoth (itemsAgrees (each items rfl)) long rfl)
      (uniqueAgrees traits.hasUniqueItems) ?_
    rw [Option.bind_assoc]
    refine Option.bind_congr (fun read _ => ?_)
    cases traits.lengthFits items.length <;> simp
  | _ => exact .rejects _

theorem entriesAgrees {key value : Schema} {keyTarget valueTarget : String}
    {entries : List (String × Json)}
    (each : ∀ e ∈ entries, (evaluate schemas key (some (.string e.1)) []).Agrees
        ((Interpretation.interpret job [] keyTarget (.string e.1)).map some) ∧
      (evaluate schemas value (some e.2) []).Agrees
        ((Interpretation.interpret job [] valueTarget e.2).map some)) :
    (evaluateEntries schemas key value entries).Agrees
      (Interpretation.interpretEntries job keyTarget valueTarget entries) := by
  induction entries with
  | nil =>
    rw [evaluateEntries, Interpretation.interpretEntries]
    exact .accepts _
  | cons e rest ih =>
    obtain ⟨name, j⟩ := e
    obtain ⟨keyed, valued⟩ := each _ List.mem_cons_self
    have others := ih (fun e mem => each e (List.mem_cons_of_mem _ mem))
    rw [evaluateEntries, Interpretation.interpretEntries]
    refine Outcome.agreesBoth (Outcome.agreesWithin _ (Outcome.agreesBind keyed (fun _ => valued) rfl))
      others ?_
    rw [Option.bind_assoc]
    simp only [Option.bind_map]
    rfl

theorem mapAgrees {key value : Schema} {keyTarget valueTarget : String}
    (each : ∀ entries, j = Json.object entries → ∀ e ∈ entries,
      (evaluate schemas key (some (.string e.1)) []).Agrees
        ((Interpretation.interpret job [] keyTarget (.string e.1)).map some) ∧
      (evaluate schemas value (some e.2) []).Agrees
        ((Interpretation.interpret job [] valueTarget e.2).map some)) :
    (evaluate schemas (.record key value) (some j) followed).Agrees ((match j with
        | .object entries => (Interpretation.interpretEntries job keyTarget valueTarget entries).map
            Json.object
        | _ => none).map some) := by
  rw [evaluate.eq_def]
  cases j with
  | object entries =>
    have read := Outcome.agreesMap (f := fun entries => some (Json.object entries))
      (entriesAgrees (each entries rfl))
    simpa only [Option.map_map, Function.comp_def] using read
  | _ => exact .rejects _

theorem othersAgrees {issues : List Issue} {unions : List String} {members : List (String × Member)}
    {schema : String × Member → Schema}
    (each : ∀ m ∈ members, (evaluate schemas (schema m) (some j) followed).Agrees
      ((Interpretation.interpret job unions m.2.target j).map some)) :
    (evaluateOthers schemas issues (members.map schema) j followed).Agrees
      ((Interpretation.interpretFirst job unions members j).map some) := by
  induction members with
  | nil =>
    rw [List.map_nil, evaluateOthers, Interpretation.interpretFirst]
    exact .rejects _
  | cons m rest ih =>
    have first := each m List.mem_cons_self
    obtain ⟨name, member⟩ := m
    rw [List.map_cons, evaluateOthers, Interpretation.interpretFirst]
    cases read : Interpretation.interpret job unions member.target j with
    | some w =>
      simp only [read, Option.map_some] at first
      rw [Outcome.agreesValid first |>.mpr rfl]
      exact .accepts _
    | none =>
      simp only [read, Option.map_none] at first
      generalize evaluate schemas (schema (name, member)) (some j) followed = o at first
      cases first
      exact ih (fun m mem => each m (List.mem_cons_of_mem _ mem))

theorem unionAgrees {unions : List String} {members : List (String × Member)}
    {schema : String × Member → Schema}
    (each : ∀ m ∈ members, (evaluate schemas (schema m) (some j) followed).Agrees
      ((Interpretation.interpret job unions m.2.target j).map some)) :
    (evaluate schemas (.union (members.map schema)) (some j) followed).Agrees
      ((Interpretation.interpretFirst job unions members j).map some) := by
  cases members with
  | nil =>
    rw [List.map_nil, evaluate, Interpretation.interpretFirst]
    exact .rejects _
  | cons m rest =>
    -- the issues of the first alternative do not matter here
    have first := each m List.mem_cons_self
    obtain ⟨name, member⟩ := m
    rw [List.map_cons, evaluate, evaluateUnion, Interpretation.interpretFirst]
    cases read : Interpretation.interpret job unions member.target j with
    | some w =>
      simp only [read, Option.map_some] at first
      rw [Outcome.agreesValid first |>.mpr rfl]
      exact .accepts _
    | none =>
      simp only [read, Option.map_none] at first
      generalize evaluate schemas (schema (name, member)) (some j) followed = o at first
      cases first
      exact othersAgrees (fun m mem => each m (List.mem_cons_of_mem _ mem))

end Schema
end ShapeContracts
