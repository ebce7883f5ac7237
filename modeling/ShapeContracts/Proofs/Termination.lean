import ShapeContracts.Proofs.References
import ShapeContracts.Proofs.FatalExact

/-! Validation ends and misses no schema. A schema calls others on the same value or on a smaller one;
behind a reference stands the schema of a declaration, which calls others on smaller values only, so
that no chain of calls goes on for ever. -/
namespace ShapeContracts

namespace Issue

def Dangling (i : Issue) : Prop := ∃ id, i.message = "No schema generated for " ++ id

variable {i : Issue} {rest : List String}

theorem sparesOther (c : Char) (begins : i.message.toList.head? = some c) (apart : c ≠ 'N') :
    ¬ i.Dangling := by
  rintro ⟨id, same⟩
  have first : ("No schema generated for ".toList ++ id.toList).head? = some 'N' := by
    rw [show "No schema generated for ".toList = 'N' :: "o schema generated for ".toList by decide]
    rfl
  rw [same, String.toList_append, first] at begins
  exact apart (Option.some.inj begins).symm

theorem joinBegins {first : String} {c : Char} (begins : first.toList.head? = some c) :
    (String.join (first :: rest)).toList.head? = some c := by
  rw [String.toList_join, List.flatMap_cons, List.head?_append, begins]
  rfl

theorem repeatBound {texts seen : List String} {start place : Nat}
    (found : firstRepeat? seen texts start = some place) :
    ∃ k, place = start + k ∧ k < texts.length := by
  induction texts generalizing seen start with
  | nil => contradiction
  | cons text rest ih =>
    rw [firstRepeat?] at found
    split at found
    · obtain rfl := Option.some.inj found
      exact ⟨0, rfl, by simp⟩
    · obtain ⟨k, rfl, less⟩ := ih found
      exact ⟨k + 1, by omega, by simpa using less⟩

theorem repeatedPlace {items : List Json} (mem : i ∈ repeatedItem? items) :
    (∃ k, i.path = [.index k] ∧ k < items.length) ∧ ¬ i.Dangling := by
  obtain ⟨place, found, rfl⟩ := Option.map_eq_some_iff.mp mem
  obtain ⟨k, rfl, less⟩ := repeatBound found
  have begins : "Duplicate items are not allowed.".toList.head? = some 'D' := by decide
  exact ⟨⟨0 + k, rfl, by simpa using less⟩, sparesOther 'D' begins (by decide)⟩

structure Direct (i : Issue) : Prop where
  whole : i.path = []
  spares : ¬ i.Dangling

structure Plain (i : Issue) : Prop extends Direct i where
  typed : i.code ≠ .invalidType

theorem directNew {code : IssueCode} {message : String} (c : Char)
    (begins : message.toList.head? = some c) (apart : c ≠ 'N') : (new code message).Direct :=
  ⟨rfl, sparesOther c begins apart⟩

theorem plainBound {exceeds : Prop} [Decidable exceeds] {code : IssueCode} {first : String}
    (typed : code ≠ .invalidType) (begins : first.toList.head? = some 'T') :
    ∀ i ∈ (if exceeds then some (new code (String.join (first :: rest))) else none), i.Plain := by
  intro i mem
  split at mem
  · obtain rfl := Option.some.inj mem
    exact ⟨directNew 'T' (joinBegins begins) (by decide), typed⟩
  · contradiction

theorem plainBounds {min max : Option α} {below above : α → Option Issue}
    (under : ∀ a, ∀ i ∈ below a, i.Plain) (beyond : ∀ a, ∀ i ∈ above a, i.Plain) :
    ∀ i ∈ (min.bind below).toList ++ (max.bind above).toList, i.Plain := by
  intro i mem
  simp only [List.mem_append, Option.mem_toList, Option.bind_eq_some_iff] at mem
  rcases mem with ⟨a, -, mem⟩ | ⟨a, -, mem⟩
  · exact under a i mem
  · exact beyond a i mem

theorem plainLength {min max : Option Nat} {length : Nat} :
    ∀ i ∈ (min.bind (belowLength? length)).toList ++ (max.bind (aboveLength? length)).toList, i.Plain :=
  plainBounds (fun _ => plainBound (by decide) (by decide)) (fun _ => plainBound (by decide) (by decide))

theorem plainValue {min max : Option Binary64} {value : Binary64} :
    ∀ i ∈ (min.bind (belowValue? value)).toList ++ (max.bind (aboveValue? value)).toList, i.Plain :=
  plainBounds (fun _ => plainBound (by decide) (by decide)) (fun _ => plainBound (by decide) (by decide))

theorem plainCheck {check : Check} {j : Json} : ∀ i ∈ check.issue? j, i.Plain := by
  intro i mem
  cases check <;>
    obtain ⟨measured, -, mem⟩ := Option.bind_eq_some_iff.mp mem <;>
    exact plainBound (by decide) (by decide) i mem

theorem plainPattern {pattern text : String} : ∀ i ∈ Pattern.issue? pattern text, i.Plain := by
  intro i mem
  unfold Pattern.issue? at mem
  cases read : Pattern.parse (Pattern.anchored pattern) with
  | error e =>
    rw [read] at mem
    obtain rfl := Option.some.inj mem
    exact ⟨directNew 'P' (joinBegins (by decide)) (by decide), by simp [Pattern.unreadable, new]⟩
  | ok p =>
    rw [read, Pattern.verdict] at mem
    split at mem
    · contradiction
    · obtain rfl := Option.some.inj mem
      exact ⟨directNew 'I' (joinBegins (by decide)) (by decide), by simp [Pattern.noMatch, new]⟩

theorem plainText {min max : Option Nat} {pattern : Option String} {text : String} :
    ∀ i ∈ Schema.checkText min max pattern text, i.Plain := by
  intro i mem
  rcases List.mem_append.mp mem with mem | mem
  · exact plainLength i mem
  · obtain ⟨p, -, mem⟩ := Option.bind_eq_some_iff.mp (Option.mem_toList.mp mem)
    exact plainPattern i mem

end Issue

namespace Outcome

/-- A failure gives reasons, and all of them are of one sort; `ends` is what an endless outcome comes to. -/
def Reports (ends : Prop) (sort : Issue → Prop) : Outcome α → Prop
  | valid _ => True
  | invalid issues => issues ≠ [] ∧ ∀ i ∈ issues, sort i
  | endless => ends

def Settled : Outcome α → Prop
  | valid _ => True
  | invalid issues => ∀ i ∈ issues, ¬ i.Dangling
  | endless => False

variable {o : Outcome α} {o' : Outcome β} {ends : Prop} {sort : Issue → Prop}

theorem reportsMono {ends' : Prop} {sort' : Issue → Prop} (reports : o.Reports ends sort)
    (le : ends → ends') (each : ∀ i, sort i → sort' i) : o.Reports ends' sort' := by
  cases o with
  | valid a => trivial
  | invalid issues => exact ⟨reports.1, fun i mem => each i (reports.2 i mem)⟩
  | endless => exact le reports

theorem reportsSettled (reports : o.Reports False (fun i => ¬ i.Dangling)) : o.Settled := by
  cases o with
  | valid a => trivial
  | invalid issues => exact reports.2
  | endless => exact reports

theorem reportsIssue {code : IssueCode} {message : String} (here : sort (.new code message)) :
    (issue code message : Outcome α).Reports ends sort :=
  ⟨List.cons_ne_nil _ _, fun _ mem => List.mem_singleton.mp mem ▸ here⟩

theorem reportsMap {f : α → β} (reports : o.Reports ends sort) : (o.map f).Reports ends sort := by
  cases o <;> exact reports

theorem settledMap {f : α → β} (settled : o.Settled) : (o.map f).Settled := by
  cases o <;> exact settled

theorem reportsBind {f : α → Outcome β} (reports : o.Reports ends sort)
    (each : ∀ a, o = .valid a → (f a).Reports ends sort) : (o.bind f).Reports ends sort := by
  cases o with
  | valid a => exact each a rfl
  | _ => exact reports

theorem reportsBoth {f : α → β → γ} (reports : o.Reports ends sort) (reports' : o'.Reports ends sort) :
    (o.both f o').Reports ends sort := by
  cases o with
  | endless => exact reports
  | valid a =>
    cases o' with
    | valid b => trivial
    | _ => exact reports'
  | invalid i =>
    cases o' with
    | endless => exact reports'
    | valid b => exact reports
    | invalid j =>
      exact ⟨fun none => reports.1 (List.append_eq_nil_iff.mp none).1,
        List.forall_mem_append.mpr ⟨reports.2, reports'.2⟩⟩

theorem reportsWithin {segment : PathSegment}
    (reports : o.Reports ends (fun i => sort (i.within segment))) :
    (o.within segment).Reports ends sort := by
  cases o with
  | invalid issues =>
    refine ⟨fun none => reports.1 (List.map_eq_nil_iff.mp none), fun i mem => ?_⟩
    obtain ⟨j, inside, rfl⟩ := List.mem_map.mp mem
    exact reports.2 j inside
  | _ => exact reports

theorem reportsFinish {issues : List Issue} {a : α} (each : ∀ i ∈ issues, sort i) :
    (finish issues a).Reports ends sort := by
  unfold finish
  split
  · trivial
  · rename_i some
    exact ⟨by simpa using some, each⟩

theorem reportsOfOption {found : Option α} (otherwise : o.Reports ends sort) :
    (ofOption found o).Reports ends sort := by
  cases found with
  | none => exact otherwise
  | some a => trivial

theorem bothValid {f : α → β → γ} {c : γ} (valid : o.both f o' = .valid c) :
    ∃ a b, o = .valid a ∧ o' = .valid b ∧ c = f a b := by
  cases o <;> cases o' <;> first
    | contradiction
    | exact ⟨_, _, rfl, rfl, (Outcome.valid.inj valid).symm⟩

end Outcome

namespace Schema

variable {schemas : Schemas} {ends : Prop} {sort : Issue → Prop}

theorem mismatchReports (s : Schema) (received : String) :
    (s.mismatch received : Outcome α).Reports ends Issue.Direct :=
  Outcome.reportsIssue (Issue.directNew 'I' (Issue.joinBegins (by decide)) (by decide))

theorem numberReports {integer : Bool} {min max : Option Binary64} {j : Json} {x : Binary64} :
    (checkNumber integer min max j x).Reports ends Issue.Direct := by
  unfold checkNumber
  split
  · exact Outcome.reportsIssue (Issue.directNew 'I' (by decide) (by decide))
  · exact Outcome.reportsFinish (fun i mem => (Issue.plainValue i mem).toDirect)

theorem simpleReports (s : Schema) (j : Json) : (s.evaluateSimple j).Reports ends Issue.Direct := by
  have timestamps (e : TimestampError) :
      (Outcome.issue .invalidFormat e.message : Outcome Json).Reports ends Issue.Direct := by
    refine Outcome.reportsIssue ?_
    cases e <;> exact Issue.directNew 'I' (Issue.joinBegins (by decide)) (by decide)
  unfold evaluateSimple
  split
  · split
    · exact Outcome.reportsFinish (fun i mem => (Issue.plainText i mem).toDirect)
    · exact mismatchReports _ _
  · split
    · exact numberReports
    · exact mismatchReports _ _
  · exact Outcome.reportsOfOption (mismatchReports _ _)
  · exact Outcome.reportsOfOption (mismatchReports _ _)
  · split
    · split
      · trivial
      · exact mismatchReports _ _
    · exact mismatchReports _ _
  · split
    · split
      · trivial
      · exact timestamps _
    · exact mismatchReports _ _
  · split
    · split
      · trivial
      · exact timestamps _
    · exact mismatchReports _ _
  · exact Outcome.reportsOfOption (mismatchReports _ _)
  · split
    · split
      · trivial
      · exact Outcome.reportsIssue (Issue.directNew 'I' (Issue.joinBegins (by decide)) (by decide))
    · exact mismatchReports _ _
  · exact mismatchReports _ _

/-- What the evaluation of a schema on a value, or on an absent one, evaluates in turn. -/
inductive Calls (schemas : Schemas) : Schema × Option Json → Schema × Option Json → Prop where
  | optional {inner j} : Calls schemas (.optional inner, some j) (inner, some j)
  | withDefault {inner fallback j} : Calls schemas (.withDefault inner fallback, some j) (inner, some j)
  | marked {comment inner value} : Calls schemas (.marked comment inner, value) (inner, value)
  | lazy {inner value} : Calls schemas (.lazy inner, value) (inner, value)
  | refine {inner check value} : Calls schemas (.refine inner check, value) (inner, value)
  | ref {r t value} (found : schemas.lookup r.shapeId = some t) : Calls schemas (.ref r, value) (t, value)
  | member {members s j} (mem : s ∈ members) : Calls schemas (.union members, some j) (s, some j)
  | item {item min max unique items j} (mem : j ∈ items) :
      Calls schemas (.array item min max unique, some (.array items)) (item, some j)
  | key {key value entries name j} (mem : (name, j) ∈ entries) :
      Calls schemas (.record key value, some (.object entries)) (key, some (.string name))
  | value {key value entries name j} (mem : (name, j) ∈ entries) :
      Calls schemas (.record key value, some (.object entries)) (value, some j)
  | field {fields name s comments entries} (mem : (name, s, comments) ∈ fields) :
      Calls schemas (.object fields, some (.object entries)) (s, entries.lookup name)

def Closed (schemas : Schemas) (s : Schema) : Prop :=
  ∀ r d, s.Refers r d → ∃ t, schemas.lookup r.shapeId = some t ∧ Contracts.Stands r.kind t

def isDeclared : Schema → Bool
  | .object _ | .enum .. => true
  | _ => false

theorem standsDeclared {kind : ShapeKind} {t : Schema} (stands : Contracts.Stands kind t) :
    t.isDeclared = true := by
  cases stands <;> rfl

variable {schemas : Schemas}

theorem callsClosed (all : ∀ id t, schemas.lookup id = some t → Closed schemas t)
    {x y : Schema × Option Json} (calls : Calls schemas x y) (closed : Closed schemas x.1) :
    Closed schemas y.1 := by
  intro r d inside
  cases calls with
  | optional => exact closed r d (.optional inside)
  | withDefault => exact closed r d (.withDefault inside)
  | marked => exact closed r d (.marked inside)
  | lazy => exact closed r true (.lazy inside)
  | refine => exact closed r d (.refine inside)
  | ref found => exact all _ _ found r d inside
  | member mem => exact closed r d (.member mem inside)
  | item => exact closed r d (.item inside)
  | key => exact closed r d (.key inside)
  | value => exact closed r d (.value inside)
  | field mem => exact closed r d (.field mem inside)

noncomputable def weight (x : Schema × Option Json) : Nat × Nat × Nat :=
  (sizeOf x.2, if x.1.isDeclared then 0 else 1, sizeOf x.1)

theorem sizeOfMem [SizeOf α] {a : α} {l : List α} (mem : a ∈ l) : sizeOf a < sizeOf l :=
  List.sizeOf_lt_of_mem mem

theorem partLess {s inner : Schema} {value : Option Json} (apart : s.isDeclared = false)
    (smaller : sizeOf inner < sizeOf s) :
    Prod.Lex (· < ·) (Prod.Lex (· < ·) (· < ·)) (weight (inner, value)) (weight (s, value)) := by
  unfold weight
  refine .right _ ?_
  simp only [apart, Bool.false_eq_true, if_false]
  split
  · exact .left _ _ (by omega)
  · exact .right _ smaller

theorem valueLess {s inner : Schema} {value value' : Option Json} (smaller : sizeOf value' < sizeOf value) :
    Prod.Lex (· < ·) (Prod.Lex (· < ·) (· < ·)) (weight (inner, value')) (weight (s, value)) :=
  .left _ _ smaller

theorem callsLess {x y : Schema × Option Json} (calls : Calls schemas x y)
    (closed : Closed schemas x.1) :
    Prod.Lex (· < ·) (Prod.Lex (· < ·) (· < ·)) (weight y) (weight x) := by
  cases calls with
  | optional | withDefault | marked | lazy | refine => exact partLess rfl (by simp +arith)
  | member mem =>
    have smaller := sizeOfMem mem
    refine partLess rfl ?_
    simp only [union.sizeOf_spec]
    omega
  | @ref r t value found =>
    obtain ⟨t', found', stands⟩ := closed r false (.here r)
    obtain rfl := Option.some.inj (found.symm.trans found')
    unfold weight
    rw [standsDeclared stands]
    exact .right _ (.left _ _ Nat.zero_lt_one)
  | item mem =>
    have smaller := sizeOfMem mem
    refine valueLess ?_
    simp only [Option.some.sizeOf_spec, Json.array.sizeOf_spec]
    omega
  | key mem =>
    have smaller := sizeOfMem mem
    refine valueLess ?_
    simp only [Option.some.sizeOf_spec, Json.object.sizeOf_spec, Json.string.sizeOf_spec,
      Prod.mk.sizeOf_spec] at smaller ⊢
    omega
  | value mem =>
    have smaller := sizeOfMem mem
    refine valueLess ?_
    simp only [Option.some.sizeOf_spec, Json.object.sizeOf_spec, Prod.mk.sizeOf_spec] at smaller ⊢
    omega
  | @field fields name s comments entries mem =>
    have smaller := lookupOptionSmaller entries name
    refine valueLess ?_
    simp only [Option.some.sizeOf_spec, Json.object.sizeOf_spec]
    omega

theorem callsEnd (all : ∀ id t, schemas.lookup id = some t → Closed schemas t)
    {x : Schema × Option Json} (closed : Closed schemas x.1) :
    Acc (fun y x => Calls schemas x y) x := by
  have ends : WellFounded (Prod.Lex (· < ·) (Prod.Lex (· < ·) (· < ·)) :
      Nat × Nat × Nat → Nat × Nat × Nat → Prop) :=
    (Prod.lex Nat.lt_wfRel (Prod.lex Nat.lt_wfRel Nat.lt_wfRel)).wf
  induction descent : weight x using ends.induction generalizing x with
  | _ w ih =>
    subst descent
    exact .intro x (fun y calls => ih _ (callsLess calls closed) (callsClosed all calls closed) rfl)

/-! Compound values: what is reported of a part is reported within its segment. -/

theorem itemsReport {item : Schema} {items : List Json} {start : Nat}
    (each : ∀ i j, items[i]? = some j → (evaluate schemas item (some j) []).Reports ends
      (fun issue => sort (issue.within (.index (start + i))))) :
    (evaluateItems schemas item items start).Reports ends sort := by
  induction items generalizing start with
  | nil =>
    rw [evaluateItems]
    trivial
  | cons j rest ih =>
    rw [evaluateItems]
    refine Outcome.reportsBoth (Outcome.reportsWithin (each 0 j rfl)) (ih fun i j nth => ?_)
    rw [Nat.add_assoc, Nat.add_comm 1]
    exact each (i + 1) j nth

theorem itemsLength {item : Schema} {items parsed : List Json} {start : Nat}
    (valid : evaluateItems schemas item items start = .valid parsed) :
    parsed.length = items.length := by
  induction items generalizing start parsed with
  | nil =>
    rw [evaluateItems] at valid
    rw [← Outcome.valid.inj valid]
  | cons j rest ih =>
    rw [evaluateItems] at valid
    obtain ⟨first, others, -, later, rfl⟩ := Outcome.bothValid valid
    rw [List.length_cons, List.length_cons, ih later]

theorem arrayReports {item : Schema} {items : List Json} {min max : Option Nat} {unique : Bool}
    (direct : ∀ i : Issue, i.Direct → sort i)
    (placed : ∀ i : Issue, ∀ k < items.length, i.path = [.index k] → ¬ i.Dangling → sort i)
    (each : ∀ i j, items[i]? = some j → (evaluate schemas item (some j) []).Reports ends
      (fun issue => sort (issue.within (.index i)))) :
    (((evaluateItems schemas item items 0).both (fun parsed () => parsed)
      (checkLength min max items)).bind (checkUnique unique)).Reports ends sort := by
  have itemised : (evaluateItems schemas item items 0).Reports ends sort :=
    itemsReport (fun i j nth => by rw [Nat.zero_add]; exact each i j nth)
  have long : (checkLength min max items).Reports ends sort :=
    Outcome.reportsFinish (fun i mem => direct i (Issue.plainLength i mem).toDirect)
  refine Outcome.reportsBind (Outcome.reportsBoth itemised long) (fun parsed valid => ?_)
  refine Outcome.reportsFinish (fun i mem => ?_)
  split at mem
  · -- the issue has its index from the parsed items, which are as many as the items
    obtain ⟨same, -, read, -, rfl⟩ := Outcome.bothValid valid
    obtain ⟨⟨k, path, less⟩, spares⟩ := Issue.repeatedPlace (Option.mem_toList.mp mem)
    exact placed i k (itemsLength read ▸ less) path spares
  · contradiction

theorem entriesReport {key value : Schema} {entries : List (String × Json)}
    (each : ∀ e ∈ entries,
      (evaluate schemas key (some (.string e.1)) []).Reports ends
        (fun issue => sort (issue.within (.key e.1))) ∧
      (evaluate schemas value (some e.2) []).Reports ends
        (fun issue => sort (issue.within (.key e.1)))) :
    (evaluateEntries schemas key value entries).Reports ends sort := by
  induction entries with
  | nil =>
    rw [evaluateEntries]
    trivial
  | cons e rest ih =>
    obtain ⟨name, j⟩ := e
    obtain ⟨keyed, valued⟩ := each _ List.mem_cons_self
    rw [evaluateEntries]
    exact Outcome.reportsBoth (Outcome.reportsWithin (Outcome.reportsBind keyed (fun _ _ => valued)))
      (ih (fun e mem => each e (List.mem_cons_of_mem _ mem)))

theorem fieldsReport {fields : List (String × Schema × List String)} {entries : List (String × Json)}
    (each : ∀ f ∈ fields, (evaluate schemas f.2.1 (entries.lookup f.1) []).Reports ends
      (fun issue => sort (issue.within (.key f.1)))) :
    (evaluateFields schemas fields entries).Reports ends sort := by
  induction fields with
  | nil =>
    rw [evaluateFields]
    trivial
  | cons f rest ih =>
    obtain ⟨name, s, comments⟩ := f
    rw [evaluateFields]
    exact Outcome.reportsBoth (Outcome.reportsWithin (each _ List.mem_cons_self))
      (ih (fun f mem => each f (List.mem_cons_of_mem _ mem)))

theorem othersReport {issues : List Issue} {members : List Schema} {j : Json} {followed : List String}
    (direct : ∀ i : Issue, i.Direct → sort i)
    (endless : ∀ s ∈ members, evaluate schemas s (some j) followed = .endless → ends) :
    (evaluateOthers schemas issues members j followed).Reports ends sort := by
  induction members with
  | nil =>
    rw [evaluateOthers]
    exact Outcome.reportsIssue
      (direct _ (Issue.directNew 'I' (Issue.joinBegins (by decide)) (by decide)))
  | cons s rest ih =>
    rw [evaluateOthers]
    split
    · trivial
    · rename_i same
      exact endless s List.mem_cons_self same
    · exact ih (fun s mem => endless s (List.mem_cons_of_mem _ mem))

theorem unionReports {first : Schema} {rest : List Schema} {j : Json} {followed : List String}
    (direct : ∀ i : Issue, i.Direct → sort i)
    (endless : ∀ s ∈ first :: rest, evaluate schemas s (some j) followed = .endless → ends) :
    (evaluateUnion schemas first rest j followed).Reports ends sort := by
  rw [evaluateUnion]
  split
  · trivial
  · rename_i same
    exact endless first List.mem_cons_self same
  · exact othersReport direct (fun s mem => endless s (List.mem_cons_of_mem _ mem))

theorem getFound {id : String} {t : Schema} (found : schemas.lookup id = some t) :
    id ∈ schemas.ids ∧ schemas.get id = t := by
  refine ⟨Entries.lookupSome.mp ⟨t, found⟩, ?_⟩
  rw [Schemas.get, found]
  rfl

theorem stepSpares {s : Schema} {value : Option Json} {followed : List String}
    (closed : Closed schemas s) (plain : followed = [] ∨ s.isDeclared = true)
    (each : ∀ s' value', Calls schemas (s, value) (s', value') → ∀ followed',
      followed' = [] ∨ s'.isDeclared = true →
        (evaluate schemas s' value' followed').Reports False (fun i => ¬ i.Dangling)) :
    (evaluate schemas s value followed).Reports False (fun i => ¬ i.Dangling) := by
  have top (apart : s.isDeclared = false) : followed = [] := plain.resolve_right (by simp [apart])
  have direct : ∀ i : Issue, i.Direct → ¬ i.Dangling := fun _ direct => direct.spares
  have mismatched (s : Schema) (received : String) :
      (s.mismatch received : Outcome (Option Json)).Reports False (fun i => ¬ i.Dangling) :=
    Outcome.reportsMono (mismatchReports s received) id direct
  rw [evaluate.eq_def]
  split
  · trivial
  · exact each _ _ .optional followed (.inl (top rfl))
  · trivial
  · exact each _ _ .withDefault followed (.inl (top rfl))
  · exact each _ _ .marked followed (.inl (top rfl))
  · exact each _ _ .lazy followed (.inl (top rfl))
  · rename_i r
    obtain rfl := top rfl
    obtain ⟨t, found, stands⟩ := closed r false (.here r)
    obtain ⟨there, behind⟩ := getFound found
    rw [if_neg (not_not_intro there), if_neg List.not_mem_nil, behind]
    exact each _ _ (.ref found) _ (.inr (standsDeclared stands))
  · trivial
  · refine Outcome.reportsBind (each _ _ .refine followed (.inl (top rfl))) (fun parsed _ => ?_)
    refine Outcome.reportsFinish (fun i mem => ?_)
    obtain ⟨j, -, mem⟩ := Option.bind_eq_some_iff.mp (Option.mem_toList.mp mem)
    exact (Issue.plainCheck i mem).spares
  · exact mismatched _ _
  · exact Outcome.reportsMap (arrayReports direct (fun _ _ _ _ spares => spares)
      (fun i j nth => each _ _ (.item (List.mem_of_getElem? nth)) [] (.inl rfl)))
  · exact Outcome.reportsMap (entriesReport (fun e mem =>
      ⟨each _ _ (.key mem) [] (.inl rfl), each _ _ (.value mem) [] (.inl rfl)⟩))
  · exact mismatched _ _
  · refine unionReports direct (fun s mem endless => ?_)
    have reports := each _ _ (.member mem) followed (.inl (top rfl))
    rw [endless] at reports
    exact reports
  · exact Outcome.reportsMap (fieldsReport (fun f mem => each _ _ (.field mem) [] (.inl rfl)))
  · exact Outcome.reportsMap (Outcome.reportsMono (simpleReports _ _) id direct)

theorem evaluateSettled (all : ∀ id t, schemas.lookup id = some t → Closed schemas t)
    {x : Schema × Option Json} (closed : Closed schemas x.1) {followed : List String}
    (plain : followed = [] ∨ x.1.isDeclared = true) :
    (evaluate schemas x.1 x.2 followed).Settled := by
  refine Outcome.reportsSettled ?_
  induction callsEnd all closed generalizing followed with
  | intro x _ ih =>
    exact stepSpares closed plain (fun s value calls followed' plain' =>
      ih _ calls (callsClosed all calls closed) plain')

end Schema

namespace Contracts

variable {job : Job} {c : Contracts}

theorem finishedClosed (done : ofModel job = .ok c) {id : String} {s : Schema}
    (found : c.schema? id = some s) : s.Closed c.schemas :=
  fun _ _ inside => finishedRefers done found inside

theorem validationEnds (done : ofModel job = .ok c) {id : String} {s : Schema}
    (found : c.schema? id = some s) :
    (∀ r d, s.Refers r d → ∃ t, c.schema? r.shapeId = some t ∧ Stands r.kind t) ∧
      ∀ j, Acc (fun y x => Schema.Calls c.schemas x y) (s, some j) ∧
        ∃ o, c.validate id j = .ok o ∧ o ≠ .endless ∧
          ∀ issues, o = .invalid issues → ∀ i ∈ issues, ¬ i.Dangling := by
  have closed := finishedClosed done found
  have all : ∀ id t, c.schemas.lookup id = some t → t.Closed c.schemas :=
    fun _ _ found => finishedClosed done found
  refine ⟨fun r d inside => finishedRefers done found inside, fun j => ⟨Schema.callsEnd all closed, ?_⟩⟩
  have settled : (s.validate c.schemas j).Settled :=
    Outcome.settledMap (Schema.evaluateSettled (x := (s, some j)) all closed (.inl rfl))
  refine ⟨s.validate c.schemas j, by rw [validate, found], fun same => ?_, fun issues same => ?_⟩
  · rw [same] at settled
    exact settled
  · rw [same] at settled
    exact settled

def nested : Model where
  version := "2.0"
  shapes := [
    ("example#Node", .struct [("children", ⟨"other#Nodes", .empty⟩)] .empty),
    ("other#Nodes", .list ⟨"example#Node", .empty⟩ .empty)]
  metadata := []
  distinct := by decide
  membersDistinct := by simp [Shape.memberNames]

theorem nestedEnds : ∃ c s, ofModel ⟨nested, .standard⟩ = .ok c ∧
    c.schema? "example#Node" = some s ∧ ∀ j, ∃ o, c.validate "example#Node" j = .ok o ∧ o ≠ .endless := by
  have spared : nested.SparesPrelude := fun b => by cases b <;> rfl
  obtain ⟨c, done⟩ : ∃ c, ofModel ⟨nested, .standard⟩ = .ok c := completes spared (by decide)
  have kinded : nested.schemaKind? "example#Node" = some .struct := rfl
  obtain ⟨s, found⟩ := finishedAll done kinded
  refine ⟨c, s, done, found, fun j => ?_⟩
  obtain ⟨-, o, validated, ends, -⟩ := (validationEnds done found).2 j
  exact ⟨o, validated, ends⟩

end Contracts
end ShapeContracts
