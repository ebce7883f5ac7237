import ShapeContracts.Proofs.Simulation
import ShapeContracts.Proofs.Places

/-! Where validation finds fault. A check speaks of the value that it runs on; what a part of a value is
checked for is reported below the segment of the part. So a path of an issue goes through the value and
through the model in step, and ends at a part of the value or at a member that an object lacks. -/
namespace ShapeContracts

namespace Json

def part? : PathSegment → Json → Option Json
  | .key name, .object members => members.lookup name
  | .index i, .array items => items[i]?
  | _, _ => none

def follow? : List PathSegment → Json → Option Json
  | [], j => some j
  | segment :: path, j => (j.part? segment).bind (follow? path)

end Json

namespace Model

inductive Opens (m : Model) (x : Subject) : Json → PathSegment → Subject → Json → Prop where
  | item {items i y j} (leads : m.Leads x .item y) (nth : items[i]? = some j) :
      m.Opens x (.array items) (.index i) y j
  | entry {entries name y j} (leads : m.Leads x .value y) (there : entries.lookup name = some j) :
      m.Opens x (.object entries) (.key name) y j
  | field {members traits entries name member j}
      (found : m.shapeAt x = some (.struct members traits)) (listed : (name, member) ∈ members)
      (there : entries.lookup name = some j) : m.Opens x (.object entries) (.key name)
        (.member .structureMember member (ShapeId.localName x.id ++ "." ++ name)) j

inductive Descends (m : Model) : Subject → Json → List PathSegment → Subject → Json → Prop where
  | here {x j} : m.Descends x j [] x j
  | step {x j segment y k path z part} (opens : m.Opens x j segment y k)
      (rest : m.Descends y k path z part) : m.Descends x j (segment :: path) z part

/-- Where a value can be at fault for a subject: at a part of it, or at a member of a structure that the
object there lacks. -/
inductive Faulty (m : Model) (x : Subject) (j : Json) : List PathSegment → Prop where
  | part {path y k} (descends : m.Descends x j path y k) : m.Faulty x j path
  | lacking {path y entries members traits name} (descends : m.Descends x j path y (.object entries))
      (found : m.shapeAt y = some (.struct members traits)) (named : name ∈ members.map Prod.fst)
      (lacks : entries.lookup name = none) : m.Faulty x j (path ++ [.key name])

def Located (m : Model) (x : Subject) (j : Json) (path : List PathSegment) : Prop :=
  (∃ part, j.follow? path = some part) ∨
    ∃ above name entries y members traits, path = above ++ [.key name] ∧
      j.follow? above = some (.object entries) ∧ entries.lookup name = none ∧
      m.Descends x j above y (.object entries) ∧ m.shapeAt y = some (.struct members traits) ∧
      name ∈ members.map Prod.fst

def FaultyAt (m : Model) (x : Subject) : Option Json → List PathSegment → Prop
  | some j, path => m.Faulty x j path
  | none, path => path = []

def Blames (m : Model) (x : Subject) (value : Option Json) (i : Issue) : Prop := m.FaultyAt x value i.path

variable {m : Model} {x y x' : Subject} {j k : Json} {segment : PathSegment} {path : List PathSegment}

theorem opensPart (opens : m.Opens x j segment y k) : j.part? segment = some k := by
  cases opens with
  | item _ nth => exact nth
  | entry _ there => exact there
  | field _ _ there => exact there

theorem descendsFollow (descends : m.Descends x j path y k) : j.follow? path = some k := by
  induction descends with
  | here => rfl
  | step opens _ ih => rw [Json.follow?, opensPart opens, Option.bind_some, ih]

theorem faultyLocated (faulty : m.Faulty x j path) : m.Located x j path := by
  cases faulty with
  | part descends => exact .inl ⟨_, descendsFollow descends⟩
  | lacking descends found named lacks =>
    exact .inr ⟨_, _, _, _, _, _, rfl, descendsFollow descends, lacks, descends, found, named⟩

theorem faultyWhole : m.Faulty x j [] := .part .here

theorem faultyRoot (value : Option Json) : m.FaultyAt x value [] := by
  cases value with
  | none => rfl
  | some j => exact faultyWhole

theorem blamesDirect {value : Option Json} {i : Issue} (direct : i.Direct) : m.Blames x value i := by
  rw [Blames, direct.whole]
  exact faultyRoot value

theorem faultyStep (opens : m.Opens x j segment y k) (faulty : m.Faulty y k path) :
    m.Faulty x j (segment :: path) := by
  cases faulty with
  | part descends => exact .part (.step opens descends)
  | lacking descends found named lacks => exact .lacking (.step opens descends) found named lacks

theorem faultyText {text : String} (faulty : m.Faulty x (.string text) path) : path = [] := by
  cases faulty with
  | part descends =>
    cases descends with
    | here => rfl
    | step opens => cases opens
  | lacking descends =>
    cases descends with
    | step opens => cases opens

theorem leadsSame {step : Step} (same : m.shapeAt x = m.shapeAt x') (named : x.id = x'.id)
    (leads : m.Leads x step y) : m.Leads x' step y := by
  cases leads with
  | item found => exact named ▸ .item (same ▸ found)
  | key found => exact named ▸ .key (same ▸ found)
  | value found => exact named ▸ .value (same ▸ found)
  | alternative found here => exact named ▸ .alternative (same ▸ found) here
  | field found here => exact named ▸ .field (same ▸ found) here

theorem opensSame (same : m.shapeAt x = m.shapeAt x') (named : x.id = x'.id)
    (opens : m.Opens x j segment y k) : m.Opens x' j segment y k := by
  cases opens with
  | item leads nth => exact .item (leadsSame same named leads) nth
  | entry leads there => exact .entry (leadsSame same named leads) there
  | field found listed there => exact named ▸ .field (same ▸ found) listed there

theorem faultySame (same : m.shapeAt x = m.shapeAt x') (named : x.id = x'.id)
    (faulty : m.Faulty x j path) : m.Faulty x' j path := by
  cases faulty with
  | part descends =>
    cases descends with
    | here => exact faultyWhole
    | step opens rest => exact .part (.step (opensSame same named opens) rest)
  | lacking descends found named' lacks =>
    cases descends with
    | here => exact .lacking .here (same ▸ found) named' lacks
    | step opens rest => exact .lacking (.step (opensSame same named opens) rest) found named' lacks

end Model

theorem Structure.fieldNames {scope : Scope} {owner : String} {source : FileKey}
    {members : List (String × Member)} {fs : List (String × Schema × List String)}
    (ok : fields scope owner source members = .ok fs) : fs.map Prod.fst = members.map Prod.fst := by
  induction members generalizing fs with
  | nil =>
    obtain rfl := pureOk.mp ok
    rfl
  | cons m rest ih =>
    obtain ⟨name, member⟩ := m
    obtain ⟨head, first, ok⟩ := bindOk.mp ok
    obtain ⟨tail, others, ok⟩ := bindOk.mp ok
    obtain rfl := pureOk.mp ok
    have named : head.1 = name := by
      have field := fieldMade first
      cases field <;> rfl
    rw [List.map_cons, List.map_cons, named, ih others]

namespace Scope

variable {scope : Scope}

theorem madeObject {x : Subject} {s : Schema} {around : List String} (made : scope.Made x s around)
    {fields : List (String × Schema × List String)} (bare : s.bare = .object fields) :
    ∃ members traits, scope.model.shapeAt x = some (.struct members traits) ∧
      fields.map Prod.fst = members.map Prod.fst := by
  cases x with
  | member role member owner =>
    have head := madeHead made
    cases head with
    | refers r refers => cases bare.symm.trans refers
    | inlined inlined =>
      rw [bare] at inlined
      contradiction
  | shape id =>
    cases made with
    | shape found declares =>
      cases declares with
      | enum => cases bare
      | struct named registered each =>
        cases bare
        exact ⟨_, _, found, Structure.fieldNames each⟩
      | expanded inlined routed body =>
        have plain := expansionInlined (expandOk.mp body)
        rw [bare] at plain
        contradiction

end Scope

namespace Contracts

variable {job : Job} {c : Contracts}

def Traces (c : Contracts) (x : Subject) (s : Schema) : Prop :=
  ∃ made around, c.scope.Made x made around ∧ s.bare = made.bare

theorem tracesPart (discovered : c.scope.Discovered) {x : Subject} {s t : Schema} {step : Step}
    {beside : List String} (traces : c.Traces x s) (inside : s.bare.Part step t beside) :
    ∃ y, c.job.model.Leads x step y ∧ c.Traces y t := by
  obtain ⟨made, around, here, bare⟩ := traces
  obtain ⟨y, leads, there⟩ := Scope.madePart discovered here (bare ▸ inside)
  exact ⟨y, leads, t, beside, there, rfl⟩

theorem tracesField (discovered : c.scope.Discovered) {x : Subject}
    {fields : List (String × Schema × List String)} (traces : c.Traces x (.object fields))
    {name : String} {s : Schema} {comments : List String} (mem : (name, s, comments) ∈ fields) :
    ∃ members traits member, c.job.model.shapeAt x = some (.struct members traits) ∧
      (name, member) ∈ members ∧
      c.Traces (.member .structureMember member (ShapeId.localName x.id ++ "." ++ name)) s := by
  obtain ⟨i, nth⟩ := List.mem_iff_getElem?.mp mem
  obtain ⟨y, leads, there⟩ := tracesPart discovered traces (.field nth)
  obtain ⟨made, around, here, bare⟩ := traces
  obtain ⟨members, traits, found, names⟩ := Scope.madeObject here bare.symm
  cases leads with
  | @field members' traits' _ name' member found' listed =>
    cases found.symm.trans found'
    have same : (fields.map Prod.fst)[i]? = (members.map Prod.fst)[i]? := by rw [names]
    rw [List.getElem?_map, List.getElem?_map, nth, listed] at same
    obtain rfl : name = name' := Option.some.inj same
    exact ⟨members, traits, member, found, List.mem_of_getElem? listed, there⟩

theorem tracesRef (done : ofModel c.job = .ok c) {x : Subject} {r : SchemaRef}
    (traces : c.Traces x (.ref r)) {t : Schema} (found : c.schemas.lookup r.shapeId = some t) :
    c.Traces (.shape r.shapeId) t ∧ r.shapeId = x.id ∧
      c.job.model.shapeAt (.shape r.shapeId) = c.job.model.shapeAt x := by
  obtain ⟨made, around, here, bare⟩ := traces
  have behind : c.Traces (.shape r.shapeId) t := ⟨t, [], finishedMade done found, rfl⟩
  cases x with
  | shape id =>
    cases here with
    | shape shaped declares =>
      cases declares with
      | enum | struct => cases bare
      | expanded inlined routed body =>
        have plain := Scope.expansionInlined (Scope.expandOk.mp body)
        rw [← bare] at plain
        contradiction
  | member role member owner =>
    have head := Scope.madeHead here
    cases head with
    | refers r' refers same foreign =>
      cases bare.trans refers
      refine ⟨behind, same, ?_⟩
      rw [same, Model.shapeAt, Model.shapeAt, foreign]
    | inlined inlined =>
      rw [← bare] at inlined
      contradiction

variable {x : Subject}

theorem arrayFaults (discovered : c.scope.Discovered) {item : Schema} {min max : Option Nat} {unique : Bool}
    (traces : c.Traces x (.array item min max unique)) {items : List Json}
    (each : ∀ y, c.Traces y item → ∀ j ∈ items,
      (Schema.evaluate c.schemas item (some j) []).Reports True (c.job.model.Blames y (some j))) :
    (((Schema.evaluateItems c.schemas item items 0).both (fun parsed () => parsed)
      (Schema.checkLength min max items)).bind (Schema.checkUnique unique)).Reports True
        (c.job.model.Blames x (some (.array items))) := by
  obtain ⟨y, leads, there⟩ := tracesPart discovered traces .item
  refine Schema.arrayReports (fun i direct => Model.blamesDirect direct) (fun i k less path _ => ?_)
    (fun i j nth => ?_)
  · rw [Model.Blames, path]
    exact .part (.step (.item leads (List.getElem?_eq_getElem less)) .here)
  · exact Outcome.reportsMono (each y there j (List.mem_of_getElem? nth)) id
      (fun _ faulty => Model.faultyStep (.item leads nth) faulty)

theorem recordFaults (discovered : c.scope.Discovered) {key value : Schema}
    (traces : c.Traces x (.record key value)) {entries : List (String × Json)}
    (distinct : (entries.map Prod.fst).Nodup)
    (each : ∀ e ∈ entries,
      (∀ y, c.Traces y key → (Schema.evaluate c.schemas key (some (.string e.1)) []).Reports True
        (c.job.model.Blames y (some (.string e.1)))) ∧
      ∀ y, c.Traces y value → (Schema.evaluate c.schemas value (some e.2) []).Reports True
        (c.job.model.Blames y (some e.2))) :
    (Schema.evaluateEntries c.schemas key value entries).Reports True
      (c.job.model.Blames x (some (.object entries))) := by
  obtain ⟨k, -, keyed⟩ := tracesPart discovered traces .key
  obtain ⟨y, leads, valued⟩ := tracesPart discovered traces .value
  refine Schema.entriesReport (fun e mem => ?_)
  have opens := Model.Opens.entry leads (Entries.lookupOfMem distinct mem)
  refine ⟨Outcome.reportsMono ((each e mem).1 k keyed) id (fun i faulty => ?_),
    Outcome.reportsMono ((each e mem).2 y valued) id (fun _ faulty => Model.faultyStep opens faulty)⟩
  -- what is wrong with a key is told at its entry
  rw [Model.Blames, Issue.within, Model.faultyText faulty]
  exact .part (.step opens .here)

theorem objectFaults (discovered : c.scope.Discovered) {fields : List (String × Schema × List String)}
    (traces : c.Traces x (.object fields)) {entries : List (String × Json)}
    (each : ∀ f ∈ fields, ∀ y, c.Traces y f.2.1 →
      (Schema.evaluate c.schemas f.2.1 (entries.lookup f.1) []).Reports True
        (c.job.model.Blames y (entries.lookup f.1))) :
    (Schema.evaluateFields c.schemas fields entries).Reports True
      (c.job.model.Blames x (some (.object entries))) := by
  refine Schema.fieldsReport (fun f mem => ?_)
  obtain ⟨name, s, comments⟩ := f
  obtain ⟨members, traits, member, found, listed, there⟩ := tracesField discovered traces mem
  refine Outcome.reportsMono (each _ mem _ there) id (fun i faulty => ?_)
  cases read : entries.lookup name with
  | none =>
    rw [read] at faulty
    have whole : i.path = [] := faulty
    rw [Model.Blames, Issue.within, whole]
    exact .lacking .here found (List.mem_map_of_mem listed) read
  | some j =>
    rw [read] at faulty
    exact Model.faultyStep (.field found listed read) faulty

theorem stepFaults (done : ofModel c.job = .ok c) {s : Schema} {value : Option Json}
    {followed : List String} (traces : c.Traces x s) (settled : ∀ j ∈ value, j.Settled)
    (each : ∀ y s' value' followed', Schema.Calls c.schemas (s, value) (s', value') →
      c.Traces y s' → (∀ j ∈ value', j.Settled) →
        (Schema.evaluate c.schemas s' value' followed').Reports True (c.job.model.Blames y value')) :
    (Schema.evaluate c.schemas s value followed).Reports True (c.job.model.Blames x value) := by
  obtain ⟨-, discovered, -⟩ := finishedTrace done
  have direct : ∀ i : Issue, i.Direct → c.job.model.Blames x value i := fun _ => Model.blamesDirect
  have mismatched (s : Schema) (received : String) :
      (s.mismatch received : Outcome (Option Json)).Reports True (c.job.model.Blames x value) :=
    Outcome.reportsMono (Schema.mismatchReports s received) id direct
  rw [Schema.evaluate.eq_def]
  split
  · trivial
  · exact each _ _ _ _ .optional traces settled
  · trivial
  · exact each _ _ _ _ .withDefault traces settled
  · exact each _ _ _ _ .marked traces settled
  · exact each _ _ _ _ .lazy traces settled
  · rename_i r
    split
    · exact Outcome.reportsIssue (Model.faultyRoot _)
    · rename_i known
      split
      · trivial
      · obtain ⟨t, found⟩ := Entries.lookupSome.mpr (Decidable.not_not.mp known)
        obtain ⟨behind, named, same⟩ := tracesRef done traces found
        rw [(Schema.getFound found).2]
        have faults := each _ _ _ (followed ++ [r.shapeId]) (.ref found) behind settled
        refine Outcome.reportsMono faults id (fun i faulty => ?_)
        cases value with
        | none => exact faulty
        | some j => exact Model.faultySame same named faulty
  · trivial
  · refine Outcome.reportsBind (each _ _ _ _ .refine traces settled) (fun parsed _ => ?_)
    refine Outcome.reportsFinish (fun i mem => ?_)
    obtain ⟨j, -, mem⟩ := Option.bind_eq_some_iff.mp (Option.mem_toList.mp mem)
    exact direct i (Issue.plainCheck i mem).toDirect
  · exact mismatched _ _
  · rename_i item min max unique items
    have inside := (Json.settledItemsExact items).mp (settled _ rfl)
    refine Outcome.reportsMap (arrayFaults discovered traces (fun y there j mem => ?_))
    exact each y item (some j) [] (.item mem) there
      (fun _ same => Option.some.inj same ▸ inside _ mem)
  · rename_i key value entries
    obtain ⟨distinct, inside⟩ := settled _ rfl
    rw [Json.settledMembersExact] at inside
    refine Outcome.reportsMap (recordFaults discovered traces distinct (fun e mem => ⟨fun y there => ?_,
      fun y there => ?_⟩))
    · exact each y key (some (.string e.1)) [] (.key mem) there (fun _ same => Option.some.inj same ▸ trivial)
    · exact each y value (some e.2) [] (.value mem) there (fun _ same => Option.some.inj same ▸ inside _ mem)
  · exact mismatched _ _
  · exact Schema.unionReports direct (fun _ _ _ => True.intro)
  · rename_i fields entries
    obtain ⟨distinct, inside⟩ := settled _ rfl
    rw [Json.settledMembersExact] at inside
    refine Outcome.reportsMap (objectFaults discovered traces (fun f mem y there => ?_))
    exact each y f.2.1 (entries.lookup f.1) [] (.field mem) there
      (fun j found => inside _ (Entries.memOfLookup found))
  · exact Outcome.reportsMap (Outcome.reportsMono (Schema.simpleReports _ _) id direct)

theorem tracesFault (done : ofModel c.job = .ok c) (call : Schema × Option Json)
    {followed : List String} (traces : c.Traces x call.1) (closed : call.1.Closed c.schemas)
    (settled : ∀ j ∈ call.2, j.Settled) :
    (Schema.evaluate c.schemas call.1 call.2 followed).Reports True (c.job.model.Blames x call.2) := by
  have all : ∀ id t, c.schemas.lookup id = some t → t.Closed c.schemas :=
    fun _ _ found => finishedClosed done found
  induction Schema.callsEnd all closed generalizing x followed with
  | intro call _ ih =>
    refine stepFaults done traces settled (fun y s value followed' calls there settled' => ?_)
    exact ih (s, value) calls there (Schema.callsClosed all calls closed) settled'

theorem recordedFaults (done : ofModel c.job = .ok c) {id : String} {s : Schema}
    (found : c.schema? id = some s) {j : Json} (settled : j.Settled) :
    (Schema.evaluate c.schemas s (some j) []).Reports True (c.job.model.Blames (.shape id) (some j)) := by
  refine tracesFault done (s, some j) ⟨s, [], finishedMade done found, rfl⟩ (finishedClosed done found) ?_
  intro _ same
  exact Option.some.inj same ▸ settled

theorem issuesLocated {job : Job} (done : ofModel job = .ok c) {id : String} {j : Json}
    (settled : j.Settled) {issues : List Issue} (invalid : c.validate id j = .ok (.invalid issues)) :
    issues ≠ [] ∧ ∀ i ∈ issues, job.model.Located (.shape id) j i.path := by
  obtain ⟨same, -⟩ := finishedTrace done
  subst same
  cases recorded : c.schema? id with
  | none =>
    rw [validate, recorded] at invalid
    contradiction
  | some s =>
    rw [validate, recorded, Except.ok.injEq] at invalid
    have faults : (s.validate c.schemas j).Reports True (c.job.model.Blames (.shape id) (some j)) :=
      Outcome.reportsMap (recordedFaults done recorded settled)
    rw [invalid] at faults
    exact ⟨faults.1, fun i mem => Model.faultyLocated (faults.2 i mem)⟩

theorem nestedLocated : ∃ c issues, ofModel ⟨nested, .standard⟩ = .ok c ∧
    c.validate "example#Node" (.object [("children", .bool true)]) = .ok (.invalid issues) ∧
    issues ≠ [] ∧ ∀ i ∈ issues,
      nested.Located (.shape "example#Node") (.object [("children", .bool true)]) i.path := by
  have spared : nested.SparesPrelude := fun b => by cases b <;> rfl
  obtain ⟨c, done⟩ : ∃ c, ofModel ⟨nested, .standard⟩ = .ok c := completes spared (by decide)
  obtain ⟨same, -⟩ := finishedTrace done
  have kinded : nested.schemaKind? "example#Node" = some .struct := rfl
  obtain ⟨s, recorded⟩ := finishedAll done kinded
  have node : nested.shape? "example#Node" =
      some (.struct [("children", ⟨"other#Nodes", .empty⟩)] .empty) := rfl
  have nodes : nested.shape? "other#Nodes" = some (.list ⟨"example#Node", .empty⟩ .empty) := rfl
  have listed : nested.targetKind? "other#Nodes" = some (some .list) := rfl
  have unlisted : Interpretation.interpret ⟨nested, .standard⟩ [] "other#Nodes" (.bool true) = none := by
    rw [Interpretation.interpretList rfl nodes]
  have rejected : Interpretation.interpret ⟨nested, .standard⟩ [] "example#Node"
      (.object [("children", .bool true)]) = none := by
    rw [Interpretation.interpretStruct rfl node]
    simp [Interpretation.interpretMembers, Interpretation.interpretMember, Interpretation.present, listed,
      unlisted, Interpretation.formatted]
  have agrees := recordedAgrees (by rw [same]; exact done) (by rw [same]; exact spared)
    (by rw [same]; exact nestedAcyclic) recorded (.object [("children", .bool true)])
  rw [same, rejected] at agrees
  obtain ⟨issues, invalid⟩ : ∃ issues, c.validate "example#Node" (.object [("children", .bool true)]) =
      .ok (.invalid issues) := by
    rw [validate, recorded]
    dsimp only [Schema.validate]
    generalize Schema.evaluate c.schemas s _ [] = o at agrees
    cases agrees with
    | rejects issues => exact ⟨issues, rfl⟩
  have settled : (Json.object [("children", .bool true)]).Settled := by
    simp [Json.Settled, Json.SettledMembers]
  exact ⟨c, issues, done, invalid, issuesLocated done settled invalid⟩

end Contracts
end ShapeContracts
