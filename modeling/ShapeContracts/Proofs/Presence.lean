import ShapeContracts.Proofs.Defaults

/-! Members that an object lacks. A required member without a default is reported at its own name, unless
its validator accepts anything; a default stands for the member in what comes back. -/
namespace ShapeContracts

namespace Outcome

variable {o : Outcome α} {o' : Outcome β}

theorem issuesMap {f : α → β} : (o.map f).issues = o.issues := by
  cases o <;> rfl

theorem issuesWithin {segment : PathSegment} :
    (o.within segment).issues = o.issues.map (fun i => i.within segment) := by
  cases o <;> rfl

theorem issuesBoth {f : α → β → γ} (ends : o.both f o' ≠ .endless) :
    (o.both f o').issues = o.issues ++ o'.issues ∧ o' ≠ .endless := by
  cases o <;> cases o' <;> first
    | contradiction
    | exact ⟨rfl, by simp⟩
    | exact ⟨(List.append_nil _).symm, by simp⟩

theorem withinValid {segment : PathSegment} {a : α} (valid : o.within segment = .valid a) : o = .valid a := by
  cases o with
  | valid b => exact valid
  | _ => contradiction

end Outcome

namespace Schema

variable {schemas : Schemas} {fields : List (String × Schema × List String)} {entries : List (String × Json)}

theorem fieldsIssues (ends : evaluateFields schemas fields entries ≠ .endless) :
    (evaluateFields schemas fields entries).issues = fields.flatMap (fun f =>
      (evaluate schemas f.2.1 (entries.lookup f.1) []).issues.map (fun i => i.within (.key f.1))) := by
  induction fields with
  | nil =>
    rw [evaluateFields]
    rfl
  | cons f rest ih =>
    obtain ⟨name, s, comments⟩ := f
    rw [evaluateFields] at ends ⊢
    obtain ⟨both, later⟩ := Outcome.issuesBoth ends
    rw [both, ih later, Outcome.issuesWithin, List.flatMap_cons]

theorem fieldIssue (ends : evaluateFields schemas fields entries ≠ .endless)
    (distinct : (fields.map Prod.fst).Nodup) {name : String} {s : Schema} {comments : List String}
    (there : fields.lookup name = some (s, comments)) :
    (∃ i ∈ (evaluateFields schemas fields entries).issues, i.path = [.key name]) ↔
      ∃ i ∈ (evaluate schemas s (entries.lookup name) []).issues, i.path = [] := by
  rw [fieldsIssues ends]
  constructor
  · rintro ⟨i, mem, path⟩
    obtain ⟨f, listed, mem⟩ := List.mem_flatMap.mp mem
    obtain ⟨j, inside, rfl⟩ := List.mem_map.mp mem
    obtain ⟨label, whole⟩ := List.cons.inj path
    obtain ⟨label', s', comments'⟩ := f
    obtain rfl : label' = name := PathSegment.key.inj label
    cases there.symm.trans (Entries.lookupOfMem distinct listed)
    exact ⟨j, inside, whole⟩
  · rintro ⟨i, mem, whole⟩
    refine ⟨i.within (.key name), List.mem_flatMap.mpr ⟨_, Entries.memOfLookup there, ?_⟩, ?_⟩
    · exact List.mem_map_of_mem mem
    · rw [Issue.within, whole]

theorem fieldSilent (ends : evaluateFields schemas fields entries ≠ .endless)
    (distinct : (fields.map Prod.fst).Nodup) {name : String} {s : Schema} {comments : List String}
    (there : fields.lookup name = some (s, comments)) :
    (∀ i ∈ (evaluateFields schemas fields entries).issues, i.path.head? ≠ some (.key name)) ↔
      (evaluate schemas s (entries.lookup name) []).issues = [] := by
  rw [fieldsIssues ends]
  apply Iff.intro
  · intro silent
    apply List.eq_nil_iff_forall_not_mem.mpr
    intro i mem
    refine silent (i.within (.key name)) (List.mem_flatMap.mpr ⟨_, Entries.memOfLookup there, ?_⟩) rfl
    exact List.mem_map_of_mem mem
  · intro silent i mem starts
    obtain ⟨f, listed, mem⟩ := List.mem_flatMap.mp mem
    obtain ⟨j, inside, rfl⟩ := List.mem_map.mp mem
    obtain ⟨label, s', comments'⟩ := f
    obtain rfl : label = name := PathSegment.key.inj (Option.some.inj starts)
    cases there.symm.trans (Entries.lookupOfMem distinct listed)
    rw [silent] at inside
    exact absurd inside List.not_mem_nil

theorem fieldKept {ws : List (String × Json)} (valid : evaluateFields schemas fields entries = .valid ws)
    {name : String} {s : Schema} {comments : List String} (mem : (name, s, comments) ∈ fields) {j : Json}
    (read : evaluate schemas s (entries.lookup name) [] = .valid (some j)) : (name, j) ∈ ws := by
  induction fields generalizing ws with
  | nil => contradiction
  | cons f rest ih =>
    obtain ⟨label, s', comments'⟩ := f
    rw [evaluateFields] at valid
    obtain ⟨first, others, here, later, rfl⟩ := Outcome.bothValid valid
    rcases List.mem_cons.mp mem with same | mem
    · cases same
      cases (Outcome.withinValid here).symm.trans read
      exact List.mem_cons_self
    · have kept := ih later mem
      cases first with
      | some _ => exact List.mem_cons_of_mem _ kept
      | none => exact kept

theorem namesKept {ws : List (String × Json)} (valid : evaluateFields schemas fields entries = .valid ws) :
    (ws.map Prod.fst).Sublist (fields.map Prod.fst) := by
  induction fields generalizing ws with
  | nil =>
    rw [evaluateFields] at valid
    obtain rfl := Outcome.valid.inj valid
    exact .slnil
  | cons f rest ih =>
    obtain ⟨name, s, comments⟩ := f
    rw [evaluateFields] at valid
    obtain ⟨first, others, -, later, rfl⟩ := Outcome.bothValid valid
    cases first with
    | some value => exact .cons_cons name (ih later)
    | none => exact .cons name (ih later)

end Schema

/-- The absence of a member is an error: it is required, nothing stands for it, and its target is of a kind
whose validators do not accept just anything. -/
def Job.Demands (job : Job) (member : Member) : Prop :=
  member.traits.isRequired = true ∧ member.traits.defaultValue = none ∧
    ∃ kind, job.model.targetKind? member.target = some (some kind) ∧ kind ≠ .scalar .document

theorem absentDemands {job : Job} {member : Member} :
    Interpretation.absent job member = none ↔ job.Demands member := by
  unfold Interpretation.absent Job.Demands
  cases job.model.targetKind? member.target with
  | none => simp
  | some kind =>
    cases member.traits.defaultValue with
    | some value => simp
    | none =>
      cases kind with
      | none => simp
      | some kind => simp

namespace Contracts

variable {c : Contracts}

theorem memberFaults (done : ofModel c.job = .ok c) {id owner name : String} {source : FileKey}
    {member : Member} {fields : List (String × Schema × List String)} {s : Schema} {comments : List String}
    (recorded : c.schema? id = some (.object fields)) (listed : (name, s, comments) ∈ fields)
    (made : Structure.field c.scope owner source name member = .ok (name, s, comments))
    {entries : List (String × Json)} (settled : ∀ j ∈ entries.lookup name, j.Settled) :
    (Schema.evaluate c.schemas s (entries.lookup name) []).Reports True
      (c.job.model.Blames (.member .structureMember member (owner ++ "." ++ name)) (entries.lookup name)) := by
  have calls : Schema.Calls c.schemas (.object fields, some (.object entries)) (s, entries.lookup name) :=
    .field listed
  have closed : s.Closed c.schemas :=
    Schema.callsClosed (fun _ _ found => finishedClosed done found) calls (finishedClosed done recorded)
  exact tracesFault done (s, entries.lookup name) ⟨s, comments, .field made, rfl⟩ closed settled

theorem memberDemanded (done : ofModel c.job = .ok c) {id owner name : String} {source : FileKey}
    {member : Member} {fields : List (String × Schema × List String)} {s : Schema} {comments : List String}
    (recorded : c.schema? id = some (.object fields)) (listed : (name, s, comments) ∈ fields)
    (made : Structure.field c.scope owner source name member = .ok (name, s, comments)) :
    (∃ i ∈ (Schema.evaluate c.schemas s none []).issues, i.path = []) ↔ c.job.Demands member := by
  have faults : (Schema.evaluate c.schemas s none []).Reports True (fun i => i.path = []) :=
    @memberFaults c done id owner name source member fields s comments recorded listed made []
      (fun j absent => by cases absent)
  have agrees : (Schema.evaluate c.schemas s none []).Agrees (Interpretation.interpretMember c.job member none) :=
    (fieldAgrees done made (fun _ _ j absent => by cases absent)).2
  rw [← absentDemands]
  rw [Interpretation.interpretMember] at agrees
  generalize Schema.evaluate c.schemas s none [] = o at faults agrees ⊢
  generalize Interpretation.absent c.job member = r at agrees ⊢
  cases agrees with
  | accepts value => exact iff_of_false (fun reported => by obtain ⟨i, mem, -⟩ := reported; contradiction) (by simp)
  | rejects issues =>
    obtain ⟨some, whole⟩ := faults
    obtain ⟨i, mem⟩ := List.exists_mem_of_ne_nil issues some
    exact iff_of_true ⟨i, mem, whole i mem⟩ rfl

theorem objectOutcome {id : String} {fields : List (String × Schema × List String)}
    (recorded : c.schema? id = some (.object fields)) (entries : List (String × Json)) :
    c.validate id (.object entries) = .ok ((Schema.evaluateFields c.schemas fields entries).map
      (fun members => Json.object (Json.settleNames members))) := by
  rw [validate, recorded]
  dsimp only [Schema.validate]
  rw [Schema.evaluate]
  cases Schema.evaluateFields c.schemas fields entries <;> rfl

theorem objectEnds (done : ofModel c.job = .ok c) {id : String}
    {fields : List (String × Schema × List String)} (recorded : c.schema? id = some (.object fields))
    (entries : List (String × Json)) : Schema.evaluateFields c.schemas fields entries ≠ .endless := by
  have settled := Schema.evaluateSettled (x := (.object fields, some (.object entries)))
    (fun _ _ found => finishedClosed done found) (finishedClosed done recorded) (.inl rfl)
  intro ends
  rw [Schema.evaluate, ends] at settled
  exact settled

section

variable {job : Job} {id name : String} {members : List (String × Member)} {traits : Traits} {member : Member}
  {entries : List (String × Json)}

theorem absenceReported (done : ofModel job = .ok c)
    (found : job.model.shape? id = some (.struct members traits)) (listed : (name, member) ∈ members)
    (lacks : entries.lookup name = none) : ∃ o, c.validate id (.object entries) = .ok o ∧ o ≠ .endless ∧
      ((∃ i ∈ o.issues, i.path = [.key name]) ↔ job.Demands member) := by
  obtain ⟨rfl, -⟩ := finishedTrace done
  obtain ⟨symbol, fields, s, comments, recorded, distinct, there, made⟩ := memberField done found listed
  have ends := objectEnds done recorded entries
  refine ⟨_, objectOutcome recorded entries, ?_, ?_⟩
  · cases read : Schema.evaluateFields c.schemas fields entries with
    | endless => exact absurd read ends
    | _ => exact fun endless => by cases endless
  · rw [Outcome.issuesMap, Schema.fieldIssue ends distinct there, lacks]
    exact memberDemanded done recorded (Entries.memOfLookup there) made

theorem absenceFilled (done : ofModel job = .ok c)
    (found : job.model.shape? id = some (.struct members traits)) (listed : (name, member) ∈ members)
    (lacks : entries.lookup name = none) {value w : Json} (given : member.traits.defaultValue = some value)
    {kind : Option ShapeKind} (resolves : job.model.targetKind? member.target = some kind)
    (valid : c.validate id (.object entries) = .ok (.valid w)) :
    ∃ ws, w = .object ws ∧ ws.lookup name = some (Interpretation.filled kind value) := by
  obtain ⟨rfl, -⟩ := finishedTrace done
  obtain ⟨symbol, fields, s, comments, recorded, distinct, there, made⟩ := memberField done found listed
  rw [objectOutcome recorded, Except.ok.injEq] at valid
  cases read : Schema.evaluateFields c.schemas fields entries with
  | valid ws =>
    rw [read] at valid
    have kept : (ws.map Prod.fst).Nodup := distinct.sublist (Schema.namesKept read)
    have filled := (memberMisfits done made given resolves).1
    rw [← lacks] at filled
    have settled : Json.object (Json.settleNames ws) = .object ws := congrArg Json.object (Entries.settleNamesOf kept)
    exact ⟨ws, (Outcome.valid.inj valid).symm.trans settled,
      Entries.lookupOfMem kept (Schema.fieldKept read (Entries.memOfLookup there) filled)⟩
  | _ =>
    rw [read] at valid
    cases valid

theorem presenceFollows (done : ofModel job = .ok c)
    (found : job.model.shape? id = some (.struct members traits)) (listed : (name, member) ∈ members)
    (lacks : entries.lookup name = none) : ∃ o, c.validate id (.object entries) = .ok o ∧ o ≠ .endless ∧
      ((∃ i ∈ o.issues, i.path = [.key name]) ↔ job.Demands member) ∧
      ∀ value kind, member.traits.defaultValue = some value →
        job.model.targetKind? member.target = some kind → ∀ w, o = .valid w →
          ∃ ws, w = .object ws ∧ ws.lookup name = some (Interpretation.filled kind value) := by
  obtain ⟨o, validated, ends, reported⟩ := absenceReported done found listed lacks
  refine ⟨o, validated, ends, reported, fun value kind given resolves w valid => ?_⟩
  subst valid
  exact absenceFilled done found listed lacks given resolves validated

end

def Survey.answer : Member where
  target := Builtin.string.id
  traits := { Traits.empty with required := some (.object []) }

def Survey.remarks : Member where
  target := Builtin.document.id
  traits := { Traits.empty with required := some (.object []) }

def Survey.members : List (String × Member) := [("answer", Survey.answer), ("remarks", Survey.remarks)]

def survey : Model where
  version := "2.0"
  shapes := [("example#Survey", .struct Survey.members .empty)]
  metadata := []
  distinct := by decide
  membersDistinct := by simp [Shape.memberNames, Survey.members]

theorem surveyCompletes : ∃ c, ofModel ⟨survey, .standard⟩ = .ok c :=
  completes (fun b => by cases b <;> rfl) (by decide)

theorem surveyShape : (Job.mk survey .standard).model.shape? "example#Survey" =
    some (.struct Survey.members .empty) := rfl

theorem answerDemanded : ∃ c o, ofModel ⟨survey, .standard⟩ = .ok c ∧
    c.validate "example#Survey" (.object []) = .ok o ∧ ∃ i ∈ o.issues, i.path = [.key "answer"] := by
  obtain ⟨c, done⟩ := surveyCompletes
  have listed : ("answer", Survey.answer) ∈ Survey.members := .head _
  have demands : Job.Demands ⟨survey, .standard⟩ Survey.answer := ⟨rfl, rfl, .scalar .string, rfl, by decide⟩
  have lacks : ([] : List (String × Json)).lookup "answer" = none := rfl
  obtain ⟨o, validated, -, reported, -⟩ := presenceFollows done surveyShape listed lacks
  exact ⟨c, o, done, validated, reported.mpr demands⟩

theorem remarksUndemanded : ∃ c o, ofModel ⟨survey, .standard⟩ = .ok c ∧
    Survey.remarks.traits.isRequired = true ∧ Survey.remarks.traits.defaultValue = none ∧
    c.validate "example#Survey" (.object []) = .ok o ∧ ¬ ∃ i ∈ o.issues, i.path = [.key "remarks"] := by
  obtain ⟨c, done⟩ := surveyCompletes
  have listed : ("remarks", Survey.remarks) ∈ Survey.members := .tail _ (.head _)
  have lacks : ([] : List (String × Json)).lookup "remarks" = none := rfl
  obtain ⟨o, validated, -, reported⟩ := absenceReported done surveyShape listed lacks
  refine ⟨c, o, done, rfl, rfl, validated, fun issue => ?_⟩
  obtain ⟨-, -, kind, resolves, other⟩ := reported.mp issue
  cases resolves
  exact other rfl

end Contracts
end ShapeContracts
