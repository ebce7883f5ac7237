import ShapeContracts.Proofs.CommentTexts
import ShapeContracts.Proofs.FatalExact
import ShapeContracts.Proofs.Places

/-! Validators that accept anything. Each of them stands for a value without a type, or for a reference that
stays open, and then a mark at its place names the target; and every reference to nothing has the
mark. The schema that accepts anything is never a fallback for a shape that cannot be expanded. -/
namespace ShapeContracts

namespace Model

def Missing (m : Model) : Subject → Prop
  | .shape _ => False
  | .member _ member _ => Builtin.ofId? member.target = none ∧ m.schemaKind? member.target = none

inductive Untyped (m : Model) : Subject → Prop where
  | document {x traits} (found : m.shapeAt x = some (.scalar .document traits)) : m.Untyped x
  | prelude {role member owner b} (known : Builtin.ofId? member.target = some b)
      (any : b = .document ∨ b = .unit) : m.Untyped (.member role member owner)

end Model

inductive Subject.Flagged (recursive : Bool) : Subject → Schema → List String → Prop where
  | marked {role member owner note comments} (inlined : role.isInline = true)
      (opens : Comment.Opens role.text member.target owner recursive note) :
      Flagged recursive (.member role member owner) (.marked note .unknown) comments
  | noted {member owner s note comments} (accepts : s = .unknown ∨ s = .optional .unknown)
      (opens : Comment.Opens Role.structureMember.text member.target owner recursive note)
      (line : "// " ++ note ∈ comments) :
      Flagged recursive (.member .structureMember member owner) s comments

structure Model.Accounts (m : Model) (x : Subject) (s : Schema) (comments : List String) : Prop where
  untyped : s.bare = .unknown → m.Untyped x ∨
    ∃ recursive, x.Flagged recursive s comments ∧ (recursive = false ↔ m.Missing x)
  missing : m.Missing x → x.Flagged false s comments
  opened : ∀ step y, m.Leads x step y →
    Scope.RefersTo x s ∨ s.bare = .unknown ∨ ∃ t beside, s.bare.Part step t beside

namespace Scope

variable {scope : Scope}

theorem scalarUntyped {space : String} {traits : Traits} {kind : Scalar}
    (accepts : scope.scalarSchema space traits kind = .unknown) : kind = .document := by
  cases kind with
  | document => rfl
  | timestamp =>
    simp only [scalarSchema] at accepts
    split at accepts
    · rename_i format _
      cases format <;> cases accepts
    · split at accepts <;> cases accepts
  | _ => cases accepts

theorem expansionUntyped {resolves : String → Resolution → Prop} {id : String} {shape : Shape} {s : Schema}
    (found : scope.model.shape? id = some shape) (inlined : shape.isExpanded = true)
    (expansion : scope.Expansion resolves id s) (accepts : s.bare = .unknown) :
    ∃ traits, shape = .scalar .document traits := by
  cases expansion with
  | absent missing => cases found.symm.trans missing
  | other found' parsed apart =>
    cases found.symm.trans found'
    cases inlined.symm.trans apart
  | scalar found' parsed =>
    cases found.symm.trans found'
    rw [bareNotes, (Schema.scalarAtomic scope _ _ _).bare] at accepts
    rw [scalarUntyped accepts]
    exact ⟨_, rfl⟩
  | list => cases (bareNotes _ _).symm.trans accepts
  | map => cases (bareNotes _ _).symm.trans accepts
  | union => cases (bareNotes _ _).symm.trans accepts

variable {source : FileKey} {stack : List String} {member : Member} {r : Resolution}

theorem resolvedUntyped (discovered : scope.Discovered)
    (ok : resolveIn scope member.target source .deferred stack = .ok r) (closed : r.resolved = true)
    (accepts : r.schema.bare = .unknown) (role : Role) (owner : String) :
    scope.model.Untyped (.member role member owner) := by
  have reference := resolveOk.mp ok
  cases reference with
  | recursive | missing => contradiction
  | @builtin b fresh known =>
    refine .prelude known ?_
    cases b <;> first | exact .inl rfl | exact .inr rfl | cases accepts
  | declared fresh foreign named registered standalone =>
    simp only [Resolution.found, refSchema] at accepts
    split at accepts <;> cases accepts
  | inlined fresh foreign named registered apart body =>
    obtain ⟨shape, found, -, inlined⟩ := inlinedShape discovered registered apart
    obtain ⟨traits, rfl⟩ := expansionUntyped found inlined (expandOk.mp body) accepts
    have here : scope.model.shapeAt (.member role member owner) = some (.scalar .document traits) := by
      rw [Model.shapeAt, foreign, found]
    exact .document here

theorem resolvedThere (discovered : scope.Discovered)
    (ok : resolveIn scope member.target source .deferred stack = .ok r) (closed : r.resolved = true)
    (role : Role) (owner : String) : ¬ scope.model.Missing (.member role member owner) := by
  rintro ⟨foreign, absent⟩
  have reference := resolveOk.mp ok
  cases reference with
  | recursive | missing => contradiction
  | builtin fresh known => cases foreign.symm.trans known
  | declared _ _ _ registered | inlined _ _ _ registered =>
    cases absent.symm.trans (registeredKind discovered registered).1

theorem resolvedOpen (discovered : scope.Discovered) (visible : scope.Visible stack)
    (ok : resolveIn scope member.target source .deferred stack = .ok r) (opened : r.resolved = false)
    (role : Role) (owner : String) :
    r.schema = .unknown ∧ (r.recursive = false ↔ scope.model.Missing (.member role member owner)) := by
  have reference := resolveOk.mp ok
  cases reference with
  | recursive visited =>
    refine ⟨rfl, ⟨fun recursive => absurd recursive (by decide), fun missing => ?_⟩⟩
    obtain ⟨kind, kinded⟩ := visible _ visited
    cases missing.2.symm.trans kinded
  | missing fresh foreign named absent =>
    exact ⟨rfl, ⟨fun _ => ⟨foreign, (registeredNone discovered).mp absent⟩, fun _ => rfl⟩⟩
  | _ => contradiction

theorem lostAccepts (traits : Traits) :
    Structure.optionalUnlessRequired traits .unknown = .unknown ∨
      Structure.optionalUnlessRequired traits .unknown = .optional .unknown := by
  unfold Structure.optionalUnlessRequired
  split
  · exact .inl rfl
  · exact .inr rfl

theorem lostFlagged (owner name : String) (member : Member) (recursive : Bool) (above : List String) :
    (Subject.member .structureMember member (owner ++ "." ++ name)).Flagged recursive
      (Structure.optionalUnlessRequired member.traits .unknown) (above ++ [Comment.line
        (Comment.unresolvedNote "structure member" member.target (owner ++ "." ++ name) recursive)]) :=
  .noted (lostAccepts member.traits) (Comment.unresolvedOpens ..)
    (List.mem_append_right _ (List.mem_singleton_self _))

theorem madeAccounts (discovered : scope.Discovered) {x : Subject} {s : Schema} {comments : List String}
    (made : scope.Made x s comments) : scope.model.Accounts x s comments := by
  have opened : ∀ step y, scope.model.Leads x step y →
      RefersTo x s ∨ s.bare = .unknown ∨ ∃ t beside, s.bare.Part step t beside := by
    intro step y leads
    rcases madeFollows discovered made with refers | accepts | follows
    · exact .inl refers
    · exact .inr (.inl accepts)
    · exact .inr (.inr (follows.opened step y leads))
  cases made with
  | shape found declares =>
    refine ⟨fun accepts => .inl ?_, fun missing => missing.elim, opened⟩
    cases declares with
    | enum | struct => cases accepts
    | expanded inlined routed body =>
      obtain ⟨traits, rfl⟩ := expansionUntyped found inlined (expandOk.mp body) accepts
      exact .document found
  | @inline role member owner source stack r inlined visible resolved =>
    unfold markUnresolved at opened ⊢
    split at opened
    · rename_i closed
      rw [if_pos closed]
      exact ⟨fun accepts => .inl (resolvedUntyped discovered resolved closed accepts _ _),
        fun missing => absurd missing (resolvedThere discovered resolved closed _ _), opened⟩
    · rename_i unresolved
      obtain ⟨accepts, kind⟩ := resolvedOpen discovered visible resolved
        (by simpa using unresolved) role owner
      rw [if_neg unresolved, accepts]
      rw [accepts] at opened
      refine ⟨fun _ => .inr ⟨r.recursive, .marked inlined (Comment.unresolvedOpens ..), kind⟩, fun missing => ?_, opened⟩
      rw [kind.mpr missing]
      exact .marked inlined (Comment.unresolvedOpens ..)
  | @key member owner map source stack r s visible resolved fits =>
    have closed := keyResolved fits
    refine ⟨fun accepts => .inl ?_, fun missing => ?_, opened⟩
    · rw [keySchemaOf fits] at accepts
      exact resolvedUntyped discovered resolved closed accepts _ _
    · exact absurd missing (resolvedThere discovered resolved closed _ _)
  | @field owner name member source f ok =>
    have field := Structure.fieldMade ok
    cases field with
    | @found r s resolved closed made =>
      refine ⟨fun accepts => .inl ?_, fun missing => ?_, opened⟩
      · rw [Structure.blindMember Structure.bareBlind made] at accepts
        obtain ⟨format, kinded, -, target⟩ | ⟨-, target⟩ := Structure.targetCases r member.traits
        · rw [target, Structure.bareReplaced] at accepts
          cases format <;> cases accepts
        · rw [target] at accepts
          exact resolvedUntyped discovered resolved closed accepts _ _
      · exact absurd missing (resolvedThere discovered resolved closed _ _)
    | @lost r resolved unresolved =>
      obtain ⟨-, kind⟩ := resolvedOpen discovered visibleNil resolved unresolved .structureMember
        (owner ++ "." ++ name)
      have flagged := lostFlagged owner name member r.recursive
      refine ⟨fun _ => .inr ⟨r.recursive, flagged _, kind⟩, fun missing => ?_, opened⟩
      rw [kind.mpr missing] at flagged ⊢
      exact flagged _

def Enters (scope : Scope) (target : String) (stack : List String) : Prop :=
  target ∉ stack ∧ Builtin.ofId? target = none ∧
    ∃ symbol, scope.symbols.lookup? target = some symbol ∧ symbol.isStandalone = false

theorem resolveEnters (discovered : scope.Discovered) {target : String}
    (enters : scope.Enters target stack) :
    (∃ r, resolveIn scope target source .deferred stack = .ok r) ↔
      ∃ s, expand scope target source (stack ++ [target]) = .ok s := by
  obtain ⟨fresh, foreign, symbol, registered, apart⟩ := enters
  constructor
  · rintro ⟨r, ok⟩
    have reference := resolveOk.mp ok
    cases reference with
    | inlined _ _ _ _ _ body => exact ⟨_, body⟩
    | recursive visited => contradiction
    | builtin _ known => cases foreign.symm.trans known
    | missing _ _ _ absent => cases registered.symm.trans absent
    | declared _ _ _ registered' standalone =>
      cases registered.symm.trans registered'
      cases apart.symm.trans standalone
  · rintro ⟨s, body⟩
    obtain ⟨-, -, parts, named⟩ := registeredKind discovered registered
    exact ⟨_, resolveOk.mpr (.inlined fresh foreign named registered apart body)⟩

/-- The expansions of a run: one for each shape that no pass of its own declares, and from there, and from the
members of structures, one for each reference that is expanded in place. -/
inductive Expanding (scope : Scope) : List String → String → Prop where
  | recorded {kind id shape} (work : (.kind kind, id, shape) ∈ Run.work scope.model Pass.all)
      (plain : kind ∉ [ShapeKind.enum, .struct, .operation, .service]) : scope.Expanding [id] id
  | field {id members traits m} (found : scope.model.shape? id = some (.struct members traits))
      (mem : m ∈ members) (enters : scope.Enters m.2.target []) :
      scope.Expanding [m.2.target] m.2.target
  | nested {stack id shape target} (outer : scope.Expanding stack id)
      (found : scope.model.shape? id = some shape) (refers : target ∈ shape.targets)
      (enters : scope.Enters target stack) : scope.Expanding (stack ++ [target]) target

theorem entersShape (discovered : scope.Discovered) {target : String}
    (enters : scope.Enters target stack) :
    ∃ shape, scope.model.shape? target = some shape ∧ shape.isExpanded = true := by
  obtain ⟨-, -, symbol, registered, apart⟩ := enters
  obtain ⟨shape, found, -, inlined⟩ := inlinedShape discovered registered apart
  exact ⟨shape, found, inlined⟩

theorem expandingShape (discovered : scope.Discovered) {id : String} (expanding : scope.Expanding stack id) :
    ∃ shape, scope.model.shape? id = some shape ∧ shape.isExpanded = true := by
  cases expanding with
  | @recorded kind id shape work plain =>
    obtain ⟨entry, ⟨kind', same, shaped⟩ | ⟨other, -⟩⟩ := Run.workAll.mp work
    · cases same
      refine ⟨shape, Entries.lookupOfMem scope.model.distinct entry, ?_⟩
      rw [Shape.expandedKind shaped]
      cases kind <;> first | rfl | simp at plain
    · contradiction
  | field found mem enters => exact entersShape discovered enters
  | nested outer found refers enters => exact entersShape discovered enters

end Scope

namespace Contracts

variable {job : Job} {c : Contracts}

theorem expandingGives (done : ofModel job = .ok c) {stack : List String} {id : String}
    (expanding : c.scope.Expanding stack id) :
    ∃ source s, c.scope.expand id source stack = .ok s := by
  obtain ⟨rfl, discovered, -, -⟩ := finishedTrace done
  induction expanding with
  | @recorded kind id shape work plain =>
    obtain ⟨shape, found, inlined⟩ := Scope.expandingShape discovered (.recorded work plain)
    obtain ⟨source, s, -, body⟩ := recordedBody done found inlined
    exact ⟨source, s, body⟩
  | @field id members traits m found mem enters =>
    obtain ⟨symbol, fields, f, -, -, -, -, made⟩ := memberMade done found mem
    have field := Structure.fieldMade made
    cases field with
    | found resolved | lost resolved =>
      exact ⟨symbol.fileKey, (Scope.resolveEnters discovered enters).mp ⟨_, resolved⟩⟩
  | @nested stack id shape target outer found refers enters ih =>
    obtain ⟨source, s, body⟩ := ih
    obtain ⟨shape', found', inlined⟩ := Scope.expandingShape discovered outer
    cases found.symm.trans found'
    have compound : shape.isCompound = true := by
      cases shape with
      | scalar => contradiction
      | _ => exact inlined
    obtain ⟨r, resolved, -⟩ :=
      Scope.expansionHolds found compound (Scope.expandOk.mp body) target refers
    exact ⟨source, (Scope.resolveEnters discovered enters).mp ⟨r, resolved⟩⟩

theorem unknownsAccounted (done : ofModel job = .ok c) :
    (∀ id s, c.schema? id = some s →
      (∀ path, Schema.unknown.Occurs path s →
        ∃ t around, s.Place [] path t around ∧ t.bare = .unknown) ∧
      ∀ path t around, s.Place [] path t around →
        ∃ x, job.model.Walk (.shape id) path x ∧ job.model.Accounts x t around) ∧
    ∀ stack id, c.scope.Expanding stack id → (∃ source s, c.scope.expand id source stack = .ok s) ∧
      ∃ shape, job.model.shape? id = some shape ∧ shape.isExpanded = true := by
  obtain ⟨rfl, discovered, -, -⟩ := finishedTrace done
  refine ⟨fun id s recorded => ⟨fun path occurs => Schema.occursPlace rfl occurs [], ?_⟩, ?_⟩
  · intro path t around place
    obtain ⟨x, walk, made⟩ := Scope.madePlace discovered (finishedMade done recorded) place
    exact ⟨x, walk, Scope.madeAccounts discovered made⟩
  · exact fun stack id expanding =>
      ⟨expandingGives done expanding, Scope.expandingShape discovered expanding⟩

def untagged : Model where
  version := "2.0"
  shapes := [("com.amazonaws.s3#Tags", .list ⟨"com.amazonaws.s3#Tag", .empty⟩ .empty)]
  metadata := []
  distinct := by decide
  membersDistinct := by simp [Shape.memberNames]

theorem untaggedFlagged : ∃ c s t around, ofModel ⟨untagged, .standard⟩ = .ok c ∧
    c.schema? "com.amazonaws.s3#Tags" = some s ∧ s.Place [] [.item] t around ∧
    Subject.Flagged false (.member .listMember ⟨"com.amazonaws.s3#Tag", .empty⟩ "Tags") t around := by
  obtain ⟨c, done⟩ : ∃ c, ofModel ⟨untagged, .standard⟩ = .ok c :=
    completes (fun b => by cases b <;> rfl) (by decide)
  have kinded : untagged.schemaKind? "com.amazonaws.s3#Tags" = some .list := rfl
  obtain ⟨s, recorded⟩ := finishedAll done kinded
  have found : untagged.shapeAt (.shape "com.amazonaws.s3#Tags") =
      some (.list ⟨"com.amazonaws.s3#Tag", .empty⟩ .empty) := rfl
  have leads : untagged.Leads (.shape "com.amazonaws.s3#Tags") .item
      (.member .listMember ⟨"com.amazonaws.s3#Tag", .empty⟩ "Tags") := .item found
  obtain ⟨-, places⟩ := (unknownsAccounted done).1 _ s recorded
  obtain ⟨x, walk, accounts⟩ := places [] s [] .here
  cases walk
  obtain ⟨t, beside, part⟩ : ∃ t beside, s.bare.Part .item t beside := by
    rcases accounts.opened _ _ leads with ⟨_, _, _, _, member, -⟩ | accepts | part
    · cases member
    · rcases accounts.untyped accepts with untyped | ⟨_, flagged, -⟩
      · cases untyped with
        | document found => cases found
      · cases flagged
    · exact part
  have place : s.Place [] [.item] t beside := .part part .here
  obtain ⟨y, walk, accounts⟩ := places _ t beside place
  cases Model.walkUnique walk (.step leads .here)
  exact ⟨c, s, t, beside, done, recorded, place, accounts.missing ⟨rfl, rfl⟩⟩

end Contracts
end ShapeContracts
