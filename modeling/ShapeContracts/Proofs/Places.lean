import ShapeContracts.Proofs.References

/-! Places of a schema and the members of the model that they are for. A place is reached through the parts
of validators, whatever layers stand around them; and a recorded schema has, at every place, what the
reference of the member there resolves to. -/
namespace ShapeContracts

inductive Step where
  | item
  | key
  | value
  | alternative (i : Nat)
  | field (i : Nat)
  deriving DecidableEq, Repr

namespace Schema

def bare : Schema → Schema
  | .lazy inner => bare inner
  | .refine inner _ => bare inner
  | .optional inner => bare inner
  | .withDefault inner _ => bare inner
  | .marked _ inner => bare inner
  | s => s

inductive Part : Schema → Step → Schema → List String → Prop where
  | item {item min max unique} : Part (.array item min max unique) .item item []
  | key {key value} : Part (.record key value) .key key []
  | value {key value} : Part (.record key value) .value value []
  | alternative {members i s} (here : members[i]? = some s) : Part (.union members) (.alternative i) s []
  | field {fields i name s comments} (here : fields[i]? = some (name, s, comments)) :
      Part (.object fields) (.field i) s comments

inductive Place : Schema → List String → List Step → Schema → List String → Prop where
  | here {s comments} : Place s comments [] s comments
  | part {s comments step t beside path u around} (inside : s.bare.Part step t beside)
      (rest : Place t beside path u around) : Place s comments (step :: path) u around

inductive Occurs (u : Schema) : List Step → Schema → Prop where
  | here : Occurs u [] u
  | lazy {path inner} (inside : Occurs u path inner) : Occurs u path (.lazy inner)
  | refine {path inner check} (inside : Occurs u path inner) : Occurs u path (.refine inner check)
  | optional {path inner} (inside : Occurs u path inner) : Occurs u path (.optional inner)
  | withDefault {path inner value} (inside : Occurs u path inner) :
      Occurs u path (.withDefault inner value)
  | marked {path comment inner} (inside : Occurs u path inner) : Occurs u path (.marked comment inner)
  | item {path item min max unique} (inside : Occurs u path item) :
      Occurs u (.item :: path) (.array item min max unique)
  | key {path key value} (inside : Occurs u path key) : Occurs u (.key :: path) (.record key value)
  | value {path key value} (inside : Occurs u path value) : Occurs u (.value :: path) (.record key value)
  | alternative {path members i s} (nth : members[i]? = some s) (inside : Occurs u path s) :
      Occurs u (.alternative i :: path) (.union members)
  | field {path fields i name s comments} (nth : fields[i]? = some (name, s, comments))
      (inside : Occurs u path s) : Occurs u (.field i :: path) (.object fields)

variable {s t u : Schema}

theorem placeLayer {comments around : List String} {path : List Step} (same : s.bare = t.bare)
    (there : t.Place comments path u around) :
    ∃ v, s.Place comments path v around ∧ v.bare = u.bare := by
  cases there with
  | here => exact ⟨s, .here, same⟩
  | part inside rest => exact ⟨u, .part (same ▸ inside) rest, rfl⟩

theorem occursPlace {path : List Step} (plain : u.bare = u) (occurs : u.Occurs path s)
    (comments : List String) : ∃ v around, s.Place comments path v around ∧ v.bare = u := by
  have layer : ∀ {path : List Step} {s t : Schema}, s.bare = t.bare → (∀ comments : List String,
      ∃ v around, t.Place comments path v around ∧ v.bare = u) → ∀ comments : List String,
      ∃ v around, s.Place comments path v around ∧ v.bare = u := by
    intro path s t same there comments
    obtain ⟨v, around, place, held⟩ := there comments
    obtain ⟨w, place, still⟩ := placeLayer same place
    exact ⟨w, around, place, still.trans held⟩
  have part : ∀ {path : List Step} {s t : Schema} {step : Step} {beside : List String},
      s.bare.Part step t beside → (∀ comments : List String,
      ∃ v around, t.Place comments path v around ∧ v.bare = u) → ∀ comments : List String,
      ∃ v around, s.Place comments (step :: path) v around ∧ v.bare = u := by
    intro path s t step beside inside there comments
    obtain ⟨v, around, place, held⟩ := there beside
    exact ⟨v, around, .part inside place, held⟩
  induction occurs generalizing comments with
  | here => exact ⟨_, comments, .here, plain⟩
  | lazy _ ih => exact layer (by rfl) ih comments
  | refine _ ih => exact layer (by rfl) ih comments
  | optional _ ih => exact layer (by rfl) ih comments
  | withDefault _ ih => exact layer (by rfl) ih comments
  | marked _ ih => exact layer (by rfl) ih comments
  | item _ ih => exact part (s := .array _ _ _ _) .item ih comments
  | key _ ih => exact part (s := .record _ _) .key ih comments
  | value _ ih => exact part (s := .record _ _) .value ih comments
  | alternative nth _ ih => exact part (s := .union _) (.alternative nth) ih comments
  | field nth _ ih => exact part (s := .object _) (.field nth) ih comments

structure Atomic (s : Schema) : Prop where
  bare : s.bare = s
  partless : ∀ step t beside, ¬ s.Part step t beside

theorem timestampAtomic (format : TimestampFormat) : (ofTimestampFormat format).Atomic := by
  constructor
  · cases format <;> rfl
  · intro step t beside inside
    cases format <;> cases inside

theorem scalarAtomic (scope : Scope) (space : String) (traits : Traits) (kind : Scalar) :
    (scope.scalarSchema space traits kind).Atomic := by
  cases kind with
  | timestamp =>
    simp only [Scope.scalarSchema]
    split
    · exact timestampAtomic _
    · split
      · exact timestampAtomic .dateTime
      · exact timestampAtomic .httpDate
  | _ => exact ⟨rfl, fun step t beside inside => by cases inside⟩

theorem builtinAtomic (b : Builtin) : b.schema.Atomic := by
  cases b <;> exact ⟨rfl, fun step t beside inside => by cases inside⟩

end Schema

inductive Role where
  | listMember
  | mapKey
  | mapValue
  | unionMember
  | structureMember
  deriving DecidableEq, Repr

namespace Role

def text : Role → String
  | listMember => "list member"
  | mapKey => "map key"
  | mapValue => "map value"
  | unionMember => "union member"
  | structureMember => "structure member"

def isInline : Role → Bool
  | listMember | mapValue | unionMember => true
  | mapKey | structureMember => false

end Role

inductive Subject where
  | shape (id : String)
  | member (role : Role) (member : Member) (owner : String)

def Subject.id : Subject → String
  | shape id => id
  | member _ referrer _ => referrer.target

namespace Model

def shapeAt (m : Model) : Subject → Option Shape
  | .shape id => m.shape? id
  | .member _ member _ => match Builtin.ofId? member.target with
    | some _ => none
    | none => m.shape? member.target

inductive Leads (m : Model) (x : Subject) : Step → Subject → Prop where
  | item {member traits} (found : m.shapeAt x = some (.list member traits)) :
      m.Leads x .item (.member .listMember member (ShapeId.localName x.id))
  | key {key value traits} (found : m.shapeAt x = some (.map key value traits)) :
      m.Leads x .key (.member .mapKey key (ShapeId.localName x.id))
  | value {key value traits} (found : m.shapeAt x = some (.map key value traits)) :
      m.Leads x .value (.member .mapValue value (ShapeId.localName x.id))
  | alternative {members traits i name member} (found : m.shapeAt x = some (.union members traits))
      (here : members[i]? = some (name, member)) : m.Leads x (.alternative i)
        (.member .unionMember member (ShapeId.localName x.id ++ "." ++ name))
  | field {members traits i name member} (found : m.shapeAt x = some (.struct members traits))
      (here : members[i]? = some (name, member)) : m.Leads x (.field i)
        (.member .structureMember member (ShapeId.localName x.id ++ "." ++ name))

inductive Walk (m : Model) : Subject → List Step → Subject → Prop where
  | here {x} : m.Walk x [] x
  | step {x step y path z} (leads : m.Leads x step y) (rest : m.Walk y path z) : m.Walk x (step :: path) z

theorem leadsUnique {m : Model} {x y y' : Subject} {step : Step} (leads : m.Leads x step y)
    (leads' : m.Leads x step y') : y = y' := by
  cases leads with
  | item found =>
    cases leads' with
    | item found' =>
      cases found.symm.trans found'
      rfl
  | key found =>
    cases leads' with
    | key found' =>
      cases found.symm.trans found'
      rfl
  | value found =>
    cases leads' with
    | value found' =>
      cases found.symm.trans found'
      rfl
  | alternative found here =>
    cases leads' with
    | alternative found' here' =>
      cases found.symm.trans found'
      cases here.symm.trans here'
      rfl
  | field found here =>
    cases leads' with
    | field found' here' =>
      cases found.symm.trans found'
      cases here.symm.trans here'
      rfl

theorem walkUnique {m : Model} {x y y' : Subject} {path : List Step} (walk : m.Walk x path y)
    (walk' : m.Walk x path y') : y = y' := by
  induction walk with
  | here =>
    cases walk'
    rfl
  | step leads rest ih =>
    cases walk' with
    | step leads' rest' =>
      cases leadsUnique leads leads'
      exact ih rest'

end Model

namespace Scope

variable {scope : Scope}

def Visible (scope : Scope) (stack : List String) : Prop :=
  ∀ id ∈ stack, ∃ kind, scope.model.schemaKind? id = some kind

inductive Made (scope : Scope) : Subject → Schema → List String → Prop where
  | shape {id shape s} (found : scope.model.shape? id = some shape) (declares : scope.Declares id shape s) :
      scope.Made (.shape id) s []
  | inline {role member owner source stack r} (inlined : role.isInline = true)
      (visible : scope.Visible stack)
      (resolved : resolveIn scope member.target source .deferred stack = .ok r) :
      scope.Made (.member role member owner) (markUnresolved r role.text member.target owner) []
  | key {member owner map source stack r s} (visible : scope.Visible stack)
      (resolved : resolveIn scope member.target source .deferred stack = .ok r)
      (fits : keySchema map member.target r = .ok s) : scope.Made (.member .mapKey member owner) s []
  | field {owner name member source f} (made : Structure.field scope owner source name member = .ok f) :
      scope.Made (.member .structureMember member (owner ++ "." ++ name)) f.2.1 f.2.2

structure Follows (scope : Scope) (x : Subject) (s : Schema) : Prop where
  made : ∀ step t beside, s.bare.Part step t beside → ∃ y, scope.model.Leads x step y ∧ scope.Made y t beside
  opened : ∀ step y, scope.model.Leads x step y → ∃ t beside, s.bare.Part step t beside

theorem followsBare {x : Subject} {s t : Schema} (same : s.bare = t.bare) (follows : scope.Follows x t) :
    scope.Follows x s := by
  constructor
  · rw [same]
    exact follows.made
  · rw [same]
    exact follows.opened

theorem bareNotes (notes : List String) (s : Schema) : (Schema.withNotes notes s).bare = s.bare := by
  induction notes with
  | nil => rfl
  | cons note rest ih => exact ih

theorem followsNone {x : Subject} {s : Schema} (atomic : s.Atomic)
    (none : ∀ step y, ¬ scope.model.Leads x step y) : scope.Follows x s := by
  constructor
  · rw [atomic.bare]
    exact fun step t beside inside => absurd inside (atomic.partless step t beside)
  · exact fun step y leads => absurd leads (none step y)

theorem expansionFollows {source : FileKey} {stack : List String} {id : String} {shape : Shape} {s : Schema}
    (visible : scope.Visible stack) (found : scope.model.shape? id = some shape)
    (inlined : shape.isExpanded = true)
    (expansion : scope.Expansion (fun t r => resolveIn scope t source .deferred stack = .ok r) id s)
    {x : Subject} (here : scope.model.shapeAt x = some shape) (named : x.id = id) : scope.Follows x s := by
  cases expansion with
  | absent missing => cases found.symm.trans missing
  | other found' parsed apart =>
    cases found.symm.trans found'
    cases inlined.symm.trans apart
  | scalar found' parsed =>
    cases found.symm.trans found'
    refine followsBare (bareNotes _ _) (followsNone (Schema.scalarAtomic scope _ _ _) ?_)
    intro step y leads
    cases leads with
    | item other | key other | value other | alternative other _ | field other _ =>
      cases here.symm.trans other
  | list found' parsed item =>
    cases found.symm.trans found'
    have owner : ShapeId.localName x.id = _ := named ▸ ShapeId.parseLocal parsed
    refine followsBare (bareNotes _ _) ⟨fun step t beside inside => ?_, fun step y leads => ?_⟩
    · cases inside with
      | item => exact ⟨_, .item here, owner ▸ .inline rfl visible item⟩
    · cases leads with
      | item other =>
        cases here.symm.trans other
        exact ⟨_, _, .item⟩
      | key other | value other | alternative other _ | field other _ => cases here.symm.trans other
  | map found' parsed keys fits values =>
    cases found.symm.trans found'
    have owner : ShapeId.localName x.id = _ := named ▸ ShapeId.parseLocal parsed
    refine followsBare (bareNotes _ _) ⟨fun step t beside inside => ?_, fun step y leads => ?_⟩
    · cases inside with
      | key => exact ⟨_, .key here, .key visible keys fits⟩
      | value => exact ⟨_, .value here, owner ▸ .inline rfl visible values⟩
    · cases leads with
      | key other => exact ⟨_, _, .key⟩
      | value other => exact ⟨_, _, .value⟩
      | item other | alternative other _ | field other _ => cases here.symm.trans other
  | union rs found' parsed alternatives =>
    cases found.symm.trans found'
    have owner : ShapeId.localName x.id = _ := named ▸ ShapeId.parseLocal parsed
    refine followsBare (bareNotes _ _) ⟨fun step t beside inside => ?_, fun step y leads => ?_⟩
    · cases inside with
      | alternative nth =>
        rw [List.getElem?_map] at nth
        obtain ⟨⟨name, member⟩, listed, rfl⟩ := Option.map_eq_some_iff.mp nth
        exact ⟨_, .alternative here listed, owner ▸ .inline rfl visible
          (alternatives _ (List.mem_of_getElem? listed))⟩
    · cases leads with
      | alternative other nth =>
        cases here.symm.trans other
        exact ⟨_, _, .alternative (by rw [List.getElem?_map, nth]; rfl)⟩
      | item other | key other | value other | field other _ => cases here.symm.trans other

theorem visibleNil : scope.Visible [] := by
  intro id mem
  contradiction

theorem visiblePush (discovered : scope.Discovered) {stack : List String} (visible : scope.Visible stack)
    {target : String} {symbol : Symbol} (registered : scope.symbols.lookup? target = some symbol) :
    scope.Visible (stack ++ [target]) := by
  intro id mem
  rcases List.mem_append.mp mem with mem | mem
  · exact visible id mem
  · rw [List.mem_singleton.mp mem]
    exact ⟨_, (registeredKind discovered registered).1⟩

def RefersTo (x : Subject) (s : Schema) : Prop :=
  ∃ role member owner ref, x = .member role member owner ∧ s.bare = .ref ref ∧ ref.shapeId = member.target

theorem resolvedFollows (discovered : scope.Discovered) {source : FileKey} {stack : List String}
    {role : Role} {member : Member} {owner : String} {r : Resolution} (visible : scope.Visible stack)
    (ok : resolveIn scope member.target source .deferred stack = .ok r) (closed : r.resolved = true) :
    RefersTo (.member role member owner) r.schema ∨ scope.Follows (.member role member owner) r.schema := by
  have reference := resolveOk.mp ok
  cases reference with
  | recursive | missing => contradiction
  | @builtin b fresh known =>
    have none : scope.model.shapeAt (.member role member owner) = none := by rw [Model.shapeAt, known]
    refine .inr (followsNone (Schema.builtinAtomic b) (fun step y leads => ?_))
    cases leads with
    | item other | key other | value other | alternative other _ | field other _ =>
      cases none.symm.trans other
  | @declared symbol parts fresh foreign named registered standalone =>
    refine .inl ⟨_, _, _, ⟨member.target, symbol.schemaName, symbol.fileKey, symbol.kind⟩, rfl, ?_, rfl⟩
    unfold Resolution.found refSchema
    simp only
    split <;> rfl
  | inlined fresh foreign named registered apart body =>
    obtain ⟨shape, there, -, inlined⟩ := inlinedShape discovered registered apart
    have here : scope.model.shapeAt (.member role member owner) = some shape := by
      rw [Model.shapeAt, foreign, there]
    exact .inr (expansionFollows (visiblePush discovered visible registered) there inlined
      (expandOk.mp body) here rfl)

end Scope

namespace Structure

variable {scope : Scope} {owner name : String} {source : FileKey} {member : Member}

theorem bareReplaced (s replacement : Schema) : (s.replaceMarked replacement).bare = replacement.bare := by
  fun_induction Schema.replaceMarked s replacement with
  | case1 replacement comment inner ih => exact ih
  | case2 => rfl

theorem bareBlind : Blind Schema.bare := ⟨fun _ _ => rfl, fun _ => rfl, fun _ _ => rfl⟩

/-- What a field is made from. A resolved target gives its schema, below layers, or the timestamp that the
member asks for; every other target leaves the field open, with a line that tells why. -/
inductive Field (scope : Scope) (source : FileKey) (owner name : String) (member : Member) :
    String × Schema × List String → Prop where
  | found {r s} (resolved : scope.resolveIn member.target source .deferred [] = .ok r)
      (closed : r.resolved = true)
      (made : memberSchema r member.traits ("structure member " ++ owner ++ "." ++ name) = .ok s) :
      Field scope source owner name member (name, s, Comment.above member.traits memberTraits
        ("structure member " ++ owner ++ "." ++ name))
  | lost {r} (resolved : scope.resolveIn member.target source .deferred [] = .ok r)
      (unresolved : r.resolved = false) :
      Field scope source owner name member (name, optionalUnlessRequired member.traits .unknown,
        Comment.above member.traits memberTraits ("structure member " ++ owner ++ "." ++ name) ++
          [Comment.line (Comment.unresolvedNote "structure member" member.target (owner ++ "." ++ name)
            r.recursive)])

theorem fieldMade {f : String × Schema × List String} (ok : field scope owner source name member = .ok f) :
    Field scope source owner name member f := by
  obtain ⟨r, resolved, ok⟩ := bindOk.mp ok
  split at ok
  · rename_i closed
    obtain ⟨s, made, ok⟩ := bindOk.mp ok
    obtain rfl := pureOk.mp ok
    exact .found resolved closed made
  · rename_i unresolved
    obtain rfl := pureOk.mp ok
    exact .lost resolved (by simpa using unresolved)

theorem fieldsNth {members : List (String × Member)} {fs : List (String × Schema × List String)}
    (ok : fields scope owner source members = .ok fs) (i : Nat) :
    (∀ f, fs[i]? = some f → ∃ m, members[i]? = some m ∧ field scope owner source m.1 m.2 = .ok f) ∧
      ∀ m, members[i]? = some m → ∃ f, fs[i]? = some f := by
  induction members generalizing fs i with
  | nil =>
    obtain rfl := pureOk.mp ok
    simp
  | cons m rest ih =>
    obtain ⟨name, member⟩ := m
    obtain ⟨head, first, ok⟩ := bindOk.mp ok
    obtain ⟨tail, others, ok⟩ := bindOk.mp ok
    obtain rfl := pureOk.mp ok
    cases i with
    | zero => simp [first]
    | succ i => simpa using ih others i

theorem fieldMem {members : List (String × Member)} {fs : List (String × Schema × List String)}
    (ok : fields scope owner source members = .ok fs) {m : String × Member} (mem : m ∈ members) :
    ∃ f ∈ fs, field scope owner source m.1 m.2 = .ok f := by
  obtain ⟨i, nth⟩ := List.mem_iff_getElem?.mp mem
  obtain ⟨f, there⟩ := (fieldsNth ok i).2 m nth
  obtain ⟨m', nth', made⟩ := (fieldsNth ok i).1 f there
  cases nth.symm.trans nth'
  exact ⟨f, List.mem_of_getElem? there, made⟩

end Structure

namespace Scope

variable {scope : Scope}

theorem timestampEnds (discovered : scope.Discovered) {source : FileKey} {stack : List String}
    {role : Role} {member : Member} {owner : String} {r : Resolution}
    (ok : resolveIn scope member.target source .deferred stack = .ok r)
    (kinded : r.kind = some (.scalar .timestamp)) (step : Step) (y : Subject) :
    ¬ scope.model.Leads (.member role member owner) step y := by
  intro leads
  have parts : ∃ shape, scope.model.shapeAt (.member role member owner) = some shape ∧
      shape.kind? ≠ some (.scalar .timestamp) := by
    cases leads with
    | item found | key found | value found | alternative found _ | field found _ =>
      exact ⟨_, found, by simp [Shape.kind?]⟩
  obtain ⟨shape, there, other⟩ := parts
  rw [Model.shapeAt] at there
  have reference := resolveOk.mp ok
  cases reference with
  | recursive | missing => cases kinded
  | builtin fresh known =>
    rw [known] at there
    contradiction
  | declared fresh foreign named registered standalone =>
    rw [Symbol.isStandalone, Option.some.inj kinded] at standalone
    contradiction
  | inlined fresh foreign named registered apart body =>
    obtain ⟨shape', found, shaped, -⟩ := inlinedShape discovered registered apart
    rw [foreign] at there
    cases there.symm.trans found
    exact other (shaped.trans kinded)

theorem madeFollows (discovered : scope.Discovered) {x : Subject} {s : Schema} {comments : List String}
    (made : scope.Made x s comments) : RefersTo x s ∨ s.bare = .unknown ∨ scope.Follows x s := by
  have same : ∀ {x : Subject} {s t : Schema}, s.bare = t.bare → RefersTo x t ∨ scope.Follows x t →
      RefersTo x s ∨ s.bare = .unknown ∨ scope.Follows x s := by
    rintro x s t same (⟨role, member, owner, ref, subject, bare, target⟩ | follows)
    · exact .inl ⟨role, member, owner, ref, subject, same.trans bare, target⟩
    · exact .inr (.inr (followsBare same follows))
  cases made with
  | @shape id shape s found declares =>
    have here : scope.model.shapeAt (.shape id) = some shape := found
    cases declares with
    | enum registered =>
      refine .inr (.inr (followsNone ⟨rfl, fun step t beside inside => by cases inside⟩ ?_))
      intro step y leads
      cases leads with
      | item other | key other | value other | alternative other _ | field other _ =>
        cases here.symm.trans other
    | struct named registered each =>
      refine .inr (.inr ⟨fun step t beside inside => ?_, fun step y leads => ?_⟩)
      · cases inside with
        | @field _ i name s beside nth =>
          obtain ⟨⟨name', member⟩, listed, field⟩ := (Structure.fieldsNth each i).1 _ nth
          exact ⟨_, .field here listed, ShapeId.parseLocal named ▸ .field field⟩
      · cases leads with
        | @field members traits i name member other listed =>
          cases here.symm.trans other
          obtain ⟨⟨name', s, beside⟩, nth⟩ := (Structure.fieldsNth each i).2 _ listed
          exact ⟨_, _, .field nth⟩
        | item other | key other | value other | alternative other _ => cases here.symm.trans other
    | expanded inlined routed body =>
      have visible : scope.Visible [id] := by
        intro id' mem
        rw [List.mem_singleton.mp mem]
        exact (expandedBears found inlined).imp (fun _ bears => bears.2)
      exact .inr (.inr (expansionFollows visible found inlined (expandOk.mp body) here rfl))
  | @inline role member owner source stack r inlined visible resolved =>
    unfold markUnresolved
    split
    · rename_i closed
      exact same rfl (resolvedFollows discovered visible resolved closed)
    · rename_i unresolved
      have reference := resolveOk.mp resolved
      cases reference with
      | recursive => exact .inr (.inl rfl)
      | missing => exact .inr (.inl rfl)
      | _ => contradiction
  | @key member owner map source stack r s visible resolved fits =>
    have closed := keyResolved fits
    rw [keySchemaOf fits]
    exact same rfl (resolvedFollows discovered visible resolved closed)
  | @field owner name member source f ok =>
    have field := Structure.fieldMade ok
    cases field with
    | @found r s resolved closed made =>
      obtain ⟨format, kinded, -, target⟩ | ⟨-, target⟩ := Structure.targetCases r member.traits
      · refine .inr (.inr (followsBare ?_ (followsNone (Schema.timestampAtomic format)
          (timestampEnds discovered resolved kinded))))
        rw [Structure.blindMember Structure.bareBlind made, target]
        exact Structure.bareReplaced _ _
      · have bare := Structure.blindMember Structure.bareBlind made
        rw [target] at bare
        exact same bare (resolvedFollows discovered visibleNil resolved closed)
    | lost => exact .inr (.inl (Structure.blindOptional Structure.bareBlind _ _))

theorem madePart (discovered : scope.Discovered) {x : Subject} {s t : Schema}
    {comments beside : List String} {step : Step} (made : scope.Made x s comments)
    (inside : s.bare.Part step t beside) : ∃ y, scope.model.Leads x step y ∧ scope.Made y t beside := by
  rcases madeFollows discovered made with ⟨-, -, -, ref, -, bare, -⟩ | bare | follows
  · rw [bare] at inside
    cases inside
  · rw [bare] at inside
    cases inside
  · exact follows.made step t beside inside

theorem madePlace (discovered : scope.Discovered) {x : Subject} {s t : Schema}
    {comments around : List String} {path : List Step} (made : scope.Made x s comments)
    (place : s.Place comments path t around) : ∃ y, scope.model.Walk x path y ∧ scope.Made y t around := by
  induction place generalizing x with
  | here => exact ⟨x, .here, made⟩
  | part inside rest ih =>
    obtain ⟨y, leads, made⟩ := madePart discovered made inside
    obtain ⟨z, walk, made⟩ := ih made
    exact ⟨z, .step leads walk, made⟩

end Scope

/-! The schemas that a run makes for the members of a model. -/

def Schema.isInlined : Schema → Bool
  | .ref _ | .object _ | .enum .. => false
  | _ => true

namespace Scope

variable {scope : Scope} {source : FileKey}

theorem scalarInlined (space : String) (traits : Traits) (kind : Scalar) :
    (scope.scalarSchema space traits kind).isInlined = true := by
  cases kind with
  | timestamp =>
    simp only [scalarSchema]
    split
    · rename_i format _
      cases format <;> rfl
    · split <;> rfl
  | _ => rfl

theorem expansionInlined {resolves : String → Resolution → Prop} {id : String} {s : Schema}
    (expansion : scope.Expansion resolves id s) : s.bare.isInlined = true := by
  cases expansion with
  | absent | other => rfl
  | scalar =>
    rw [bareNotes, (Schema.scalarAtomic ..).bare]
    exact scalarInlined _ _ _
  | list | map | union =>
    rw [bareNotes]
    rfl

inductive Head (target : String) (s : Schema) : Prop where
  | refers (r : SchemaRef) (bare : s.bare = .ref r) (same : r.shapeId = target)
      (foreign : Builtin.ofId? target = none) : Head target s
  | inlined (bare : s.bare.isInlined = true) : Head target s

theorem headBare {target : String} {s t : Schema} (same : s.bare = t.bare) (head : Head target t) :
    Head target s := by
  cases head with
  | refers r bare target foreign => exact .refers r (same.trans bare) target foreign
  | inlined bare => exact .inlined (same ▸ bare)

theorem resolvedHead {target : String} {stack : List String} {r : Resolution}
    (ok : resolveIn scope target source .deferred stack = .ok r) : Head target r.schema := by
  have reference := resolveOk.mp ok
  cases reference with
  | recursive | missing => exact .inlined rfl
  | @builtin b =>
    refine .inlined ?_
    rw [Builtin.resolution, Resolution.found, (Schema.builtinAtomic b).bare]
    cases b <;> rfl
  | @declared symbol parts fresh foreign =>
    refine .refers ⟨target, symbol.schemaName, symbol.fileKey, symbol.kind⟩ ?_ rfl foreign
    simp only [Resolution.found, refSchema]
    split <;> rfl
  | inlined _ _ _ _ _ body => exact .inlined (expansionInlined (expandOk.mp body))

theorem madeHead {role : Role} {member : Member} {owner : String} {s : Schema} {around : List String}
    (made : scope.Made (.member role member owner) s around) : Head member.target s := by
  cases made with
  | inline inlined visible resolved =>
    unfold markUnresolved
    split
    · exact resolvedHead resolved
    · exact headBare (by rfl) (resolvedHead resolved)
  | key visible resolved fits =>
    rw [keySchemaOf fits]
    exact resolvedHead resolved
  | field made =>
    have field := Structure.fieldMade made
    cases field with
    | @found r s resolved closed formed =>
      have bare := Structure.blindMember Structure.bareBlind formed
      obtain ⟨format, -, -, target⟩ | ⟨-, target⟩ := Structure.targetCases r member.traits
      · rw [target, Structure.bareReplaced, (Schema.timestampAtomic format).bare] at bare
        exact .inlined (by rw [bare]; cases format <;> rfl)
      · rw [target] at bare
        exact headBare bare (resolvedHead resolved)
    | lost => exact .inlined (by rw [Structure.blindOptional Structure.bareBlind]; rfl)

end Scope

namespace Contracts

variable {job : Job} {c : Contracts}

theorem finishedMade (done : ofModel job = .ok c) {id : String} {s : Schema}
    (recorded : c.schema? id = some s) : c.scope.Made (.shape id) s [] := by
  obtain ⟨shape, found, declares⟩ := finishedDeclares done recorded
  rw [← (finishedTrace done).1] at found
  exact .shape found declares

theorem memberMade (done : ofModel job = .ok c) {id : String} {members : List (String × Member)}
    {traits : Traits} (found : job.model.shape? id = some (.struct members traits)) {m : String × Member}
    (mem : m ∈ members) : ∃ symbol fields f, c.scope.symbols.lookup? id = some symbol ∧
      c.schema? id = some (.object fields) ∧
      Structure.fields c.scope (ShapeId.localName id) symbol.fileKey members = .ok fields ∧ f ∈ fields ∧
      Structure.field c.scope (ShapeId.localName id) symbol.fileKey m.1 m.2 = .ok f := by
  obtain ⟨s, recorded⟩ := finishedAll done (schemaKindSome.mpr ⟨_, found, rfl, rfl⟩)
  obtain ⟨symbol, fields, registered, rfl, each⟩ := structFields done found recorded
  obtain ⟨f, there, made⟩ := Structure.fieldMem each mem
  exact ⟨symbol, fields, f, registered, recorded, each, there, made⟩

theorem recordedBody (done : ofModel job = .ok c) {id : String} {shape : Shape}
    (found : job.model.shape? id = some shape) (inlined : shape.isExpanded = true) :
    ∃ source s, c.schema? id = some s ∧ c.scope.expand id source [id] = .ok s := by
  obtain ⟨kind, -, bears⟩ := expandedBears found inlined
  obtain ⟨s, recorded⟩ := finishedAll done bears
  obtain ⟨shape', found', declares⟩ := finishedDeclares done recorded
  cases found.symm.trans found'
  cases declares with
  | enum | struct => contradiction
  | expanded _ _ body => exact ⟨_, s, recorded, body⟩

end Contracts
end ShapeContracts
