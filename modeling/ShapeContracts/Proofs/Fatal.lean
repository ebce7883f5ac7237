import ShapeContracts.Proofs.Run

/-! The conditions that end a run, read off the model alone, and when each function of a run yields a
result. A run is never consulted in the conditions themselves. -/
namespace ShapeContracts

def Model.SparesPrelude (m : Model) : Prop := ∀ b : Builtin, m.shape? b.id = none

namespace Model

def Keys (m : Model) (target : String) : Prop :=
  target = Builtin.string.id ∨ m.kind? target = some (.scalar .string) ∨ m.kind? target = some .enum

/-- The kind of a target that resolves; the prelude unit resolves and has none. -/
def targetKind? (m : Model) (target : String) : Option (Option ShapeKind) :=
  match Builtin.ofId? target with
  | some b => some b.kind?
  | none => (m.schemaKind? target).map some

end Model

def fitsDefault : Option ShapeKind → Json → Bool
  | some (.scalar .document), _ => true
  | some (.scalar .boolean), .bool _ => true
  | some (.scalar .blob), .string text => (Base64.decode? text.toList).isSome
  | some (.scalar .string), .string _ => true
  | some (.scalar .timestamp), .string _ => true
  | some .enum, .string _ => true
  | _, _ => false

inductive Model.Fatal (m : Model) : Prop where
  | malformedId {id shape kind} (entry : (id, shape) ∈ m.shapes) (kinded : shape.kind? = some kind)
      (malformed : '#' ∉ id.toList) : m.Fatal
  | malformedTarget {id shape target} (entry : (id, shape) ∈ m.shapes)
      (refers : target ∈ shape.targets) (malformed : '#' ∉ target.toList) : m.Fatal
  | unkeyed {id key value traits} (entry : (id, .map key value traits) ∈ m.shapes)
      (apart : ¬ m.Keys key.target) : m.Fatal
  | unfitDefault {id members traits name member value kind}
      (entry : (id, .struct members traits) ∈ m.shapes) (field : (name, member) ∈ members)
      (given : member.traits.defaultValue = some value)
      (resolves : m.targetKind? member.target = some kind) (unfit : fitsDefault kind value = false) :
      m.Fatal

namespace Model

instance (m : Model) (target : String) : Decidable (m.Keys target) :=
  inferInstanceAs (Decidable (_ ∨ _ ∨ _))

def faulty (m : Model) (id : String) (shape : Shape) : Bool :=
  (shape.kind?.isSome && !decide ('#' ∈ id.toList)) ||
    shape.targets.any (fun target => !decide ('#' ∈ target.toList)) ||
    match shape with
    | .map key _ _ => !decide (m.Keys key.target)
    | .struct members _ => members.any (fun (_, member) =>
        match member.traits.defaultValue, m.targetKind? member.target with
        | some value, some kind => !fitsDefault kind value
        | _, _ => false)
    | _ => false

theorem fatalFaulty {m : Model} : m.shapes.any (fun e => m.faulty e.1 e.2) = true ↔ m.Fatal := by
  rw [List.any_eq_true]
  constructor
  · rintro ⟨⟨id, shape⟩, entry, faults⟩
    simp only [faulty, Bool.or_eq_true, Bool.and_eq_true, Bool.not_eq_true', decide_eq_false_iff_not,
      Option.isSome_iff_exists, List.any_eq_true] at faults
    rcases faults with (⟨⟨kind, kinded⟩, malformed⟩ | ⟨target, refers, malformed⟩) | faults
    · exact .malformedId entry kinded malformed
    · exact .malformedTarget entry refers malformed
    · cases shape with
      | map key value traits => exact .unkeyed entry (by simpa using faults)
      | struct members traits =>
        obtain ⟨⟨name, member⟩, field, unfit⟩ := List.any_eq_true.mp faults
        split at unfit
        · rename_i value kind given resolves
          exact .unfitDefault entry field given resolves (by simpa using unfit)
        · contradiction
      | _ => contradiction
  · intro fatal
    cases fatal with
    | malformedId entry kinded malformed =>
      exact ⟨_, entry, by simp [faulty, kinded, malformed]⟩
    | malformedTarget entry refers malformed =>
      refine ⟨_, entry, ?_⟩
      simp only [faulty, Bool.or_eq_true, List.any_eq_true]
      exact .inl (.inr ⟨_, refers, by simpa using malformed⟩)
    | unkeyed entry apart => exact ⟨_, entry, by simp [faulty, apart]⟩
    | unfitDefault entry field given resolves unfit =>
      refine ⟨_, entry, ?_⟩
      simp only [faulty, Bool.or_eq_true, List.any_eq_true]
      exact .inr ⟨_, field, by simp [given, resolves, unfit]⟩

instance (m : Model) : Decidable m.Fatal := decidable_of_iff _ fatalFaulty

end Model

theorem consOk {x : Except ε α} {y : Except ε (List α)} :
    (∃ l, (x >>= fun a => y >>= fun as => pure (a :: as)) = .ok l) ↔
      (∃ a, x = .ok a) ∧ ∃ as, y = .ok as := by
  simp only [bindOk, pureOk]
  constructor
  · rintro ⟨_, a, first, as, others, _⟩
    exact ⟨⟨a, first⟩, as, others⟩
  · rintro ⟨⟨a, first⟩, as, others⟩
    exact ⟨_, a, first, as, others, rfl⟩

theorem ShapeId.thenOk {id : String} {f : ShapeId → Except Failure α}
    (total : ∀ parts, ∃ a, f parts = .ok a) : (∃ a, (parse id >>= f) = .ok a) ↔ '#' ∈ id.toList := by
  rw [← parseOk]
  simp only [bindOk]
  constructor
  · rintro ⟨_, parts, named, _⟩
    exact ⟨parts, named⟩
  · rintro ⟨parts, named⟩
    obtain ⟨a, ok⟩ := total parts
    exact ⟨a, parts, named, ok⟩

theorem builtinNamed (b : Builtin) : '#' ∈ b.id.toList := by
  cases b <;> decide

namespace Structure

theorem defaultValueOk {value : Json} {kind : Option ShapeKind} (location : String) :
    (∃ d, defaultValue value kind location = .ok d) ↔ fitsDefault kind value = true := by
  cases kind with
  | none => simp [defaultValue, fitsDefault]
  | some kind =>
    cases kind with
    | scalar s =>
      cases s with
      | blob =>
        cases value with
        | string text =>
          cases decoded : Base64.decode? text.toList <;>
            simp [defaultValue, fitsDefault, decoded]
        | _ => simp [defaultValue, fitsDefault]
      | _ => cases value <;> simp [defaultValue, fitsDefault]
    | _ => cases value <;> simp [defaultValue, fitsDefault]

theorem memberSchemaOk {r : Resolution} {traits : Traits} (location : String) :
    (∃ s, memberSchema r traits location = .ok s) ↔
      ∀ value, traits.defaultValue = some value → fitsDefault r.kind value = true := by
  unfold memberSchema
  cases given : traits.defaultValue with
  | none => simp
  | some value =>
    simp only [Option.some.injEq, forall_eq', ← defaultValueOk location]
    cases defaultValue value r.kind location <;> simp [Functor.map, Except.map]

variable {scope : Scope} {owner : String} {source : FileKey}

theorem fieldOk {name : String} {member : Member} :
    (∃ f, field scope owner source name member = .ok f) ↔
      ∃ r, scope.resolveIn member.target source .deferred [] = .ok r ∧ (r.resolved = true →
        ∀ value, member.traits.defaultValue = some value → fitsDefault r.kind value = true) := by
  unfold field Scope.resolve
  constructor
  · rintro ⟨f, ok⟩
    obtain ⟨r, resolved, ok⟩ := bindOk.mp ok
    refine ⟨r, resolved, fun found => ?_⟩
    rw [if_pos found] at ok
    obtain ⟨s, made, -⟩ := bindOk.mp ok
    exact (memberSchemaOk _).mp ⟨s, made⟩
  · rintro ⟨r, resolved, fits⟩
    by_cases found : r.resolved = true
    · obtain ⟨s, made⟩ := (memberSchemaOk ("structure member " ++ owner ++ "." ++ name)).mpr
        (fits found)
      exact ⟨_, bindOk.mpr ⟨r, resolved, by rw [if_pos found]; exact bindOk.mpr ⟨s, made, rfl⟩⟩⟩
    · exact ⟨_, bindOk.mpr ⟨r, resolved, by rw [if_neg found]; rfl⟩⟩

theorem fieldsOk {members : List (String × Member)} :
    (∃ fs, fields scope owner source members = .ok fs) ↔
      ∀ m ∈ members, ∃ f, field scope owner source m.1 m.2 = .ok f := by
  induction members with
  | nil => simp [fields]
  | cons m rest ih =>
    obtain ⟨name, member⟩ := m
    rw [List.forall_mem_cons, ← ih, fields, consOk]

end Structure

namespace Operation

variable {scope : Scope}

theorem typeRefOk {target : Option String} :
    (∃ t, typeRef scope target = .ok t) ↔ ∀ id ∈ target, '#' ∈ id.toList := by
  cases target with
  | none => simp [typeRef]
  | some id =>
    simp only [Option.mem_def, Option.some.injEq, forall_eq', typeRef]
    split
    · rename_i same
      simp [same, builtinNamed]
    · refine ShapeId.thenOk (fun _ => ?_)
      split
      · split <;> exact ⟨_, rfl⟩
      · exact ⟨_, rfl⟩

theorem throwsLinesOk {targets : List String} :
    (∃ lines, throwsLines scope targets = .ok lines) ↔ ∀ id ∈ targets, '#' ∈ id.toList := by
  induction targets with
  | nil => simp [throwsLines]
  | cons id rest ih =>
    have head : (∃ line, throwsLine scope id = .ok line) ↔ '#' ∈ id.toList :=
      ShapeId.thenOk (fun _ => ⟨_, rfl⟩)
    rw [List.forall_mem_cons, ← ih, ← head, throwsLines, consOk]

end Operation

namespace Service

variable {scope : Scope} {signatures : Signatures} {source : FileKey}

theorem methodsOk {targets : List String}
    (signed : ∀ id s, signatures.lookup id = some s → '#' ∈ id.toList) :
    (∃ ms, methods scope signatures source targets = .ok ms) ↔ ∀ id ∈ targets, '#' ∈ id.toList := by
  induction targets with
  | nil => simp [methods]
  | cons id rest ih =>
    have head : (∃ m, method scope signatures source id = .ok m) ↔ '#' ∈ id.toList := by
      unfold method
      cases found : signatures.lookup id with
      | some s => simp [signed id s found]
      | none => exact ShapeId.thenOk (fun _ => ⟨_, rfl⟩)
    rw [List.forall_mem_cons, ← ih, ← head, methods, consOk]

end Service
end ShapeContracts
