import ShapeContracts.Proofs.Fatal

/-! Values as a model describes them, read off its shapes by their targets alone. Nothing is resolved
and no schema is built; a structure that leads back to itself needs no care, because its members are
smaller values. -/
namespace ShapeContracts

namespace Traits

def lengthFits (t : Traits) (length : Nat) : Bool :=
  t.minLength.all (fun min => decide (min ≤ length)) && t.maxLength.all (fun max => decide (length ≤ max))

def valueFits (t : Traits) (x : Binary64) : Bool :=
  t.minValue.all (fun min => !x.lt min) && t.maxValue.all (fun max => !max.lt x)

def patternFits (t : Traits) (text : String) : Bool :=
  t.pattern.all (fun pattern =>
    match Pattern.parse (Pattern.anchored pattern) with
    | .ok p => p.isFoundIn text.toList
    | .error _ => false)

def fits (t : Traits) (j : Json) : Bool := j.length?.all t.lengthFits && j.float?.all t.valueFits

end Traits

namespace Interpretation

def timestamp (format : TimestampFormat) (j : Json) : Option Json :=
  match format, j with
  | .dateTime, .string text =>
    match Timestamp.normalize text with
    | .ok normalized => some (.string normalized)
    | .error _ => none
  | .httpDate, .string text =>
    match Timestamp.checkHttpDate text with
    | .ok () => some j
    | .error _ => none
  | .epochSeconds, j => j.float?.map (fun _ => j)
  | _, _ => none

def scalar (format : TimestampFormat) (traits : Traits) (kind : Scalar) (j : Json) : Option Json :=
  match kind, j with
  | .blob, .array items => if items.all Json.isByte then some j else none
  | .boolean, .bool _ => some j
  | .document, j => some j
  | .long, .number (.whole _) => some j
  | .integer, j =>
    j.float?.bind (fun x => if j.isSafeInteger && traits.valueFits x then some j else none)
  | .string, .string text =>
    if traits.lengthFits (Text.unitLength text) && traits.patternFits text then some j else none
  | .timestamp, j => timestamp format j
  | _, _ => none

def builtin (b : Builtin) (j : Json) : Option Json :=
  match b.kind? with
  | some (.scalar kind) => scalar .dateTime .empty kind j
  | _ => some j

variable (job : Job)

def formatOf (id : String) (traits : Traits) : TimestampFormat :=
  traits.timestampFormat.getD
    (if (ShapeId.ofString? id).any (fun parts => job.settings.defaultsToDateTime parts.space)
      then .dateTime else .httpDate)

def formatted (kind : Option ShapeKind) (format : Option TimestampFormat) (j : Json)
    (read : Option Json) : Option Json :=
  match kind, format with
  | some (.scalar .timestamp), some format => timestamp format j
  | _, _ => read

def present (member : Member) (j : Json) (read : Option Json) : Option Json :=
  match job.model.targetKind? member.target with
  | none => read
  | some kind => (formatted kind member.traits.timestampFormat j read).filter member.traits.fits

def filled (kind : Option ShapeKind) (value : Json) : Json :=
  match kind, value with
  | some (.scalar .blob), .string text =>
    .array (((Base64.decode? text.toList).getD []).map (fun b => .ofNat b.toNat))
  | _, value => value

def absent (member : Member) : Option (Option Json) :=
  match job.model.targetKind? member.target with
  | none => some none
  | some kind =>
    match member.traits.defaultValue with
    | some value => some (some (filled kind value))
    | none =>
      if member.traits.isRequired ∧ kind ≠ none ∧ kind ≠ some (.scalar .document) then none
      else some none

mutual

/-- A value as a target describes it; `unions` are those whose alternatives are tried on the value. -/
def interpret (unions : List String) (target : String) (j : Json) : Option Json :=
  match Builtin.ofId? target with
  | some b => builtin b j
  | none =>
    match _ : job.model.shape? target with
    | some (.scalar kind traits) => scalar (formatOf job target traits) traits kind j
    | some (.enum members _) =>
      match j with
      | .string text =>
        if text ∈ members.map (fun m => Enum.valueOf m.1 m.2) then some j else none
      | _ => none
    | some (.list member traits) =>
      match j with
      | .array items => (interpretItems member.target items).bind (fun read =>
          if traits.lengthFits items.length &&
            (!traits.hasUniqueItems || decide (read.map Json.render).Nodup)
          then some (.array read) else none)
      | _ => none
    | some (.map key value _) =>
      match j with
      | .object entries => (interpretEntries key.target value.target entries).map .object
      | _ => none
    | some (.union members _) =>
      if target ∈ unions then none else interpretFirst (unions ++ [target]) members j
    | some (.struct members _) =>
      match j with
      | .object entries => (interpretMembers members entries).map .object
      | _ => none
    | _ => some j
termination_by (sizeOf (some j), unvisited job.model.shapes unions, 0)
decreasing_by
  · apply Prod.Lex.left
    simp +arith
  · apply Prod.Lex.left
    simp +arith
  · apply Prod.Lex.right
    apply Prod.Lex.left
    exact unvisitedVisit (Entries.lookupSome.mp ⟨_, by assumption⟩) (by assumption)
  · apply Prod.Lex.left
    simp +arith

def interpretItems (target : String) (items : List Json) : Option (List Json) :=
  match items with
  | [] => some []
  | j :: rest =>
    (interpret [] target j).bind (fun first =>
      (interpretItems target rest).map (fun others => first :: others))
termination_by (sizeOf items, 0, 0)
decreasing_by
  all_goals
    have := Schema.sizeOfListPositive rest
    apply Prod.Lex.left
    simp only [Option.some.sizeOf_spec, List.cons.sizeOf_spec]
    omega

def interpretEntries (key value : String) (entries : List (String × Json)) :
    Option (List (String × Json)) :=
  match entries with
  | [] => some []
  | (name, j) :: rest =>
    (interpret [] key (.string name)).bind (fun _ => (interpret [] value j).bind (fun first =>
      (interpretEntries key value rest).map (fun others => (name, first) :: others)))
termination_by (sizeOf entries, 0, 0)
decreasing_by
  all_goals
    have := Schema.sizeOfListPositive rest
    apply Prod.Lex.left
    simp only [Option.some.sizeOf_spec, Json.string.sizeOf_spec, List.cons.sizeOf_spec,
      Prod.mk.sizeOf_spec]
    omega

def interpretFirst (unions : List String) (members : List (String × Member)) (j : Json) :
    Option Json :=
  match members with
  | [] => none
  | (_, member) :: rest =>
    match interpret unions member.target j with
    | some read => some read
    | none => interpretFirst unions rest j
termination_by (sizeOf (some j), unvisited job.model.shapes unions, members.length)

def interpretMembers (members : List (String × Member)) (entries : List (String × Json)) :
    Option (List (String × Json)) :=
  match members with
  | [] => some []
  | (name, member) :: rest =>
    (interpretMember member (entries.lookup name)).bind (fun first =>
      (interpretMembers rest entries).map (fun others =>
        match first with
        | some value => (name, value) :: others
        | none => others))
termination_by (sizeOf entries + 1, 0, members.length)
decreasing_by
  · apply Prod.Lex.left
    exact Schema.lookupOptionSmaller entries name
  · apply Prod.Lex.right
    apply Prod.Lex.right
    simp

def interpretMember (member : Member) (value : Option Json) : Option (Option Json) :=
  match value with
  | some j => (present job member j (interpret [] member.target j)).map some
  | none => absent job member
termination_by (sizeOf value, unvisited job.model.shapes [], 1)

end

/-! What each kind of target comes to. -/

variable {job} {unions : List String} {target : String} {j : Json} {traits : Traits}

theorem formattedPlain {kind : Option ShapeKind} {format : Option TimestampFormat}
    {read : Option Json} (plain : kind = some (.scalar .timestamp) → format = none) :
    formatted kind format j read = read := by
  unfold formatted
  split
  · cases plain rfl
  · rfl

theorem interpretBuiltin {b : Builtin} (known : Builtin.ofId? target = some b) :
    interpret job unions target j = builtin b j := by
  rw [interpret, known]

theorem interpretScalar {kind : Scalar} (foreign : Builtin.ofId? target = none)
    (found : job.model.shape? target = some (.scalar kind traits)) :
    interpret job unions target j = scalar (formatOf job target traits) traits kind j := by
  rw [interpret, foreign]
  dsimp only
  split <;> simp_all

theorem interpretEnum {members : List (String × Member)} (foreign : Builtin.ofId? target = none)
    (found : job.model.shape? target = some (.enum members traits)) :
    interpret job unions target j = match j with
      | .string text =>
        if text ∈ members.map (fun m => Enum.valueOf m.1 m.2) then some j else none
      | _ => none := by
  rw [interpret, foreign]
  dsimp only
  split <;> first
    | (rename_i here
       cases found.symm.trans here
       rfl)
    | simp_all

theorem interpretList {member : Member} (foreign : Builtin.ofId? target = none)
    (found : job.model.shape? target = some (.list member traits)) :
    interpret job unions target j = match j with
      | .array items => (interpretItems job member.target items).bind (fun read =>
          if traits.lengthFits items.length &&
            (!traits.hasUniqueItems || decide (read.map Json.render).Nodup)
          then some (Json.array read) else none)
      | _ => none := by
  rw [interpret, foreign]
  dsimp only
  split <;> first
    | (rename_i here
       cases found.symm.trans here
       rfl)
    | simp_all

theorem interpretMap {key value : Member} (foreign : Builtin.ofId? target = none)
    (found : job.model.shape? target = some (.map key value traits)) :
    interpret job unions target j = match j with
      | .object entries => (interpretEntries job key.target value.target entries).map Json.object
      | _ => none := by
  rw [interpret, foreign]
  dsimp only
  split <;> first
    | (rename_i here
       cases found.symm.trans here
       rfl)
    | simp_all

theorem interpretUnion {members : List (String × Member)} (foreign : Builtin.ofId? target = none)
    (found : job.model.shape? target = some (.union members traits)) (fresh : target ∉ unions) :
    interpret job unions target j = interpretFirst job (unions ++ [target]) members j := by
  rw [interpret, foreign]
  dsimp only
  split <;> simp_all

theorem interpretStruct {members : List (String × Member)} (foreign : Builtin.ofId? target = none)
    (found : job.model.shape? target = some (.struct members traits)) :
    interpret job unions target j = match j with
      | .object entries => (interpretMembers job members entries).map Json.object
      | _ => none := by
  rw [interpret, foreign]
  dsimp only
  split <;> first
    | (rename_i here
       cases found.symm.trans here
       rfl)
    | simp_all

theorem interpretUnknown (unresolved : job.model.targetKind? target = none) :
    interpret job unions target j = some j := by
  unfold Model.targetKind? at unresolved
  cases foreign : Builtin.ofId? target with
  | some b => simp [foreign] at unresolved
  | none =>
    simp only [foreign, Option.map_eq_none_iff] at unresolved
    have bears : ∀ shape kind, job.model.shape? target = some shape → shape.kind? = some kind →
        kind.isSchemaBearing = false := by
      intro shape kind found kinded
      rw [Model.schemaKind?, Model.kind?, found, Option.bind_some, kinded] at unresolved
      simpa using unresolved
    rw [interpret, foreign]
    dsimp only
    split <;> first
      | rfl
      | (rename_i found
         cases bears _ _ found rfl)

theorem interpretMembersNames {members : List (String × Member)}
    {entries read : List (String × Json)} (ok : interpretMembers job members entries = some read) :
    (read.map Prod.fst).Sublist (members.map Prod.fst) := by
  induction members generalizing read with
  | nil =>
    rw [interpretMembers] at ok
    obtain rfl := Option.some.inj ok
    exact .slnil
  | cons m rest ih =>
    obtain ⟨name, member⟩ := m
    rw [interpretMembers] at ok
    obtain ⟨first, -, ok⟩ := Option.bind_eq_some_iff.mp ok
    obtain ⟨others, later, rfl⟩ := Option.map_eq_some_iff.mp ok
    cases first with
    | some value => exact .cons_cons name (ih later)
    | none => exact .cons name (ih later)

end Interpretation
end ShapeContracts
