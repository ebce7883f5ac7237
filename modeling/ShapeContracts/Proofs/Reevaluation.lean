import ShapeContracts.Proofs.DateTimeTexts
import ShapeContracts.Proofs.Presence

/-! Evaluation of what an evaluation gave. Members have been put into the order of their structure and
date-times into their canonical form by then, and every check runs on a value that it has passed. A schema
that is neither a union nor filled in hands on from its parts that values are accepted as they come back. -/
namespace ShapeContracts

def Timestamp.InYears (text : String) : Prop :=
  ∀ normal, normalize text = .ok normal → ∃ w : Written, w.Legible ∧ text = w.text ∧ w.cut.InRange

theorem Timestamp.normalTwice {text normal : String} (years : InYears text) (accepted : normalize text = .ok normal) :
    normalize normal = .ok normal := by
  obtain ⟨w, legible, rfl, inRange⟩ := years normal accepted
  obtain ⟨reduced, -⟩ := Written.localUtc legible.kept
  have year := (Written.localYear legible.kept).mpr inRange
  obtain ⟨canonical, rendered⟩ := Written.writtenCanonical reduced year
  obtain rfl := Except.ok.inj ((Written.normalizeLegible legible).symm.trans accepted)
  rw [rendered]
  exact Written.canonicalStands canonical

namespace Json

inductive Holds (text : String) : Json → Prop where
  | here : Holds text (.string text)
  | item {items j} (mem : j ∈ items) (inside : Holds text j) : Holds text (.array items)
  | member {members name j} (mem : (name, j) ∈ members) (inside : Holds text j) : Holds text (.object members)

def InYears (j : Json) : Prop := ∀ text, j.Holds text → Timestamp.InYears text

theorem InYears.item {items : List Json} {j : Json} (years : (array items).InYears) (mem : j ∈ items) : j.InYears :=
  fun text inside => years text (.item mem inside)

theorem InYears.member {members : List (String × Json)} {name : String} {j : Json}
    (years : (object members).InYears) (mem : (name, j) ∈ members) : j.InYears :=
  fun text inside => years text (.member mem inside)

end Json

namespace Outcome

variable {o : Outcome α}

theorem mapValid {f : α → β} {b : β} (valid : o.map f = .valid b) : ∃ a, o = .valid a ∧ f a = b := by
  cases o with
  | valid a => exact ⟨a, rfl, Outcome.valid.inj valid⟩
  | _ => contradiction

theorem bindValid {f : α → Outcome β} {b : β} (valid : o.bind f = .valid b) :
    ∃ a, o = .valid a ∧ f a = .valid b := by
  cases o with
  | valid a => exact ⟨a, rfl, valid⟩
  | _ => contradiction

theorem finishValid {issues : List Issue} {a b : α} (valid : finish issues a = .valid b) : issues = [] ∧ a = b := by
  cases issues with
  | nil => exact ⟨rfl, Outcome.valid.inj valid⟩
  | cons i rest => contradiction

theorem ofOptionValid {option : Option α} {issue : Outcome α} {a : α} (refused : ∀ b, issue ≠ .valid b)
    (valid : ofOption option issue = .valid a) : option = some a := by
  cases option with
  | some b => exact congrArg some (Outcome.valid.inj valid)
  | none => exact absurd valid (refused a)

end Outcome

namespace Schema

variable {schemas : Schemas}

/-- What comes back from a schema is accepted as it is, and is there if the value was. -/
def Keeps (schemas : Schemas) (s : Schema) (value : Option Json) : Prop :=
  ∀ followed parsed, evaluate schemas s value followed = .valid parsed →
    evaluate schemas s parsed followed = .valid parsed ∧ parsed.isSome = value.isSome

theorem simpleSame {s : Schema} {j w : Json} (plain : s ≠ .dateTime) (valid : s.evaluateSimple j = .valid w) :
    w = j := by
  have refused (received : String) (b : Json) : s.mismatch received ≠ .valid b := nofun
  cases s with
  | dateTime => exact absurd rfl plain
  | string min max pattern =>
    cases j with
    | string text => exact (Outcome.finishValid valid).2.symm
    | _ => cases valid
  | number integer min max =>
    rw [evaluateSimple] at valid
    split at valid
    · unfold checkNumber at valid
      split at valid
      · cases valid
      · exact (Outcome.finishValid valid).2.symm
    · cases valid
  | bigint =>
    obtain ⟨n, -, same⟩ := Option.map_eq_some_iff.mp (Outcome.ofOptionValid (refused _) valid)
    exact same.symm
  | boolean =>
    obtain ⟨b, there, same⟩ := Option.map_eq_some_iff.mp (Outcome.ofOptionValid (refused _) valid)
    cases j with
    | bool b' =>
      cases there
      exact same.symm
    | _ => cases there
  | bytes =>
    cases j with
    | array items =>
      rw [evaluateSimple] at valid
      split at valid
      · exact (Outcome.valid.inj valid).symm
      · cases valid
    | _ => cases valid
  | httpDate =>
    cases j with
    | string text =>
      rw [evaluateSimple] at valid
      split at valid
      · exact (Outcome.valid.inj valid).symm
      · cases valid
    | _ => cases valid
  | epochSeconds =>
    obtain ⟨x, -, same⟩ := Option.map_eq_some_iff.mp (Outcome.ofOptionValid (refused _) valid)
    exact same.symm
  | enum typeName values =>
    cases j with
    | string text =>
      rw [evaluateSimple] at valid
      split at valid
      · exact (Outcome.valid.inj valid).symm
      · cases valid
    | _ => cases valid
  | _ => cases valid

theorem simpleKeeps {s : Schema} {j w : Json} (years : j.InYears) (valid : s.evaluateSimple j = .valid w) :
    s.evaluateSimple w = .valid w := by
  by_cases dated : s = .dateTime
  · subst dated
    cases j with
    | string text =>
      rw [evaluateSimple] at valid
      split at valid
      · rename_i normal accepted
        cases valid
        rw [evaluateSimple, Timestamp.normalTwice (years text .here) accepted]
      · cases valid
    | _ => cases valid
  · obtain rfl := simpleSame dated valid
    exact valid

theorem itemsKeep {item : Schema} {items parsed : List Json} {i : Nat}
    (each : ∀ j ∈ items, Keeps schemas item (some j)) (valid : evaluateItems schemas item items i = .valid parsed) :
    evaluateItems schemas item parsed i = .valid parsed := by
  induction items generalizing i parsed with
  | nil =>
    rw [evaluateItems] at valid
    obtain rfl := Outcome.valid.inj valid
    rw [evaluateItems]
  | cons j rest ih =>
    rw [evaluateItems] at valid
    obtain ⟨first, others, here, later, rfl⟩ := Outcome.bothValid valid
    obtain ⟨again, there⟩ := each j List.mem_cons_self [] first (Outcome.withinValid here)
    obtain ⟨w, rfl⟩ := Option.isSome_iff_exists.mp there
    have tail := ih (fun j' mem => each j' (List.mem_cons_of_mem _ mem)) later
    rw [Option.getD_some, evaluateItems, again, tail]
    rfl

theorem entriesKeep {key value : Schema} {entries parsed : List (String × Json)}
    (each : ∀ e ∈ entries, Keeps schemas value (some e.2))
    (valid : evaluateEntries schemas key value entries = .valid parsed) :
    evaluateEntries schemas key value parsed = .valid parsed := by
  induction entries generalizing parsed with
  | nil =>
    rw [evaluateEntries] at valid
    obtain rfl := Outcome.valid.inj valid
    rw [evaluateEntries]
  | cons e rest ih =>
    obtain ⟨name, j⟩ := e
    rw [evaluateEntries] at valid
    obtain ⟨first, others, here, later, rfl⟩ := Outcome.bothValid valid
    obtain ⟨k, keyed, valued⟩ := Outcome.bindValid (Outcome.withinValid here)
    obtain ⟨again, there⟩ := each _ List.mem_cons_self [] first valued
    obtain ⟨w, rfl⟩ := Option.isSome_iff_exists.mp there
    have tail := ih (fun e mem => each e (List.mem_cons_of_mem _ mem)) later
    dsimp only
    rw [evaluateEntries, keyed, Outcome.bind, again, tail]
    rfl

theorem fieldsKeep {fields : List (String × Schema × List String)} {entries ws : List (String × Json)}
    (distinct : (fields.map Prod.fst).Nodup)
    (each : ∀ f ∈ fields, Keeps schemas f.2.1 (entries.lookup f.1))
    (valid : evaluateFields schemas fields entries = .valid ws) {again : List (String × Json)}
    (same : ∀ f ∈ fields, again.lookup f.1 = ws.lookup f.1) : evaluateFields schemas fields again = .valid ws := by
  induction fields generalizing ws with
  | nil =>
    rw [evaluateFields] at valid ⊢
    exact valid
  | cons f rest ih =>
    obtain ⟨name, s, comments⟩ := f
    obtain ⟨fresh, distinct⟩ := List.nodup_cons.mp distinct
    rw [evaluateFields] at valid
    obtain ⟨first, others, here, later, rfl⟩ := Outcome.bothValid valid
    obtain ⟨kept, -⟩ := each _ List.mem_cons_self [] first (Outcome.withinValid here)
    have missing : others.lookup name = none :=
      Entries.lookupNone.mpr (fun mem => fresh ((namesKept later).mem mem))
    have own : again.lookup name = first := by
      rw [same _ List.mem_cons_self]
      cases first with
      | some w => exact (Entries.lookupCons name name w others).trans (if_pos rfl)
      | none => exact missing
    have beside : ∀ f ∈ rest, again.lookup f.1 = others.lookup f.1 := by
      intro f mem
      have listed : f.1 ∈ rest.map Prod.fst := List.mem_map_of_mem mem
      have apart : f.1 ≠ name := fun equal => fresh (equal ▸ listed)
      rw [same f (List.mem_cons_of_mem _ mem)]
      cases first with
      | some w => exact (Entries.lookupCons name f.1 w others).trans (if_neg apart)
      | none => rfl
    have tail := ih distinct (fun f mem => each f (List.mem_cons_of_mem _ mem)) later beside
    rw [evaluateFields, own, kept, tail]
    rfl

theorem optionalKeeps {inner : Schema} {value : Option Json} (each : ∀ j ∈ value, Keeps schemas inner (some j)) :
    Keeps schemas (.optional inner) value := by
  intro followed parsed valid
  cases value with
  | none =>
    rw [evaluate] at valid
    cases valid
    exact ⟨by rw [evaluate], rfl⟩
  | some j =>
    rw [evaluate] at valid
    obtain ⟨again, there⟩ := each j rfl followed parsed valid
    obtain ⟨w, rfl⟩ := Option.isSome_iff_exists.mp there
    exact ⟨by rw [evaluate, again], rfl⟩

theorem passedKeeps {outer inner : Schema} {value : Option Json}
    (passes : ∀ value followed, evaluate schemas outer value followed = evaluate schemas inner value followed)
    (keeps : Keeps schemas inner value) : Keeps schemas outer value := by
  intro followed parsed valid
  rw [passes] at valid ⊢
  exact keeps followed parsed valid

theorem refKeeps {r : SchemaRef} {value : Option Json}
    (each : ∀ t, schemas.lookup r.shapeId = some t → Keeps schemas t value) : Keeps schemas (.ref r) value := by
  intro followed parsed valid
  rw [evaluate] at valid
  split at valid
  · cases valid
  · rename_i known
    split at valid
    · cases valid
    · rename_i fresh
      obtain ⟨t, found⟩ := Entries.lookupSome.mpr (Decidable.not_not.mp known)
      rw [(getFound found).2] at valid
      obtain ⟨again, there⟩ := each t found _ parsed valid
      exact ⟨by rw [evaluate, if_neg known, if_neg fresh, (getFound found).2, again], there⟩

theorem refineKeeps {inner : Schema} {check : Check} {value : Option Json} (keeps : Keeps schemas inner value) :
    Keeps schemas (.refine inner check) value := by
  intro followed parsed valid
  rw [evaluate] at valid
  obtain ⟨read, inside, valid⟩ := Outcome.bindValid valid
  obtain ⟨-, rfl⟩ := Outcome.finishValid valid
  obtain ⟨again, there⟩ := keeps followed read inside
  exact ⟨by rw [evaluate, again, Outcome.bind, valid], there⟩

theorem arrayGiven {item : Schema} {min max : Option Nat} {unique : Bool} {value parsed : Option Json}
    {followed : List String} (valid : evaluate schemas (.array item min max unique) value followed = .valid parsed) :
    ∃ items, value = some (.array items) := by
  rw [evaluate.eq_def] at valid
  cases value with
  | none => cases valid
  | some j =>
    cases j with
    | array items => exact ⟨items, rfl⟩
    | _ => cases valid

theorem arrayKeeps {item : Schema} {min max : Option Nat} {unique : Bool} {value : Option Json}
    (each : ∀ items, value = some (.array items) → ∀ j ∈ items, Keeps schemas item (some j)) :
    Keeps schemas (.array item min max unique) value := by
  intro followed parsed valid
  obtain ⟨items, rfl⟩ := arrayGiven valid
  rw [evaluate] at valid
  obtain ⟨whole, checked, rfl⟩ := Outcome.mapValid valid
  obtain ⟨read, both, distinct⟩ := Outcome.bindValid checked
  obtain ⟨same, fits, itemised, long, rfl⟩ := Outcome.bothValid both
  obtain rfl := (Outcome.finishValid distinct).2
  have longAgain : checkLength min max read = .valid fits := by
    rw [checkLength, itemsLength itemised]
    exact long
  refine ⟨?_, rfl⟩
  rw [evaluate, itemsKeep (each items rfl) itemised, longAgain, Outcome.both, Outcome.bind, distinct]
  rfl

theorem recordGiven {key value : Schema} {given parsed : Option Json} {followed : List String}
    (valid : evaluate schemas (.record key value) given followed = .valid parsed) :
    ∃ entries, given = some (.object entries) := by
  rw [evaluate.eq_def] at valid
  cases given with
  | none => cases valid
  | some j =>
    cases j with
    | object entries => exact ⟨entries, rfl⟩
    | _ => cases valid

theorem recordKeeps {key value : Schema} {given : Option Json}
    (each : ∀ entries, given = some (.object entries) → ∀ e ∈ entries, Keeps schemas value (some e.2)) :
    Keeps schemas (.record key value) given := by
  intro followed parsed valid
  obtain ⟨entries, rfl⟩ := recordGiven valid
  rw [evaluate] at valid
  obtain ⟨read, inside, rfl⟩ := Outcome.mapValid valid
  refine ⟨?_, rfl⟩
  rw [evaluate, entriesKeep (each entries rfl) inside]
  rfl

theorem objectGiven {fields : List (String × Schema × List String)} {value parsed : Option Json}
    {followed : List String} (valid : evaluate schemas (.object fields) value followed = .valid parsed) :
    ∃ entries, value = some (.object entries) := by
  rw [evaluate.eq_def] at valid
  cases value with
  | none => cases valid
  | some j =>
    cases j with
    | object entries => exact ⟨entries, rfl⟩
    | _ => cases valid

theorem objectKeeps {fields : List (String × Schema × List String)} {value : Option Json}
    (distinct : (fields.map Prod.fst).Nodup)
    (each : ∀ entries, value = some (.object entries) →
      ∀ f ∈ fields, Keeps schemas f.2.1 (entries.lookup f.1)) : Keeps schemas (.object fields) value := by
  intro followed parsed valid
  obtain ⟨entries, rfl⟩ := objectGiven valid
  rw [evaluate] at valid
  obtain ⟨ws, inside, rfl⟩ := Outcome.mapValid valid
  have settled : Json.settleNames ws = ws := Entries.settleNamesOf (distinct.sublist (namesKept inside))
  refine ⟨?_, rfl⟩
  rw [settled, evaluate, fieldsKeep distinct (each entries rfl) inside (fun _ _ => rfl), Outcome.map, settled]

def Steady : Schema → Prop
  | .withDefault .. => False
  | .union members => members = []
  | .object fields => (fields.map Prod.fst).Nodup
  | _ => True

theorem stepKeeps {s : Schema} {value : Option Json} (steady : s.Steady) (years : ∀ j ∈ value, j.InYears)
    (each : ∀ s' value', Calls schemas (s, value) (s', value') → (∀ j ∈ value', j.InYears) →
      Keeps schemas s' value') : Keeps schemas s value := by
  cases s with
  | withDefault => cases steady
  | optional inner =>
    refine optionalKeeps (fun j there => ?_)
    cases there
    exact each inner (some j) .optional years
  | marked comment inner => exact passedKeeps (fun _ _ => by rw [evaluate]) (each inner value .marked years)
  | lazy inner => exact passedKeeps (fun _ _ => by rw [evaluate]) (each inner value .lazy years)
  | ref r => exact refKeeps (fun t found => each t value (.ref found) years)
  | refine inner check => exact refineKeeps (each inner value .refine years)
  | union members =>
    obtain rfl : members = [] := steady
    intro followed parsed valid
    rw [evaluate.eq_def] at valid
    cases value <;> cases valid
  | array item min max unique =>
    refine arrayKeeps (fun items given j mem => ?_)
    cases given
    exact each item (some j) (.item mem) (fun _ same => Option.some.inj same ▸ (years _ rfl).item mem)
  | record key value' =>
    refine recordKeeps (fun entries given e mem => ?_)
    cases given
    exact each value' (some e.2) (.value mem) (fun _ same => Option.some.inj same ▸ (years _ rfl).member mem)
  | object fields =>
    refine objectKeeps steady (fun entries given f mem => ?_)
    cases given
    exact each f.2.1 _ (.field mem) (fun _ there => (years _ rfl).member (Entries.memOfLookup there))
  | unknown =>
    intro followed parsed valid
    rw [evaluate] at valid
    cases valid
    exact ⟨by rw [evaluate], rfl⟩
  | _ =>
    intro followed parsed valid
    rw [evaluate.eq_def] at valid
    cases value with
    | none => cases valid
    | some j =>
      obtain ⟨w, simple, rfl⟩ := Outcome.mapValid valid
      refine ⟨?_, rfl⟩
      rw [evaluate.eq_def]
      exact congrArg (fun o => Outcome.map some o) (simpleKeeps (years j rfl) simple)

end Schema
end ShapeContracts
