import ShapeContracts.Proofs.Serialisation

/-! Traits as they are reported, against the document that they were read from. A trait is reported under the
form that its typed field has: ends of bounds that are there, ends of ranges as binary64 numbers, words as
texts; and null leaves a typed trait absent. Every other value is reported as it is. -/
namespace ShapeContracts

namespace Json

def asDouble (j : Json) : Json :=
  match j.float? with
  | some x => .number (.float x)
  | none => j

end Json

theorem TimestampFormat.nameGiven (s : String) (f : TimestampFormat) (found : ofName? s = some f) : f.name = s := by
  unfold ofName? at found
  split at found <;> cases found <;> rfl

theorem ErrorKind.nameGiven (s : String) (k : ErrorKind) (found : ofName? s = some k) : k.name = s := by
  unfold ofName? at found
  split at found <;> cases found <;> rfl

namespace Traits
open Fields

def boundsForm (number : Json → Json) (payload : Json) : Json :=
  let ends := (Fields.ofJson? ["min", "max"] payload).getD []
  .object (present "min" (((ends.lookup "min").bind Json.shown?).map number)
    ++ present "max" (((ends.lookup "max").bind Json.shown?).map number))

def wordForm : Json → Json
  | .object [(s, .null)] => .string s
  | j => j

def reshaped : List String := [Key.range, Key.length, Key.timestampFormat, Key.error]

def form (key : String) (payload : Json) : Json :=
  if key = Key.range then boundsForm Json.asDouble payload
  else if key = Key.length then boundsForm id payload
  else if key = Key.timestampFormat ∨ key = Key.error then wordForm payload
  else payload.settle

def reported (key : String) (payload : Json) : Option Json :=
  if key ∈ Key.all then payload.shown?.map (form key) else some (form key payload)

variable {members : List (String × Json)} {t : Traits} {key : String} {payload : Json}

theorem formPlain (plain : key ∉ reshaped) : form key payload = payload.settle := by
  simp only [reshaped, List.mem_cons, List.not_mem_nil, or_false, not_or] at plain
  obtain ⟨range, length, timestampFormat, error⟩ := plain
  rw [form, if_neg range, if_neg length, if_neg (not_or.mpr ⟨timestampFormat, error⟩)]

theorem reportedExtra (untyped : key ∉ Key.all) : reported key payload = some payload.settle := by
  have plain : key ∉ reshaped := by
    have typed : reshaped ⊆ Key.all := by decide
    exact fun mem => untyped (typed mem)
  rw [reported, if_neg untyped, formPlain plain]

section

variable {α : Type} {read : Json → Option α} {write : α → Json} {value : Option α}

theorem optionalReported (typed : key ∈ Key.all) (found : optional members key read = some value)
    (formed : ∀ j a, read j = some a → form key j = write a) :
    value.map write = (members.lookup key).bind (reported key) := by
  have shapes : (members.lookup key).bind (reported key) = ((members.lookup key).bind Json.shown?).map (form key) := by
    cases members.lookup key with
    | none => rfl
    | some j => rw [Option.bind_some, Option.bind_some, reported, if_pos typed]
  rw [shapes]
  rcases optionalCases found with absent | present
  · obtain ⟨hidden, rfl⟩ := absent
    rw [hidden]
    rfl
  · obtain ⟨j, a, shown, kept, rfl⟩ := present
    rw [shown, Option.map_some, Option.map_some, formed j a kept]

theorem boundsFormed {number : Json → Json} (each : ∀ j a, read j = some a → number j = write a) {b : Bounds α}
    (found : Bounds.ofJson? read payload = some b) : boundsForm number payload = Bounds.toJson write b := by
  obtain ⟨ends, known, found⟩ := Option.bind_eq_some_iff.mp found
  obtain ⟨min, lower, found⟩ := Option.bind_eq_some_iff.mp found
  obtain ⟨max, upper, found⟩ := Option.bind_eq_some_iff.mp found
  cases found
  have formed {name : String} {value : Option α} (kept : optional ends name read = some value) :
      ((ends.lookup name).bind Json.shown?).map number = value.map write := by
    rcases optionalCases kept with absent | present
    · rw [absent.1, absent.2]
      rfl
    · obtain ⟨j, a, shown, here, rfl⟩ := present
      rw [shown, Option.map_some, Option.map_some, each j a here]
  rw [boundsForm, known, Option.getD_some, Bounds.toJson]
  rw [formed lower, formed upper]

theorem wordFormed {word' : String → Option α} {name : α → String}
    (named : ∀ s a, word' s = some a → name a = s) {a : α} (found : word word' payload = some a) :
    wordForm payload = .string (name a) := by
  unfold word at found
  split at found
  · rw [named _ _ found]
    rfl
  · rw [named _ _ found]
    rfl
  · cases found

end

theorem textFormed {s : String} (plain : key ∉ reshaped) (found : payload.string? = some s) :
    form key payload = .string s := by
  rw [formPlain plain]
  cases payload with
  | string text =>
    cases found
    rfl
  | _ => cases found

theorem countFormed {n : Nat} (found : payload.natural? = some n) : payload = Json.ofNat n := by
  unfold Json.natural? at found
  split at found
  · rename_i m whole
    cases found
    unfold Json.whole? at whole
    split at whole
    · cases whole
      rfl
    · cases whole
  · cases found

theorem doubleFormed {x : Binary64} (found : payload.float? = some x) : payload.asDouble = .number (.float x) := by
  rw [Json.asDouble, found]

theorem valueFormed (plain : key ∉ reshaped) {j : Json} (found : some payload.settle = some j) :
    form key payload = id j := by
  rw [formPlain plain, Option.some.inj found]
  rfl

theorem statusFormed {bound n : Nat} (plain : key ∉ reshaped) (found : natural bound payload = some n) :
    form key payload = Json.ofNat n := by
  obtain ⟨m, read, found⟩ := Option.bind_eq_some_iff.mp found
  split at found
  · cases found
    rw [formPlain plain, countFormed read]
    rfl
  · cases found

theorem typedReported (reading : Reading members t) :
    ∀ e ∈ t.typed, e.2 = (members.lookup e.1).bind (reported e.1) := by
  simp only [typed, List.forall_mem_cons]
  exact ⟨optionalReported (by decide) reading.documentation (fun j s => textFormed (by decide)),
    optionalReported (by decide) reading.range (fun j b => boundsFormed (fun j x => doubleFormed)),
    optionalReported (by decide) reading.length (fun j b => boundsFormed (fun j n => countFormed)),
    optionalReported (by decide) reading.pattern (fun j s => textFormed (by decide)),
    optionalReported (by decide) reading.required (fun j v => valueFormed (by decide)),
    optionalReported (by decide) reading.defaultValue (fun j v => valueFormed (by decide)),
    optionalReported (by decide) reading.uniqueItems (fun j v => valueFormed (by decide)),
    optionalReported (by decide) reading.timestampFormat (fun j f => wordFormed TimestampFormat.nameGiven),
    optionalReported (by decide) reading.enumValue (fun j v => valueFormed (by decide)),
    optionalReported (by decide) reading.error (fun j k => wordFormed ErrorKind.nameGiven),
    optionalReported (by decide) reading.httpError (fun j n => statusFormed (by decide)),
    optionalReported (by decide) reading.streaming (fun j v => valueFormed (by decide)),
    fun _ mem => absurd mem List.not_mem_nil⟩

theorem typedFound (reading : Reading members t) (known : key ∈ Key.all) :
    t.typed.lookup key = some ((members.lookup key).bind (reported key)) := by
  have listed : key ∈ t.typed.map Prod.fst := known
  obtain ⟨value, found⟩ := Entries.lookupSome.mpr listed
  rw [found]
  exact congrArg some (typedReported reading _ (Entries.memOfLookup found))

theorem extraFound (reading : Reading members t) (unknown : key ∉ Key.all) :
    t.extra.lookup key = ((Json.settleNames members).lookup key).map Json.settle := by
  have kept : (!Key.all.contains key) = true := untypedKey.mpr unknown
  rw [reading.extra, Entries.settledLookup, Entries.settledLookup, ← List.map_reverse, Entries.lookupMap,
    ← List.filter_reverse, Entries.lookupFilter (fun name => !Key.all.contains name), if_pos kept]

theorem entriesReported (read : ofJson? (.object members) = some t) (key : String) :
    t.entries.lookup key = ((Json.settleNames members).lookup key).bind (reported key) := by
  have reading := readingOf read
  have loaded := readLoaded read
  rw [entriesTyped, List.lookup_append]
  by_cases known : key ∈ Key.all
  · obtain ⟨fields, found⟩ := reading.known
    have others : t.extra.lookup key = none := by
      apply Entries.lookupNone.mpr
      intro mem
      obtain ⟨e, listed, rfl⟩ := List.mem_map.mp mem
      exact loaded.untyped e listed known
    rw [others, Option.or_none, settledKnown found known]
    exact @writtenLookup t.typed key keysDistinct _ (typedFound reading known)
  · have absent : (written t.typed).lookup key = none :=
      Entries.lookupNone.mpr (fun mem => known (writtenNames.mem mem))
    rw [absent, Option.none_or, extraFound reading known]
    cases (Json.settleNames members).lookup key with
    | none => rfl
    | some payload => exact (reportedExtra known).symm

theorem unmappedFrom (read : ofJson? (.object members) = some t) {mapped : List String} {value : Json} :
    (key, value) ∈ t.unmapped mapped ↔ key ∉ mapped ∧
      ∃ payload, (Json.settleNames members).lookup key = some payload ∧ reported key payload = some value := by
  rw [unmapped, memSortedBy, List.mem_filter, ← Entries.lookupIff (entriesDistinct (readLoaded read)),
    entriesReported read, Option.bind_eq_some_iff, Bool.not_eq_true', ← Bool.not_eq_true, List.contains_iff_mem]
  exact and_comm

theorem unmappedReported (read : ofJson? (.object members) = some t) (mapped : List String) :
    (t.unmapped mapped).Pairwise (fun a b => Text.lt a.1 b.1 = true) ∧
      ∀ key value, (key, value) ∈ t.unmapped mapped ↔ key ∉ mapped ∧
        ∃ payload, (Json.settleNames members).lookup key = some payload ∧ reported key payload = some value := by
  have others : ((t.entries.filter (fun e => !mapped.contains e.1)).map Prod.fst).Nodup :=
    (entriesDistinct (readLoaded read)).sublist (List.filter_sublist.map _)
  exact ⟨Entries.sortedRises Prod.fst others, fun key value => unmappedFrom read⟩

def noted : List (String × Json) :=
  [("example#unit", .string "stars"), (Key.defaultValue, .null), (Key.range, .object [("min", .number (.whole 1))])]

theorem notedRead : ∃ t, ofJson? (.object noted) = some t :=
  Option.isSome_iff_exists.mp (by decide +kernel)

theorem notedReported : ∃ t, ofJson? (.object noted) = some t ∧
    ("example#unit", .string "stars") ∈ t.unmapped [Key.range] := by
  obtain ⟨t, read⟩ := notedRead
  have there : (Json.settleNames noted).lookup "example#unit" = some (.string "stars") := rfl
  have shown : reported "example#unit" (.string "stars") = some (.string "stars") := reportedExtra (by decide)
  exact ⟨t, read, ((unmappedReported read [Key.range]).2 _ _).mpr ⟨by decide, _, there, shown⟩⟩

theorem notedAltered : ∃ t, ofJson? (.object noted) = some t ∧ (Key.defaultValue, .null) ∉ t.unmapped [] ∧
    (Key.range, .object [("min", .number (.whole 1))]) ∉ t.unmapped [] := by
  obtain ⟨t, read⟩ := notedRead
  refine ⟨t, read, ?_, ?_⟩
  · intro mem
    obtain ⟨-, payload, there, shown⟩ := (unmappedFrom read).mp mem
    cases there
    cases shown
  · intro mem
    obtain ⟨-, payload, there, shown⟩ := (unmappedFrom read).mp mem
    obtain ⟨x, float⟩ : ∃ x, (Json.number (.whole 1)).float? = some x :=
      Option.isSome_iff_exists.mp (by decide +kernel)
    cases there
    have formed : reported Key.range (.object [("min", .number (.whole 1))]) =
        some (.object [("min", (Json.number (.whole 1)).asDouble)]) := rfl
    rw [formed, Json.asDouble, float] at shown
    cases shown

end Traits
end ShapeContracts
