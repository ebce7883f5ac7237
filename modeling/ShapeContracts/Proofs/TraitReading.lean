import ShapeContracts.Proofs.Entries
import ShapeContracts.Model.Reader

/-! What reading traits takes from their document. A known field stands only once in it, so that the field
of a name is the value that the document has for the name. -/
namespace ShapeContracts

def Json.shown? : Json → Option Json
  | .null => none
  | j => some j

namespace Fields

variable {names : List String} {members fields : List (String × Json)} {name : String}

theorem objectRead (read : ofJson? names (.object members) = some fields) :
    fields = members.filter (fun m => names.contains m.1) ∧ (fields.map Prod.fst).Nodup := by
  rw [ofJson?] at read
  split at read
  · cases read
    exact ⟨rfl, by assumption⟩
  · cases read

theorem knownLookup (read : ofJson? names (.object members) = some fields) (known : name ∈ names) :
    fields.lookup name = members.lookup name := by
  obtain ⟨rfl, -⟩ := objectRead read
  rw [Entries.lookupFilter, if_pos (List.contains_iff_mem.mpr known)]

theorem settledKnown (read : ofJson? names (.object members) = some fields) (known : name ∈ names) :
    (Json.settleNames members).lookup name = members.lookup name := by
  obtain ⟨same, distinct⟩ := objectRead read
  have turned := Entries.lookupPerm (List.reverse_perm fields).symm distinct name
  have last := Entries.lookupFilter (fun name => names.contains name) members.reverse name
  rw [if_pos (List.contains_iff_mem.mpr known), List.filter_reverse, ← same, turned] at last
  rw [Entries.settledLookup, ← last, knownLookup read known]

theorem optionalKnown (fieldsRead : ofJson? names (.object members) = some fields) (known : name ∈ names)
    (read : Json → Option α) : optional fields name read = optional members name read := by
  rw [optional, optional, knownLookup fieldsRead known]

theorem optionalCases {read : Json → Option α} {value : Option α} (found : optional fields name read = some value) :
    (fields.lookup name).bind Json.shown? = none ∧ value = none ∨
      ∃ j a, (fields.lookup name).bind Json.shown? = some j ∧ read j = some a ∧ value = some a := by
  unfold optional at found
  cases there : fields.lookup name with
  | none =>
    rw [there] at found
    exact .inl ⟨rfl, (Option.some.inj found).symm⟩
  | some j =>
    rw [there] at found
    cases j with
    | null => exact .inl ⟨rfl, (Option.some.inj found).symm⟩
    | _ =>
      obtain ⟨a, kept, rfl⟩ := Option.map_eq_some_iff.mp found
      exact .inr ⟨_, a, rfl, kept, rfl⟩

end Fields

namespace Traits
open Fields

variable {members : List (String × Json)} {t : Traits}

structure Reading (members : List (String × Json)) (t : Traits) : Prop where
  known : ∃ fields, Fields.ofJson? Key.all (.object members) = some fields
  documentation : optional members Key.documentation Json.string? = some t.documentation
  range : optional members Key.range (Bounds.ofJson? Json.float?) = some t.range
  length : optional members Key.length (Bounds.ofJson? Json.natural?) = some t.length
  pattern : optional members Key.pattern Json.string? = some t.pattern
  required : optional members Key.required (fun j => some j.settle) = some t.required
  defaultValue : optional members Key.defaultValue (fun j => some j.settle) = some t.defaultValue
  uniqueItems : optional members Key.uniqueItems (fun j => some j.settle) = some t.uniqueItems
  timestampFormat : optional members Key.timestampFormat (word TimestampFormat.ofName?) = some t.timestampFormat
  enumValue : optional members Key.enumValue (fun j => some j.settle) = some t.enumValue
  error : optional members Key.error (word ErrorKind.ofName?) = some t.error
  httpError : optional members Key.httpError (natural 65536) = some t.httpError
  streaming : optional members Key.streaming (fun j => some j.settle) = some t.streaming
  extra : t.extra = Json.settleNames
    ((members.filter (fun m => !Key.all.contains m.1)).map (fun m => (m.1, m.2.settle)))

theorem readingOf (read : ofJson? (.object members) = some t) : Reading members t := by
  obtain ⟨fields, known, read⟩ := Option.bind_eq_some_iff.mp read
  have whole {α : Type} {key : String} {part : Json → Option α} {a : Option α}
      (found : optional fields key part = some a) (listed : key ∈ Key.all) :
      optional members key part = some a := by
    rw [← optionalKnown known listed, found]
  obtain ⟨documentation, documented, read⟩ := Option.bind_eq_some_iff.mp read
  obtain ⟨range, ranged, read⟩ := Option.bind_eq_some_iff.mp read
  obtain ⟨length, measured, read⟩ := Option.bind_eq_some_iff.mp read
  obtain ⟨pattern, matched, read⟩ := Option.bind_eq_some_iff.mp read
  obtain ⟨required, asked, read⟩ := Option.bind_eq_some_iff.mp read
  obtain ⟨defaultValue, filled, read⟩ := Option.bind_eq_some_iff.mp read
  obtain ⟨uniqueItems, unique, read⟩ := Option.bind_eq_some_iff.mp read
  obtain ⟨timestampFormat, dated, read⟩ := Option.bind_eq_some_iff.mp read
  obtain ⟨enumValue, worded, read⟩ := Option.bind_eq_some_iff.mp read
  obtain ⟨error, blamed, read⟩ := Option.bind_eq_some_iff.mp read
  obtain ⟨httpError, status, read⟩ := Option.bind_eq_some_iff.mp read
  obtain ⟨streaming, streamed, read⟩ := Option.bind_eq_some_iff.mp read
  obtain rfl := Option.some.inj read
  exact ⟨⟨fields, known⟩, whole documented (by decide), whole ranged (by decide), whole measured (by decide),
    whole matched (by decide), whole asked (by decide), whole filled (by decide), whole unique (by decide),
    whole dated (by decide), whole worded (by decide), whole blamed (by decide), whole status (by decide),
    whole streamed (by decide), rfl⟩

end Traits

end ShapeContracts
