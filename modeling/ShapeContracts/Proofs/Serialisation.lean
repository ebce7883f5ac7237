import ShapeContracts.Proofs.TraitReading
import ShapeContracts.Model.Writer

/-! Models as JSON and back. What is written of a model that was read is read as the same model: the values
that it keeps repeat no name, no typed trait is among the extra ones, and what is absent is written
such that it is absent again. -/
namespace ShapeContracts

namespace Json

theorem settleObject {members : List (String × Json)} (distinct : (members.map Prod.fst).Nodup)
    (each : ∀ e ∈ members, e.2.settle = e.2) : (Json.object members).settle = .object members := by
  rw [settle, settleMembersMap, Entries.mapSame each, Entries.settleNamesOf distinct]

theorem settleArray {items : List Json} (each : ∀ j ∈ items, j.settle = j) :
    (Json.array items).settle = .array items := by
  rw [settle, settleItemsMap, (List.map_congr_left each).trans items.map_id']

mutual

theorem settleTwice (j : Json) : j.settle.settle = j.settle := by
  match j with
  | .null | .bool _ | .number _ | .string _ => rfl
  | .array items =>
    rw [settle]
    exact settleArray (settleItemsTwice items)
  | .object members =>
    rw [settle]
    exact settleObject (settleNamesDistinct _) (fun e mem => settleMembersTwice members e (memSettleNames mem))

theorem settleItemsTwice (items : List Json) : ∀ j ∈ settleItems items, j.settle = j := by
  match items with
  | [] => exact fun _ mem => absurd mem List.not_mem_nil
  | item :: rest => exact List.forall_mem_cons.mpr ⟨settleTwice item, settleItemsTwice rest⟩

theorem settleMembersTwice (members : List (String × Json)) :
    ∀ e ∈ settleMembers members, e.2.settle = e.2 := by
  match members with
  | [] => exact fun _ mem => absurd mem List.not_mem_nil
  | (_, value) :: rest => exact List.forall_mem_cons.mpr ⟨settleTwice value, settleMembersTwice rest⟩

end

theorem settleNull {j : Json} : j.settle = .null ↔ j = .null := by
  cases j <;> simp [settle]

end Json

namespace Fields

variable {table : List (String × Option Json)} {fields : List (String × Json)} {name : String}
variable {α : Type} {read : Json → Option α} {write : α → Json}

def written (table : List (String × Option Json)) : List (String × Json) :=
  table.flatMap (fun e => Traits.present e.1 e.2)

theorem writtenMem {j : Json} : (name, j) ∈ written table ↔ (name, some j) ∈ table := by
  simp only [written, List.mem_flatMap]
  constructor
  · rintro ⟨⟨key, value⟩, mem, here⟩
    cases value with
    | none => cases here
    | some v =>
      cases List.mem_singleton.mp here
      exact mem
  · exact fun mem => ⟨_, mem, List.mem_singleton_self _⟩

theorem writtenNames : ((written table).map Prod.fst).Sublist (table.map Prod.fst) := by
  induction table with
  | nil => exact .slnil
  | cons e rest ih =>
    obtain ⟨name, value⟩ := e
    cases value with
    | none => exact .cons _ ih
    | some j => exact .cons_cons _ ih

theorem writtenLookup (distinct : (table.map Prod.fst).Nodup) {value : Option Json}
    (entry : table.lookup name = some value) : (written table).lookup name = value := by
  cases value with
  | some j =>
    exact Entries.lookupOfMem (distinct.sublist writtenNames) (writtenMem.mpr (Entries.memOfLookup entry))
  | none =>
    refine Entries.lookupNone.mpr (fun mem => ?_)
    obtain ⟨⟨name, j⟩, inside, rfl⟩ := List.mem_map.mp mem
    cases entry.symm.trans (Entries.lookupOfMem distinct (writtenMem.mp inside))

theorem writtenRead (distinct : (table.map Prod.fst).Nodup) {extra : List (String × Json)}
    (apart : ∀ e ∈ extra, e.1 ∉ table.map Prod.fst) :
    ofJson? (table.map Prod.fst) (.object (written table ++ extra)) = some (written table) := by
  have own : ∀ e ∈ written table, (table.map Prod.fst).contains e.1 = true :=
    fun e mem => List.contains_iff_mem.mpr (writtenNames.mem (List.mem_map_of_mem mem))
  have others : ∀ e ∈ extra, ¬ (table.map Prod.fst).contains e.1 = true :=
    fun e mem => mt List.contains_iff_mem.mp (apart e mem)
  have known : (written table ++ extra).filter (fun e => (table.map Prod.fst).contains e.1) = written table := by
    rw [List.filter_append, List.filter_eq_self.mpr own, List.filter_eq_nil_iff.mpr others, List.append_nil]
  simp only [ofJson?, known, distinct.sublist writtenNames, if_true]

theorem writtenSettled (each : ∀ e ∈ table, ∀ j, e.2 = some j → j.settle = j) :
    ∀ e ∈ written table, e.2.settle = e.2 :=
  fun e mem => each _ (writtenMem.mp mem) e.2 rfl

structure Kept (read : Json → Option α) (write : α → Json) (a : α) : Prop where
  shown : write a ≠ .null
  settled : (write a).settle = write a
  back : read (write a) = some a

theorem optionalBack {value : Option α} (kept : ∀ a, value = some a → Kept read write a)
    (entry : (fields.lookup name).getD .null = (value.map write).getD .null) :
    optional fields name read = some value := by
  unfold optional
  cases found : fields.lookup name with
  | none =>
    cases value with
    | none => rfl
    | some a =>
      rw [found] at entry
      exact absurd entry.symm (kept a rfl).shown
  | some j =>
    rw [found] at entry
    obtain rfl : j = (value.map write).getD .null := entry
    cases value with
    | none => rfl
    | some a =>
      obtain ⟨shown, -, back⟩ := kept a rfl
      simp [back]

theorem nullBack {value : Option α} (kept : ∀ a, value = some a → Kept read write a)
    (entry : fields.lookup name = some ((value.map write).getD .null)) :
    optional fields name read = some value :=
  optionalBack kept (congrArg (fun found => found.getD .null) entry)

theorem optionalWritten (name : String) (distinct : (table.map Prod.fst).Nodup) {value : Option α}
    (kept : ∀ a, value = some a → Kept read write a) (entry : table.lookup name = some (value.map write)) :
    optional (written table) name read = some value :=
  optionalBack kept (congrArg (fun found => found.getD .null) (writtenLookup distinct entry))

theorem optionalSome {a : α} (found : optional fields name read = some (some a)) :
    ∃ j, j ≠ .null ∧ read j = some a := by
  unfold optional at found
  split at found
  · cases found
  · cases found
  · rename_i j shown there
    exact ⟨j, shown, by simpa using found⟩

theorem optionalSettled {value : Option Json}
    (found : optional fields name (fun j => some j.settle) = some value) :
    ∀ j, value = some j → j ≠ .null ∧ j.settle = j := by
  rintro j rfl
  obtain ⟨raw, shown, same⟩ := optionalSome found
  cases Option.some.inj same
  exact ⟨mt Json.settleNull.mp shown, Json.settleTwice raw⟩

theorem naturalSmall {bound n : Nat} {j : Json} (found : natural bound j = some n) : n < bound := by
  obtain ⟨m, -, found⟩ := Option.bind_eq_some_iff.mp found
  split at found
  · cases found
    assumption
  · cases found

theorem keptSettled {value : Option α} (kept : ∀ a, value = some a → Kept read write a) :
    ∀ j, value.map write = some j → j.settle = j := by
  intro j there
  obtain ⟨a, here, rfl⟩ := Option.map_eq_some_iff.mp there
  exact (kept a here).settled

theorem settledOptional {value : Option α} (kept : ∀ a, value = some a → Kept read write a) :
    ((value.map write).getD .null).settle = (value.map write).getD .null := by
  cases value with
  | none => rfl
  | some a => exact (kept a rfl).settled

theorem textKept (s : String) : Kept Json.string? .string s := ⟨nofun, rfl, rfl⟩

theorem floatKept (x : Binary64) : Kept Json.float? (fun x => .number (.float x)) x := ⟨nofun, rfl, rfl⟩

theorem countKept (n : Nat) : Kept Json.natural? Json.ofNat n := ⟨nofun, rfl, rfl⟩

theorem naturalKept {bound n : Nat} (small : n < bound) : Kept (natural bound) Json.ofNat n :=
  ⟨nofun, rfl, if_pos small⟩

theorem wordKept {read : String → Option α} {name : α → String} {a : α} (named : read (name a) = some a) :
    Kept (word read) (fun a => .string (name a)) a :=
  ⟨nofun, rfl, named⟩

theorem valueKept {j : Json} (shown : j ≠ .null) (settled : j.settle = j) :
    Kept (fun j => some j.settle) id j :=
  ⟨shown, settled, congrArg some settled⟩

theorem boundsKept (each : ∀ a, Kept read write a) (b : Bounds α) :
    Kept (Bounds.ofJson? read) (Traits.Bounds.toJson write) b := by
  obtain ⟨min, max⟩ := b
  have distinct : ([("min", min.map write), ("max", max.map write)].map Prod.fst).Nodup := by simp
  have shape : Traits.Bounds.toJson write ⟨min, max⟩ =
      .object (written [("min", min.map write), ("max", max.map write)] ++ []) := by
    simp [Traits.Bounds.toJson, written]
  have kept : ∀ (value : Option α) a, value = some a → Kept read write a := fun _ a _ => each a
  refine ⟨nofun, ?_, ?_⟩
  · rw [shape, List.append_nil]
    refine Json.settleObject (distinct.sublist writtenNames) (writtenSettled ?_)
    simp only [List.forall_mem_cons]
    exact ⟨keptSettled (kept min), keptSettled (kept max), nofun⟩
  · have fields := @writtenRead _ distinct [] nofun
    rw [shape, Bounds.ofJson?]
    simp only [List.map_cons, List.map_nil] at fields
    simp only [fields, Option.bind_eq_bind, Option.bind_some, optionalWritten "min" distinct (kept min) rfl,
      optionalWritten "max" distinct (kept max) rfl]

theorem requiredSome {a : α} (found : required fields name read = some a) : ∃ j, read j = some a :=
  (Option.bind_eq_some_iff.mp found).imp (fun _ both => both.2)

theorem requiredBack {j : Json} {a : α}
    (entry : fields.lookup name = some j) (back : read j = some a) : required fields name read = some a := by
  rw [required, entry]
  exact back

theorem defaultBack {j : Json} {absent a : α}
    (entry : fields.lookup name = some j) (back : read j = some a) :
    withDefault fields name absent read = some a := by
  rw [withDefault, entry]
  exact back

theorem mapMEach {β : Type} {f : α → Option β} {l : List α} {l' : List β} (ok : l.mapM f = some l') :
    ∀ b ∈ l', ∃ a, f a = some b := by
  induction l generalizing l' with
  | nil =>
    cases ok
    exact nofun
  | cons a rest ih =>
    rw [List.mapM_cons] at ok
    obtain ⟨b, head, ok⟩ := Option.bind_eq_some_iff.mp ok
    obtain ⟨bs, tail, ok⟩ := Option.bind_eq_some_iff.mp ok
    cases Option.some.inj ok
    exact List.forall_mem_cons.mpr ⟨⟨a, head⟩, ih tail⟩

theorem mapMBack {β : Type} {f : β → Option α} {g : α → β} {l : List α} (back : ∀ a ∈ l, f (g a) = some a) :
    (l.map g).mapM f = some l := by
  induction l with
  | nil => rfl
  | cons a rest ih =>
    obtain ⟨head, tail⟩ := List.forall_mem_cons.mp back
    rw [List.map_cons, List.mapM_cons, head, ih tail]
    rfl

theorem mapOfFinds {j : Json} {l : List (String × α)} (found : mapOf read j = some l) :
    (l.map Prod.fst).Nodup ∧ ∀ e ∈ l, ∃ raw, read raw = some e.2 := by
  cases j with
  | object members =>
    obtain ⟨entries, each, rfl⟩ := Option.map_eq_some_iff.mp found
    refine ⟨Json.settleNamesDistinct entries, fun e mem => ?_⟩
    obtain ⟨m, same⟩ := mapMEach each e (Json.memSettleNames mem)
    obtain ⟨a, ok, rfl⟩ := Option.map_eq_some_iff.mp same
    exact ⟨m.2, ok⟩
  | _ => cases found

theorem defaultFinds {l : List (String × α)}
    (found : withDefault fields name [] (mapOf read) = some l) :
    (l.map Prod.fst).Nodup ∧ ∀ e ∈ l, ∃ raw, read raw = some e.2 := by
  unfold withDefault at found
  split at found
  · exact mapOfFinds found
  · cases found
    exact ⟨.nil, nofun⟩

theorem mapOfBack {l : List (String × α)} (distinct : (l.map Prod.fst).Nodup)
    (back : ∀ e ∈ l, read (write e.2) = some e.2) :
    mapOf read (.object (l.map (fun e => (e.1, write e.2)))) = some l := by
  have each : ∀ e ∈ l, (read (write e.2)).map (fun a => (e.1, a)) = some e := by
    intro e mem
    rw [back e mem]
    rfl
  rw [mapOf, @mapMBack _ _ _ (fun e => (e.1, write e.2)) l each, Option.map_some,
    Entries.settleNamesOf distinct]

theorem listOfBack {l : List α} (back : ∀ a ∈ l, read (write a) = some a) :
    listOf read (.array (l.map write)) = some l :=
  mapMBack back

end Fields

namespace Traits
open Fields

def typed (t : Traits) : List (String × Option Json) :=
  [(Key.documentation, t.documentation.map .string),
    (Key.range, t.range.map (Bounds.toJson (fun x => .number (.float x)))),
    (Key.length, t.length.map (Bounds.toJson Json.ofNat)),
    (Key.pattern, t.pattern.map .string),
    (Key.required, t.required.map id),
    (Key.defaultValue, t.defaultValue.map id),
    (Key.uniqueItems, t.uniqueItems.map id),
    (Key.timestampFormat, t.timestampFormat.map (fun f => .string f.name)),
    (Key.enumValue, t.enumValue.map id),
    (Key.error, t.error.map (fun k => .string k.name)),
    (Key.httpError, t.httpError.map Json.ofNat),
    (Key.streaming, t.streaming.map id)]

theorem entriesTyped (t : Traits) : t.entries = Fields.written t.typed ++ t.extra := by
  simp [entries, Fields.written, typed]

theorem keysDistinct : Key.all.Nodup := by decide

theorem untypedKey {name : String} : (!Key.all.contains name) = true ↔ name ∉ Key.all := by
  rw [Bool.not_eq_true', ← Bool.not_eq_true, List.contains_iff_mem]

structure Loaded (t : Traits) : Prop where
  values : ∀ value ∈ [t.required, t.defaultValue, t.uniqueItems, t.enumValue, t.streaming],
    ∀ j, value = some j → j ≠ .null ∧ j.settle = j
  status : ∀ n, t.httpError = some n → n < 65536
  distinct : (t.extra.map Prod.fst).Nodup
  untyped : ∀ e ∈ t.extra, e.1 ∉ Key.all
  settled : ∀ e ∈ t.extra, e.2.settle = e.2

theorem loadedEmpty : empty.Loaded := ⟨by simp [empty], nofun, .nil, nofun, nofun⟩

variable {t : Traits}

theorem valueLoaded (loaded : t.Loaded) {value : Option Json}
    (mem : value ∈ [t.required, t.defaultValue, t.uniqueItems, t.enumValue, t.streaming]) :
    ∀ j, value = some j → Kept (fun j => some j.settle) id j := by
  intro j there
  obtain ⟨shown, settled⟩ := loaded.values value mem j there
  exact valueKept shown settled

theorem typedSettled (loaded : t.Loaded) : ∀ e ∈ t.typed, ∀ j, e.2 = some j → j.settle = j := by
  have value := fun {v} mem => keptSettled (@valueLoaded t loaded v mem)
  have text := fun v : Option String => keptSettled (fun s (_ : v = some s) => textKept s)
  simp only [typed, List.forall_mem_cons]
  exact ⟨text _, keptSettled (fun b _ => boundsKept floatKept b), keptSettled (fun b _ => boundsKept countKept b),
    text _, value (by simp), value (by simp), value (by simp),
    keptSettled (fun f _ => wordKept f.nameRead), value (by simp), keptSettled (fun k _ => wordKept k.nameRead),
    keptSettled (fun n here => naturalKept (loaded.status n here)), value (by simp), nofun⟩

theorem entriesDistinct (loaded : t.Loaded) : (t.entries.map Prod.fst).Nodup := by
  rw [entriesTyped, List.map_append, List.nodup_append]
  refine ⟨keysDistinct.sublist writtenNames, loaded.distinct, fun key typed name extra same => ?_⟩
  obtain ⟨e, mem, rfl⟩ := List.mem_map.mp extra
  exact loaded.untyped e mem (same ▸ writtenNames.mem typed)

theorem settledJson (loaded : t.Loaded) : t.toJson.settle = t.toJson := by
  refine Json.settleObject (entriesDistinct loaded) ?_
  rw [entriesTyped]
  exact List.forall_mem_append.mpr ⟨writtenSettled (typedSettled loaded), loaded.settled⟩

theorem readBack (loaded : t.Loaded) : ofJson? t.toJson = some t := by
  have known : Fields.ofJson? Key.all (.object t.entries) = some (written t.typed) := by
    rw [entriesTyped]
    exact @writtenRead t.typed keysDistinct _ loaded.untyped
  have typed : ∀ {α : Type} {read : Json → Option α} {write : α → Json} {value : Option α} (key : String),
      (∀ a, value = some a → Kept read write a) → t.typed.lookup key = some (value.map write) →
        optional (written t.typed) key read = some value :=
    fun key => @optionalWritten t.typed _ _ _ key keysDistinct _
  have text := fun (v : Option String) s (_ : v = some s) => textKept s
  have value := @valueLoaded t loaded
  have extra : (t.entries.filter (fun e => !Key.all.contains e.1)).map (fun e => (e.1, e.2.settle)) =
      t.extra := by
    have own : ∀ e ∈ written t.typed, ¬ (!Key.all.contains e.1) = true :=
      fun e mem there => untypedKey.mp there (writtenNames.mem (List.mem_map_of_mem mem))
    have others : ∀ e ∈ t.extra, (!Key.all.contains e.1) = true :=
      fun e mem => untypedKey.mpr (loaded.untyped e mem)
    rw [entriesTyped, List.filter_append, List.filter_eq_nil_iff.mpr own, List.filter_eq_self.mpr others,
      List.nil_append, Entries.mapSame loaded.settled]
  refine Option.bind_eq_some_iff.mpr ⟨_, known, ?_⟩
  refine Option.bind_eq_some_iff.mpr ⟨t.documentation, typed Key.documentation (text _) rfl, ?_⟩
  refine Option.bind_eq_some_iff.mpr ⟨t.range, typed Key.range (fun b _ => boundsKept floatKept b) rfl, ?_⟩
  refine Option.bind_eq_some_iff.mpr ⟨t.length, typed Key.length (fun b _ => boundsKept countKept b) rfl, ?_⟩
  refine Option.bind_eq_some_iff.mpr ⟨t.pattern, typed Key.pattern (text _) rfl, ?_⟩
  refine Option.bind_eq_some_iff.mpr ⟨t.required, typed Key.required (value (by simp)) rfl, ?_⟩
  refine Option.bind_eq_some_iff.mpr ⟨t.defaultValue, typed Key.defaultValue (value (by simp)) rfl, ?_⟩
  refine Option.bind_eq_some_iff.mpr ⟨t.uniqueItems, typed Key.uniqueItems (value (by simp)) rfl, ?_⟩
  refine Option.bind_eq_some_iff.mpr
    ⟨t.timestampFormat, typed Key.timestampFormat (fun f _ => wordKept f.nameRead) rfl, ?_⟩
  refine Option.bind_eq_some_iff.mpr ⟨t.enumValue, typed Key.enumValue (value (by simp)) rfl, ?_⟩
  refine Option.bind_eq_some_iff.mpr ⟨t.error, typed Key.error (fun k _ => wordKept k.nameRead) rfl, ?_⟩
  refine Option.bind_eq_some_iff.mpr
    ⟨t.httpError, typed Key.httpError (fun n here => naturalKept (loaded.status n here)) rfl, ?_⟩
  refine Option.bind_eq_some_iff.mpr ⟨t.streaming, typed Key.streaming (value (by simp)) rfl, ?_⟩
  rw [extra]
  exact congrArg (fun names => some { t with extra := names }) (Entries.settleNamesOf loaded.distinct)

theorem readLoaded {j : Json} (read : ofJson? j = some t) : t.Loaded := by
  cases j with
  | object members =>
    have reading := readingOf read
    refine ⟨?_, fun n here => ?_, ?_, fun e mem => ?_, fun e mem => ?_⟩
    · simp only [List.forall_mem_cons]
      exact ⟨optionalSettled reading.required, optionalSettled reading.defaultValue,
        optionalSettled reading.uniqueItems, optionalSettled reading.enumValue,
        optionalSettled reading.streaming, nofun⟩
    · obtain ⟨raw, -, found⟩ := optionalSome (here ▸ reading.httpError)
      exact naturalSmall found
    · rw [reading.extra]
      exact Json.settleNamesDistinct _
    · rw [reading.extra] at mem
      obtain ⟨m, inside, rfl⟩ := List.mem_map.mp (Json.memSettleNames mem)
      exact untypedKey.mp (List.mem_filter.mp inside).2
    · rw [reading.extra] at mem
      obtain ⟨m, -, rfl⟩ := List.mem_map.mp (Json.memSettleNames mem)
      exact Json.settleTwice m.2
  | _ => cases read

theorem defaultLoaded {fields : List (String × Json)} {name : String}
    (read : withDefault fields name empty ofJson? = some t) : t.Loaded := by
  unfold withDefault at read
  split at read
  · exact readLoaded read
  · exact Option.some.inj read ▸ loadedEmpty

end Traits

namespace Member
open Fields

variable {m : Member}

theorem readBack (loaded : m.traits.Loaded) : ofJson? m.toJson = some m := by
  let fields := [("target", .string m.target), ("traits", m.traits.toJson)]
  have known : Fields.ofJson? ["target", "traits"] m.toJson = some fields := rfl
  have target : required fields "target" Json.string? = some m.target := requiredBack rfl rfl
  have traits : withDefault fields "traits" Traits.empty Traits.ofJson? = some m.traits :=
    defaultBack rfl (Traits.readBack loaded)
  simp only [ofJson?, known, target, traits, Option.bind_eq_bind, Option.bind_some]

theorem readLoaded {j : Json} (read : ofJson? j = some m) : m.traits.Loaded := by
  obtain ⟨fields, -, read⟩ := Option.bind_eq_some_iff.mp read
  obtain ⟨target, -, read⟩ := Option.bind_eq_some_iff.mp read
  obtain ⟨traits, loads, read⟩ := Option.bind_eq_some_iff.mp read
  obtain rfl := Option.some.inj read
  exact Traits.defaultLoaded loads

theorem settledJson (loaded : m.traits.Loaded) : m.toJson.settle = m.toJson := by
  refine Json.settleObject (by simp) ?_
  simp only [List.forall_mem_cons]
  exact ⟨rfl, Traits.settledJson loaded, nofun⟩

end Member

namespace Shape
open Fields

variable {s : Shape}

def traitBags : Shape → List Traits
  | scalar _ t | operation _ _ _ t | service _ _ _ t => [t]
  | enum ms t | struct ms t | union ms t => t :: ms.map (fun m => m.2.traits)
  | list m t => [t, m.traits]
  | map k v t => [t, k.traits, v.traits]
  | unsupported => []

theorem settleMembersBags : ∀ t ∈ s.settleMembers.traitBags, t ∈ s.traitBags := by
  cases s with
  | enum ms traits | struct ms traits | union ms traits =>
    refine List.forall_mem_cons.mpr ⟨List.mem_cons_self, fun t mem => ?_⟩
    obtain ⟨m, inside, rfl⟩ := List.mem_map.mp mem
    exact List.mem_cons_of_mem _ (List.mem_map_of_mem (Json.memSettleNames inside))
  | _ => exact fun t mem => mem

theorem typedBack (s : Shape) : typed? s.toJson = some (Model.countName s, .object s.fields) := by
  cases s <;> rfl

theorem kindBack {kind : ShapeKind} (shaped : s.kind? = some kind) :
    ofJson? s.toJson = ofFields? kind (.object s.fields) := by
  simp [ofJson?, typedBack, Model.countName, shaped, ShapeKind.nameRead]

theorem fieldsBack {kind : ShapeKind} (shaped : s.kind? = some kind) :
    Fields.ofJson? (fieldNames kind) (.object s.fields) = some s.fields := by
  cases s with
  | unsupported => cases shaped
  | _ =>
    obtain rfl := Option.some.inj shaped
    rfl

theorem targetKept (target : String) : Kept targetOfJson? targetToJson target := ⟨nofun, rfl, rfl⟩

theorem traitsBack {t : Traits} (own : s.traits? = some t) (loaded : t.Loaded) :
    withDefault s.fields "traits" Traits.empty Traits.ofJson? = some t := by
  cases s with
  | unsupported => cases own
  | _ =>
    obtain rfl := Option.some.inj own
    exact defaultBack rfl (Traits.readBack loaded)

theorem membersBack {ms : List (String × Member)} (own : s.fields.lookup "members" = some (membersToJson ms))
    (distinct : (ms.map Prod.fst).Nodup) (loaded : ∀ t ∈ ms.map (fun m => m.2.traits), t.Loaded) :
    withDefault s.fields "members" [] (mapOf Member.ofJson?) = some ms :=
  defaultBack own (mapOfBack distinct (fun _ mem => Member.readBack (loaded _ (List.mem_map_of_mem mem))))

theorem memberBack {m : Member} {name : String} (own : s.fields.lookup name = some m.toJson)
    (loaded : m.traits.Loaded) : required s.fields name Member.ofJson? = some m :=
  requiredBack own (Member.readBack loaded)

theorem targetBack {target : Option String} {name : String}
    (own : s.fields.lookup name = some (targetToJson? target)) :
    optional s.fields name targetOfJson? = some target :=
  nullBack (fun _ _ => targetKept _) own

theorem targetsBack {targets : List String} {name : String}
    (own : s.fields.lookup name = some (.array (targets.map targetToJson))) :
    withDefault s.fields name [] (listOf targetOfJson?) = some targets :=
  defaultBack own (listOfBack (fun target _ => (targetKept target).back))

theorem readBack (distinct : s.memberNames.Nodup) (loaded : ∀ t ∈ s.traitBags, t.Loaded) :
    ofJson? s.toJson = some s := by
  cases shaped : s.kind? with
  | none =>
    cases s with
    | unsupported => rfl
    | _ => cases shaped
  | some kind =>
    obtain ⟨t, own, there⟩ : ∃ t, s.traits? = some t ∧ t ∈ s.traitBags := by
      cases s with
      | unsupported => cases shaped
      | _ => exact ⟨_, rfl, List.mem_cons_self⟩
    simp only [kindBack shaped, ofFields?, fieldsBack shaped, traitsBack own (loaded t there),
      Option.bind_eq_bind, Option.bind_some]
    cases s with
    | unsupported => cases shaped
    | scalar scalar t =>
      cases own
      cases shaped
      rfl
    | enum ms t | struct ms t | union ms t =>
      cases own
      cases shaped
      have each := (List.forall_mem_cons.mp loaded).2
      exact Option.map_eq_some_iff.mpr ⟨ms, membersBack rfl distinct each, rfl⟩
    | list m t =>
      cases own
      cases shaped
      have member := loaded m.traits (by simp [traitBags])
      exact Option.map_eq_some_iff.mpr ⟨m, memberBack rfl member, rfl⟩
    | map k v t =>
      cases own
      cases shaped
      have key := loaded k.traits (by simp [traitBags])
      have value := loaded v.traits (by simp [traitBags])
      refine Option.bind_eq_some_iff.mpr ⟨k, memberBack rfl key, ?_⟩
      exact Option.bind_eq_some_iff.mpr ⟨v, memberBack rfl value, rfl⟩
    | operation input output errors t =>
      cases own
      cases shaped
      refine Option.bind_eq_some_iff.mpr ⟨input, targetBack rfl, ?_⟩
      refine Option.bind_eq_some_iff.mpr ⟨output, targetBack rfl, ?_⟩
      exact Option.bind_eq_some_iff.mpr ⟨errors, targetsBack rfl, rfl⟩
    | service version operations resources t =>
      cases own
      cases shaped
      refine Option.bind_eq_some_iff.mpr ⟨version, nullBack (fun text _ => textKept text) rfl, ?_⟩
      refine Option.bind_eq_some_iff.mpr ⟨operations, targetsBack rfl, ?_⟩
      exact Option.bind_eq_some_iff.mpr ⟨resources, targetsBack rfl, rfl⟩

theorem membersLoaded {fields : List (String × Json)} {name : String} {ms : List (String × Member)}
    (read : withDefault fields name [] (mapOf Member.ofJson?) = some ms) :
    ∀ t ∈ ms.map (fun m => m.2.traits), t.Loaded := by
  intro t mem
  obtain ⟨m, inside, rfl⟩ := List.mem_map.mp mem
  obtain ⟨raw, found⟩ := (defaultFinds read).2 m inside
  exact Member.readLoaded found

theorem readLoaded {j : Json} (read : ofJson? j = some s) : ∀ t ∈ s.traitBags, t.Loaded := by
  obtain ⟨⟨type, rest⟩, -, read⟩ := Option.bind_eq_some_iff.mp read
  dsimp only at read
  split at read
  · rename_i kind _
    obtain ⟨fields, -, read⟩ := Option.bind_eq_some_iff.mp read
    obtain ⟨t, own, read⟩ := Option.bind_eq_some_iff.mp read
    have own := Traits.defaultLoaded own
    cases kind with
    | scalar scalar =>
      obtain rfl := Option.some.inj read
      simpa [traitBags] using own
    | enum | struct | union =>
      obtain ⟨ms, each, rfl⟩ := Option.map_eq_some_iff.mp read
      exact List.forall_mem_cons.mpr ⟨own, membersLoaded each⟩
    | list =>
      obtain ⟨m, found, rfl⟩ := Option.map_eq_some_iff.mp read
      obtain ⟨raw, found⟩ := requiredSome found
      simpa [traitBags] using ⟨own, Member.readLoaded found⟩
    | map =>
      obtain ⟨k, key, read⟩ := Option.bind_eq_some_iff.mp read
      obtain ⟨v, value, read⟩ := Option.bind_eq_some_iff.mp read
      obtain rfl := Option.some.inj read
      obtain ⟨rawKey, key⟩ := requiredSome key
      obtain ⟨rawValue, value⟩ := requiredSome value
      simpa [traitBags] using ⟨own, Member.readLoaded key, Member.readLoaded value⟩
    | operation | service =>
      obtain ⟨a, -, read⟩ := Option.bind_eq_some_iff.mp read
      obtain ⟨b, -, read⟩ := Option.bind_eq_some_iff.mp read
      obtain ⟨c, -, read⟩ := Option.bind_eq_some_iff.mp read
      obtain rfl := Option.some.inj read
      simpa [traitBags] using own
  · obtain rfl := Option.some.inj read
    simp [traitBags]

theorem settledMembers {ms : List (String × Member)} (distinct : (ms.map Prod.fst).Nodup)
    (loaded : ∀ t ∈ ms.map (fun m => m.2.traits), t.Loaded) :
    (membersToJson ms).settle = membersToJson ms := by
  refine Json.settleObject (by simpa [Function.comp_def] using distinct) (fun e mem => ?_)
  obtain ⟨m, inside, rfl⟩ := List.mem_map.mp mem
  exact Member.settledJson (loaded _ (List.mem_map_of_mem inside))

theorem settledTargets (targets : List String) :
    (Json.array (targets.map targetToJson)).settle = .array (targets.map targetToJson) := by
  refine Json.settleArray (fun j mem => ?_)
  obtain ⟨target, -, rfl⟩ := List.mem_map.mp mem
  exact (targetKept target).settled

theorem settledFields (distinct : s.memberNames.Nodup) (loaded : ∀ t ∈ s.traitBags, t.Loaded) :
    ∀ e ∈ s.fields, e.2.settle = e.2 := by
  have bag : ∀ t ∈ s.traitBags, t.toJson.settle = t.toJson := fun t mem => Traits.settledJson (loaded t mem)
  have member : ∀ m : Member, m.traits ∈ s.traitBags → m.toJson.settle = m.toJson :=
    fun m mem => Member.settledJson (loaded _ mem)
  cases s with
  | unsupported => exact nofun
  | scalar kind t => exact List.forall_mem_cons.mpr ⟨bag t List.mem_cons_self, nofun⟩
  | enum ms t | struct ms t | union ms t =>
    obtain ⟨own, each⟩ := List.forall_mem_cons.mp loaded
    simp only [fields, List.forall_mem_cons]
    exact ⟨settledMembers distinct each, Traits.settledJson own, nofun⟩
  | list m t =>
    simp only [fields, List.forall_mem_cons]
    exact ⟨member m (by simp [traitBags]), bag t List.mem_cons_self, nofun⟩
  | map k v t =>
    simp only [fields, List.forall_mem_cons]
    exact ⟨member k (by simp [traitBags]), member v (by simp [traitBags]), bag t List.mem_cons_self, nofun⟩
  | operation input output errors t =>
    have target := fun target : Option String => settledOptional (fun a (_ : target = some a) => targetKept a)
    simp only [fields, List.forall_mem_cons]
    exact ⟨target input, target output, settledTargets errors, bag t List.mem_cons_self, nofun⟩
  | service version operations resources t =>
    have text := settledOptional (fun a (_ : version = some a) => textKept a)
    simp only [fields, List.forall_mem_cons]
    exact ⟨text, settledTargets operations, settledTargets resources, bag t List.mem_cons_self, nofun⟩

theorem settledJson (distinct : s.memberNames.Nodup) (loaded : ∀ t ∈ s.traitBags, t.Loaded) :
    s.toJson.settle = s.toJson := by
  have names : (("type" :: s.fields.map Prod.fst)).Nodup := by
    cases s <;> simp [fields]
  exact Json.settleObject names (List.forall_mem_cons.mpr ⟨rfl, settledFields distinct loaded⟩)

theorem settleMembersSame (distinct : s.memberNames.Nodup) : s.settleMembers = s := by
  cases s with
  | enum ms t | struct ms t | union ms t => rw [settleMembers, Entries.settleNamesOf distinct]
  | _ => rfl

end Shape

namespace Model
open Fields

variable {m : Model}

structure Loaded (m : Model) : Prop where
  traits : ∀ e ∈ m.shapes, ∀ t ∈ e.2.traitBags, t.Loaded
  distinct : (m.metadata.map Prod.fst).Nodup
  settled : ∀ e ∈ m.metadata, e.2.settle = e.2

theorem sameEntries (m : Model) : ofEntries m.version m.shapes m.metadata = m := by
  have shapes : Json.settleNames (m.shapes.map (fun e => (e.1, e.2.settleMembers))) = m.shapes := by
    rw [Entries.mapSame (fun e mem => Shape.settleMembersSame (m.membersDistinct e mem)),
      Entries.settleNamesOf m.distinct]
  obtain ⟨version, entries, metadata, distinct, membersDistinct⟩ := m
  simp only [ofEntries, mk.injEq, true_and, and_true]
  exact shapes

theorem readBack (loaded : m.Loaded) : ofJson? m.toJson = some m := by
  let shapes := Json.object (m.shapes.map (fun e => (e.1, e.2.toJson)))
  let fields := [("smithy", .string m.version), ("shapes", shapes), ("metadata", .object m.metadata)]
  have known : Fields.ofJson? ["smithy", "shapes", "metadata"] m.toJson = some fields := rfl
  have version : required fields "smithy" Json.string? = some m.version := requiredBack rfl rfl
  have each : mapOf Shape.ofJson? shapes = some m.shapes :=
    mapOfBack m.distinct (fun e mem => Shape.readBack (m.membersDistinct e mem) (loaded.traits e mem))
  have values : mapOf (fun j => some j.settle) (.object m.metadata) = some m.metadata := by
    have back := @mapOfBack Json (fun j => some j.settle) id m.metadata loaded.distinct
      (fun e mem => congrArg some (loaded.settled e mem))
    simpa using back
  have shapesBack : withDefault fields "shapes" [] (mapOf Shape.ofJson?) = some m.shapes :=
    defaultBack rfl each
  have metadataBack : withDefault fields "metadata" [] (mapOf (fun j => some j.settle)) = some m.metadata :=
    defaultBack rfl values
  simp only [ofJson?, known, version, shapesBack, metadataBack, Option.bind_eq_bind, Option.bind_some,
    sameEntries]

theorem readLoaded {j : Json} (read : ofJson? j = some m) : m.Loaded := by
  obtain ⟨fields, -, read⟩ := Option.bind_eq_some_iff.mp read
  obtain ⟨version, -, read⟩ := Option.bind_eq_some_iff.mp read
  obtain ⟨shapes, each, read⟩ := Option.bind_eq_some_iff.mp read
  obtain ⟨metadata, values, read⟩ := Option.bind_eq_some_iff.mp read
  obtain rfl := Option.some.inj read
  obtain ⟨distinct, settled⟩ := defaultFinds values
  refine ⟨fun e mem => ?_, distinct, fun e mem => ?_⟩
  · obtain ⟨e, inside, rfl⟩ := List.mem_map.mp (Json.memSettleNames mem)
    obtain ⟨raw, found⟩ := (defaultFinds each).2 e inside
    exact fun t mem => Shape.readLoaded found t (Shape.settleMembersBags t mem)
  · obtain ⟨raw, found⟩ := settled e mem
    exact Option.some.inj found ▸ Json.settleTwice raw

theorem settledJson (loaded : m.Loaded) : m.toJson.settle = m.toJson := by
  have shapes : ∀ e ∈ m.shapes.map (fun e => (e.1, e.2.toJson)), e.2.settle = e.2 := by
    intro e mem
    obtain ⟨e, inside, rfl⟩ := List.mem_map.mp mem
    exact Shape.settledJson (m.membersDistinct e inside) (loaded.traits e inside)
  refine Json.settleObject (by simp) ?_
  simp only [List.forall_mem_cons]
  refine ⟨rfl, Json.settleObject ?_ shapes, Json.settleObject loaded.distinct loaded.settled, nofun⟩
  simpa [Function.comp_def] using m.distinct

theorem survivesJson {j : Json} (read : ofJson? j = some m) :
    ofJson? m.toJson = some m ∧ m.toJson.settle = m.toJson ∧
      ∀ again, ofJson? m.toJson = some again → again.toJson = m.toJson := by
  have back := readBack (readLoaded read)
  refine ⟨back, settledJson (readLoaded read), fun again found => ?_⟩
  rw [Option.some.inj (back.symm.trans found)]

def atlas : Json :=
  .object [("smithy", .string "2.0"),
    ("shapes", .object [
      ("example#Height", .object [("type", .string "integer"), ("traits", .object [
        ("example#unit", .string "metre"), (Traits.Key.documentation, .null),
        (Traits.Key.length, .object [("max", Json.ofNat 9)])])]),
      ("example#Ratio", .object [("type", .string "double"), ("note", .null)]),
      ("example#Lost", .object [("traits", .object [(Traits.Key.error, .string "client")]),
        ("members", .object [("at", .object [("target", .string "example#Height"),
          ("traits", .object [(Traits.Key.required, .object [])])])]), ("type", .string "structure")])])]

theorem atlasSurvives : ∃ m, ofJson? atlas = some m ∧ ofJson? m.toJson = some m ∧
    m.toJson.settle = m.toJson ∧ m.shapes.map (fun e => (e.1, e.2.kind?)) =
      [("example#Height", some (.scalar .integer)), ("example#Ratio", none), ("example#Lost", some .struct)] := by
  obtain ⟨m, read⟩ : ∃ m, ofJson? atlas = some m := ⟨_, rfl⟩
  obtain ⟨back, settled, -⟩ := survivesJson read
  have kinds : (ofJson? atlas).map (fun m => m.shapes.map (fun e => (e.1, e.2.kind?))) =
      some [("example#Height", some (.scalar .integer)), ("example#Ratio", none),
        ("example#Lost", some .struct)] := rfl
  rw [read] at kinds
  exact ⟨m, read, back, settled, Option.some.inj kinds⟩

end Model
end ShapeContracts
