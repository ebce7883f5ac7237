import ShapeContracts.Proofs.Base64Texts
import ShapeContracts.Proofs.Presence
import ShapeContracts.Proofs.TraitMarkers
import ShapeContracts.Proofs.WideIntegers

/-! Defaults of blobs. The text of a default is taken if it spells bytes in base64; these stand for an absent member
when values are validated, and the code of the member lists the same ones. -/
namespace ShapeContracts

def Json.ofBytes (bytes : List UInt8) : Json := .array (bytes.map (fun b => .number (.whole b.toNat)))

def DefaultValue.listing (bytes : List UInt8) : String :=
  "[" ++ ", ".intercalate (bytes.map (fun b => toString b.toNat)) ++ "]"

namespace Json

variable {limit fuel depth : Nat} {rest : List Char}

theorem blankRead (cs : List Char) :
    readValue limit (fuel + 1) depth (' ' :: cs) = readValue limit (fuel + 1) depth cs := by
  have skip : skipBlanks (' ' :: cs) = skipBlanks cs := rfl
  rw [readValue, readValue, skip]

theorem byteRead (b : UInt8) (follows : Follows rest) :
    readValue limit (fuel + 1) depth (Nat.toDigits 10 b.toNat ++ rest) = some (.number (.whole b.toNat), rest) := by
  have small := b.toNat_lt
  have wide : (Number.whole b.toNat).Wide := by
    simp only [Number.Wide, Number.minWhole, Number.maxWhole]
    omega
  exact wholeValueRead wide follows

def laterBytes (bytes : List UInt8) : List Char := bytes.flatMap (fun b => ',' :: ' ' :: Nat.toDigits 10 b.toNat)

theorem laterFollow (bytes : List UInt8) (rest : List Char) : Follows (laterBytes bytes ++ ']' :: rest) := by
  cases bytes with
  | nil => exact fun c head => .inr (.inl (Option.some.inj head).symm)
  | cons => exact fun c head => .inl (Option.some.inj head).symm

theorem laterRead (bytes : List UInt8) (enough : bytes.length < fuel) :
    readItems limit fuel depth (laterBytes bytes ++ ']' :: rest) =
      some (bytes.map (fun b => .number (.whole b.toNat)), rest) := by
  induction bytes generalizing fuel with
  | nil =>
    obtain ⟨fuel, rfl⟩ := Nat.exists_eq_add_one_of_ne_zero (Nat.ne_of_gt enough)
    rw [readItems]
    rfl
  | cons b bytes ih =>
    obtain ⟨fuel, rfl⟩ : ∃ less, fuel = less + 2 := ⟨fuel - 2, by rw [List.length_cons] at enough; omega⟩
    have first : readValue limit (fuel + 1) depth
        (' ' :: (Nat.toDigits 10 b.toNat ++ (laterBytes bytes ++ ']' :: rest))) =
          some (.number (.whole b.toNat), laterBytes bytes ++ ']' :: rest) :=
      (blankRead _).trans (byteRead b (laterFollow bytes rest))
    have shown : laterBytes (b :: bytes) ++ ']' :: rest =
        ',' :: ' ' :: (Nat.toDigits 10 b.toNat ++ (laterBytes bytes ++ ']' :: rest)) := by
      simp [laterBytes]
    rw [shown]
    exact nextItemRead first (ih (by rw [List.length_cons] at enough; omega))

theorem listRead (b : UInt8) (bytes : List UInt8) (enough : bytes.length < fuel + 1) :
    readValue limit (fuel + 2) (depth + 1) ('[' :: (Nat.toDigits 10 b.toNat ++ (laterBytes bytes ++ ']' :: rest))) =
      some (.ofBytes (b :: bytes), rest) := by
  have floatless : (Json.number (.whole b.toNat)).Floatless := trivial
  exact arrayRead (shownSkip floatless _) (shownOpens floatless _) (byteRead b (laterFollow bytes rest))
    (laterRead bytes enough)

theorem listingShown (b : UInt8) (bytes : List UInt8) : (DefaultValue.listing (b :: bytes)).toList =
    '[' :: (Nat.toDigits 10 b.toNat ++ (laterBytes bytes ++ [']'])) := by
  have joined : [',', ' '].intercalate ((b :: bytes).map (fun b => Nat.toDigits 10 b.toNat)) =
      Nat.toDigits 10 b.toNat ++ laterBytes bytes := by
    induction bytes generalizing b with
    | nil => simp [laterBytes, List.intercalate]
    | cons c bytes ih =>
      have later := ih c
      rw [List.map_cons] at later ⊢
      rw [List.map_cons, List.intercalate_cons_cons, later]
      simp [laterBytes]
  have digits : String.toList ∘ (fun b : UInt8 => toString b.toNat) = fun b => Nat.toDigits 10 b.toNat := by
    funext b
    simp
  have comma : ", ".toList = [',', ' '] := by simp
  rw [DefaultValue.listing, String.toList_append, String.toList_append, String.toList_intercalate, List.map_map,
    digits, comma, joined]
  simp

theorem laterLength (bytes : List UInt8) : bytes.length ≤ (laterBytes bytes).length := by
  induction bytes with
  | nil => exact Nat.le_refl _
  | cons b bytes ih =>
    rw [laterBytes, List.flatMap_cons, List.length_append, List.length_cons, List.length_cons, ← laterBytes]
    omega

theorem listingRaw (bytes : List UInt8) : parseRaw? (DefaultValue.listing bytes) = some (.ofBytes bytes) := by
  cases bytes with
  | nil =>
    have shown : (DefaultValue.listing []).toList = ['[', ']'] := by simp [DefaultValue.listing]
    rw [parseRaw?, shown]
    dsimp only [List.length_cons, List.length_nil, maxDepth]
    rw [readValue]
    rfl
  | cons b bytes =>
    obtain ⟨fuel, length⟩ : ∃ fuel, (DefaultValue.listing (b :: bytes)).toList.length = fuel + 1 :=
      ⟨_, by rw [listingShown, List.length_cons]⟩
    have enough : bytes.length < fuel + 1 := by
      have later := laterLength bytes
      rw [listingShown, List.length_cons, List.length_append, List.length_append] at length
      omega
    rw [parseRaw?, length, listingShown]
    dsimp only [maxDepth]
    rw [listRead b bytes enough]
    rfl

theorem listingRead (bytes : List UInt8) : parse? (DefaultValue.listing bytes) = some (.ofBytes bytes) := by
  have settles : (Json.ofBytes bytes).settle = .ofBytes bytes :=
    settleArray (fun j mem => by obtain ⟨b, -, rfl⟩ := List.mem_map.mp mem; rfl)
  rw [parse?, listingRaw, Option.map_some, settles]

end Json

namespace Structure

variable {s location : String}

theorem blobDefault {d : DefaultValue} : defaultValue (.string s) (some (.scalar .blob)) location = .ok d ↔
    ∃ bytes, Base64.Canonical s.toList bytes ∧ d = .bytes bytes := by
  simp only [← Base64.decodedCanonical, defaultValue]
  cases Base64.decode? s.toList with
  | some bytes =>
    simp only [pureOk, Option.some.injEq, exists_eq_left']
    exact eq_comm
  | none => exact iff_of_false (fun taken => by cases taken) (by simp)

theorem blobRefused (unspelt : ¬ ∃ bytes, Base64.Canonical s.toList bytes) :
    defaultValue (.string s) (some (.scalar .blob)) location =
      .error (.unsupportedDefault location .invalidBase64) := by
  simp only [← Base64.decodedCanonical, ← Option.isSome_iff_exists, Option.not_isSome_iff_eq_none] at unspelt
  simp only [defaultValue, unspelt]
  rfl

end Structure

namespace DefaultValue

def literal (bytes : List UInt8) : String := "new Uint8Array(" ++ listing bytes ++ ")"

theorem bytesCode (bytes : List UInt8) : DefaultValue.code (.bytes bytes) = .raw (literal bytes) := by
  have opening : "new Uint8Array([" = "new Uint8Array(" ++ "[" := rfl
  have closing : "])" = "]" ++ ")" := rfl
  unfold literal listing
  rw [code, opening, closing]
  simp only [String.append_assoc]

theorem literalLine (bytes : List UInt8) : '\n' ∉ (literal bytes).toList := by
  have within : '\n' ∉ (", ".intercalate (bytes.map (fun b => toString b.toNat))).toList := by
    rw [String.toList_intercalate, List.map_map]
    intro mem
    rcases Entries.joinedFrom mem with comma | ⟨cs, listed, inside⟩
    · exact absurd comma (by decide)
    · obtain ⟨b, -, rfl⟩ := List.mem_map.mp listed
      have digit : '\n'.isDigit = true :=
        Nat.isDigit_of_mem_toDigits (b := 10) (n := b.toNat) (by decide) (by decide) (by simpa using inside)
      contradiction
  unfold literal listing
  simp only [String.toList_append, List.mem_append, not_or]
  exact ⟨⟨by decide, ⟨by decide, within⟩, by decide⟩, by decide⟩

end DefaultValue

theorem Fragment.reindentLine {cs : List Char} (line : '\n' ∉ cs) (indent : Nat) : reindent indent cs = cs := by
  induction cs with
  | nil => rfl
  | cons c cs ih =>
    rw [List.mem_cons, not_or] at line
    rw [reindent, if_neg (fun both => line.1 both.1.symm), ih line.2]

theorem Schema.literalShown (source : FileKey) (m : CodeModules) (inner : Schema) (bytes : List UInt8) (indent : Nat) :
    Fragment.Leaf.text (DefaultValue.literal bytes).toList ∈
      Fragment.leaves indent ((Schema.withDefault inner (.bytes bytes)).lower source m) := by
  rw [lower]
  refine argumentMem List.mem_cons_self ?_ _ _
  rw [DefaultValue.bytesCode, Fragment.leaves, Fragment.reindentLine (DefaultValue.literalLine bytes)]
  exact List.mem_cons_self

namespace Contracts

variable {job : Job} {c : Contracts}

theorem blobResolved (done : ofModel c.job = .ok c) {target : String} {source : FileKey} {res : Resolution}
    (ok : c.scope.resolveIn target source .deferred [] = .ok res) (blob : res.kind = some (.scalar .blob)) :
    ∃ notes, res.schema = Schema.withNotes notes .bytes := by
  obtain ⟨-, discovered, -⟩ := finishedTrace done
  have reference := Scope.resolveOk.mp ok
  cases reference with
  | recursive | missing => contradiction
  | @builtin b fresh known =>
    cases b with
    | blob => exact ⟨[], rfl⟩
    | _ => contradiction
  | @declared symbol parts fresh foreign named registered standalone =>
    rw [Symbol.isStandalone, Option.some.inj blob] at standalone
    contradiction
  | @inlined symbol parts s fresh foreign named registered apart body =>
    obtain ⟨shape, found, shaped, inline⟩ := Scope.inlinedShape discovered registered apart
    rw [Option.some.inj blob] at shaped
    have expansion := Scope.expandOk.mp body
    cases expansion with
    | absent missing => cases found.symm.trans missing
    | @scalar kind traits parts found' named =>
      cases found.symm.trans found'
      cases shaped
      have validator : c.scope.scalarSchema parts.space traits .blob = .bytes := rfl
      exact ⟨(Shape.scalar .blob traits).notes target, by rw [Resolution.found, validator]⟩
    | list found' | map found' | union _ found' =>
      cases found.symm.trans found'
      cases shaped
    | other found' _ whole =>
      cases found.symm.trans found'
      cases inline.symm.trans whole

structure Supplies (c : Contracts) (id name : String) (member : Member) (bytes : List UInt8) : Prop where
  field : ∃ fields s notes comments, c.schema? id = some (.object fields) ∧
    fields.lookup name = some (s, comments) ∧
    s = .withDefault (Structure.constrain (.withNotes notes .bytes) member.traits) (.bytes bytes) ∧
    Schema.evaluate c.schemas s none [] = .valid (some (.ofBytes bytes))
  filled : ∀ entries w, entries.lookup name = none → c.validate id (.object entries) = .ok (.valid w) →
    ∃ ws, w = .object ws ∧ ws.lookup name = some (.ofBytes bytes)
  listed : ∃ file lines const properties inner comments, c.job.fileOf id = .ok file ∧
    Fragment.exportConst lines const (Fragment.method (.imported "z" c.job.settings.codeModules.validators) "object"
      [.object properties]) ∈ c.run.codeOf file ∧
    properties.lookup name = some (Fragment.method inner "default" [.raw (DefaultValue.literal bytes)], comments) ∧
    c.Shows file (DefaultValue.literal bytes)

theorem literalListed (done : ofModel c.job = .ok c) {id : String} {members : List (String × Member)}
    {traits : Traits} (found : c.job.model.shape? id = some (.struct members traits))
    {fields : List (String × Schema × List String)} (recorded : c.schema? id = some (.object fields)) {name : String}
    {inner : Schema} {bytes : List UInt8} {comments : List String}
    (there : fields.lookup name = some (.withDefault inner (.bytes bytes), comments)) :
    ∃ file lines const properties code comments, c.job.fileOf id = .ok file ∧
      Fragment.exportConst lines const (Fragment.method (.imported "z" c.job.settings.codeModules.validators) "object"
        [.object properties]) ∈ c.run.codeOf file ∧
      properties.lookup name = some (Fragment.method code "default" [.raw (DefaultValue.literal bytes)], comments) ∧
      c.Shows file (DefaultValue.literal bytes) := by
  obtain ⟨file, lines, const, properties, routed, written, lowered, code⟩ := fieldWritten done found recorded there
  rw [lowered] at written
  rw [Schema.lower, DefaultValue.bytesCode] at code
  refine ⟨file, lines, const, properties, _, comments, routed, written, code, ?_⟩
  obtain ⟨i, nth⟩ := List.mem_iff_getElem?.mp (Entries.memOfLookup there)
  obtain ⟨indent, within⟩ := Schema.occursLower file c.job.settings.codeModules (.field nth .here) 0
  have leaf := within (Schema.literalShown file c.job.settings.codeModules inner bytes indent)
  rw [← String.ofList_toList (s := DefaultValue.literal bytes)]
  exact structShown done found routed recorded ⟨[], [], by rwa [List.nil_append, List.append_nil]⟩

theorem bytesSupplied (done : ofModel c.job = .ok c) {id : String} {members : List (String × Member)}
    {traits : Traits} (found : c.job.model.shape? id = some (.struct members traits)) {name : String}
    {member : Member} (here : (name, member) ∈ members) {s : String}
    (given : member.traits.defaultValue = some (.string s))
    (blob : c.job.model.targetKind? member.target = some (some (.scalar .blob))) :
    ∃ bytes, Base64.Canonical s.toList bytes ∧ c.Supplies id name member bytes := by
  obtain ⟨source, fields, schema, comments, recorded, distinct, there, made⟩ := memberField done found here
  obtain ⟨res, d, location, resolved, kinded, read, formed⟩ := defaultMade done made given blob
  obtain ⟨bytes, spelt, rfl⟩ := Structure.blobDefault.mp read
  obtain ⟨notes, plain⟩ := blobResolved done resolved kinded
  have target : Structure.targetSchema res member.traits = .withNotes notes .bytes := by
    simp only [Structure.targetSchema, kinded, plain]
  rw [target] at formed
  obtain rfl := formed
  have value : Interpretation.filled (some (.scalar .blob)) (.string s) = .ofBytes bytes :=
    (Structure.defaultFilled read).symm
  refine ⟨bytes, spelt, ⟨fields, _, notes, comments, recorded, there, rfl, ?_⟩, fun entries w lacks valid => ?_,
    literalListed done found recorded there⟩
  · rw [Schema.evaluate]
    rfl
  · have completed := absenceFilled done found here lacks given blob valid
    rwa [value] at completed

theorem blobDefaultsCarried :
    (∀ s location d, Structure.defaultValue (.string s) (some (.scalar .blob)) location = .ok d ↔
      ∃ bytes, Base64.Canonical s.toList bytes ∧ d = .bytes bytes) ∧
    (∀ s location, (¬ ∃ bytes, Base64.Canonical s.toList bytes) →
      Structure.defaultValue (.string s) (some (.scalar .blob)) location =
        .error (.unsupportedDefault location .invalidBase64)) ∧
    (∀ s location bytes, Structure.defaultValue (.string s) (some (.scalar .blob)) location = .ok (.bytes bytes) →
      String.ofList (Base64.encode bytes) = s) ∧
    (∀ s t location location' d, Structure.defaultValue (.string s) (some (.scalar .blob)) location = .ok d →
      Structure.defaultValue (.string t) (some (.scalar .blob)) location' = .ok d → s = t) ∧
    (∀ schemas bytes followed, Schema.evaluate schemas .bytes (some (.ofBytes bytes)) followed =
      .valid (some (.ofBytes bytes))) ∧
    (∀ bytes, DefaultValue.code (.bytes bytes) = .raw ("new Uint8Array(" ++ DefaultValue.listing bytes ++ ")") ∧
      Json.parse? (DefaultValue.listing bytes) = some (.ofBytes bytes)) ∧
    ∀ job c, ofModel job = .ok c → ∀ id members traits, job.model.shape? id = some (.struct members traits) →
      ∀ name member, (name, member) ∈ members → ∀ s, member.traits.defaultValue = some (.string s) →
        job.model.targetKind? member.target = some (some (.scalar .blob)) →
          ∃ bytes, Base64.Canonical s.toList bytes ∧ c.Supplies id name member bytes := by
  have encoded {s : String} {location : String} {bytes : List UInt8}
      (read : Structure.defaultValue (.string s) (some (.scalar .blob)) location = .ok (.bytes bytes)) :
      String.ofList (Base64.encode bytes) = s := by
    obtain ⟨bytes', spelt, same⟩ := Structure.blobDefault.mp read
    cases same
    rw [← Base64.decodeOk.mp (Base64.decodedCanonical.mpr spelt), String.ofList_toList]
  refine ⟨fun s location d => Structure.blobDefault, fun s location => Structure.blobRefused,
    fun s location bytes => encoded, fun s t location location' d first second => ?_, Schema.bytesAccepted,
    fun bytes => ⟨DefaultValue.bytesCode bytes, Json.listingRead bytes⟩,
    fun job c done id members traits found name member here s given blob => ?_⟩
  · obtain ⟨bytes, -, rfl⟩ := Structure.blobDefault.mp first
    exact (encoded first).symm.trans (encoded second)
  · obtain ⟨rfl, -⟩ := finishedTrace done
    exact bytesSupplied done found here given blob

def Album.thumb : Member where
  target := Builtin.blob.id
  traits := { Traits.empty with defaultValue := some (.string "AQL/gA==") }

def album : Model where
  version := "2.0"
  shapes := [("example#Album", .struct [("thumb", Album.thumb)] .empty)]
  metadata := []
  distinct := by decide
  membersDistinct := by simp [Shape.memberNames]

theorem thumbSupplied : ∃ c, ofModel ⟨album, .standard⟩ = .ok c ∧
    c.Supplies "example#Album" "thumb" Album.thumb [1, 2, 255, 128] := by
  obtain ⟨c, done⟩ := @completes ⟨album, .standard⟩ (fun b => by cases b <;> rfl) (by decide)
  obtain ⟨-, -, -, -, -, -, supplied⟩ := blobDefaultsCarried
  obtain ⟨bytes, spelt, supplies⟩ := supplied _ c done "example#Album" _ _ rfl "thumb" Album.thumb
    List.mem_cons_self "AQL/gA==" rfl rfl
  have read : Base64.decode? "AQL/gA==".toList = some [1, 2, 255, 128] := by decide
  cases read.symm.trans (Base64.decodedCanonical.mpr spelt)
  exact ⟨c, done, supplies⟩

end Contracts
end ShapeContracts
