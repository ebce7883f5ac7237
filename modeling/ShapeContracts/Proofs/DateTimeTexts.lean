import ShapeContracts.Proofs.CodePoints
import ShapeContracts.Proofs.DateTimes

/-! Which texts are date-times, and what normalising makes of them. Reading takes a text apart into the
fields that it is written from, so the texts that are accepted are the written forms; and normalising
a normal form gives it back, as long as its year has four digits. -/
namespace ShapeContracts.Timestamp

/-! What is read was written. -/

theorem expectGiven {c : Char} {cs rest : List Char} (read : expect? c cs = some rest) : cs = c :: rest := by
  cases cs with
  | nil => contradiction
  | cons d cs =>
    simp only [expect?, Option.ite_none_right_eq_some, Option.some.injEq] at read
    rw [read.1, read.2]

theorem dateGiven {cs rest : List Char} {date : Date} (read : readDate? cs = some (date, rest)) :
    (0 ≤ date.year ∧ date.year ≤ 9999) ∧ date.month < 100 ∧ date.day < 100 ∧
      cs = padded 4 date.year.toNat ++ '-' :: (padded 2 date.month ++ '-' :: (padded 2 date.day ++ rest)) := by
  simp only [readDate?, bind, Option.bind_eq_some_iff, Prod.exists] at read
  obtain ⟨year, _, years, _, dash, month, _, months, _, dash', day, _, days, same⟩ := read
  obtain ⟨fits, rfl⟩ := paddedGiven (by decide) years
  obtain rfl := expectGiven dash
  obtain ⟨fits', rfl⟩ := paddedGiven (by decide) months
  obtain rfl := expectGiven dash'
  obtain ⟨fits'', rfl⟩ := paddedGiven (by decide) days
  obtain ⟨rfl, rfl⟩ := Prod.mk.inj (Option.some.inj same)
  exact ⟨⟨Int.natCast_nonneg year, Int.lt_add_one_iff.mp (Int.ofNat_lt.mpr fits)⟩, fits', fits'', rfl⟩

theorem clockGiven {cs rest : List Char} {clock : Clock} (read : readClock? cs = some (clock, rest)) :
    clock.hour < 100 ∧ clock.minute < 100 ∧ clock.second < 100 ∧
      cs = padded 2 clock.hour ++ ':' :: (padded 2 clock.minute ++ ':' :: (padded 2 clock.second ++ rest)) := by
  simp only [readClock?, bind, Option.bind_eq_some_iff, Prod.exists] at read
  obtain ⟨hour, _, hours, _, colon, minute, _, minutes, _, colon', second, _, seconds, same⟩ := read
  obtain ⟨fits, rfl⟩ := paddedGiven (by decide) hours
  obtain rfl := expectGiven colon
  obtain ⟨fits', rfl⟩ := paddedGiven (by decide) minutes
  obtain rfl := expectGiven colon'
  obtain ⟨fits'', rfl⟩ := paddedGiven (by decide) seconds
  obtain ⟨rfl, rfl⟩ := Prod.mk.inj (Option.some.inj same)
  exact ⟨fits, fits', fits'', rfl⟩

theorem zoneGiven {cs rest : List Char} {offset : Int} (read : readOffset? cs = some (offset, rest)) :
    ∃ z : Zone, z.Valid ∧ z.offset = offset ∧ cs = z.chars ++ rest := by
  unfold readOffset? at read
  split at read
  · obtain ⟨rfl, rfl⟩ := Prod.mk.inj (Option.some.inj read)
    exact ⟨.utc, trivial, rfl, rfl⟩
  · rename_i sign cs _
    dsimp only [bind, pure] at read
    split at read
    · contradiction
    rename_i signed
    simp only [Option.bind_eq_some_iff, Prod.exists] at read
    obtain ⟨hour, _, hours, _, colon, minute, _, minutes, same⟩ := read
    obtain ⟨fits, rfl⟩ := paddedGiven (by decide) hours
    obtain rfl := expectGiven colon
    obtain ⟨fits', rfl⟩ := paddedGiven (by decide) minutes
    split at same
    · contradiction
    have early : hour < 24 ∧ minute < 60 := by omega
    obtain ⟨rfl, rfl⟩ := Prod.mk.inj (Option.some.inj same)
    by_cases west : sign = '-'
    · exact ⟨.behind hour minute, early, by simp [Zone.offset, west], by simp [Zone.chars, west]⟩
    · have east : sign = '+' := by
        by_contra other
        exact signed ⟨other, west⟩
      exact ⟨.ahead hour minute, early, by simp [Zone.offset, west], by simp [Zone.chars, east]⟩
  · contradiction

theorem fractionGiven {cs rest : List Char} {milli : Nat} (read : readFraction? cs = some (milli, rest)) :
    ∃ fraction : List Char, (∀ c ∈ fraction.take 3, c.isDigit = true) ∧
      (∀ c ∈ fraction.drop 3, Unicode.isDecimalDigit c = true) ∧
      cs = Written.fractionChars fraction ++ rest ∧
      milli = Nat.ofDigitChars 10 (fraction.take 3) 0 * 1000 / 10 ^ (fraction.take 3).length := by
  unfold readFraction? at read
  split at read
  · rename_i cs
    simp only [List.span_eq_takeWhile_dropWhile, Option.ite_none_left_eq_some, Option.map_eq_some_iff] at read
    obtain ⟨some, ⟨value, left⟩, kept, same⟩ := read
    obtain ⟨ds, taken, length, digits, rfl⟩ := digitsGiven kept
    obtain ⟨rfl, rfl⟩ := Prod.mk.inj same
    obtain rfl : left = [] := by
      have := congrArg List.length taken
      simp only [List.length_append, length] at this
      exact List.eq_nil_of_length_eq_zero (by omega)
    rw [List.append_nil] at taken
    refine ⟨cs.takeWhile Unicode.isDecimalDigit, taken ▸ digits, ?_, ?_, ?_⟩
    · intro c mem
      exact List.all_eq_true.mp List.all_takeWhile c (List.mem_of_mem_drop mem)
    · rw [Written.fractionChars, if_neg (by simpa using some), List.cons_append, List.takeWhile_append_dropWhile]
    · have cut := thousandths (taken ▸ digits : ∀ c ∈ (cs.takeWhile Unicode.isDecimalDigit).take 3, _)
      rw [List.take_take, Nat.min_self] at cut
      rw [← cut, ← taken]
      rfl
  · obtain ⟨rfl, rfl⟩ := Prod.mk.inj (Option.some.inj read)
    exact ⟨[], by simp, by simp, rfl, rfl⟩

namespace Written

theorem speltGiven {cs : List Char} {l : Local} (read : readLocal? cs = some l) :
    ∃ w : Written, w.Spelt ∧ w.chars = cs ∧ w.cut.toLocal = l := by
  simp only [readLocal?, bind, Option.bind_eq_some_iff, Prod.exists] at read
  obtain ⟨date, _, days, _, middle, clock, _, times, milli, _, fractions, offset, _, zones, same⟩ := read
  obtain ⟨year, month, day, rfl⟩ := dateGiven days
  obtain rfl := expectGiven middle
  obtain ⟨hour, minute, second, rfl⟩ := clockGiven times
  obtain ⟨fraction, kept, dropped, rfl, rfl⟩ := fractionGiven fractions
  obtain ⟨zone, real, rfl, rfl⟩ := zoneGiven zones
  simp only [List.isEmpty_iff, Option.ite_none_right_eq_some, Option.some.injEq] at same
  obtain ⟨rfl, rfl⟩ := same
  refine ⟨⟨date, clock, fraction, zone⟩, ⟨year, month, day, hour, minute, second, kept, dropped, real⟩, ?_, rfl⟩
  simp only [chars, List.append_nil]

theorem speltAccepted {w : Written} (spelt : w.Spelt) :
    (∃ normal, normalize w.text = .ok normal) ↔ w.cut.toLocal.Valid := by
  rw [normalize, text, String.toList_ofList, readSpelt spelt]
  simp only
  split
  · rename_i real
    exact ⟨fun _ => real, fun _ => ⟨_, rfl⟩⟩
  · rename_i unreal
    constructor
    · rintro ⟨normal, accepted⟩
      contradiction
    · intro real
      exact absurd real unreal

/-- A date-time with a real date and time; digits behind the third of the fraction may be of any script. -/
structure Legible (w : Written) : Prop where
  kept : w.cut.Valid
  dropped : ∀ c ∈ w.fraction.drop 3, Unicode.isDecimalDigit c = true

theorem Legible.spelt {w : Written} (legible : w.Legible) : w.Spelt :=
  { legible.kept.spelt with kept := legible.kept.fraction, dropped := legible.dropped }

theorem normalizeLegible {w : Written} (legible : w.Legible) :
    normalize w.text = .ok (String.ofList w.cut.toLocal.toUtc.render) := by
  have real : w.cut.toLocal.Valid :=
    ⟨legible.kept.date, legible.kept.hour, legible.kept.minute, legible.kept.second⟩
  rw [normalize, text, String.toList_ofList, readSpelt legible.spelt]
  simp only [if_pos real]

theorem legibleGiven {text normal : String} (accepted : normalize text = .ok normal) :
    ∃ w : Written, w.Legible ∧ text = w.text := by
  unfold normalize at accepted
  split at accepted
  · rename_i l read
    split at accepted
    · rename_i real
      obtain ⟨w, spelt, chars, rfl⟩ := speltGiven read
      obtain ⟨date, hour, minute, second⟩ := real
      refine ⟨w, ⟨⟨date, spelt.year, hour, minute, second, spelt.kept, spelt.zone⟩, spelt.dropped⟩, ?_⟩
      rw [Written.text, chars, String.ofList_toList]
    · contradiction
  · contradiction

theorem zoneAscii (z : Zone) : ∀ c ∈ z.chars, c.toNat < 128 := by
  have digits : ∀ {n}, ∀ c ∈ padded 2 n, c.toNat < 128 :=
    fun c mem => Nat.lt_of_le_of_lt (digitBounds (paddedDigits mem)).2 (by decide)
  cases z with
  | utc => simp [Zone.chars]
  | ahead hour minute | behind hour minute =>
    simp only [Zone.chars, List.forall_mem_cons, List.forall_mem_append]
    exact ⟨by decide, digits, by decide, digits⟩

theorem textAscii (w : Written) :
    (∀ c ∈ w.text.toList, c.toNat < 128) ↔ ∀ c ∈ w.fraction, c.toNat < 128 := by
  have digits : ∀ width n, ∀ c ∈ padded width n, c.toNat < 128 :=
    fun _ _ c mem => Nat.lt_of_le_of_lt (digitBounds (paddedDigits mem)).2 (by decide)
  have marks : '-'.toNat < 128 ∧ 'T'.toNat < 128 ∧ ':'.toNat < 128 ∧ '.'.toNat < 128 := by decide
  have point : (∀ c ∈ fractionChars w.fraction, c.toNat < 128) ↔ ∀ c ∈ w.fraction, c.toNat < 128 := by
    unfold fractionChars
    split
    · rename_i none
      simp [none]
    · simp
  simp only [text, String.toList_ofList, chars, List.forall_mem_append, List.forall_mem_cons, point,
    iff_true_intro (digits _ _), iff_true_intro (zoneAscii _), marks, true_and, and_true]

theorem legibleValid {w : Written} (legible : w.Legible) :
    w.Valid ↔ ∀ c ∈ w.text.toList, c.toNat < 128 := by
  obtain ⟨⟨date, year, hour, minute, second, kept, zone⟩, dropped⟩ := legible
  rw [textAscii]
  constructor
  · intro valid c mem
    exact Nat.lt_of_le_of_lt (digitBounds (valid.fraction c mem)).2 (by decide)
  · intro ascii
    refine ⟨date, year, hour, minute, second, ?_, zone⟩
    intro c mem
    have small := ascii c mem
    rw [← List.take_append_drop 3 w.fraction] at mem
    rcases List.mem_append.mp mem with early | late
    · exact kept c early
    · have decimal := dropped c late
      rwa [Unicode.isDecimalDigit, if_pos small] at decimal

theorem Valid.legible {w : Written} (valid : w.Valid) : w.Legible := by
  obtain ⟨date, year, hour, minute, second, fraction, zone⟩ := valid
  exact ⟨⟨date, year, hour, minute, second, fun c mem => fraction c (List.mem_of_mem_take mem), zone⟩,
    fun c mem => asciiDecimal (fraction c (List.mem_of_mem_drop mem))⟩

theorem acceptsExactly (text : String) :
    ((∃ normal, normalize text = .ok normal) ↔ ∃ w : Written, w.Legible ∧ text = w.text) ∧
    ((∃ normal, normalize text = .ok normal) ∨ normalize text = .error (.dateTime text)) ∧
    (((∃ normal, normalize text = .ok normal) ↔ ∃ w : Written, w.Valid ∧ text = w.text) ↔
      ((∃ normal, normalize text = .ok normal) → ∀ c ∈ text.toList, c.toNat < 128)) := by
  have accepts : (∃ normal, normalize text = .ok normal) ↔ ∃ w : Written, w.Legible ∧ text = w.text := by
    constructor
    · rintro ⟨normal, accepted⟩
      exact legibleGiven accepted
    · rintro ⟨w, legible, rfl⟩
      exact ⟨_, normalizeLegible legible⟩
  refine ⟨accepts, ?_, ?_⟩
  · unfold normalize
    split
    · split
      · exact .inl ⟨_, rfl⟩
      · exact .inr rfl
    · exact .inr rfl
  · rw [accepts]
    constructor
    · intro exact legible
      obtain ⟨w, valid, rfl⟩ := exact.mp legible
      exact (legibleValid valid.legible).mp valid
    · intro ascii
      constructor
      · intro given
        obtain ⟨w, legible, rfl⟩ := given
        exact ⟨w, (legibleValid legible).mpr (ascii ⟨w, legible, rfl⟩), rfl⟩
      · rintro ⟨w, valid, same⟩
        exact ⟨w, valid.legible, same⟩

def arabicFraction : Written := ⟨⟨1985, 4, 12⟩, ⟨23, 20, 50⟩, ['1', '2', '3', '٤'], .utc⟩

theorem arabicDigitDropped : normalize "1985-04-12T23:20:50.123٤Z" = .ok "1985-04-12T23:20:50.123Z" ∧
    ¬ ∃ w : Written, w.Valid ∧ "1985-04-12T23:20:50.123٤Z" = w.text := by
  have spelling : arabicFraction.text = "1985-04-12T23:20:50.123٤Z" := by decide +kernel
  have legible : arabicFraction.Legible := by
    refine ⟨⟨by decide, by decide, by decide, by decide, by decide, List.all_eq_true.mp (by decide), trivial⟩, ?_⟩
    intro c mem
    obtain rfl := List.mem_singleton.mp mem
    exact Unicode.arabicFour
  have normal : String.ofList arabicFraction.cut.toLocal.toUtc.render = "1985-04-12T23:20:50.123Z" := by
    decide +kernel
  rw [← spelling, normalizeLegible legible, normal]
  refine ⟨rfl, ?_⟩
  rintro ⟨w, valid, same⟩
  have ascii := (legibleValid valid.legible).mp valid
  rw [← same, textAscii] at ascii
  exact absurd (ascii '٤' (by decide)) (by decide)

/-! Normalising again. -/

theorem reducedStays {l : Local} (reduced : l.Reduced) : l.toUtc = l := by
  have near : -1440 < l.offset ∧ l.offset < 1440 := by
    rw [reduced.offset]
    decide
  obtain ⟨again, same⟩ := Local.utcReduced reduced.valid reduced.milli near
  exact Local.millisInjective again reduced same

theorem canonicalWritten {w : Written} (canonical : w.Canonical) :
    w.toLocal.Reduced ∧ w.toLocal.written = w := by
  obtain ⟨valid, length, zone⟩ := canonical
  have low := digitValueBound valid.fraction
  have milli : w.toLocal.milli = Nat.ofDigitChars 10 w.fraction 0 := by
    simp only [toLocal, length]
    omega
  rw [length] at low
  refine ⟨⟨⟨valid.date, valid.hour, valid.minute, valid.second⟩, by omega, by rw [toLocal, zone]; rfl⟩, ?_⟩
  have digits : padded 3 w.toLocal.milli = w.fraction := by
    rw [milli]
    exact digitsUnique ((paddedLength (by decide) low).trans length.symm) (fun c => paddedDigits) valid.fraction
      (paddedValue _ _)
  rw [Local.written, digits, ← zone]
  rfl

theorem canonicalStands {w : Written} (canonical : w.Canonical) : normalize w.text = .ok w.text := by
  obtain ⟨reduced, same⟩ := canonicalWritten canonical
  have rendered := (writtenCanonical reduced canonical.valid.year).2
  rw [normalizeText canonical.valid, reducedStays reduced, rendered, same]

theorem canonicalForm {w : Written} (canonical : w.Canonical) :
    w.text.toList.length = 24 ∧ ∀ c ∈ w.text.toList, c.toNat < 128 := by
  obtain ⟨valid, length, zone⟩ := canonical
  have spelt := valid.spelt
  have pair : ∀ {n}, n < 100 → (padded 2 n).length = 2 := fun small => paddedLength (by decide) small
  have year : (padded 4 w.date.year.toNat).length = 4 := paddedLength (by decide) (by have := valid.year; omega)
  refine ⟨?_, (legibleValid valid.legible).mp valid⟩
  have point : fractionChars w.fraction = '.' :: w.fraction := by
    refine if_neg ?_
    intro none
    rw [none] at length
    contradiction
  simp only [text, String.toList_ofList, chars, point, zone, Zone.chars, List.length_append, List.length_cons,
    List.length_nil, year, pair spelt.month, pair spelt.day, pair spelt.hour, pair spelt.minute, pair spelt.second,
    length]

theorem farYearRefused {l : Local} (far : ¬ (0 ≤ l.date.year ∧ l.date.year ≤ 9999)) :
    normalize (String.ofList l.render) = .error (.dateTime (String.ofList l.render)) := by
  have unread : readLocal? l.render = none := by
    simp only [Local.render, renderYear, if_neg far]
    split <;> rfl
  rw [normalize, String.toList_ofList, unread]

def IsCanonical (text : String) : Prop :=
  ∃ w : Written, w.Canonical ∧ text = w.text ∧ text.toList.length = 24 ∧ ∀ c ∈ text.toList, c.toNat < 128

theorem canonicalExactly {text normal : String} (accepted : normalize text = .ok normal) :
    ∃ w : Written, w.Legible ∧ text = w.text ∧
      (IsCanonical normal ↔ w.cut.InRange) ∧
      (normalize normal = .ok normal ↔ w.cut.InRange) ∧
      (¬ w.cut.InRange → normalize normal = .error (.dateTime normal)) := by
  obtain ⟨w, legible, rfl⟩ := legibleGiven accepted
  have same := (normalizeLegible legible).symm.trans accepted
  obtain rfl := Except.ok.inj same
  have year := localYear legible.kept
  obtain ⟨reduced, -⟩ := localUtc legible.kept
  have inside (inRange : w.cut.InRange) : ∃ u : Written, u.Canonical ∧
      String.ofList w.cut.toLocal.toUtc.render = u.text := by
    obtain ⟨canonical, rendered⟩ := writtenCanonical reduced (year.mpr inRange)
    exact ⟨_, canonical, rendered⟩
  have outside (far : ¬ w.cut.InRange) := farYearRefused (fun four => far (year.mp four))
  refine ⟨w, legible, rfl, ⟨?_, ?_⟩, ⟨?_, ?_⟩, outside⟩
  · rintro ⟨u, canonical, rendered, -⟩
    by_contra far
    have refused := outside far
    rw [rendered, canonicalStands canonical] at refused
    cases refused
  · intro inRange
    obtain ⟨u, canonical, rendered⟩ := inside inRange
    exact ⟨u, canonical, rendered, rendered ▸ canonicalForm canonical⟩
  · intro stands
    by_contra far
    rw [outside far] at stands
    cases stands
  · intro inRange
    obtain ⟨u, canonical, rendered⟩ := inside inRange
    rw [rendered, canonicalStands canonical]

theorem millenniumCanonical :
    normalize "1999-12-31T23:59:59.9999999-00:01" = .ok "2000-01-01T00:00:59.999Z" ∧
    ∃ w : Written, w.Legible ∧ "1999-12-31T23:59:59.9999999-00:01" = w.text ∧
      (IsCanonical "2000-01-01T00:00:59.999Z" ↔ w.cut.InRange) ∧
      (normalize "2000-01-01T00:00:59.999Z" = .ok "2000-01-01T00:00:59.999Z" ↔ w.cut.InRange) ∧
      (¬ w.cut.InRange →
        normalize "2000-01-01T00:00:59.999Z" = .error (.dateTime "2000-01-01T00:00:59.999Z")) := by
  have accepted : normalize "1999-12-31T23:59:59.9999999-00:01" = .ok "2000-01-01T00:00:59.999Z" := by
    rw [normalize, String.toList_ofList]
    decide +kernel
  exact ⟨accepted, canonicalExactly accepted⟩

theorem lastMinuteLeaves : normalize "9999-12-31T23:59:59-00:01" = .ok "+10000-01-01T00:00:59.000Z" ∧
    normalize "+10000-01-01T00:00:59.000Z" = .error (.dateTime "+10000-01-01T00:00:59.000Z") ∧
    ¬ IsCanonical "+10000-01-01T00:00:59.000Z" := by
  have refused : normalize "+10000-01-01T00:00:59.000Z" = .error (.dateTime "+10000-01-01T00:00:59.000Z") := by
    rw [normalize, String.toList_ofList]
    rfl
  refine ⟨?_, refused, ?_⟩
  · rw [normalize, String.toList_ofList]
    decide +kernel
  rintro ⟨w, canonical, same, -⟩
  rw [same, canonicalStands canonical] at refused
  cases refused

end Written
end ShapeContracts.Timestamp
