import Mathlib.Data.Rat.Floor
import ShapeContracts.Timestamp
import ShapeContracts.Proofs.DayCount

/-! Date-times as they are written, and the instants that they denote. Normalising reads a written form
back, moves it to UTC without leaving the instant, and writes it again with the fraction cut off at
the millisecond; so two forms come out alike exactly when their milliseconds are the same. -/
namespace ShapeContracts.Timestamp

/-! Numbers of a fixed width. -/

theorem digitsRead {ds : List Char} (digits : ∀ c ∈ ds, c.isDigit = true) (value : Nat) (rest : List Char) :
    digits? ds.length value (ds ++ rest) = some (Nat.ofDigitChars 10 ds value, rest) := by
  induction ds generalizing value with
  | nil => rfl
  | cons c cs ih =>
    have next := ih (fun d mem => digits d (List.mem_cons_of_mem _ mem)) (value * 10 + (c.toNat - 48))
    simp only [List.length_cons, List.cons_append, digits?, digit?, digits c List.mem_cons_self, if_true,
      Option.bind_eq_bind, Option.bind_some, Nat.ofDigitChars_cons, next]
    rw [Nat.mul_comm 10]
    rfl

theorem paddedDigits {width n : Nat} {c : Char} (mem : c ∈ padded width n) : c.isDigit = true := by
  rcases List.mem_append.mp mem with zero | digit
  · rw [List.eq_of_mem_replicate zero]
    rfl
  · exact Nat.isDigit_of_mem_toDigits (by decide) (by decide) digit

theorem paddedLength {width n : Nat} (some : 0 < width) (fits : n < 10 ^ width) :
    (padded width n).length = width := by
  have short := (Nat.length_toDigits_le_iff (by decide) some).mpr fits
  simp only [padded, List.length_append, List.length_replicate]
  omega

theorem paddedValue (width n : Nat) : Nat.ofDigitChars 10 (padded width n) 0 = n := by
  have zeros : ∀ k, Nat.ofDigitChars 10 (List.replicate k '0') 0 = 0 := by
    intro k
    induction k with
    | zero => rfl
    | succ k ih => rw [List.replicate_succ, Nat.ofDigitChars_cons]; exact ih
  rw [padded, Nat.ofDigitChars_append, zeros, Nat.ofDigitChars_ten_toDigits]

theorem paddedRead {width n : Nat} (some : 0 < width) (fits : n < 10 ^ width) (rest : List Char) :
    digits? width 0 (padded width n ++ rest) = .some (n, rest) := by
  have read := digitsRead (fun c => paddedDigits : ∀ c ∈ padded width n, _) 0 rest
  rwa [paddedLength some fits, paddedValue] at read

theorem expectRead (c : Char) (rest : List Char) : expect? c (c :: rest) = some rest := if_pos rfl

theorem pairRead {n : Nat} (small : n < 100) (rest : List Char) : digits? 2 0 (padded 2 n ++ rest) = some (n, rest) :=
  paddedRead (by decide) small rest

theorem yearRead {year : Int} (four : 0 ≤ year ∧ year ≤ 9999) (rest : List Char) :
    digits? 4 0 (padded 4 year.toNat ++ rest) = some (year.toNat, rest) :=
  paddedRead (by decide) (by omega) rest

theorem clockRead {clock : Clock} (hour : clock.hour < 100) (minute : clock.minute < 100)
    (second : clock.second < 100) (rest : List Char) :
    readClock? (padded 2 clock.hour ++ ':' :: (padded 2 clock.minute ++ ':' :: (padded 2 clock.second ++ rest))) =
      some (clock, rest) := by
  simp only [readClock?, pairRead hour, expectRead, pairRead minute, pairRead second, Option.bind_eq_bind,
    Option.bind_some]

theorem digitBounds {c : Char} (digit : c.isDigit = true) : 48 ≤ c.toNat ∧ c.toNat ≤ 57 := by
  simp only [Char.isDigit, Bool.and_eq_true, decide_eq_true_eq, UInt32.le_iff_toNat_le] at digit
  exact digit

theorem digitValueBound {ds : List Char} (digits : ∀ c ∈ ds, c.isDigit = true) :
    Nat.ofDigitChars 10 ds 0 < 10 ^ ds.length := by
  induction ds with
  | nil => decide
  | cons c cs ih =>
    have rest := ih (fun d mem => digits d (List.mem_cons_of_mem _ mem))
    have high : c.toNat - '0'.toNat ≤ 9 := Nat.sub_le_sub_right (digitBounds (digits c List.mem_cons_self)).2 48
    have scaled := Nat.mul_le_mul_left (10 ^ cs.length) high
    rw [Nat.ofDigitChars_cons, Nat.ofDigitChars_eq_ofDigitChars_zero, List.length_cons, Nat.pow_succ,
      Nat.mul_zero, Nat.zero_add]
    omega

theorem digitsUnique {ds es : List Char} (length : ds.length = es.length)
    (digits : ∀ c ∈ ds, c.isDigit = true) (digits' : ∀ c ∈ es, c.isDigit = true)
    (value : Nat.ofDigitChars 10 ds 0 = Nat.ofDigitChars 10 es 0) : ds = es := by
  induction ds generalizing es with
  | nil => exact (List.eq_nil_of_length_eq_zero length.symm).symm
  | cons c cs ih =>
    obtain _ | ⟨d, ds⟩ := es
    · contradiction
    have shorter : cs.length = ds.length := Nat.succ.inj length
    have tail : ∀ e ∈ cs, e.isDigit = true := fun e mem => digits e (List.mem_cons_of_mem _ mem)
    have tail' : ∀ e ∈ ds, e.isDigit = true := fun e mem => digits' e (List.mem_cons_of_mem _ mem)
    have low := digitValueBound tail
    have low' := digitValueBound tail'
    have scale : 0 < 10 ^ ds.length := Nat.pow_pos (by decide)
    rw [Nat.ofDigitChars_cons, Nat.ofDigitChars_cons, Nat.ofDigitChars_eq_ofDigitChars_zero,
      Nat.ofDigitChars_eq_ofDigitChars_zero (l := ds), shorter, Nat.mul_zero, Nat.zero_add, Nat.zero_add] at value
    rw [shorter] at low
    have heads := congrArg (· / 10 ^ ds.length) value
    simp only [Nat.mul_add_div scale, Nat.div_eq_of_lt low, Nat.div_eq_of_lt low', Nat.add_zero] at heads
    rw [heads] at value
    have bounds := digitBounds (digits c List.mem_cons_self)
    have bounds' := digitBounds (digits' d List.mem_cons_self)
    have zero : '0'.toNat = 48 := rfl
    obtain rfl : c = d := Char.ext (UInt32.toNat_inj.mp (show c.toNat = d.toNat by omega))
    rw [ih shorter tail tail' (Nat.add_left_cancel value)]

theorem digitsGiven {width value n : Nat} {cs rest : List Char}
    (read : digits? width value cs = some (n, rest)) :
    ∃ ds, cs = ds ++ rest ∧ ds.length = width ∧ (∀ c ∈ ds, c.isDigit = true) ∧
      n = Nat.ofDigitChars 10 ds value := by
  induction width generalizing value cs with
  | zero =>
    obtain ⟨rfl, rfl⟩ := Prod.mk.inj (Option.some.inj read)
    exact ⟨[], rfl, rfl, by simp, rfl⟩
  | succ width ih =>
    cases cs with
    | nil => contradiction
    | cons c cs =>
      obtain ⟨d, digit, read⟩ := Option.bind_eq_some_iff.mp read
      obtain ⟨ds, rfl, length, digits, total⟩ := ih read
      unfold digit? at digit
      split at digit
      · rename_i decimal
        obtain rfl := Option.some.inj digit
        refine ⟨c :: ds, rfl, by rw [List.length_cons, length], ?_, ?_⟩
        · exact List.forall_mem_cons.mpr ⟨decimal, digits⟩
        · rw [total, Nat.ofDigitChars_cons, Nat.mul_comm]
          rfl
      · contradiction

theorem paddedGiven {width n : Nat} {cs rest : List Char} (some : 0 < width)
    (read : digits? width 0 cs = .some (n, rest)) : n < 10 ^ width ∧ cs = padded width n ++ rest := by
  obtain ⟨ds, rfl, rfl, digits, rfl⟩ := digitsGiven read
  have fits := digitValueBound digits
  refine ⟨fits, congrArg (· ++ rest) ?_⟩
  exact digitsUnique (paddedLength some fits).symm digits (fun c => paddedDigits) (paddedValue _ _).symm

theorem thousandths {ds : List Char} (digits : ∀ c ∈ ds, c.isDigit = true) :
    Nat.ofDigitChars 10 (ds.take 3) 0 * 10 ^ (3 - (ds.take 3).length) =
      Nat.ofDigitChars 10 ds 0 * 1000 / 10 ^ ds.length := by
  rcases Nat.lt_or_ge 3 ds.length with long | short
  · have cut : Nat.ofDigitChars 10 ds 0 = 10 ^ (ds.length - 3) * Nat.ofDigitChars 10 (ds.take 3) 0 +
        Nat.ofDigitChars 10 (ds.drop 3) 0 := by
      conv_lhs => rw [← List.take_append_drop 3 ds, Nat.ofDigitChars_append,
        Nat.ofDigitChars_eq_ofDigitChars_zero, List.length_drop]
    have low := digitValueBound (fun c mem => digits c (List.mem_of_mem_drop mem) : ∀ c ∈ ds.drop 3, _)
    rw [List.length_drop] at low
    have scale : 10 ^ ds.length = 10 ^ (ds.length - 3) * 1000 := by
      rw [← Nat.pow_add 10 (ds.length - 3) 3, Nat.sub_add_cancel (Nat.le_of_lt long)]
    rw [List.length_take, Nat.min_eq_left (Nat.le_of_lt long), cut, scale,
      Nat.mul_div_mul_right _ _ (by decide), Nat.mul_add_div (Nat.pos_of_ne_zero (by positivity)),
      Nat.div_eq_of_lt low]
    simp
  · have scale : 1000 = 10 ^ (3 - ds.length) * 10 ^ ds.length := by
      rw [← Nat.pow_add, Nat.sub_add_cancel short]
    rw [List.take_of_length_le short, scale, ← Nat.mul_assoc,
      Nat.mul_div_cancel _ (Nat.pos_of_ne_zero (by positivity))]

/-! The time line. -/

namespace Local

def millis (l : Local) : Int :=
  (l.date.ordinal * 1440 + l.clock.minutes - l.offset) * 60000 + l.clock.second * 1000 + l.milli

structure Reduced (l : Local) : Prop where
  valid : l.Valid
  milli : l.milli < 1000
  offset : l.offset = 0

theorem utcReduced {l : Local} (valid : l.Valid) (milli : l.milli < 1000)
    (near : -1440 < l.offset ∧ l.offset < 1440) : l.toUtc.Reduced ∧ l.toUtc.millis = l.millis := by
  obtain ⟨date, hour, minute, second⟩ := valid
  have minutes : l.clock.minutes < 1440 := by
    unfold Clock.minutes
    omega
  have moved : l.toUtc.date.Valid ∧
      l.toUtc.date.ordinal * 1440 + ((l.clock.minutes - l.offset) % 1440).toNat =
        l.date.ordinal * 1440 + l.clock.minutes - l.offset := by
    simp only [toUtc]
    split
    · obtain ⟨real, count⟩ := Date.previousDayOrdinal date
      exact ⟨real, by omega⟩
    split
    · obtain ⟨real, count⟩ := Date.nextDayOrdinal date
      exact ⟨real, by omega⟩
    · exact ⟨date, by omega⟩
  have within : ((l.clock.minutes - l.offset) % 1440).toNat < 1440 := by omega
  refine ⟨⟨⟨moved.1, ?_, ?_, second⟩, milli, rfl⟩, ?_⟩
  · simp only [toUtc]
    omega
  · simp only [toUtc]
    omega
  · have clock : l.toUtc.clock.minutes = ((l.clock.minutes - l.offset) % 1440).toNat := by
      simp only [toUtc, Clock.minutes]
      omega
    rw [millis, millis, clock]
    simp only [toUtc] at moved ⊢
    omega

theorem millisInjective {l l' : Local} (reduced : l.Reduced) (reduced' : l'.Reduced)
    (same : l.millis = l'.millis) : l = l' := by
  obtain ⟨date, ⟨hour, minute, second⟩, milli, offset⟩ := l
  obtain ⟨date', ⟨hour', minute', second'⟩, milli', offset'⟩ := l'
  obtain ⟨⟨real, hours, minutes, seconds⟩, millis, zero⟩ := reduced
  obtain ⟨⟨real', hours', minutes', seconds'⟩, millis', zero'⟩ := reduced'
  simp only [Local.millis, Clock.minutes] at *
  obtain rfl : date = date' := Date.ordinalInjective real real' (by omega)
  obtain rfl : hour = hour' := by omega
  obtain rfl : minute = minute' := by omega
  obtain rfl : second = second' := by omega
  obtain rfl : milli = milli' := by omega
  obtain rfl : offset = offset' := by omega
  rfl

end Local

/-! The written form. -/

inductive Zone where
  | utc
  | ahead (hour minute : Nat)
  | behind (hour minute : Nat)
  deriving DecidableEq, Repr

namespace Zone

def offset : Zone → Int
  | utc => 0
  | ahead hour minute => hour * 60 + minute
  | behind hour minute => -(hour * 60 + minute)

def Valid : Zone → Prop
  | utc => True
  | ahead hour minute | behind hour minute => hour < 24 ∧ minute < 60

def chars : Zone → List Char
  | utc => ['Z']
  | ahead hour minute => '+' :: (padded 2 hour ++ ':' :: padded 2 minute)
  | behind hour minute => '-' :: (padded 2 hour ++ ':' :: padded 2 minute)

theorem offsetBound {z : Zone} (valid : z.Valid) : -1440 < z.offset ∧ z.offset < 1440 := by
  cases z <;> simp only [Valid, offset] at valid ⊢ <;> omega

theorem zoneRead {z : Zone} (valid : z.Valid) : readOffset? z.chars = some (z.offset, []) := by
  have last : ∀ {n}, n < 60 → digits? 2 0 (padded 2 n) = some (n, []) := by
    intro n small
    rw [← List.append_nil (padded 2 n), pairRead (Nat.lt_trans small (by decide))]
  cases z with
  | utc => rfl
  | ahead hour minute | behind hour minute =>
    obtain ⟨early, short⟩ := valid
    have inside : ¬ (24 ≤ hour ∨ 60 ≤ minute) := by omega
    simp [chars, readOffset?, pairRead (Nat.lt_trans early (by decide)), expectRead, last short, inside, offset]

end Zone

structure Written where
  date : Date
  clock : Clock
  fraction : List Char
  zone : Zone
  deriving DecidableEq, Repr

namespace Written

structure Valid (w : Written) : Prop where
  date : w.date.Valid
  year : 0 ≤ w.date.year ∧ w.date.year ≤ 9999
  hour : w.clock.hour < 24
  minute : w.clock.minute < 60
  second : w.clock.second < 60
  fraction : ∀ c ∈ w.fraction, c.isDigit = true
  zone : w.zone.Valid

def fractionChars (fraction : List Char) : List Char := if fraction = [] then [] else '.' :: fraction

def chars (w : Written) : List Char :=
  padded 4 w.date.year.toNat ++ '-' :: (padded 2 w.date.month ++ '-' :: (padded 2 w.date.day
    ++ 'T' :: (padded 2 w.clock.hour ++ ':' :: (padded 2 w.clock.minute
    ++ ':' :: (padded 2 w.clock.second ++ (fractionChars w.fraction ++ w.zone.chars))))))

def text (w : Written) : String := String.ofList w.chars

def instant (w : Written) : ℚ :=
  w.date.ordinal * 86400 + w.clock.hour * 3600 + w.clock.minute * 60 + w.clock.second
    + Nat.ofDigitChars 10 w.fraction 0 / 10 ^ w.fraction.length - w.zone.offset * 60

def InRange (w : Written) : Prop :=
  0 ≤ w.instant ∧ w.instant < (Date.mk 10000 1 1).ordinal * 86400

structure Canonical (w : Written) : Prop where
  valid : w.Valid
  fraction : w.fraction.length = 3
  zone : w.zone = .utc

def toLocal (w : Written) : Local :=
  ⟨w.date, w.clock, Nat.ofDigitChars 10 w.fraction 0 * 1000 / 10 ^ w.fraction.length, w.zone.offset⟩

def cut (w : Written) : Written := { w with fraction := w.fraction.take 3 }

/-- The fields fit their digits, whether or not there is such a day or time. A digit behind the third of
the fraction may be of any script, since it is dropped unread. -/
structure Spelt (w : Written) : Prop where
  year : 0 ≤ w.date.year ∧ w.date.year ≤ 9999
  month : w.date.month < 100
  day : w.date.day < 100
  hour : w.clock.hour < 100
  minute : w.clock.minute < 100
  second : w.clock.second < 100
  kept : ∀ c ∈ w.fraction.take 3, c.isDigit = true
  dropped : ∀ c ∈ w.fraction.drop 3, Unicode.isDecimalDigit c = true
  zone : w.zone.Valid

theorem asciiDecimal {c : Char} (digit : c.isDigit = true) : Unicode.isDecimalDigit c = true := by
  have small : c.toNat < 128 := Nat.lt_of_le_of_lt (digitBounds digit).2 (by decide)
  rw [Unicode.isDecimalDigit, if_pos small, digit]

theorem Valid.spelt {w : Written} (valid : w.Valid) : w.Spelt where
  year := valid.year
  month := Nat.lt_of_le_of_lt valid.date.month.2 (by decide)
  day := Nat.lt_of_le_of_lt valid.date.day (by decide)
  hour := Nat.lt_trans valid.hour (by decide)
  minute := Nat.lt_trans valid.minute (by decide)
  second := Nat.lt_trans valid.second (by decide)
  kept := fun c mem => valid.fraction c (List.mem_of_mem_take mem)
  dropped := fun c mem => asciiDecimal (valid.fraction c (List.mem_of_mem_drop mem))
  zone := valid.zone

theorem Valid.cutLocal {w : Written} (valid : w.Valid) : w.cut.toLocal = w.toLocal := by
  have whole := thousandths valid.fraction
  have again := thousandths (fun c mem => valid.fraction c (List.mem_of_mem_take mem) : ∀ c ∈ w.fraction.take 3, _)
  rw [List.take_take, Nat.min_self] at again
  simp only [toLocal, cut, ← whole, ← again]

theorem fractionRead {w : Written} (spelt : w.Spelt) :
    readFraction? (fractionChars w.fraction ++ w.zone.chars) = some (w.cut.toLocal.milli, w.zone.chars) := by
  by_cases none : w.fraction = []
  · simp only [none, fractionChars, if_true, List.nil_append, cut, toLocal]
    cases w.zone <;> rfl
  have whole : (w.fraction ++ w.zone.chars).span Unicode.isDecimalDigit = (w.fraction, w.zone.chars) := by
    have stops : w.zone.chars.takeWhile Unicode.isDecimalDigit = [] ∧
        w.zone.chars.dropWhile Unicode.isDecimalDigit = w.zone.chars := by
      cases w.zone <;> exact ⟨rfl, rfl⟩
    have goes : ∀ c ∈ w.fraction, Unicode.isDecimalDigit c = true := by
      intro c mem
      rw [← List.take_append_drop 3 w.fraction] at mem
      rcases List.mem_append.mp mem with kept | dropped
      · exact asciiDecimal (spelt.kept c kept)
      · exact spelt.dropped c dropped
    rw [List.span_eq_takeWhile_dropWhile, List.takeWhile_append_of_pos goes,
      List.dropWhile_append_of_pos goes, stops.1, stops.2, List.append_nil]
  have kept : digits? (w.fraction.take 3).length 0 (w.fraction.take 3) =
      some (Nat.ofDigitChars 10 (w.fraction.take 3) 0, []) := by
    have read := digitsRead spelt.kept 0 []
    rwa [List.append_nil] at read
  have cut := thousandths spelt.kept
  rw [List.take_take, Nat.min_self] at cut
  rw [fractionChars, if_neg none, List.cons_append, readFraction?, whole]
  simp only [List.isEmpty_iff, none, if_false, kept, Option.map_some, Written.cut, toLocal]
  rw [← cut]
  rfl

theorem readSpelt {w : Written} (spelt : w.Spelt) : readLocal? w.chars = some w.cut.toLocal := by
  have back : (w.date.year.toNat : Int) = w.date.year := Int.toNat_of_nonneg spelt.year.1
  simp only [chars, readLocal?, readDate?, yearRead spelt.year, expectRead, pairRead spelt.month,
    pairRead spelt.day, clockRead spelt.hour spelt.minute spelt.second, fractionRead spelt,
    Zone.zoneRead spelt.zone, back, Option.bind_eq_bind, Option.bind_some]
  rfl

theorem readBack {w : Written} (valid : w.Valid) : readLocal? w.chars = some w.toLocal := by
  rw [readSpelt valid.spelt, valid.cutLocal]

theorem normalizeText {w : Written} (valid : w.Valid) :
    normalize w.text = .ok (String.ofList w.toLocal.toUtc.render) := by
  have real : w.toLocal.Valid := ⟨valid.date, valid.hour, valid.minute, valid.second⟩
  rw [normalize, text, String.toList_ofList, readBack valid]
  simp only [if_pos real]

theorem floorInstant (w : Written) : ⌊w.instant * 1000⌋ = w.toLocal.millis := by
  -- the floor takes off what the fraction has behind the third digit, and nothing of the rest
  have split : w.instant * 1000 = ((w.date.ordinal * 1440 + w.clock.minutes - w.zone.offset) * 60000
      + w.clock.second * 1000 : Int) + ((Nat.ofDigitChars 10 w.fraction 0 * 1000 : Nat) : ℚ)
        / ((10 ^ w.fraction.length : Nat) : ℚ) := by
    unfold instant Clock.minutes
    push_cast
    ring
  rw [split, Int.floor_intCast_add, Rat.floor_natCast_div_natCast]
  rfl

theorem localUtc {w : Written} (valid : w.Valid) :
    w.toLocal.toUtc.Reduced ∧ w.toLocal.toUtc.millis = w.toLocal.millis := by
  refine Local.utcReduced ⟨valid.date, valid.hour, valid.minute, valid.second⟩ ?_
    (Zone.offsetBound valid.zone)
  have whole := digitValueBound valid.fraction
  rw [toLocal, Nat.div_lt_iff_lt_mul (Nat.pow_pos (by decide)), Nat.mul_comm]
  exact Nat.mul_lt_mul_of_pos_left whole (by decide)

theorem localYear {w : Written} (valid : w.Valid) :
    (0 ≤ w.toLocal.toUtc.date.year ∧ w.toLocal.toUtc.date.year ≤ 9999) ↔ w.InRange := by
  obtain ⟨⟨⟨date, hour, minute, second⟩, milli, offset⟩, same⟩ := localUtc valid
  have bounds : w.InRange ↔
      0 ≤ w.toLocal.millis ∧ w.toLocal.millis < (Date.mk 10000 1 1).ordinal * 86400000 := by
    rw [← floorInstant, Int.le_floor, Int.floor_lt, InRange]
    push_cast
    constructor
    · rintro ⟨late, early⟩
      constructor <;> linarith
    · rintro ⟨late, early⟩
      constructor <;> linarith
  rw [bounds, ← same, Local.millis, offset, Clock.minutes]
  have first : (Date.mk 10000 1 1).ordinal = Date.daysBeforeYear 10000 := by decide
  have zero : Date.daysBeforeYear 0 = 0 := by decide
  have started : 0 ≤ w.toLocal.toUtc.date.year ↔ _ := Date.ordinalYear date
  have ended : 10000 ≤ w.toLocal.toUtc.date.year ↔ _ := Date.ordinalYear date
  rw [first]
  omega

end Written

def Local.written (l : Local) : Written := ⟨l.date, l.clock, padded 3 l.milli, .utc⟩

namespace Written

variable {l : Local}

theorem writtenCanonical (reduced : l.Reduced) (year : 0 ≤ l.date.year ∧ l.date.year ≤ 9999) :
    l.written.Canonical ∧ String.ofList l.render = l.written.text := by
  obtain ⟨⟨date, hour, minute, second⟩, milli, -⟩ := reduced
  have length : (padded 3 l.milli).length = 3 := paddedLength (by decide) milli
  refine ⟨⟨⟨date, year, hour, minute, second, fun c => paddedDigits, trivial⟩, length, rfl⟩, ?_⟩
  have point : padded 3 l.milli ≠ [] := by
    intro none
    rw [none] at length
    contradiction
  simp [Local.render, Local.written, text, chars, fractionChars, point, renderYear, year, Zone.chars]

theorem writtenInstant (reduced : l.Reduced) : l.written.instant = l.millis / 1000 := by
  have length : (padded 3 l.milli).length = 3 := paddedLength (by decide) reduced.milli
  simp only [instant, Local.written, Local.millis, Clock.minutes, reduced.offset, Zone.offset, length,
    paddedValue]
  push_cast
  ring

theorem writtenLocal (reduced : l.Reduced) : l.written.toLocal = l := by
  have length : (padded 3 l.milli).length = 3 := paddedLength (by decide) reduced.milli
  have milli : l.milli * 1000 / 10 ^ 3 = l.milli := by omega
  simp only [toLocal, Local.written, length, paddedValue, milli, Zone.offset, ← reduced.offset]

theorem normalizesTo {w : Written} (valid : w.Valid) (inRange : w.InRange) : ∃ l : Local, l.Reduced ∧
    l.millis = ⌊w.instant * 1000⌋ ∧ l.written.Canonical ∧ normalize w.text = .ok l.written.text := by
  obtain ⟨reduced, same⟩ := localUtc valid
  obtain ⟨canonical, rendered⟩ := writtenCanonical reduced ((localYear valid).mpr inRange)
  exact ⟨_, reduced, same.trans (floorInstant w).symm, canonical, rendered ▸ normalizeText valid⟩

theorem normalizesInstant {w : Written} (valid : w.Valid) (inRange : w.InRange) :
    (∃ u : Written, u.Canonical ∧ u.instant = ⌊w.instant * 1000⌋ / 1000 ∧
      normalize w.text = .ok u.text) ∧
    ∀ v : Written, v.Valid → v.InRange →
      (normalize w.text = normalize v.text ↔ ⌊w.instant * 1000⌋ = ⌊v.instant * 1000⌋) := by
  obtain ⟨l, reduced, millis, canonical, normal⟩ := normalizesTo valid inRange
  refine ⟨⟨l.written, canonical, by rw [writtenInstant reduced, millis], normal⟩, ?_⟩
  intro v valid' inRange'
  obtain ⟨k, reduced', millis', canonical', normal'⟩ := normalizesTo valid' inRange'
  rw [normal, normal', ← millis, ← millis']
  constructor
  · intro same
    have chars : l.written.chars = k.written.chars := String.ofList_inj.mp (Except.ok.inj same)
    have read := readBack canonical.valid
    rw [chars, readBack canonical'.valid, writtenLocal reduced, writtenLocal reduced'] at read
    rw [Option.some.inj read]
  · intro same
    rw [Local.millisInjective reduced reduced' same]

def leapEve : Written := ⟨⟨2000, 2, 29⟩, ⟨23, 59, 59⟩, "9996".toList, .behind 0 30⟩

def marchMorning : Written := ⟨⟨2000, 3, 1⟩, ⟨5, 59, 59⟩, "999".toList, .ahead 5 30⟩

theorem leapEveNormalizes : leapEve.text = "2000-02-29T23:59:59.9996-00:30" ∧
    (∃ u : Written, u.Canonical ∧ u.instant = ⌊leapEve.instant * 1000⌋ / 1000 ∧
      normalize leapEve.text = .ok u.text) ∧ normalize leapEve.text = normalize marchMorning.text := by
  have eve : leapEve.Valid :=
    ⟨by decide, by decide, by decide, by decide, by decide, List.all_eq_true.mp (by decide),
      ⟨by decide, by decide⟩⟩
  have morning : marchMorning.Valid :=
    ⟨by decide, by decide, by decide, by decide, by decide, List.all_eq_true.mp (by decide),
      ⟨by decide, by decide⟩⟩
  have inRange : leapEve.InRange := by
    constructor
    · decide +kernel
    · decide +kernel
  have inRange' : marchMorning.InRange := by
    constructor
    · decide +kernel
    · decide +kernel
  have same : ⌊leapEve.instant * 1000⌋ = ⌊marchMorning.instant * 1000⌋ := by
    rw [floorInstant, floorInstant]
    decide
  exact ⟨by decide +kernel, (normalizesInstant eve inRange).1,
    ((normalizesInstant eve inRange).2 marchMorning morning inRange').mpr same⟩

end Written
end ShapeContracts.Timestamp
