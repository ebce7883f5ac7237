import ShapeContracts.Proofs.DateTimeTexts

/-! Http-dates. Weekdays are what counting from day to day makes them; a text is read back into the fields that
it is written from; and the two formats of timestamps accept the same times but for the leap seconds. -/
namespace ShapeContracts

namespace Date

inductive FallsOn : Date → Nat → Prop where
  | start : FallsOn ⟨1970, 1, 1⟩ 3
  | next {d weekday} (day : FallsOn d weekday) : FallsOn d.nextDay ((weekday + 1) % 7)
  | previous {d weekday} (day : FallsOn d weekday) : FallsOn d.previousDay ((weekday + 6) % 7)

theorem countedWeekday {d : Date} {weekday : Nat} (falls : d.FallsOn weekday) :
    d.Valid ∧ d.weekday = weekday := by
  induction falls with
  | start => decide
  | next day ih =>
    obtain ⟨valid, rfl⟩ := ih
    obtain ⟨real, count⟩ := nextDayOrdinal valid
    refine ⟨real, ?_⟩
    rw [Date.weekday, Date.weekday, count]
    omega
  | previous day ih =>
    obtain ⟨valid, rfl⟩ := ih
    obtain ⟨real, count⟩ := previousDayOrdinal valid
    refine ⟨real, ?_⟩
    rw [Date.weekday, Date.weekday, count]
    omega

theorem nextPrevious {d : Date} (valid : d.Valid) : d.previousDay.nextDay = d := by
  obtain ⟨real, count⟩ := previousDayOrdinal valid
  obtain ⟨real', count'⟩ := nextDayOrdinal real
  exact ordinalInjective real' valid (by omega)

theorem previousNext {d : Date} (valid : d.Valid) : d.nextDay.previousDay = d := by
  obtain ⟨real, count⟩ := nextDayOrdinal valid
  obtain ⟨real', count'⟩ := previousDayOrdinal real
  exact ordinalInjective real' valid (by omega)

theorem weekdayCounted {d : Date} (valid : d.Valid) : d.FallsOn d.weekday := by
  -- by the number of days between a date and the start of the count
  have away : ∀ (n : Nat) (d : Date), d.Valid → (d.ordinal - (Date.mk 1970 1 1).ordinal).natAbs = n →
      ∃ weekday, d.FallsOn weekday := by
    intro n
    induction n with
    | zero =>
      intro d valid none
      obtain rfl : d = ⟨1970, 1, 1⟩ := ordinalInjective valid (by decide) (by omega)
      exact ⟨3, .start⟩
    | succ n ih =>
      intro d valid some
      rcases Int.lt_or_le (Date.mk 1970 1 1).ordinal d.ordinal with later | earlier
      · obtain ⟨real, count⟩ := previousDayOrdinal valid
        obtain ⟨weekday, falls⟩ := ih d.previousDay real (by omega)
        exact ⟨_, nextPrevious valid ▸ falls.next⟩
      · obtain ⟨real, count⟩ := nextDayOrdinal valid
        obtain ⟨weekday, falls⟩ := ih d.nextDay real (by omega)
        exact ⟨_, previousNext valid ▸ falls.previous⟩
  obtain ⟨weekday, falls⟩ := away _ d valid rfl
  rwa [(countedWeekday falls).2]

theorem fallsOn {d : Date} (valid : d.Valid) (weekday : Nat) : d.FallsOn weekday ↔ d.weekday = weekday := by
  constructor
  · intro falls
    exact (countedWeekday falls).2
  · rintro rfl
    exact weekdayCounted valid

end Date

namespace Timestamp

/-! Names out of a list. -/

theorem nameGiven {names : List String} {cs rest : List Char} {i : Nat}
    (read : readName? names cs = some (i, rest)) : i < names.length ∧ cs = (names.getD i "").toList ++ rest := by
  obtain ⟨⟨name, j⟩, found, same⟩ := Option.map_eq_some_iff.mp read
  obtain ⟨rfl, rfl⟩ := Prod.mk.inj same
  obtain ⟨-, inside, entry⟩ := List.mem_zipIdx (List.mem_of_find?_eq_some found)
  have starts := List.find?_some found
  obtain ⟨rest, rfl⟩ := List.isPrefixOf_iff_prefix.mp starts
  simp only [Nat.zero_add] at inside
  refine ⟨inside, ?_⟩
  rw [List.getD_eq_getElem?_getD, List.getElem?_eq_getElem inside, Option.getD_some]
  simp only [Nat.sub_zero] at entry
  rw [← entry, ← String.length_toList, List.drop_left]

theorem nameRead {names : List String} (distinct : names.Nodup) (three : ∀ name ∈ names, name.toList.length = 3)
    {i : Nat} (inside : i < names.length) (rest : List Char) :
    readName? names ((names.getD i "").toList ++ rest) = some (i, rest) := by
  rw [List.getD_eq_getElem?_getD, List.getElem?_eq_getElem inside, Option.getD_some]
  refine Option.map_eq_some_iff.mpr ⟨(names[i], i), List.find?_eq_some_iff_getElem.mpr ⟨?_, i, ?_, ?_, ?_⟩, ?_⟩
  · exact List.isPrefixOf_iff_prefix.mpr (List.prefix_append _ _)
  · rwa [List.length_zipIdx]
  · simp
  · intro j before
    simp only [List.getElem_zipIdx, Bool.not_eq_true', Bool.eq_false_iff, ne_eq, List.isPrefixOf_iff_prefix]
    intro shared
    have length : names[j].toList.length = names[i].toList.length := by
      rw [three _ (List.getElem_mem _), three _ (List.getElem_mem _)]
    have whole := List.prefix_of_prefix_length_le shared (List.prefix_append _ _) (Nat.le_of_eq length)
    exact List.pairwise_iff_getElem.mp distinct j i _ inside before
      (String.toList_inj.mp (whole.eq_of_length length))
  · simp only [← String.length_toList, List.drop_left]

theorem weekdayRead {i : Nat} (inside : i < 7) (rest : List Char) :
    readName? weekdayNames ((weekdayNames.getD i "").toList ++ rest) = some (i, rest) :=
  nameRead (by decide) (by decide) inside rest

theorem monthRead {i : Nat} (inside : i < 12) (rest : List Char) :
    readName? monthNames ((monthNames.getD i "").toList ++ rest) = some (i, rest) :=
  nameRead (by decide) (by decide) inside rest

namespace Dated

structure Spelt (d : Dated) : Prop where
  weekday : d.weekday < 7
  year : 0 ≤ d.date.year ∧ d.date.year ≤ 9999
  month : 1 ≤ d.date.month ∧ d.date.month ≤ 12
  day : d.date.day < 100
  hour : d.clock.hour < 100
  minute : d.clock.minute < 100
  second : d.clock.second < 100

def chars (d : Dated) : List Char :=
  (weekdayNames.getD d.weekday "").toList ++ ',' :: ' ' :: (padded 2 d.date.day
    ++ ' ' :: ((monthNames.getD (d.date.month - 1) "").toList ++ ' ' :: (padded 4 d.date.year.toNat
    ++ ' ' :: (padded 2 d.clock.hour ++ ':' :: (padded 2 d.clock.minute
    ++ ':' :: (padded 2 d.clock.second ++ " GMT".toList))))))

def text (d : Dated) : String := String.ofList d.chars

def written (d : Dated) : Written := ⟨d.date, d.clock, [], .utc⟩

def beforeLeap (d : Dated) : Dated := { d with clock := { d.clock with second := 59 } }

theorem readSpelt {d : Dated} (spelt : d.Spelt) : readDated? d.chars = some d := by
  have inside : d.date.month - 1 < 12 := by
    have := spelt.month
    omega
  have back : (d.date.year.toNat : Int) = d.date.year := Int.toNat_of_nonneg spelt.year.1
  have back' : d.date.month - 1 + 1 = d.date.month := Nat.sub_add_cancel spelt.month.1
  simp only [chars, readDated?, weekdayRead spelt.weekday, expectRead, pairRead spelt.day, monthRead inside,
    yearRead spelt.year, clockRead spelt.hour spelt.minute spelt.second, back, back', if_true,
    Option.bind_eq_bind, Option.bind_some]

theorem speltGiven {cs : List Char} {d : Dated} (read : readDated? cs = some d) : d.Spelt ∧ cs = d.chars := by
  simp only [readDated?, bind, Option.bind_eq_some_iff, Prod.exists] at read
  obtain ⟨weekday, _, weekdays, _, comma, _, blank, day, _, days, _, blank₁, month, _, months, _, blank₂, year, _,
    years, _, blank₃, clock, _, times, same⟩ := read
  obtain ⟨inside, rfl⟩ := nameGiven weekdays
  obtain rfl := expectGiven comma
  obtain rfl := expectGiven blank
  obtain ⟨fits, rfl⟩ := paddedGiven (by decide) days
  obtain rfl := expectGiven blank₁
  obtain ⟨inside', rfl⟩ := nameGiven months
  obtain rfl := expectGiven blank₂
  obtain ⟨fits', rfl⟩ := paddedGiven (by decide) years
  obtain rfl := expectGiven blank₃
  obtain ⟨hour, minute, second, rfl⟩ := clockGiven times
  simp only [Option.ite_none_right_eq_some, Option.some.injEq] at same
  obtain ⟨rfl, rfl⟩ := same
  refine ⟨⟨inside, ⟨Int.natCast_nonneg year, Int.lt_add_one_iff.mp (Int.ofNat_lt.mpr fits')⟩,
    ⟨Nat.succ_pos month, inside'⟩, fits, hour, minute, second⟩, ?_⟩
  simp only [chars, Int.toNat_natCast, Nat.add_sub_cancel]

theorem speltAccepted {d : Dated} (spelt : d.Spelt) : checkHttpDate d.text = .ok () ↔ d.Valid := by
  rw [checkHttpDate, text, String.toList_ofList, readSpelt spelt]
  simp only
  split
  · rename_i real
    exact iff_of_true rfl real
  · rename_i unreal
    exact iff_of_false (by simp) unreal

theorem writtenAccepted {d : Dated} (spelt : d.Spelt) :
    (∃ normal, normalize d.written.text = .ok normal) ↔
      d.date.Valid ∧ d.clock.hour < 24 ∧ d.clock.minute < 60 ∧ d.clock.second < 60 := by
  have month : d.written.date.month < 100 := Nat.lt_of_le_of_lt spelt.month.2 (by decide)
  have fits : d.written.Spelt :=
    ⟨spelt.year, month, spelt.day, spelt.hour, spelt.minute, spelt.second, by simp [written], by simp [written],
      trivial⟩
  rw [Written.speltAccepted fits]
  rfl

theorem agreesOnTimes (text : String) :
    (∀ d : Dated, d.Spelt → text = d.text →
      (checkHttpDate text = .ok () ↔ d.date.FallsOn d.weekday ∧
        ((∃ normal, normalize d.written.text = .ok normal) ∨
          d.clock.second = 60 ∧ ∃ normal, normalize d.beforeLeap.written.text = .ok normal)) ∧
      ((checkHttpDate text = .ok () ↔
          (∃ normal, normalize d.written.text = .ok normal) ∧ d.date.FallsOn d.weekday) ↔
        (checkHttpDate text = .ok () → d.clock.second ≠ 60))) ∧
    ((∀ d : Dated, d.Spelt → text ≠ d.text) → checkHttpDate text = .error (.httpDate text)) := by
  constructor
  · rintro d spelt rfl
    have earlier : d.beforeLeap.Spelt := { spelt with second := (by decide : 59 < 100) }
    rw [writtenAccepted spelt, writtenAccepted earlier, speltAccepted spelt]
    by_cases real : d.date.Valid
    · rw [Date.fallsOn real]
      simp only [beforeLeap, Dated.Valid]
      omega
    · simp [Dated.Valid, beforeLeap, real]
  · intro other
    unfold checkHttpDate
    split
    · rename_i d read
      obtain ⟨spelt, same⟩ := speltGiven read
      exact absurd (by rw [Dated.text, ← same, String.ofList_toList]) (other d spelt)
    · rfl

def aprilEvening : Dated := ⟨1, ⟨2014, 4, 29⟩, ⟨18, 30, 38⟩⟩

theorem aprilEveningAgrees : aprilEvening.Spelt ∧ "Tue, 29 Apr 2014 18:30:38 GMT" = aprilEvening.text ∧
    (checkHttpDate "Tue, 29 Apr 2014 18:30:38 GMT" = .ok () ↔
      aprilEvening.date.FallsOn aprilEvening.weekday ∧
        ((∃ normal, normalize aprilEvening.written.text = .ok normal) ∨
          aprilEvening.clock.second = 60 ∧
            ∃ normal, normalize aprilEvening.beforeLeap.written.text = .ok normal)) := by
  have spelt : aprilEvening.Spelt :=
    ⟨by decide, by decide, by decide, by decide, by decide, by decide, by decide⟩
  have same : "Tue, 29 Apr 2014 18:30:38 GMT" = aprilEvening.text := by decide +kernel
  exact ⟨spelt, same, ((agreesOnTimes _).1 aprilEvening spelt same).1⟩

theorem leapSecondDiffers : checkHttpDate "Sun, 06 Nov 1994 08:49:60 GMT" = .ok () ∧
    normalize "1994-11-06T08:49:60Z" = .error (.dateTime "1994-11-06T08:49:60Z") := by
  constructor
  · rw [checkHttpDate, String.toList_ofList]
    rfl
  · rw [normalize, String.toList_ofList]
    rfl

end Dated
end Timestamp
end ShapeContracts
