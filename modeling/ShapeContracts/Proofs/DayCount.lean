import ShapeContracts.Calendar

/-! Dates as days counted from the first of January of year zero. The count is the calendar: neighbouring
dates have neighbouring counts, the dates of a year come between its first day and the next year's,
and no two dates share a count. -/
namespace ShapeContracts.Date

variable {year : Int} {d e : Date}

def daysInYear (year : Int) : Nat := if isLeapYear year then 366 else 365

theorem daysBeforeNextYear (year : Int) : daysBeforeYear (year + 1) = daysBeforeYear year + daysInYear year := by
  unfold daysBeforeYear daysInYear isLeapYear
  split
  · rename_i leap
    simp only [Bool.and_eq_true, Bool.or_eq_true, beq_iff_eq, bne_iff_ne] at leap
    omega
  · rename_i common
    simp only [Bool.and_eq_true, Bool.or_eq_true, beq_iff_eq, bne_iff_ne] at common
    omega

theorem daysBeforeLaterYear {later : Int} (order : year ≤ later) : daysBeforeYear year ≤ daysBeforeYear later := by
  unfold daysBeforeYear
  omega

theorem monthsMakeYear (year : Int) : daysBeforeMonth year 13 = daysInYear year := by
  unfold daysInYear
  simp only [daysBeforeMonth, daysInMonth]
  split <;> rfl

theorem daysBeforeLaterMonth {month later : Nat} (order : month ≤ later) :
    daysBeforeMonth year month ≤ daysBeforeMonth year later := by
  induction order with
  | refl => exact Nat.le_refl _
  | step _ ih => exact Nat.le_trans ih (Nat.le_add_right _ _)

theorem Valid.day (valid : d.Valid) : d.day ≤ 31 := by
  obtain ⟨year, month, day⟩ := d
  obtain ⟨-, last⟩ := valid
  simp only at last ⊢
  unfold daysInMonth at last
  split at last <;> first | omega | (split at last <;> omega)

theorem Valid.inMonth (valid : d.Valid) :
    daysBeforeMonth d.year d.month + d.day ≤ daysBeforeMonth d.year (d.month + 1) :=
  Nat.add_le_add_left valid.2 _

theorem Valid.inYear (valid : d.Valid) :
    daysBeforeYear d.year ≤ d.ordinal ∧ d.ordinal < daysBeforeYear (d.year + 1) := by
  have last := valid.inMonth
  have within : daysBeforeMonth d.year (d.month + 1) ≤ daysBeforeMonth d.year 13 :=
    daysBeforeLaterMonth (Nat.succ_le_succ valid.month.2)
  have first := valid.1
  rw [monthsMakeYear] at within
  rw [daysBeforeNextYear, ordinal]
  omega

theorem ordinalYear (valid : d.Valid) : year ≤ d.year ↔ daysBeforeYear year ≤ d.ordinal := by
  obtain ⟨first, last⟩ := valid.inYear
  constructor
  · intro order
    exact Int.le_trans (daysBeforeLaterYear order) first
  · intro order
    rcases Int.lt_or_le d.year year with early | late
    · have := daysBeforeLaterYear (Int.add_one_le_of_lt early)
      omega
    · exact late

theorem ordinalInjective (valid : d.Valid) (valid' : e.Valid) (same : d.ordinal = e.ordinal) : d = e := by
  obtain ⟨year, month, day⟩ := d
  obtain ⟨year', month', day'⟩ := e
  obtain rfl : year = year' := by
    refine Int.le_antisymm ((ordinalYear valid').mpr ?_) ((ordinalYear valid).mpr ?_)
    · exact same ▸ valid.inYear.1
    · exact same ▸ valid'.inYear.1
  have days : daysBeforeMonth year month + day = daysBeforeMonth year month' + day' := by
    simp only [ordinal] at same
    omega
  -- a later month starts after every day of an earlier one
  have apart : ∀ {m m' day day' : Nat}, Valid ⟨year, m, day⟩ → 1 ≤ day' → m < m' →
      daysBeforeMonth year m + day < daysBeforeMonth year m' + day' := by
    intro m m' day day' valid first order
    have last : daysBeforeMonth year m + day ≤ daysBeforeMonth year (m + 1) := valid.inMonth
    have later : daysBeforeMonth year (m + 1) ≤ daysBeforeMonth year m' := daysBeforeLaterMonth order
    omega
  rcases Nat.lt_trichotomy month month' with early | rfl | late
  · have : daysBeforeMonth year month + day < daysBeforeMonth year month' + day' :=
      apart valid valid'.1 early
    omega
  · obtain rfl : day = day' := by omega
    rfl
  · have : daysBeforeMonth year month' + day' < daysBeforeMonth year month + day :=
      apart valid' valid.1 late
    omega

theorem nextDayOrdinal (valid : d.Valid) : d.nextDay.Valid ∧ d.nextDay.ordinal = d.ordinal + 1 := by
  obtain ⟨year, month, day⟩ := d
  have bounds := valid.month
  obtain ⟨first, last⟩ := valid
  simp only at bounds first last
  unfold nextDay
  simp only
  split
  · rename_i inside
    simp only [Valid, ordinal]
    omega
  split
  · have long : 28 ≤ daysInMonth year (month + 1) := daysInMonthBound (by omega)
    have start : daysBeforeMonth year (month + 1) = daysBeforeMonth year month + daysInMonth year month := rfl
    simp only [Valid, ordinal, start]
    omega
  · obtain rfl : month = 12 := by omega
    have start : daysBeforeMonth (year + 1) 1 = 0 := rfl
    have whole : daysBeforeMonth year 12 + daysInMonth year 12 = daysInYear year := monthsMakeYear year
    have next := daysBeforeNextYear year
    have long : 28 ≤ daysInMonth (year + 1) 1 := daysInMonthBound (by omega)
    simp only [Valid, ordinal, start, next]
    omega

theorem previousDayOrdinal (valid : d.Valid) :
    d.previousDay.Valid ∧ d.previousDay.ordinal = d.ordinal - 1 := by
  obtain ⟨year, month, day⟩ := d
  have bounds := valid.month
  obtain ⟨first, last⟩ := valid
  simp only at bounds first last
  unfold previousDay
  simp only
  split
  · simp only [Valid, ordinal]
    omega
  split
  · obtain ⟨before, rfl⟩ : ∃ before, month = before + 1 := ⟨month - 1, by omega⟩
    have long : 28 ≤ daysInMonth year before := daysInMonthBound (by omega)
    have start : daysBeforeMonth year (before + 1) = daysBeforeMonth year before + daysInMonth year before := rfl
    simp only [Valid, ordinal, start, Nat.add_sub_cancel]
    omega
  · obtain rfl : month = 1 := by omega
    have start : daysBeforeMonth year 1 = 0 := rfl
    have whole : daysBeforeMonth (year - 1) 12 + 31 = daysInYear (year - 1) := monthsMakeYear (year - 1)
    have next := daysBeforeNextYear (year - 1)
    have same : year - 1 + 1 = year := by omega
    rw [same] at next
    simp only [Valid, ordinal, start, next, daysInMonth]
    omega

end ShapeContracts.Date
