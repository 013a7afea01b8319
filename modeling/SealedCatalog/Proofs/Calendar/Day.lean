import SealedCatalog.Calendar.Date

/-! The number of a day. Counting day after day from the first of January 1970, forwards and
backwards, gives every date of the calendar the number that is computed from its year, its month and
its day. -/

namespace SealedCatalog.Calendar

/-! ## Months and years -/

def daysInYear (year : Int) : Nat := if isLeapYear year then 366 else 365

namespace Date

theorem daysBeforeMonth_succ (year : Int) {month : Nat} (positive : 1 ≤ month) :
    daysBeforeMonth year (month + 1) = daysBeforeMonth year month + daysInMonth year month := by
  obtain ⟨before, rfl⟩ := Nat.exists_eq_add_of_le' positive
  rw [daysBeforeMonth, Nat.add_sub_cancel, List.range_succ, List.foldl_append]
  rfl

theorem daysBeforeMonth_mono (year : Int) {first second : Nat} (positive : 1 ≤ first)
    (before : first ≤ second) : daysBeforeMonth year first ≤ daysBeforeMonth year second := by
  induction before with
  | refl => exact Nat.le_refl _
  | step before induction =>
      rw [daysBeforeMonth_succ year (Nat.le_trans positive before)]
      exact Nat.le_add_right_of_le induction

theorem daysBeforeMonth_thirteen (year : Int) : daysBeforeMonth year 13 = daysInYear year := by
  rw [daysInYear]
  cases leap : isLeapYear year <;>
    simp [daysBeforeMonth, List.range_succ, daysInMonth, leap]

theorem daysBeforeYear_succ (year : Int) :
    daysBeforeYear (year + 1) = daysBeforeYear year + daysInYear year := by
  unfold daysBeforeYear daysInYear isLeapYear
  grind

theorem daysBeforeYear_mono {first second : Int} (before : first ≤ second) :
    daysBeforeYear first ≤ daysBeforeYear second := by
  simp only [daysBeforeYear]
  omega

/-! ## Dates -/

/-- The month is one of the twelve, and it has the day. -/
structure IsOnCalendar (date : Date) : Prop where
  month : 1 ≤ date.month ∧ date.month ≤ 12
  day : 1 ≤ date.day ∧ date.day ≤ daysInMonth date.year date.month

/-- The date of the next day. -/
def next (date : Date) : Date :=
  if date.day < daysInMonth date.year date.month then { date with day := date.day + 1 }
  else if date.month < 12 then ⟨date.year, date.month + 1, 1⟩
  else ⟨date.year + 1, 1, 1⟩

def epoch : Date := ⟨1970, 1, 1⟩

/-- The days of all time are counted forwards and backwards from the epoch. -/
inductive HasNumber : Date → Int → Prop where
  | epoch : HasNumber epoch 0
  | next {date : Date} {number : Int} (counted : HasNumber date number) :
      HasNumber date.next (number + 1)
  | previous {date : Date} {number : Int} (onCalendar : date.IsOnCalendar)
      (counted : HasNumber date.next number) : HasNumber date (number - 1)

theorem isOnCalendar_epoch : epoch.IsOnCalendar := ⟨by decide, by decide⟩

theorem dayNumber_epoch : epoch.dayNumber = 0 := rfl

theorem one_le_daysInMonth (year : Int) (month : Nat) : 1 ≤ daysInMonth year month := by
  unfold daysInMonth
  grind

variable {date other : Date}

theorem isOnCalendar_next (onCalendar : date.IsOnCalendar) : date.next.IsOnCalendar := by
  have ⟨⟨firstMonth, lastMonth⟩, _⟩ := onCalendar
  unfold next
  split
  next within => exact ⟨onCalendar.month, Nat.le_add_left 1 _, within⟩
  next =>
    split
    next within => exact ⟨⟨Nat.le_add_left 1 _, within⟩, Nat.le_refl 1, one_le_daysInMonth _ _⟩
    next => exact ⟨⟨Nat.le_refl 1, Nat.le_add_left 1 _⟩, Nat.le_refl 1, one_le_daysInMonth _ _⟩

theorem dayNumber_next (onCalendar : date.IsOnCalendar) :
    date.next.dayNumber = date.dayNumber + 1 := by
  have ⟨⟨firstMonth, lastMonth⟩, _, lastDay⟩ := onCalendar
  unfold next
  split
  next within =>
    simp only [dayNumber]
    omega
  next ended =>
    have wholeMonth := daysBeforeMonth_succ date.year firstMonth
    split
    next within =>
      simp only [dayNumber]
      omega
    next yearEnded =>
      have december : date.month = 12 := by omega
      have wholeYear : daysBeforeMonth date.year 12 + daysInMonth date.year 12 =
          daysInYear date.year :=
        (daysBeforeMonth_succ date.year (by decide)).symm.trans (daysBeforeMonth_thirteen date.year)
      have first : daysBeforeMonth (date.year + 1) 1 = 0 := rfl
      rw [december] at ended lastDay
      simp only [dayNumber, daysBeforeYear_succ, first, december]
      omega

/-- The days of a year before the date and the date itself are no more than the year has. -/
theorem daysBeforeMonth_add_day_le (onCalendar : date.IsOnCalendar) :
    daysBeforeMonth date.year date.month + date.day ≤ daysInYear date.year := by
  have ⟨⟨firstMonth, lastMonth⟩, _, lastDay⟩ := onCalendar
  calc daysBeforeMonth date.year date.month + date.day
    _ ≤ daysBeforeMonth date.year date.month + daysInMonth date.year date.month :=
        Nat.add_le_add_left lastDay _
    _ = daysBeforeMonth date.year (date.month + 1) :=
        (daysBeforeMonth_succ date.year firstMonth).symm
    _ ≤ daysBeforeMonth date.year 13 :=
        daysBeforeMonth_mono date.year (Nat.le_add_left 1 _) (Nat.succ_le_succ lastMonth)
    _ = daysInYear date.year := daysBeforeMonth_thirteen date.year

theorem dayNumber_lt_of_year_lt (onCalendar : date.IsOnCalendar) (alsoOn : other.IsOnCalendar)
    (earlier : date.year < other.year) : date.dayNumber < other.dayNumber := by
  have within := daysBeforeMonth_add_day_le onCalendar
  have whole := daysBeforeYear_succ date.year
  have later := daysBeforeYear_mono (Int.add_one_le_iff.mpr earlier)
  have firstDay := alsoOn.day.1
  simp only [dayNumber]
  omega

theorem dayNumber_lt_of_month_lt (onCalendar : date.IsOnCalendar) (alsoOn : other.IsOnCalendar)
    (sameYear : date.year = other.year) (earlier : date.month < other.month) :
    date.dayNumber < other.dayNumber := by
  have ⟨⟨firstMonth, _⟩, _, lastDay⟩ := onCalendar
  have whole := daysBeforeMonth_succ date.year firstMonth
  have later := daysBeforeMonth_mono date.year (Nat.le_add_left 1 _) earlier
  have firstDay := alsoOn.day.1
  simp only [dayNumber, ← sameYear]
  omega

theorem eq_of_dayNumber_eq (onCalendar : date.IsOnCalendar) (alsoOn : other.IsOnCalendar)
    (same : date.dayNumber = other.dayNumber) : date = other := by
  rcases Int.lt_trichotomy date.year other.year with earlier | sameYear | later
  · exact absurd same (Int.ne_of_lt (dayNumber_lt_of_year_lt onCalendar alsoOn earlier))
  · rcases Nat.lt_trichotomy date.month other.month with earlier | sameMonth | later
    · exact absurd same (Int.ne_of_lt (dayNumber_lt_of_month_lt onCalendar alsoOn sameYear earlier))
    · cases date
      cases other
      cases sameYear
      cases sameMonth
      simp only [dayNumber] at same
      congr
      omega
    · exact absurd same.symm
        (Int.ne_of_lt (dayNumber_lt_of_month_lt alsoOn onCalendar sameYear.symm later))
  · exact absurd same.symm (Int.ne_of_lt (dayNumber_lt_of_year_lt alsoOn onCalendar later))

/-! ## Counting -/

theorem HasNumber.eq_dayNumber {number : Int} (counted : date.HasNumber number) :
    date.IsOnCalendar ∧ number = date.dayNumber := by
  induction counted with
  | epoch => exact ⟨isOnCalendar_epoch, dayNumber_epoch.symm⟩
  | next _ induction =>
      have ⟨onCalendar, same⟩ := induction
      exact ⟨isOnCalendar_next onCalendar, by rw [dayNumber_next onCalendar, same]⟩
  | previous onCalendar _ induction =>
      rw [induction.2, dayNumber_next onCalendar]
      exact ⟨onCalendar, Int.add_sub_cancel _ _⟩

theorem exists_hasNumber (number : Nat) : ∃ date : Date, date.HasNumber number := by
  induction number with
  | zero => exact ⟨epoch, .epoch⟩
  | succ number induction =>
      rcases induction with ⟨date, counted⟩
      exact ⟨date.next, counted.next⟩

theorem hasNumber_of_eq_neg (onCalendar : date.IsOnCalendar) {number : Nat}
    (same : date.dayNumber = -number) : date.HasNumber (-number) := by
  induction number generalizing date with
  | zero =>
      have isEpoch : date = epoch := eq_of_dayNumber_eq onCalendar isOnCalendar_epoch same
      exact isEpoch ▸ .epoch
  | succ number induction =>
      have later : date.next.dayNumber = -number := by
        rw [dayNumber_next onCalendar, same]
        omega
      have counted := (induction (isOnCalendar_next onCalendar) later).previous onCalendar
      rwa [show -(number : Int) - 1 = -((number + 1 : Nat) : Int) by omega] at counted

/-- Counting the days gives a date the number that is computed from it, and no other. -/
theorem hasNumber_iff (onCalendar : date.IsOnCalendar) {number : Int} :
    date.HasNumber number ↔ number = date.dayNumber := by
  refine ⟨fun counted => counted.eq_dayNumber.2, ?_⟩
  rintro rfl
  rcases Int.eq_nat_or_neg date.dayNumber with ⟨days, forwards | backwards⟩
  · rcases exists_hasNumber days with ⟨counted, hasNumber⟩
    have ⟨alsoOn, same⟩ := hasNumber.eq_dayNumber
    rw [eq_of_dayNumber_eq onCalendar alsoOn (forwards.trans same), ← same]
    exact hasNumber
  · rw [backwards]
    exact hasNumber_of_eq_neg onCalendar backwards

end Date

end SealedCatalog.Calendar
