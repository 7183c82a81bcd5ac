import Mathlib.Order.Defs.LinearOrder

/-!
# Dates and times

The calendar of `datetime`: a `Date` is one of the proleptic Gregorian calendar, `Date.ordinal` its
number of days (`toordinal`), and a `DateTime` in UTC its date and the microseconds since midnight.
-/

set_option autoImplicit false

namespace Python

def isLeap (year : Nat) : Bool := year % 4 = 0 && (year % 100 ≠ 0 || year % 400 = 0)

def daysInMonth (year month : Nat) : Nat :=
  match month with
  | 2 => if isLeap year then 29 else 28
  | 4 | 6 | 9 | 11 => 30
  | _ => 31

theorem one_le_daysInMonth {year month : Nat} : 1 ≤ daysInMonth year month := by
  unfold daysInMonth
  split
  · split <;> omega
  · omega
  · omega
  · omega
  · omega
  · omega

/-- A date of the calendar. -/
structure IsDate (year month day : Nat) : Prop where
  year_pos : 1 ≤ year
  month_pos : 1 ≤ month
  month_le : month ≤ 12
  day_pos : 1 ≤ day
  day_le : day ≤ daysInMonth year month

structure Date where
  year : Nat
  month : Nat
  day : Nat
  year_pos : 1 ≤ year
  month_pos : 1 ≤ month
  month_le : month ≤ 12
  day_pos : 1 ≤ day
  day_le : day ≤ daysInMonth year month
deriving DecidableEq

/-- Days in the years before `year`. -/
def daysBeforeYear (year : Nat) : Nat :=
  (year - 1) * 365 + (year - 1) / 4 - (year - 1) / 100 + (year - 1) / 400

/-- Days of `year` before its month `month`. -/
def daysBeforeMonth (year : Nat) : Nat → Nat
  | 0 => 0
  | 1 => 0
  | month + 2 => daysBeforeMonth year (month + 1) + daysInMonth year (month + 1)

namespace Date

/-- `date(year, month, day)`. -/
def of {year month day : Nat} (h : IsDate year month day) : Date :=
  ⟨year, month, day, h.year_pos, h.month_pos, h.month_le, h.day_pos, h.day_le⟩

/-- `toordinal`: the first of January of year 1 is day 1. -/
def ordinal (d : Date) : Nat := daysBeforeYear d.year + daysBeforeMonth d.year d.month + d.day

/-- The first day of the month after that of `d`. -/
def nextMonth (d : Date) : Date where
  year := d.year + if d.month = 12 then 1 else 0
  month := if d.month = 12 then 1 else d.month + 1
  day := 1
  year_pos := by
    have := d.year_pos
    omega
  month_pos := by
    split <;> omega
  month_le := by
    have := d.month_le
    split <;> omega
  day_pos := Nat.le_refl 1
  day_le := one_le_daysInMonth

/-- The day after `d`. -/
def tomorrow (d : Date) : Date :=
  if h : d.day < daysInMonth d.year d.month then { d with
    day := d.day + 1
    day_pos := by omega
    day_le := h }
  else d.nextMonth

end Date

theorem daysBeforeYear_succ {year : Nat} (hy : 1 ≤ year) :
    daysBeforeYear (year + 1) = daysBeforeYear year + if isLeap year then 366 else 365 := by
  obtain ⟨y, rfl⟩ : ∃ y, year = y + 1 := ⟨year - 1, by omega⟩
  unfold daysBeforeYear isLeap
  simp only [Nat.add_sub_cancel, Nat.succ_div, Nat.dvd_iff_mod_eq_zero]
  by_cases h4 : (y + 1) % 4 = 0
  · by_cases h100 : (y + 1) % 100 = 0
    · by_cases h400 : (y + 1) % 400 = 0
      · simp [h4, h100, h400]
        omega
      · simp [h4, h100, h400]
        omega
    · have h400 : (y + 1) % 400 ≠ 0 := by omega
      simp [h4, h100, h400]
      omega
  · have h100 : (y + 1) % 100 ≠ 0 := by omega
    have h400 : (y + 1) % 400 ≠ 0 := by omega
    simp [h4, h100, h400]
    omega

theorem daysBeforeMonth_succ {year month : Nat} (hm : 1 ≤ month) :
    daysBeforeMonth year (month + 1) = daysBeforeMonth year month + daysInMonth year month := by
  obtain ⟨m, rfl⟩ : ∃ m, month = m + 1 := ⟨month - 1, by omega⟩
  rfl

theorem daysBeforeMonth_december {year : Nat} :
    daysBeforeMonth year 12 + 31 = if isLeap year then 366 else 365 := by
  simp only [daysBeforeMonth, daysInMonth]
  split <;> rfl

namespace Date

variable {d : Date}

/-- The days of a month lead to the first day of the next one. -/
theorem ordinal_nextMonth :
    d.nextMonth.ordinal + d.day = d.ordinal + daysInMonth d.year d.month + 1 := by
  unfold ordinal nextMonth
  by_cases hm : d.month = 12
  · have hyear := daysBeforeYear_succ d.year_pos
    have hdec : daysBeforeMonth d.year 12 + 31 = if isLeap d.year then 366 else 365 :=
      daysBeforeMonth_december
    have hjan : daysBeforeMonth (d.year + 1) 1 = 0 := rfl
    have hlast : daysInMonth d.year 12 = 31 := rfl
    simp only [hm, if_pos, hjan, hlast]
    omega
  · have hmonth : daysBeforeMonth d.year (d.month + 1) =
        daysBeforeMonth d.year d.month + daysInMonth d.year d.month :=
      daysBeforeMonth_succ d.month_pos
    simp only [if_neg hm, Nat.add_zero]
    omega

theorem ordinal_lt_nextMonth : d.ordinal < d.nextMonth.ordinal := by
  have := ordinal_nextMonth (d := d)
  have := d.day_le
  omega

theorem ordinal_tomorrow : d.tomorrow.ordinal = d.ordinal + 1 := by
  unfold tomorrow
  split
  · rfl
  · have := ordinal_nextMonth (d := d)
    have := d.day_le
    omega

end Date

/-- Microseconds of a day. -/
def dayMicros : Nat := 86400 * 1000000

/-- A `datetime` in UTC. -/
structure DateTime where
  date : Date
  micros : Nat
  micros_lt : micros < dayMicros
deriving DecidableEq

namespace DateTime

def midnight (d : Date) : DateTime := ⟨d, 0, by decide⟩

/-- Microseconds on the line of time. -/
def instant (t : DateTime) : Nat := t.date.ordinal * dayMicros + t.micros

@[simp] theorem instant_midnight {d : Date} : (midnight d).instant = d.ordinal * dayMicros :=
  Nat.add_zero _

/-- A day ends before the midnight of any later date. -/
theorem instant_lt_midnight {t : DateTime} {d : Date} (h : t.date.ordinal < d.ordinal) :
    t.instant < (midnight d).instant := by
  have hday : (t.date.ordinal + 1) * dayMicros ≤ d.ordinal * dayMicros :=
    Nat.mul_le_mul_right _ h
  have hmicros := t.micros_lt
  rw [Nat.succ_mul] at hday
  rw [instant_midnight]
  unfold instant
  omega

end DateTime

end Python
