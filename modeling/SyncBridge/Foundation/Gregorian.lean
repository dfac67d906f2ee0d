import Mathlib.Tactic.IntervalCases
import Mathlib.Tactic.Ring
import Mathlib.Order.Basic

/-!
# The Gregorian calendar

Days are counted from the first of January 1970.  The date of a day is computed
by cycles of 400, 100, 4 years and one year that begin in March, so that the leap
day is the last one of its year; `dateOf_succ` says that this is the calendar,
day by day.
-/

namespace SyncBridge.Foundation.Gregorian

structure Date where
  year : ℤ
  month : ℤ
  day : ℤ
  deriving DecidableEq

def IsLeap (year : ℤ) : Prop :=
  year % 4 = 0 ∧ (year % 100 ≠ 0 ∨ year % 400 = 0)

instance (year : ℤ) : Decidable (IsLeap year) :=
  inferInstanceAs (Decidable (_ ∧ _))

def daysInMonth (year month : ℤ) : ℤ :=
  if month = 2 then if IsLeap year then 29 else 28
  else if month = 4 ∨ month = 6 ∨ month = 9 ∨ month = 11 then 30
  else 31

def Date.next (date : Date) : Date :=
  if date.day < daysInMonth date.year date.month then
    { date with day := date.day + 1 }
  else if date.month < 12 then ⟨date.year, date.month + 1, 1⟩
  else ⟨date.year + 1, 1, 1⟩

def cycle : ℤ := 146097

/-- A day of a year that begins in March. -/
structure MarchDay where
  year : ℤ
  dayOfYear : ℤ

def marchDay (day : ℤ) : MarchDay :=
  let sinceMarch := day + 719468
  let inCycle := sinceMarch % cycle
  let century := min (inCycle / 36524) 3
  let inCentury := inCycle - century * 36524
  let inFour := inCentury % 1461
  let year := min (inFour / 365) 3
  { year := sinceMarch / cycle * 400 + century * 100 + inCentury / 1461 * 4 + year
    dayOfYear := inFour - year * 365 }

def monthIndex (dayOfYear : ℤ) : ℤ := (5 * dayOfYear + 2) / 153

def monthStart (index : ℤ) : ℤ := (153 * index + 2) / 5

def calendarMonth (index : ℤ) : ℤ := if index < 10 then index + 3 else index - 9

def calendarYear (year index : ℤ) : ℤ := if index < 10 then year else year + 1

def MarchDay.date (march : MarchDay) : Date :=
  let index := monthIndex march.dayOfYear
  { year := calendarYear march.year index
    month := calendarMonth index
    day := march.dayOfYear - monthStart index + 1 }

def dateOf (day : ℤ) : Date := (marchDay day).date

/-- The day of the week, from Sunday on. -/
def weekday (day : ℤ) : ℤ := (day + 4) % 7

/-! ## Day by day -/

structure Parts (day cycles century four year dayOfYear : ℤ) : Prop where
  counted : day + 719468 = cycles * 146097 + century * 36524 + four * 1461 +
    year * 365 + dayOfYear
  centuries : 0 ≤ century ∧ century ≤ 3
  fours : 0 ≤ four ∧ four ≤ 24
  years : 0 ≤ year ∧ year ≤ 3
  days : 0 ≤ dayOfYear ∧ dayOfYear ≤ 365
  leap : dayOfYear = 365 → year = 3 ∧ (four < 24 ∨ century = 3)

variable {day cycles century four year dayOfYear : ℤ}

theorem exists_parts (day : ℤ) : ∃ cycles century four year dayOfYear,
    Parts day cycles century four year dayOfYear := by
  obtain ⟨cycles, inCycle, hcycle, hin⟩ : ∃ cycles inCycle : ℤ,
      day + 719468 = cycles * 146097 + inCycle ∧ 0 ≤ inCycle ∧
        inCycle < 146097 :=
    ⟨(day + 719468) / 146097, (day + 719468) % 146097, by omega, by omega⟩
  obtain ⟨century, inCentury, hcentury, hin⟩ : ∃ century inCentury : ℤ,
      inCycle = century * 36524 + inCentury ∧ 0 ≤ century ∧ century ≤ 3 ∧
        0 ≤ inCentury ∧ (inCentury < 36524 ∨ inCentury = 36524 ∧ century = 3) :=
    ⟨min (inCycle / 36524) 3, inCycle - min (inCycle / 36524) 3 * 36524,
      by omega, by omega⟩
  obtain ⟨four, inFour, hfour, hin⟩ : ∃ four inFour : ℤ,
      inCentury = four * 1461 + inFour ∧ 0 ≤ inFour ∧ inFour < 1461 :=
    ⟨inCentury / 1461, inCentury % 1461, by omega, by omega⟩
  refine ⟨cycles, century, four, min (inFour / 365) 3,
    inFour - min (inFour / 365) 3 * 365, ?_, ?_, ?_, ?_, ?_, ?_⟩ <;> omega

theorem marchDay_of_parts (h : Parts day cycles century four year dayOfYear) :
    marchDay day = ⟨cycles * 400 + century * 100 + four * 4 + year, dayOfYear⟩ := by
  obtain ⟨hcounted, hcentury, hfour, hyear, hday, hleap⟩ := h
  have hcycles : (day + 719468) / 146097 = cycles := by omega
  have hin : (day + 719468) % 146097 =
      century * 36524 + four * 1461 + year * 365 + dayOfYear := by
    omega
  have hcenturies : min ((century * 36524 + four * 1461 + year * 365 +
      dayOfYear) / 36524) 3 = century := by
    omega
  have hrest : century * 36524 + four * 1461 + year * 365 + dayOfYear -
      century * 36524 = four * 1461 + year * 365 + dayOfYear := by
    omega
  have hfours : (four * 1461 + year * 365 + dayOfYear) / 1461 = four := by omega
  have hinFour : (four * 1461 + year * 365 + dayOfYear) % 1461 =
      year * 365 + dayOfYear := by
    omega
  have hyears : min ((year * 365 + dayOfYear) / 365) 3 = year := by omega
  simp only [marchDay, cycle, hcycles, hin, hcenturies, hrest, hfours, hinFour,
    hyears]
  congr 1
  omega

def marchYearLength (year : ℤ) : ℤ := if IsLeap (year + 1) then 366 else 365

theorem marchYearLength_of_parts
    (h : Parts day cycles century four year dayOfYear) :
    marchYearLength (cycles * 400 + century * 100 + four * 4 + year) =
      if year = 3 ∧ (four < 24 ∨ century = 3) then 366 else 365 := by
  obtain ⟨-, hcentury, hfour, hyear, -, -⟩ := h
  have hleap : IsLeap (cycles * 400 + century * 100 + four * 4 + year + 1) ↔
      year = 3 ∧ (four < 24 ∨ century = 3) := by
    simp only [IsLeap]
    omega
  simp only [marchYearLength, hleap]

theorem marchDay_bounds (day : ℤ) : 0 ≤ (marchDay day).dayOfYear ∧
    (marchDay day).dayOfYear < marchYearLength (marchDay day).year := by
  obtain ⟨cycles, century, four, year, dayOfYear, h⟩ := exists_parts day
  rw [marchDay_of_parts h, marchYearLength_of_parts h]
  obtain ⟨-, -, -, -, hday, hleap⟩ := h
  dsimp only
  split <;> omega

theorem marchDay_succ (day : ℤ) : marchDay (day + 1) =
    if (marchDay day).dayOfYear + 1 < marchYearLength (marchDay day).year then
      ⟨(marchDay day).year, (marchDay day).dayOfYear + 1⟩
    else ⟨(marchDay day).year + 1, 0⟩ := by
  obtain ⟨cycles, century, four, year, dayOfYear, h⟩ := exists_parts day
  rw [marchDay_of_parts h, marchYearLength_of_parts h]
  obtain ⟨hcounted, hcentury, hfour, hyear, hday, hleap⟩ := h
  dsimp only
  by_cases hsame : dayOfYear + 1 <
      if year = 3 ∧ (four < 24 ∨ century = 3) then 366 else 365
  · rw [if_pos hsame]
    refine marchDay_of_parts ⟨by omega, hcentury, hfour, hyear, ?_, ?_⟩
    · split at hsame <;> omega
    · intro hlast
      split at hsame <;> omega
  · rw [if_neg hsame]
    -- The last day of a year: the first number that can grow does.
    have hnext : ∀ {cycles' century' four' year' : ℤ},
        Parts (day + 1) cycles' century' four' year' 0 →
        cycles' * 400 + century' * 100 + four' * 4 + year' =
          cycles * 400 + century * 100 + four * 4 + year + 1 →
        marchDay (day + 1) =
          ⟨cycles * 400 + century * 100 + four * 4 + year + 1, 0⟩ := by
      intro cycles' century' four' year' hparts hyears
      rw [marchDay_of_parts hparts, hyears]
    by_cases hyear' : year < 3
    · rw [if_neg (by omega)] at hsame
      refine @hnext cycles century four (year + 1) ⟨?_, ?_, ?_, ?_, ?_, ?_⟩ ?_ <;>
        omega
    · by_cases hfour' : four < 24
      · rw [if_pos (by omega)] at hsame
        refine @hnext cycles century (four + 1) 0 ⟨?_, ?_, ?_, ?_, ?_, ?_⟩ ?_ <;>
          omega
      · by_cases hcentury' : century < 3
        · rw [if_neg (by omega)] at hsame
          refine @hnext cycles (century + 1) 0 0 ⟨?_, ?_, ?_, ?_, ?_, ?_⟩ ?_ <;>
            omega
        · rw [if_pos (by omega)] at hsame
          refine @hnext (cycles + 1) 0 0 0 ⟨?_, ?_, ?_, ?_, ?_, ?_⟩ ?_ <;> omega

theorem daysInMonth_eq {index : ℤ} (hlow : 0 ≤ index) (hhigh : index ≤ 11) :
    daysInMonth (calendarYear year index) (calendarMonth index) =
      (if index = 11 then marchYearLength year else monthStart (index + 1)) -
        monthStart index := by
  have hlast : daysInMonth (year + 1) 2 = marchYearLength year - 337 := by
    simp only [daysInMonth, marchYearLength, if_true]
    split <;> rfl
  interval_cases index
  all_goals first
    | exact hlast
    | rfl

theorem monthIndex_eq_iff {index : ℤ} : monthIndex dayOfYear = index ↔
    monthStart index ≤ dayOfYear ∧ dayOfYear < monthStart (index + 1) := by
  simp only [monthIndex, monthStart]
  omega

theorem next_of_lt {date : Date}
    (h : date.day < daysInMonth date.year date.month) :
    date.next = { date with day := date.day + 1 } :=
  if_pos h

theorem next_of_monthEnd {index : ℤ} (hlow : 0 ≤ index) (hhigh : index < 11) :
    Date.next ⟨calendarYear year index, calendarMonth index,
      daysInMonth (calendarYear year index) (calendarMonth index)⟩ =
        ⟨calendarYear year (index + 1), calendarMonth (index + 1), 1⟩ := by
  simp only [Date.next, Int.lt_irrefl, if_false, calendarYear, calendarMonth]
  interval_cases index <;> rfl

theorem next_of_yearEnd :
    Date.next ⟨calendarYear year 11, calendarMonth 11,
      daysInMonth (calendarYear year 11) (calendarMonth 11)⟩ =
        ⟨calendarYear (year + 1) 0, calendarMonth 0, 1⟩ := by
  simp only [Date.next, Int.lt_irrefl, if_false]
  rfl

theorem dateOf_succ (day : ℤ) : dateOf (day + 1) = (dateOf day).next := by
  have hbounds := marchDay_bounds day
  simp only [dateOf]
  rw [marchDay_succ]
  generalize marchDay day = march at *
  obtain ⟨year, dayOfYear⟩ := march
  dsimp only at hbounds ⊢
  have hlength : 365 ≤ marchYearLength year ∧ marchYearLength year ≤ 366 := by
    simp only [marchYearLength]
    split <;> omega
  obtain ⟨index, hindex⟩ : ∃ index, monthIndex dayOfYear = index := ⟨_, rfl⟩
  have hmonth := monthIndex_eq_iff.mp hindex
  have hrange : 0 ≤ index ∧ index ≤ 11 := by
    simp only [monthStart] at hmonth
    omega
  have hdays := @daysInMonth_eq year index hrange.1 hrange.2
  have hdate : MarchDay.date ⟨year, dayOfYear⟩ =
      ⟨calendarYear year index, calendarMonth index,
        dayOfYear - monthStart index + 1⟩ := by
    simp only [MarchDay.date, hindex]
  rw [hdate]
  by_cases hend : dayOfYear - monthStart index + 1 <
      daysInMonth (calendarYear year index) (calendarMonth index)
  · have hsame : monthIndex (dayOfYear + 1) = index := by
      rw [monthIndex_eq_iff]
      split at hdays
      · simp only [monthStart] at *
        omega
      · omega
    have hyear : dayOfYear + 1 < marchYearLength year := by
      split at hdays
      · omega
      · simp only [monthStart] at *
        omega
    rw [if_pos hyear, next_of_lt hend]
    simp only [MarchDay.date, hsame]
    congr 1
    ring
  · have hlast : dayOfYear - monthStart index + 1 =
        daysInMonth (calendarYear year index) (calendarMonth index) := by
      split at hdays <;> omega
    rw [hlast]
    by_cases hfebruary : index = 11
    · subst hfebruary
      rw [next_of_yearEnd, if_neg (by simp only [if_true] at hdays; omega)]
      rfl
    · have hnext : monthIndex (dayOfYear + 1) = index + 1 := by
        rw [monthIndex_eq_iff]
        rw [if_neg hfebruary] at hdays
        simp only [monthStart] at *
        omega
      have hyear : dayOfYear + 1 < marchYearLength year := by
        rw [if_neg hfebruary] at hdays
        simp only [monthStart] at *
        omega
      rw [next_of_monthEnd hrange.1 (by omega), if_pos hyear]
      simp only [MarchDay.date, hnext]
      congr 1
      rw [if_neg hfebruary] at hdays
      omega

example : dateOf 0 = ⟨1970, 1, 1⟩ := by decide

theorem marchDay_period (day : ℤ) : marchDay (day + cycle) =
    ⟨(marchDay day).year + 400, (marchDay day).dayOfYear⟩ := by
  obtain ⟨cycles, century, four, year, dayOfYear, h⟩ := exists_parts day
  have hshifted : Parts (day + cycle) (cycles + 1) century four year dayOfYear := by
    obtain ⟨hcounted, hcentury, hfour, hyear, hday, hleap⟩ := h
    exact ⟨by simp only [cycle]; omega, hcentury, hfour, hyear, hday, hleap⟩
  rw [marchDay_of_parts h, marchDay_of_parts hshifted]
  congr 1
  ring

theorem dateOf_period (day : ℤ) : dateOf (day + cycle) =
    { dateOf day with year := (dateOf day).year + 400 } := by
  simp only [dateOf, marchDay_period, MarchDay.date, calendarYear]
  split <;> simp [add_right_comm]

theorem weekday_period (day : ℤ) : weekday (day + cycle) = weekday day := by
  simp only [weekday, cycle]
  omega

end SyncBridge.Foundation.Gregorian
