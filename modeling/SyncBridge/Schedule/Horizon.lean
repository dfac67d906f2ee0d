import SyncBridge.Foundation.Gregorian
import SyncBridge.Schedule.CronSegments
import SyncBridge.Schedule.EarliestRun

/-!
# The horizon of the search

`computeNextRunAt` looks at the minutes of 366 days.  In UTC a schedule has a
match after every date if it has a day at all, since the calendar repeats itself;
but the next one may lie beyond the horizon, for the 29th of February or for a
day of the month that has to fall on a weekday.
-/

namespace SyncBridge.Cron

open SyncBridge.Foundation SyncBridge.Foundation.Gregorian

/-! ## Dates in UTC -/

def utcParts (time : ℤ) : ZonedDateParts where
  minute := time / 60000 % 60
  hour := time / 3600000 % 24
  dayOfMonth := (dateOf (time / 86400000)).day
  month := (dateOf (time / 86400000)).month
  dayOfWeek := weekday (time / 86400000)

structure Calendar.KnowsUTC (calendar : Calendar) : Prop where
  host : calendar.HostInUTC
  accepts : calendar.acceptsTimezone "UTC" = true
  parts : ∀ time, calendar.getZonedDateParts time "UTC" = utcParts time

def ScheduleDay (parsed : ParsedCron) (day : ℤ) : Prop :=
  (dateOf day).day ∈ parsed.dayOfMonth ∧ (dateOf day).month ∈ parsed.month ∧
    weekday day ∈ parsed.dayOfWeek

instance (parsed : ParsedCron) (day : ℤ) : Decidable (ScheduleDay parsed day) :=
  inferInstanceAs (Decidable (_ ∧ _ ∧ _))

def ScheduleMinute (parsed : ParsedCron) (minute : ℤ) : Prop :=
  minute % 60 ∈ parsed.minute ∧ minute / 60 ∈ parsed.hour

/-- The schedule has a match today after the date, on one of the next 365 days,
or on the day after these not later than the date. -/
def WithinYear (parsed : ParsedCron) (fromDate : ℤ) : Prop :=
  let today := fromDate / 86400000
  let minuteOfDay := fromDate / 60000 % 1440
  (ScheduleDay parsed today ∧ ∃ minute, minuteOfDay < minute ∧ minute < 1440 ∧
    ScheduleMinute parsed minute) ∨
  (∃ later : ℤ, 1 ≤ later ∧ later ≤ 365 ∧ ScheduleDay parsed (today + later)) ∨
  (ScheduleDay parsed (today + 366) ∧ ∃ minute, 0 ≤ minute ∧
    minute ≤ minuteOfDay ∧ ScheduleMinute parsed minute)

/-- The next run is not null if there is a match at all. -/
def NotLost (calendar : Calendar) (parsed : ParsedCron) (expression : String)
    (fromDate : Time) : Prop :=
  (∃ time, time % 60000 = 0 ∧ fromDate < time ∧ parsed.Admits (utcParts time)) →
    computeNextRunAt calendar expression "UTC" fromDate ≠ .ok none

/-! ## Minutes and days -/

variable {calendar : Calendar} {parsed : ParsedCron} {expression : String}
  {fromDate : ℤ}

theorem admits_iff (minute : ℤ) : parsed.Admits (utcParts (minute * 60000)) ↔
    ScheduleDay parsed (minute / 1440) ∧
      ScheduleMinute parsed (minute % 1440) := by
  have hminute : minute * 60000 / 60000 % 60 = minute % 1440 % 60 := by omega
  have hhour : minute * 60000 / 3600000 % 24 = minute % 1440 / 60 := by omega
  have hday : minute * 60000 / 86400000 = minute / 1440 := by omega
  simp only [utcParts, hminute, hhour, hday, ScheduleDay, ScheduleMinute]
  constructor
  · rintro ⟨hminute, hhour, hdom, hmonth, hweekday⟩
    exact ⟨⟨hdom, hmonth, hweekday⟩, hminute, hhour⟩
  · rintro ⟨⟨hdom, hmonth, hweekday⟩, hminute, hhour⟩
    exact ⟨hminute, hhour, hdom, hmonth, hweekday⟩

theorem scheduleDay_period (day : ℤ) (cycles : Nat) :
    ScheduleDay parsed (day + cycles * cycle) ↔ ScheduleDay parsed day := by
  induction cycles with
  | zero => simp
  | succ cycles ih =>
      have hshift : day + ((cycles + 1 : Nat) : ℤ) * cycle =
          day + cycles * cycle + cycle := by
        push_cast
        ring
      rw [hshift, ← ih]
      simp only [ScheduleDay, dateOf_period, weekday_period]

theorem minuteAfter_eq (turn : Nat) :
    minuteAfter fromDate turn = (fromDate / 60000 + 1 + turn) * 60000 := by
  simp only [minuteAfter]
  omega

theorem exists_admits_iff
    (hminutes : ∃ minute, 0 ≤ minute ∧ minute < 1440 ∧
      ScheduleMinute parsed minute) :
    (∃ turn < searchTurns,
      parsed.Admits (utcParts (minuteAfter fromDate turn))) ↔
      WithinYear parsed fromDate := by
  simp only [minuteAfter_eq, admits_iff, WithinYear, searchTurns]
  constructor
  · rintro ⟨turn, hturn, hday, hminute⟩
    generalize hnow : fromDate / 60000 + 1 + turn = now at *
    have htoday : fromDate / 86400000 = fromDate / 60000 / 1440 := by omega
    rw [htoday]
    generalize fromDate / 60000 = start at *
    rcases Int.lt_trichotomy (now / 1440) (start / 1440 + 1) with hfirst | hnext
    · have hsame : now / 1440 = start / 1440 := by omega
      rw [hsame] at hday
      exact .inl ⟨hday, now % 1440, by omega, by omega, hminute⟩
    · by_cases hlast : now / 1440 = start / 1440 + 366
      · rw [hlast] at hday
        exact .inr (.inr ⟨hday, now % 1440, by omega, by omega, hminute⟩)
      · refine .inr (.inl ⟨now / 1440 - start / 1440, by omega, by omega, ?_⟩)
        rwa [add_sub_cancel]
  · have hturn : ∀ now, fromDate / 60000 < now →
        now ≤ fromDate / 60000 + 527040 → ScheduleDay parsed (now / 1440) →
        ScheduleMinute parsed (now % 1440) → ∃ turn < 60 * 24 * 366,
          ScheduleDay parsed ((fromDate / 60000 + 1 + (turn : Nat)) / 1440) ∧
          ScheduleMinute parsed ((fromDate / 60000 + 1 + turn) % 1440) := by
      intro now hafter hwithin hday hminute
      have hnow : fromDate / 60000 + 1 +
          ((now - fromDate / 60000 - 1).toNat : ℤ) = now := by
        omega
      exact ⟨(now - fromDate / 60000 - 1).toNat, by omega, by rwa [hnow],
        by rwa [hnow]⟩
    have htoday : fromDate / 86400000 = fromDate / 60000 / 1440 := by omega
    rw [htoday]
    generalize fromDate / 60000 = start at *
    rintro (⟨hday, minute, hafter, hlast, hminute⟩ | ⟨later, hfirst, hlast, hday⟩ |
      ⟨hday, minute, hfirst, hlast, hminute⟩)
    · refine hturn (start / 1440 * 1440 + minute) (by omega) (by omega) ?_ ?_
      · rwa [show (start / 1440 * 1440 + minute) / 1440 = start / 1440 by omega]
      · rwa [show (start / 1440 * 1440 + minute) % 1440 = minute by omega]
    · obtain ⟨minute, hlow, hhigh, hminute⟩ := hminutes
      refine hturn ((start / 1440 + later) * 1440 + minute) (by omega) (by omega)
        ?_ ?_
      · rwa [show ((start / 1440 + later) * 1440 + minute) / 1440 =
          start / 1440 + later by omega]
      · rwa [show ((start / 1440 + later) * 1440 + minute) % 1440 = minute by
          omega]
    · refine hturn ((start / 1440 + 366) * 1440 + minute) (by omega) (by omega)
        ?_ ?_
      · rwa [show ((start / 1440 + 366) * 1440 + minute) / 1440 =
          start / 1440 + 366 by omega]
      · rwa [show ((start / 1440 + 366) * 1440 + minute) % 1440 = minute by omega]

/-! ## The sets of a parsed expression -/

theorem bounds_of_parseFieldValue {spec : CronFieldSpec} (husual : spec.Usual)
    {raw : List Char} {value : ℤ} (h : parseFieldValue spec raw = .ok value) :
    spec.min ≤ value ∧ value ≤ spec.max := by
  simp only [parseFieldValue] at h
  split at h
  · cases h
  · split at h
    · rename_i hsunday
      cases h
      simp only [Bool.and_eq_true] at hsunday
      have hweek := husual.week hsunday.1
      omega
    · split at h
      · cases h
      · rename_i hin
        cases h
        omega

theorem bounds_of_parseRange {spec : CronFieldSpec} (husual : spec.Usual)
    {base : List Char} {first last : ℤ}
    (h : parseRange spec base = .ok (first, last)) :
    spec.min ≤ first ∧ first ≤ spec.max := by
  simp only [parseRange] at h
  split at h
  · obtain ⟨start, hstart, h⟩ := bind_eq_ok.mp h
    obtain ⟨stop, -, h⟩ := bind_eq_ok.mp h
    split at h
    · cases h
    · cases h
      exact bounds_of_parseFieldValue husual hstart
  · cases h

theorem bounds_of_readSegment {spec : CronFieldSpec} (husual : spec.Usual)
    {segment : List Char} {reading : Reading}
    (h : readSegment spec segment = some reading) :
    spec.min ≤ reading.first ∧ reading.first ≤ spec.max := by
  obtain ⟨first, last, step⟩ := reading
  have hbounds := (readSegment_eq_some_iff.mp h).2.2
  simp only [readBounds] at hbounds
  split at hbounds
  · cases hbounds
    exact ⟨Int.le_refl _, husual.ordered⟩
  · split at hbounds
    · exact bounds_of_parseRange husual (toOption_eq_some.mp hbounds)
    · obtain ⟨value, hvalue, hends⟩ := Option.map_eq_some_iff.mp hbounds
      cases hends
      exact bounds_of_parseFieldValue husual (toOption_eq_some.mp hvalue)

theorem exists_mem_parseField {spec : CronFieldSpec} (husual : spec.Usual)
    {text : List Char} {result : List ℤ}
    (h : parseField spec text = .ok result) :
    ∃ value ∈ result, spec.min ≤ value ∧ value ≤ spec.max := by
  have hne : split ',' text ≠ [] := by
    rw [split_eq_splitOn]
    exact List.splitOn_ne_nil ',' text
  obtain ⟨segment, hsegment⟩ := List.exists_mem_of_ne_nil _ hne
  obtain ⟨reading, hreading⟩ :=
    (exists_parseField_iff husual.ordered).mp ⟨result, h⟩ segment hsegment
  refine ⟨reading.first, (mem_parseField_iff husual.ordered h).mpr
    ⟨segment, hsegment, reading, hreading, 0, by simp, ?_⟩,
    bounds_of_readSegment husual hreading⟩
  exact le_of_readSegment husual.ordered hreading

theorem exists_scheduleMinute
    (hparsed : parseCronExpression expression = .ok parsed) :
    ∃ minute, 0 ≤ minute ∧ minute < 1440 ∧ ScheduleMinute parsed minute := by
  have hfields := (parsed_fields hparsed).1
  have hlength := (parsed_fields hparsed).2
  obtain ⟨_, _, _, _, _, hfive⟩ := exists_five hlength
  simp only [hfive, cronFieldSpecs, ParsedCron.sets, List.zip_cons_cons,
    List.zip_nil_right, List.forall₂_cons, List.Forall₂.nil, and_true]
    at hfields
  obtain ⟨minute, hminute, hlow, hhigh⟩ := exists_mem_parseField
    (usual_of_mem minuteSpec List.mem_cons_self) hfields.1
  obtain ⟨hour, hhour, hlow', hhigh'⟩ := exists_mem_parseField
    (usual_of_mem hourSpec (List.mem_cons_of_mem _ List.mem_cons_self))
    hfields.2.1
  simp only [minuteSpec, hourSpec] at hlow hhigh hlow' hhigh'
  refine ⟨hour * 60 + minute, by omega, by omega, ?_, ?_⟩
  · rwa [show (hour * 60 + minute) % 60 = minute by omega]
  · rwa [show (hour * 60 + minute) / 60 = hour by omega]

/-! ## The end of the search -/

theorem exists_match_iff (hparsed : parseCronExpression expression = .ok parsed) :
    (∃ time, time % 60000 = 0 ∧ fromDate < time ∧
      parsed.Admits (utcParts time)) ↔ ∃ day, ScheduleDay parsed day := by
  constructor
  · rintro ⟨time, hwhole, -, hadmits⟩
    have hminute : time = time / 60000 * 60000 := by omega
    rw [hminute, admits_iff] at hadmits
    exact ⟨_, hadmits.1⟩
  · rintro ⟨day, hday⟩
    obtain ⟨minute, hlow, hhigh, hminute⟩ := exists_scheduleMinute hparsed
    obtain ⟨cycles, hcycles⟩ : ∃ cycles : Nat,
        fromDate / 86400000 < day + cycles * cycle :=
      ⟨(fromDate / 86400000 - day + 1).toNat, by simp only [cycle]; omega⟩
    rw [← scheduleDay_period day cycles] at hday
    generalize day + cycles * cycle = later at *
    refine ⟨(later * 1440 + minute) * 60000, by omega, by omega,
      (admits_iff _).mpr ?_⟩
    rw [show (later * 1440 + minute) / 1440 = later by omega,
      show (later * 1440 + minute) % 1440 = minute by omega]
    exact ⟨hday, hminute⟩

/-- The search is exhausted when no minute of it matches and all are dates. -/
theorem computeNextRunAt_eq_none_iff (hutc : calendar.KnowsUTC)
    (hparsed : parseCronExpression expression = .ok parsed)
    (hlow : -maxTime ≤ fromDate) :
    computeNextRunAt calendar expression "UTC" fromDate = .ok none ↔
      minuteAfter fromDate (searchTurns - 1) ≤ maxTime ∧
        ¬ WithinYear parsed fromDate := by
  rw [computeNextRunAt_eq hparsed hutc.accepts, nextRunOf_eq_none_iff,
    ← exists_admits_iff (exists_scheduleMinute hparsed), and_comm, not_exists]
  refine (search_exhausted_iff_noMatchWithin hutc.host hlow).trans
    (and_congr_left' ?_)
  simp only [noMatchWithin_iff, hutc.parts, not_and, searchTurns]

/-- A schedule is not lost exactly when it has no day at all, or one of its days
is near enough, or the dates end before the search does. -/
theorem schedule_not_lost_iff (hutc : calendar.KnowsUTC)
    (hparsed : parseCronExpression expression = .ok parsed)
    (hlow : -maxTime ≤ fromDate) :
    NotLost calendar parsed expression fromDate ↔
      (∀ day, ¬ ScheduleDay parsed day) ∨ WithinYear parsed fromDate ∨
        maxTime < minuteAfter fromDate (searchTurns - 1) := by
  have hdays : (∀ day, ¬ ScheduleDay parsed day) ↔
      ¬ ∃ day, ScheduleDay parsed day :=
    not_exists.symm
  rw [NotLost, exists_match_iff hparsed, ne_eq,
    computeNextRunAt_eq_none_iff hutc hparsed hlow, hdays, imp_iff_not_or,
    not_and_or, not_le, not_not]
  exact or_congr_right or_comm

/-! ## Two schedules -/

def utcCalendar : Calendar where
  acceptsTimezone timezone := timezone = "UTC"
  getZonedDateParts time _ := utcParts time
  localTime time := time
  utc time := time

theorem knowsUTC_utcCalendar : utcCalendar.KnowsUTC :=
  ⟨fun _ => ⟨rfl, rfl⟩, rfl, fun _ => rfl⟩

def firstOfMarch : ℤ := 20148 * 86400000

theorem schedule_not_lost_of_weekly :
    ∃ parsed, parseCronExpression "0 9 * * 1" = .ok parsed ∧
      NotLost utcCalendar parsed "0 9 * * 1" firstOfMarch := by
  have hchecked : (parseCronExpression "0 9 * * 1").toOption.any (fun parsed =>
      decide (ScheduleDay parsed 20150)) = true := by
    decide +kernel
  obtain ⟨parsed, hsome, hday⟩ := (Option.any_eq_true _ _).mp hchecked
  have hparsed := toOption_eq_some.mp hsome
  refine ⟨parsed, hparsed, (schedule_not_lost_iff knowsUTC_utcCalendar hparsed
    (by decide)).mpr (.inr (.inl (.inr (.inl ⟨2, by decide, by decide, ?_⟩))))⟩
  exact of_decide_eq_true hday

/-- The next 29th of February is three years ahead. -/
theorem schedule_not_lost_fails :
    ∃ parsed, parseCronExpression "0 0 29 2 *" = .ok parsed ∧
      computeNextRunAt utcCalendar "0 0 29 2 *" "UTC" firstOfMarch = .ok none ∧
      ¬ NotLost utcCalendar parsed "0 0 29 2 *" firstOfMarch := by
  have hchecked : (parseCronExpression "0 0 29 2 *").toOption.any (fun parsed =>
      decide (ScheduleDay parsed 21243) && (List.range 367).all fun (later : Nat) =>
        !decide (ScheduleDay parsed (20148 + later))) = true := by
    decide +kernel
  obtain ⟨parsed, hsome, hdays⟩ := (Option.any_eq_true _ _).mp hchecked
  have hparsed := toOption_eq_some.mp hsome
  simp only [Bool.and_eq_true, decide_eq_true_eq, List.all_eq_true,
    List.mem_range, Bool.not_eq_true', decide_eq_false_iff_not] at hdays
  have hnone : ∀ later : ℤ, 0 ≤ later → later ≤ 366 →
      ¬ ScheduleDay parsed (20148 + later) := by
    intro later hlow hhigh
    obtain ⟨index, rfl⟩ := Int.eq_ofNat_of_zero_le hlow
    exact hdays.2 index (by omega)
  have htoday : firstOfMarch / 86400000 = 20148 := by decide
  have hyear : ¬ WithinYear parsed firstOfMarch := by
    simp only [WithinYear, htoday]
    rintro (⟨hday, -⟩ | ⟨later, hfirst, hlast, hday⟩ | ⟨hday, -⟩)
    · exact hnone 0 (by decide) (by decide) hday
    · exact hnone later (by omega) (by omega) hday
    · exact hnone 366 (by decide) (by decide) hday
  have hlost : computeNextRunAt utcCalendar "0 0 29 2 *" "UTC" firstOfMarch =
      .ok none :=
    (computeNextRunAt_eq_none_iff knowsUTC_utcCalendar hparsed
      (by decide)).mpr ⟨by decide, hyear⟩
  refine ⟨parsed, hparsed, hlost, fun hnot => hnot ?_ hlost⟩
  exact (exists_match_iff hparsed).mpr ⟨21243, hdays.1⟩

end SyncBridge.Cron
