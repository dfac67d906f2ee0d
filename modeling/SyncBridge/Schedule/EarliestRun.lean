import SyncBridge.Foundation.Search
import SyncBridge.Sample

/-!
# The earliest matching minute

`computeNextRunAt` walks along the minutes of the host's clock and stops at the
first one that matches.  On a host in UTC these are the whole minutes after the
date it starts from, one by one.
-/

namespace SyncBridge.Cron

open SyncBridge.Foundation

structure ParsedCron.Admits (parsed : ParsedCron) (parts : ZonedDateParts) :
    Prop where
  minute : parts.minute ∈ parsed.minute
  hour : parts.hour ∈ parsed.hour
  dayOfMonth : parts.dayOfMonth ∈ parsed.dayOfMonth
  month : parts.month ∈ parsed.month
  dayOfWeek : parts.dayOfWeek ∈ parsed.dayOfWeek

variable {calendar : Calendar} {parsed : ParsedCron}
  {expression timezone : String} {fromDate time : Time} {turn turns : Nat}

theorem matchesCron_iff : matchesCron calendar time parsed timezone = true ↔
    parsed.Admits (calendar.getZonedDateParts time timezone) := by
  simp only [matchesCron, Bool.and_eq_true, List.contains_iff_mem]
  constructor
  · rintro ⟨⟨⟨⟨hminute, hhour⟩, hday⟩, hmonth⟩, hweekday⟩
    exact ⟨hminute, hhour, hday, hmonth, hweekday⟩
  · rintro ⟨hminute, hhour, hday, hmonth, hweekday⟩
    exact ⟨⟨⟨⟨hminute, hhour⟩, hday⟩, hmonth⟩, hweekday⟩

theorem matchesCron_eq_false_iff :
    matchesCron calendar time parsed timezone = false ↔
      ¬ parsed.Admits (calendar.getZonedDateParts time timezone) := by
  rw [← matchesCron_iff, Bool.not_eq_true]

/-! ## The loop as a search -/

def nextRunOf : SearchResult Time → Except Failure (Option Time)
  | .found time => .ok (some time)
  | .exhausted => .ok none
  | .stuck => .error (.error "Invalid time value")

/-- The search for a date that matches, along the minutes of the host. -/
def searchMinutes (calendar : Calendar) (parsed : ParsedCron)
    (timezone : String) : Nat → Option Time → SearchResult Time :=
  search (nextMinute calendar) fun date =>
    matchesCron calendar date parsed timezone

theorem searchFrom_eq {cursor : Option Time} :
    searchFrom calendar parsed timezone turns cursor =
      nextRunOf (searchMinutes calendar parsed timezone turns cursor) := by
  induction turns generalizing cursor with
  | zero => rfl
  | succ turns ih =>
      cases cursor with
      | none => rfl
      | some cursor =>
          simp only [searchFrom, searchMinutes, search]
          split
          · rfl
          · exact ih

def firstMinute (calendar : Calendar) (fromDate : Time) : Option Time :=
  (startOfMinute calendar fromDate).bind (nextMinute calendar)

theorem computeNextRunAt_eq
    (hparsed : parseCronExpression expression = .ok parsed)
    (htimezone : validateTimezone calendar timezone = true) :
    computeNextRunAt calendar expression timezone fromDate =
      nextRunOf (searchMinutes calendar parsed timezone searchTurns
        (firstMinute calendar fromDate)) := by
  simp only [computeNextRunAt, hparsed, htimezone, bind, Except.bind,
    Bool.not_true, Bool.false_eq_true, if_false]
  exact searchFrom_eq

theorem parsed_of_computeNextRunAt {result : Option Time}
    (h : computeNextRunAt calendar expression timezone fromDate = .ok result) :
    (∃ parsed, parseCronExpression expression = .ok parsed) ∧
      validateTimezone calendar timezone = true := by
  obtain ⟨parsed, hparsed, hsearch⟩ := bind_eq_ok.mp h
  refine ⟨⟨parsed, hparsed⟩, ?_⟩
  cases htimezone : validateTimezone calendar timezone with
  | false =>
      rw [htimezone] at hsearch
      cases hsearch
  | true => rfl

theorem nextRunOf_eq_some_iff {result : SearchResult Time} :
    nextRunOf result = .ok (some time) ↔ result = .found time := by
  cases result <;> simp [nextRunOf]

theorem nextRunOf_eq_none_iff {result : SearchResult Time} :
    nextRunOf result = .ok none ↔ result = .exhausted := by
  cases result <;> simp [nextRunOf]

/-- The next run matches, whatever the clock of the host does. -/
theorem matchesCron_of_computeNextRunAt
    (h : computeNextRunAt calendar expression timezone fromDate =
      .ok (some time)) :
    ∃ parsed, parseCronExpression expression = .ok parsed ∧
      matchesCron calendar time parsed timezone = true := by
  obtain ⟨⟨parsed, hparsed⟩, htimezone⟩ := parsed_of_computeNextRunAt h
  rw [computeNextRunAt_eq hparsed htimezone, nextRunOf_eq_some_iff] at h
  obtain ⟨_, _, _, hmatch, _⟩ := search_found_iff.mp h
  exact ⟨parsed, hparsed, hmatch⟩

/-! ## A host in UTC -/

def minuteAfter (fromDate : ℤ) (turn : Nat) : ℤ :=
  fromDate - fromDate % 60000 + (turn + 1) * 60000

section Minutes

variable {fromDate time : ℤ}

theorem minuteAfter_whole : minuteAfter fromDate turn % 60000 = 0 := by
  simp only [minuteAfter]
  omega

theorem lt_minuteAfter : fromDate < minuteAfter fromDate turn := by
  simp only [minuteAfter]
  omega

theorem minuteAfter_succ :
    minuteAfter fromDate (turn + 1) = minuteAfter fromDate turn + 60000 := by
  simp only [minuteAfter]
  push_cast
  ring

theorem minuteAfter_lt_iff {earlier : Nat} :
    minuteAfter fromDate earlier < minuteAfter fromDate turn ↔
      earlier < turn := by
  simp only [minuteAfter]
  omega

theorem minuteAfter_le_iff :
    minuteAfter fromDate turn ≤ fromDate + turns * 60000 ↔ turn < turns := by
  simp only [minuteAfter]
  omega

theorem exists_minuteAfter (hwhole : time % 60000 = 0) (hlater : fromDate < time) :
    ∃ turn, time = minuteAfter fromDate turn := by
  refine ⟨((time - (fromDate - fromDate % 60000)) / 60000 - 1).toNat, ?_⟩
  simp only [minuteAfter]
  omega

end Minutes

theorem timeClip_eq_some_iff {date : Time} :
    timeClip date = some time ↔
      time = date ∧ -maxTime ≤ date ∧ date ≤ maxTime := by
  simp only [timeClip]
  split <;> simp_all [eq_comm]

theorem timeClip_of_le {date : ℤ} (hlow : -8640000000000000 ≤ date)
    (hhigh : date ≤ 8640000000000000) : timeClip date = some date :=
  timeClip_eq_some_iff.mpr ⟨rfl, hlow, hhigh⟩

theorem le_of_walk
    (h : walk (nextMinute calendar) turn (firstMinute calendar fromDate) =
      some time) : time ≤ maxTime := by
  have hnext : ∃ before, nextMinute calendar before = some time := by
    cases turn with
    | zero =>
        obtain ⟨before, -, hbefore⟩ := Option.bind_eq_some_iff.mp h
        exact ⟨before, hbefore⟩
    | succ turn =>
        rw [walk_succ] at h
        obtain ⟨before, -, hbefore⟩ := Option.bind_eq_some_iff.mp h
        exact ⟨before, hbefore⟩
  obtain ⟨before, hbefore⟩ := hnext
  obtain ⟨rfl, -, hhigh⟩ := timeClip_eq_some_iff.mp hbefore
  exact hhigh

section HostInUTC

variable (hhost : calendar.HostInUTC)

include hhost

theorem nextMinute_of_hostInUTC (now : Time) :
    nextMinute calendar now = timeClip (now + 60000) := by
  rw [nextMinute, (hhost _).1, (hhost _).2]

theorem startOfMinute_of_hostInUTC (now : Time) :
    startOfMinute calendar now = timeClip (now - now % 60000) := by
  rw [startOfMinute, (hhost _).1, (hhost _).2]

theorem walk_firstMinute
    (h : walk (nextMinute calendar) turn (firstMinute calendar fromDate) =
      some time) :
    time = minuteAfter fromDate turn := by
  induction turn generalizing time with
  | zero =>
      obtain ⟨start, hstart, hnext⟩ := Option.bind_eq_some_iff.mp h
      rw [startOfMinute_of_hostInUTC hhost] at hstart
      rw [nextMinute_of_hostInUTC hhost] at hnext
      rw [(timeClip_eq_some_iff.mp hnext).1, (timeClip_eq_some_iff.mp hstart).1]
      simp [minuteAfter]
  | succ turn ih =>
      rw [walk_succ] at h
      obtain ⟨before, hbefore, hnext⟩ := Option.bind_eq_some_iff.mp h
      rw [nextMinute_of_hostInUTC hhost] at hnext
      rw [(timeClip_eq_some_iff.mp hnext).1, ih hbefore, minuteAfter_succ]

theorem walk_firstMinute_eq {fromDate : ℤ}
    (hlow : -8640000000000000 ≤ fromDate) (turn : Nat)
    (hhigh : minuteAfter fromDate turn ≤ 8640000000000000) :
    walk (nextMinute calendar) turn (firstMinute calendar fromDate) =
      some (minuteAfter fromDate turn) := by
  induction turn with
  | zero =>
      simp only [minuteAfter] at hhigh ⊢
      rw [walk, firstMinute, startOfMinute_of_hostInUTC hhost,
        timeClip_of_le (by omega) (by omega), Option.bind_some,
        nextMinute_of_hostInUTC hhost, timeClip_of_le (by omega) (by omega)]
      simp
  | succ turn ih =>
      rw [minuteAfter_succ] at hhigh ⊢
      have hafter := @lt_minuteAfter turn fromDate
      rw [walk_succ, ih (by omega), Option.bind_some,
        nextMinute_of_hostInUTC hhost, timeClip_of_le (by omega) hhigh]

end HostInUTC

/-- The earliest whole minute after a date whose parts lie in the five sets. -/
structure EarliestMatch (calendar : Calendar) (parsed : ParsedCron)
    (timezone : String) (fromDate time : Time) : Prop where
  whole : time % 60000 = 0
  later : fromDate < time
  admits : parsed.Admits (calendar.getZonedDateParts time timezone)
  earliest : ∀ earlier, earlier % 60000 = 0 → fromDate < earlier →
    earlier < time → ¬ parsed.Admits
      (calendar.getZonedDateParts earlier timezone)

def NoMatchWithin (calendar : Calendar) (parsed : ParsedCron)
    (timezone : String) (fromDate : Time) (minutes : Nat) : Prop :=
  ∀ time, time % 60000 = 0 → fromDate < time →
    time ≤ fromDate + minutes * 60000 →
      ¬ parsed.Admits (calendar.getZonedDateParts time timezone)

theorem noMatchWithin_iff :
    NoMatchWithin calendar parsed timezone fromDate turns ↔
      ∀ turn < turns, ¬ parsed.Admits
        (calendar.getZonedDateParts (minuteAfter fromDate turn) timezone) := by
  constructor
  · intro h turn hturn
    exact h _ minuteAfter_whole lt_minuteAfter (minuteAfter_le_iff.mpr hturn)
  · intro h time hwhole hlater hwithin
    obtain ⟨turn, rfl⟩ := exists_minuteAfter hwhole hlater
    exact h turn (minuteAfter_le_iff.mp hwithin)

section Results

variable (hhost : calendar.HostInUTC)

include hhost

theorem noMatchWithin_of_passes
    (h : Passes (nextMinute calendar)
      (fun date => matchesCron calendar date parsed timezone) turns
      (firstMinute calendar fromDate)) :
    NoMatchWithin calendar parsed timezone fromDate turns := by
  rw [noMatchWithin_iff]
  intro turn hlt
  obtain ⟨value, hwalk, hvalue⟩ := h turn hlt
  rw [← walk_firstMinute hhost hwalk]
  exact matchesCron_eq_false_iff.mp hvalue

theorem earliestMatch_of_found
    (h : searchMinutes calendar parsed timezone turns
      (firstMinute calendar fromDate) = .found time) :
    EarliestMatch calendar parsed timezone fromDate time := by
  obtain ⟨turn, -, hwalk, hmatch, hpasses⟩ := search_found_iff.mp h
  obtain rfl := walk_firstMinute hhost hwalk
  refine ⟨minuteAfter_whole, lt_minuteAfter, matchesCron_iff.mp hmatch, ?_⟩
  intro earlier hwhole hlater hearlier
  obtain ⟨passed, rfl⟩ := exists_minuteAfter hwhole hlater
  exact noMatchWithin_iff.mp (noMatchWithin_of_passes hhost hpasses) passed
    (minuteAfter_lt_iff.mp hearlier)

theorem noMatchWithin_of_exhausted
    (h : searchMinutes calendar parsed timezone turns
      (firstMinute calendar fromDate) = .exhausted) :
    NoMatchWithin calendar parsed timezone fromDate turns :=
  noMatchWithin_of_passes hhost (search_exhausted_iff.mp h)

section Range

variable {fromDate : ℤ} (hlow : -8640000000000000 ≤ fromDate)

include hlow

theorem passes_of_noMatchWithin
    (hnone : NoMatchWithin calendar parsed timezone fromDate turns)
    (hhigh : ∀ turn < turns, minuteAfter fromDate turn ≤ 8640000000000000) :
    Passes (nextMinute calendar)
      (fun date => matchesCron calendar date parsed timezone) turns
      (firstMinute calendar fromDate) := fun turn hturn =>
  ⟨minuteAfter fromDate turn,
    walk_firstMinute_eq hhost hlow turn (hhigh turn hturn),
    matchesCron_eq_false_iff.mpr (noMatchWithin_iff.mp hnone turn hturn)⟩

theorem search_found_iff_earliestMatch :
    searchMinutes calendar parsed timezone turns
        (firstMinute calendar fromDate) = .found time ↔
      EarliestMatch calendar parsed timezone fromDate time ∧
        time ≤ fromDate + turns * 60000 ∧ time ≤ maxTime := by
  constructor
  · intro h
    obtain ⟨turn, hturn, hwalk, -, -⟩ := search_found_iff.mp h
    refine ⟨earliestMatch_of_found hhost h, ?_, le_of_walk hwalk⟩
    rw [walk_firstMinute hhost hwalk]
    exact minuteAfter_le_iff.mpr hturn
  · rintro ⟨hearliest, hwithin, hend⟩
    obtain ⟨turn, rfl⟩ := exists_minuteAfter hearliest.whole hearliest.later
    have hbefore : ∀ earlier < turn,
        minuteAfter fromDate earlier < minuteAfter fromDate turn :=
      fun earlier => minuteAfter_lt_iff.mpr
    refine search_found_iff.mpr ⟨turn, minuteAfter_le_iff.mp hwithin,
      walk_firstMinute_eq hhost hlow turn hend,
      matchesCron_iff.mpr hearliest.admits,
      passes_of_noMatchWithin hhost hlow (noMatchWithin_iff.mpr ?_) ?_⟩
    · exact fun earlier hlt => hearliest.earliest _ minuteAfter_whole
        lt_minuteAfter (hbefore earlier hlt)
    · exact fun earlier hlt => (hbefore earlier hlt).le.trans hend

theorem search_exhausted_iff_noMatchWithin :
    searchMinutes calendar parsed timezone (turns + 1)
        (firstMinute calendar fromDate) = .exhausted ↔
      NoMatchWithin calendar parsed timezone fromDate (turns + 1) ∧
        minuteAfter fromDate turns ≤ maxTime := by
  constructor
  · intro h
    obtain ⟨time, hwalk, -⟩ := search_exhausted_iff.mp h turns
      (Nat.lt_succ_self turns)
    refine ⟨noMatchWithin_of_exhausted hhost h, ?_⟩
    rw [← walk_firstMinute hhost hwalk]
    exact le_of_walk hwalk
  · rintro ⟨hnone, hend⟩
    refine search_exhausted_iff.mpr
      (passes_of_noMatchWithin hhost hlow hnone fun turn hturn => ?_)
    rcases Nat.lt_succ_iff_lt_or_eq.mp hturn with hlt | rfl
    · exact (minuteAfter_lt_iff.mpr hlt).le.trans hend
    · exact hend

end Range

end Results

/-- What the next run is of a schedule, for both results of the search. -/
def NextRunSpec (calendar : Calendar) (parsed : ParsedCron) (timezone : String)
    (fromDate : Time) : Option Time → Prop
  | some time => EarliestMatch calendar parsed timezone fromDate time
  | none => NoMatchWithin calendar parsed timezone fromDate 527040

theorem next_run_is_earliest (hhost : calendar.HostInUTC)
    {result : Option Time}
    (h : computeNextRunAt calendar expression timezone fromDate = .ok result) :
    ∃ parsed, parseCronExpression expression = .ok parsed ∧
      NextRunSpec calendar parsed timezone fromDate result := by
  obtain ⟨⟨parsed, hparsed⟩, htimezone⟩ := parsed_of_computeNextRunAt h
  rw [computeNextRunAt_eq hparsed htimezone] at h
  refine ⟨parsed, hparsed, ?_⟩
  cases result with
  | some time =>
      exact earliestMatch_of_found hhost (nextRunOf_eq_some_iff.mp h)
  | none => exact noMatchWithin_of_exhausted hhost (nextRunOf_eq_none_iff.mp h)

/-- The sample's search starts between two minutes. -/
theorem next_run_is_earliest_of_everyMinute :
    ∃ parsed, parseCronExpression "*/5 * * * *" = .ok parsed ∧
      NextRunSpec Sample.calendar parsed "UTC" 61000 (some 300000) :=
  next_run_is_earliest (fun _ => ⟨rfl, rfl⟩) (by decide +kernel)

end SyncBridge.Cron
