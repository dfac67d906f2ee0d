import Mathlib.Data.Int.Interval
import SyncBridge.Foundation.Clock
import SyncBridge.Schedule.Horizon

/-!
# The clock of the host

The cursor of `computeNextRunAt` moves along the minutes of the host's local
time.  A clock that is set forward does no harm; where the clock is set back the
search leaves out the minutes that it shows again, and a search that starts in
one of these goes back to the first time that they were shown.
-/

namespace SyncBridge.Cron

open SyncBridge.Foundation

/-! ## Hosts -/

/-- Local times on the host are those of the clock. -/
structure Calendar.Keeps (calendar : Calendar) (clock : Clock) : Prop where
  localTime : ∀ time, calendar.localTime time = clock.shows time
  utc : ∀ reading, clock.ReadsAs reading (calendar.utc reading)

def Calendar.inUTC (calendar : Calendar) : Calendar :=
  { calendar with
    localTime := fun time => time
    utc := fun time => time }

def Calendar.firstReading (calendar : Calendar) (fromDate : ℤ) : ℤ :=
  let time := calendar.localTime fromDate
  calendar.utc (time - time % 60000)

def Calendar.advance (calendar : Calendar) (time : ℤ) : ℤ :=
  calendar.utc (calendar.localTime time + 60000)

structure AmongNext (clock : Clock) (minutes : Nat) (start time : ℤ) :
    Prop where
  first : clock.FirstMinute time
  later : start < time
  near : {between | clock.FirstMinute between ∧ start < between ∧
    between < time}.ncard < minutes

/-- The next run is the one of a host in UTC, and it lies ahead. -/
structure HostIndependent (calendar : Calendar) (expression timezone : String)
    (fromDate : Time) : Prop where
  same : computeNextRunAt calendar expression timezone fromDate =
    computeNextRunAt calendar.inUTC expression timezone fromDate
  ahead : ∀ time, computeNextRunAt calendar expression timezone fromDate =
    .ok (some time) → fromDate < time

/-- The host shows the earliest match for the first time, and no match when it
first shows the minutes from the date's own up to the date.  If there is none
within 366 days, the minutes that the search looks at in their place do not match
either.  The search stays within the range of dates. -/
structure Undisturbed (calendar : Calendar) (clock : Clock)
    (parsed : ParsedCron) (timezone : String) (fromDate : Time) : Prop where
  start : -maxTime ≤ calendar.firstReading fromDate
  before : ∀ time, clock.FirstMinute time →
    calendar.firstReading fromDate < time → time ≤ fromDate →
    ¬ parsed.Admits (calendar.getZonedDateParts time timezone)
  found : ∀ time, EarliestMatch calendar parsed timezone fromDate time →
    time ≤ fromDate + searchTurns * 60000 → time ≤ maxTime →
    clock.FirstTime time
  none : NoMatchWithin calendar parsed timezone fromDate searchTurns →
    minuteAfter fromDate (searchTurns - 1) ≤ maxTime →
    ∀ time, AmongNext clock searchTurns (calendar.firstReading fromDate) time →
      time ≤ maxTime ∧
        ¬ parsed.Admits (calendar.getZonedDateParts time timezone)

variable {calendar : Calendar} {clock : Clock} {parsed : ParsedCron}
  {expression timezone : String} {fromDate time : ℤ} {turn : Nat}

/-! ## The minutes of the host -/

section Host

variable (hkeeps : calendar.Keeps clock)

include hkeeps

theorem readsAs_advance (time : ℤ) :
    clock.ReadsAs (clock.shows time + 60000) (calendar.advance time) := by
  rw [Calendar.advance, hkeeps.localTime]
  exact hkeeps.utc _

theorem firstReading_first :
    clock.FirstMinute (calendar.firstReading fromDate) ∧
      clock.shows (calendar.firstReading fromDate) =
        clock.shows (fromDate - fromDate % 60000) ∧
      calendar.firstReading fromDate ≤ fromDate - fromDate % 60000 := by
  refine Clock.first_reading ?_
  rw [Calendar.firstReading, hkeeps.localTime]
  exact hkeeps.utc _

theorem lt_firstReading :
    fromDate - 172800000 < calendar.firstReading fromDate := by
  obtain ⟨-, hshows, -⟩ := @firstReading_first _ _ fromDate hkeeps
  have hspread := @Clock.offset_sub_le clock (fromDate - fromDate % 60000)
    (calendar.firstReading fromDate)
  simp only [Clock.shows] at hshows
  omega

theorem enumerates_advance : Enumerates clock.FirstMinute calendar.advance :=
  Clock.enumerates_step (readsAs_advance hkeeps)

theorem nextMinute_host {now : ℤ} (hfirst : clock.FirstMinute now)
    (hlow : -8640000000000000 ≤ now) :
    nextMinute calendar now = if calendar.advance now ≤ 8640000000000000 then
      some (calendar.advance now) else none := by
  have hlt := (enumerates_advance hkeeps).lt hfirst
  have hnext : nextMinute calendar now = timeClip (calendar.advance now) := rfl
  rw [hnext]
  split
  · exact timeClip_of_le (by omega) (by omega)
  · rename_i hover
    exact if_neg fun hrange => hover hrange.2

variable (hlow : -8640000000000000 ≤ calendar.firstReading fromDate)

include hlow

theorem walk_host (hhigh : fromDate ≤ 8640000000000000) (turn : Nat) :
    walk (nextMinute calendar) turn (firstMinute calendar fromDate) =
      if calendar.advance^[turn + 1] (calendar.firstReading fromDate) ≤
          8640000000000000 then
        some (calendar.advance^[turn + 1] (calendar.firstReading fromDate))
      else none := by
  obtain ⟨hfirst, -, hle⟩ := @firstReading_first _ _ fromDate hkeeps
  have henumerates := enumerates_advance hkeeps
  induction turn with
  | zero =>
      have hstart : startOfMinute calendar fromDate =
          some (calendar.firstReading fromDate) := by
        have hearly : calendar.firstReading fromDate ≤ 8640000000000000 := by
          omega
        exact timeClip_of_le hlow hearly
      rw [walk, firstMinute, hstart, Option.bind_some,
        nextMinute_host hkeeps hfirst hlow]
      rfl
  | succ turn ih =>
      have hmem := henumerates.mem_iterate hfirst (turn + 1)
      have hlater := henumerates.lt_iterate hfirst turn
      have hnext := henumerates.lt hmem
      rw [walk_succ, ih, Function.iterate_succ_apply' calendar.advance (turn + 1)]
      split
      · rw [Option.bind_some, nextMinute_host hkeeps hmem (by omega)]
      · rw [Option.bind_none, if_neg (by omega)]

omit hlow in
theorem amongNext_iff {minutes : Nat} :
    AmongNext clock minutes (calendar.firstReading fromDate) time ↔
      ∃ turn < minutes, calendar.advance^[turn + 1]
        (calendar.firstReading fromDate) = time := by
  rw [(enumerates_advance hkeeps).exists_iterate_lt_iff
    (firstReading_first hkeeps).1]
  constructor
  · rintro ⟨hfirst, hlater, hnear⟩
    exact ⟨hfirst, hlater, hnear⟩
  · rintro ⟨hfirst, hlater, hnear⟩
    exact ⟨hfirst, hlater, hnear⟩

omit hlow in
/-- The search is not behind the one in UTC, except for less than two days before
the date. -/
theorem le_advance_iterate (turn : Nat) :
    fromDate - fromDate % 60000 + turn * 60000 ≤
        calendar.advance^[turn] (calendar.firstReading fromDate) ∨
      (turn : ℤ) * 60000 < 172800000 := by
  obtain ⟨hfirst, hshows, hle⟩ := @firstReading_first _ _ fromDate hkeeps
  have hnear := @lt_firstReading _ _ fromDate hkeeps
  rcases Clock.le_iterate (readsAs_advance hkeeps) (by omega) hfirst hshows hle
    turn with hahead | ⟨hback, hbefore, -⟩
  · exact .inl hahead
  · exact .inr (by omega)

end Host

/-! ## The minutes of a host in UTC -/

section UTC

variable (hlow : -8640000000000000 ≤ fromDate)

theorem hostInUTC_inUTC : calendar.inUTC.HostInUTC := fun _ => ⟨rfl, rfl⟩

theorem earliestMatch_inUTC_iff :
    EarliestMatch calendar.inUTC parsed timezone fromDate time ↔
      EarliestMatch calendar parsed timezone fromDate time := by
  constructor
  · exact fun h => ⟨h.whole, h.later, h.admits, h.earliest⟩
  · exact fun h => ⟨h.whole, h.later, h.admits, h.earliest⟩

include hlow

theorem found_inUTC_iff :
    searchMinutes calendar.inUTC parsed timezone searchTurns
        (firstMinute calendar.inUTC fromDate) = .found time ↔
      EarliestMatch calendar parsed timezone fromDate time ∧
        time ≤ fromDate + searchTurns * 60000 ∧ time ≤ maxTime := by
  rw [← earliestMatch_inUTC_iff]
  exact search_found_iff_earliestMatch hostInUTC_inUTC hlow

theorem exhausted_inUTC_iff :
    searchMinutes calendar.inUTC parsed timezone searchTurns
        (firstMinute calendar.inUTC fromDate) = .exhausted ↔
      NoMatchWithin calendar parsed timezone fromDate searchTurns ∧
        minuteAfter fromDate (searchTurns - 1) ≤ maxTime :=
  search_exhausted_iff_noMatchWithin hostInUTC_inUTC hlow

end UTC

/-! ## The two searches -/

theorem nextRunOf_injective : Function.Injective nextRunOf := by
  intro first second h
  cases first <;> cases second <;> simp_all [nextRunOf]

section Both

variable (hkeeps : calendar.Keeps clock)
  (hlow : -8640000000000000 ≤ fromDate) (hhigh : fromDate ≤ 8640000000000000)

abbrev searchOn (calendar : Calendar) (parsed : ParsedCron) (timezone : String)
    (fromDate : Time) : SearchResult Time :=
  searchMinutes calendar parsed timezone searchTurns
    (firstMinute calendar fromDate)

include hkeeps hlow hhigh

omit hhigh in
theorem firstReading_low
    (h : searchOn calendar parsed timezone fromDate =
      searchOn calendar.inUTC parsed timezone fromDate) :
    -8640000000000000 ≤ calendar.firstReading fromDate := by
  by_contra hless
  have hnear := @lt_firstReading _ _ fromDate hkeeps
  have hinvalid : startOfMinute calendar fromDate = none :=
    if_neg fun hrange => hless hrange.1
  have hstuck : searchOn calendar parsed timezone fromDate = .stuck := by
    rw [searchOn, firstMinute, hinvalid]
    rfl
  obtain ⟨turn, hturn, hnone, -⟩ := search_stuck_iff.mp (h.symm.trans hstuck)
  rw [walk_firstMinute_eq hostInUTC_inUTC hlow turn] at hnone
  · cases hnone
  · simp only [minuteAfter, searchTurns] at hturn ⊢
    omega

theorem not_admits_before
    (hstart : -8640000000000000 ≤ calendar.firstReading fromDate)
    (h : searchOn calendar parsed timezone fromDate =
      searchOn calendar.inUTC parsed timezone fromDate)
    (htime : clock.FirstMinute time)
    (hlater : calendar.firstReading fromDate < time) (hbefore : time ≤ fromDate) :
    ¬ parsed.Admits (calendar.getZonedDateParts time timezone) := by
  intro hadmits
  have hfirst := (@firstReading_first _ _ fromDate hkeeps).1
  have henumerates := enumerates_advance hkeeps
  obtain ⟨turn, rfl⟩ := henumerates.exists_iterate hfirst htime hlater
  have hturn : turn < searchTurns := by
    have hnear := @le_advance_iterate _ _ fromDate hkeeps (turn + 1)
    push_cast at hnear
    simp only [searchTurns]
    omega
  have hwalk := walk_host hkeeps hstart hhigh turn
  rw [if_pos (by omega)] at hwalk
  obtain ⟨earlier, hearlier, found, hfound, hsearch⟩ := @exists_found _ _
    (fun date => matchesCron calendar date parsed timezone) _ _ _ _ hwalk
    (matchesCron_iff.mpr hadmits) hturn
  rw [walk_host hkeeps hstart hhigh] at hfound
  split at hfound
  · obtain rfl := Option.some.inj hfound
    have hahead := ((found_inUTC_iff hlow).mp (h.symm.trans hsearch)).1.later
    have hle := (henumerates.strictMono_iterate hfirst).monotone
      (Nat.succ_le_succ hearlier)
    exact absurd (hle.trans hbefore) (not_le.mpr hahead)
  · cases hfound

theorem undisturbed_of_same
    (h : searchOn calendar parsed timezone fromDate =
      searchOn calendar.inUTC parsed timezone fromDate) :
    Undisturbed calendar clock parsed timezone fromDate := by
  have hfirst := (@firstReading_first _ _ fromDate hkeeps).1
  have hstart := firstReading_low hkeeps hlow h
  refine ⟨hstart, fun time => not_admits_before hkeeps hlow hhigh hstart h,
    ?_, ?_⟩
  · intro time hearliest hwithin hend
    have hfound := h.trans ((found_inUTC_iff hlow).mpr ⟨hearliest, hwithin, hend⟩)
    obtain ⟨turn, -, hwalk, -, -⟩ := search_found_iff.mp hfound
    rw [walk_host hkeeps hstart hhigh] at hwalk
    split at hwalk
    · obtain rfl := Option.some.inj hwalk
      exact ((enumerates_advance hkeeps).mem_iterate hfirst _).2
    · cases hwalk
  · intro hnone hend time hamong
    have hexhausted := h.trans ((exhausted_inUTC_iff hlow).mpr ⟨hnone, hend⟩)
    obtain ⟨turn, hturn, rfl⟩ := (amongNext_iff hkeeps).mp hamong
    obtain ⟨value, hwalk, hvalue⟩ := search_exhausted_iff.mp hexhausted turn hturn
    rw [walk_host hkeeps hstart hhigh] at hwalk
    split at hwalk
    · rename_i hdate
      obtain rfl := Option.some.inj hwalk
      exact ⟨hdate, matchesCron_eq_false_iff.mp hvalue⟩
    · cases hwalk

omit hlow in
/-- A host that is not disturbed tests no match before one in UTC. -/
theorem passes_of_undisturbed
    (hundisturbed : Undisturbed calendar clock parsed timezone fromDate)
    (hnone : ∀ earlier, earlier % 60000 = 0 → fromDate < earlier →
      earlier < time → ¬ parsed.Admits
        (calendar.getZonedDateParts earlier timezone))
    (hend : time ≤ 8640000000000001) {turns : Nat}
    (hturns : ∀ turn < turns, calendar.advance^[turn + 1]
      (calendar.firstReading fromDate) < time) :
    Passes (nextMinute calendar)
      (fun date => matchesCron calendar date parsed timezone) turns
      (firstMinute calendar fromDate) := by
  intro turn hturn
  have hfirst := (@firstReading_first _ _ fromDate hkeeps).1
  have hmem := (enumerates_advance hkeeps).mem_iterate hfirst (turn + 1)
  have hlater := (enumerates_advance hkeeps).lt_iterate hfirst turn
  have hbefore := hturns turn hturn
  have hwalk := walk_host hkeeps hundisturbed.start hhigh turn
  rw [if_pos (by omega)] at hwalk
  refine ⟨_, hwalk, matchesCron_eq_false_iff.mpr ?_⟩
  rcases le_or_gt (calendar.advance^[turn + 1]
    (calendar.firstReading fromDate)) fromDate with hback | hahead
  · exact hundisturbed.before _ hmem hlater hback
  · exact hnone _ hmem.1 hahead hbefore

omit hlow in
theorem found_of_undisturbed
    (hundisturbed : Undisturbed calendar clock parsed timezone fromDate)
    (hearliest : EarliestMatch calendar parsed timezone fromDate time)
    (hwithin : time ≤ fromDate + searchTurns * 60000)
    (hend : time ≤ 8640000000000000) :
    searchOn calendar parsed timezone fromDate = .found time := by
  have hfirst := (@firstReading_first _ _ fromDate hkeeps).1
  have hle := (@firstReading_first _ _ fromDate hkeeps).2.2
  have henumerates := enumerates_advance hkeeps
  have hshown := hundisturbed.found time hearliest hwithin hend
  have hahead : fromDate < time := hearliest.later
  obtain ⟨turn, rfl⟩ := henumerates.exists_iterate hfirst
    ⟨hearliest.whole, hshown⟩ (by omega)
  have hturn : turn < searchTurns := by
    have hnear := @le_advance_iterate _ _ fromDate hkeeps (turn + 1)
    simp only [searchTurns] at hwithin ⊢
    push_cast at hnear hwithin
    omega
  have hwalk := walk_host hkeeps hundisturbed.start hhigh turn
  rw [if_pos hend] at hwalk
  refine search_found_iff.mpr ⟨turn, hturn, hwalk,
    matchesCron_iff.mpr hearliest.admits, ?_⟩
  refine passes_of_undisturbed hkeeps hhigh hundisturbed hearliest.earliest
    (by omega) fun earlier hearlier => ?_
  exact henumerates.strictMono_iterate hfirst (Nat.succ_lt_succ hearlier)

omit hlow in
theorem exhausted_of_undisturbed
    (hundisturbed : Undisturbed calendar clock parsed timezone fromDate)
    (hnone : NoMatchWithin calendar parsed timezone fromDate searchTurns)
    (hend : minuteAfter fromDate (searchTurns - 1) ≤ maxTime) :
    searchOn calendar parsed timezone fromDate = .exhausted := by
  refine search_exhausted_iff.mpr fun turn hturn => ?_
  obtain ⟨hdate, hnot⟩ := hundisturbed.none hnone hend _
    ((amongNext_iff hkeeps).mpr ⟨turn, hturn, rfl⟩)
  have hwalk := walk_host hkeeps hundisturbed.start hhigh turn
  rw [if_pos (show _ ≤ (8640000000000000 : ℤ) from hdate)] at hwalk
  exact ⟨_, hwalk, matchesCron_eq_false_iff.mpr hnot⟩

theorem stuck_of_undisturbed
    (hundisturbed : Undisturbed calendar clock parsed timezone fromDate)
    (h : searchOn calendar.inUTC parsed timezone fromDate = .stuck) :
    searchOn calendar parsed timezone fromDate = .stuck := by
  obtain ⟨turn, hturn, hinvalid, hpasses⟩ := search_stuck_iff.mp h
  have hover : 8640000000000000 < minuteAfter fromDate turn := by
    by_contra hdate
    rw [walk_firstMinute_eq hostInUTC_inUTC hlow turn (not_lt.mp hdate)]
      at hinvalid
    cases hinvalid
  have hnone : ∀ time, time % 60000 = 0 → fromDate < time →
      time < 8640000000000001 → ¬ parsed.Admits
        (calendar.getZonedDateParts time timezone) := by
    intro time hwhole hahead hdate
    obtain ⟨passed, rfl⟩ := exists_minuteAfter hwhole hahead
    have hlt : minuteAfter fromDate passed < minuteAfter fromDate turn := by
      omega
    exact noMatchWithin_iff.mp (noMatchWithin_of_passes hostInUTC_inUTC hpasses)
      passed (minuteAfter_lt_iff.mp hlt)
  -- The walk on the host leaves the range of dates within the same turns.
  have hleaves : 8640000000000000 < calendar.advance^[searchTurns]
      (calendar.firstReading fromDate) := by
    rcases @le_advance_iterate _ _ fromDate hkeeps searchTurns with
      hahead | hback
    · refine lt_of_lt_of_le ?_ hahead
      simp only [minuteAfter] at hover
      simp only [searchTurns] at hturn ⊢
      push_cast
      omega
    · exact absurd hback (by decide)
  have hexists : ∃ last, 8640000000000000 < calendar.advance^[last + 1]
      (calendar.firstReading fromDate) := ⟨searchTurns - 1, hleaves⟩
  have hwalk := walk_host hkeeps hundisturbed.start hhigh (Nat.find hexists)
  rw [if_neg (not_le.mpr (Nat.find_spec hexists))] at hwalk
  refine search_stuck_iff.mpr ⟨Nat.find hexists, ?_, hwalk, ?_⟩
  · exact Nat.lt_of_le_of_lt (Nat.find_min' hexists hleaves) (by decide)
  · refine passes_of_undisturbed hkeeps hhigh hundisturbed hnone (le_refl _)
      fun earlier hearlier => ?_
    have hdate := Nat.find_min hexists hearlier
    omega

theorem same_iff_undisturbed :
    searchOn calendar parsed timezone fromDate =
        searchOn calendar.inUTC parsed timezone fromDate ↔
      Undisturbed calendar clock parsed timezone fromDate := by
  refine ⟨undisturbed_of_same hkeeps hlow hhigh, fun hundisturbed => ?_⟩
  cases hresult : searchOn calendar.inUTC parsed timezone fromDate with
  | found time =>
      obtain ⟨hearliest, hwithin, hend⟩ := (found_inUTC_iff hlow).mp hresult
      exact found_of_undisturbed hkeeps hhigh hundisturbed hearliest hwithin hend
  | exhausted =>
      obtain ⟨hnone, hend⟩ := (exhausted_inUTC_iff hlow).mp hresult
      exact exhausted_of_undisturbed hkeeps hhigh hundisturbed hnone hend
  | stuck => exact stuck_of_undisturbed hkeeps hlow hhigh hundisturbed hresult

/-- On a host that keeps any clock, the next run is the one of a host in UTC
exactly if the search is not disturbed by a clock that is set back. -/
theorem host_independent_iff
    (hparsed : parseCronExpression expression = .ok parsed)
    (htimezone : validateTimezone calendar timezone = true) :
    HostIndependent calendar expression timezone fromDate ↔
      Undisturbed calendar clock parsed timezone fromDate := by
  have hhost := @computeNextRunAt_eq calendar parsed expression timezone
    fromDate hparsed htimezone
  have hutc := @computeNextRunAt_eq calendar.inUTC parsed expression timezone
    fromDate hparsed htimezone
  rw [← same_iff_undisturbed hkeeps hlow hhigh]
  constructor
  · intro h
    exact nextRunOf_injective (hhost.symm.trans (h.same.trans hutc))
  · intro h
    have hsame := hhost.trans ((congrArg nextRunOf h).trans hutc.symm)
    refine ⟨hsame, fun time htime => ?_⟩
    rw [hsame, hutc, nextRunOf_eq_some_iff] at htime
    exact ((found_inUTC_iff hlow).mp htime).1.later

end Both

/-! ## A clock that is set back -/

def setBackAt : ℤ := 20387 * 86400000 + 3600000

def londonClock : Clock where
  offset time := if time < setBackAt then 3600000 else 0
  low time := by split <;> decide
  high time := by split <;> decide
  whole time := by split <;> decide
  steady time := by
    have hwhole : setBackAt % 60000 = 0 := by decide
    congr 1
    rw [eq_iff_iff]
    omega
  single := by
    intro first middle last hfirst hlast _
    by_cases hmiddle : middle < setBackAt
    · exact .inl (by rw [if_pos hmiddle, if_pos (hfirst.trans_lt hmiddle)])
    · exact .inr (by rw [if_neg hmiddle, if_neg fun h =>
        hmiddle (hlast.trans_lt h)])

def londonReads (reading : ℤ) : ℤ :=
  if reading < setBackAt + 3600000 then reading - 3600000 else reading

theorem readsAs_londonReads (reading : ℤ) :
    londonClock.ReadsAs reading (londonReads reading) := by
  have hshows : londonClock.shows (londonReads reading) = reading := by
    simp only [Clock.shows, londonClock, londonReads]
    split <;> split <;> omega
  refine ⟨fun time htime => ⟨hshows, ?_⟩, fun hskipped =>
    absurd hshows (hskipped _)⟩
  simp only [Clock.shows, londonClock] at htime
  simp only [londonReads]
  split at htime <;> split <;> omega

def londonCalendar : Calendar :=
  { utcCalendar with
    localTime := londonClock.shows
    utc := londonReads }

theorem keeps_londonCalendar : londonCalendar.Keeps londonClock :=
  ⟨fun _ => rfl, readsAs_londonReads⟩

theorem firstTime_london {time : ℤ} (h : time < setBackAt) :
    londonClock.FirstTime time := by
  intro earlier hearlier hsame
  simp only [Clock.shows, londonClock, if_pos h,
    if_pos (hearlier.trans h)] at hsame
  omega

/-- The day before the clock is set back. -/
theorem host_independent_of_dayBefore :
    HostIndependent londonCalendar "* * * * *" "UTC"
      (setBackAt - 86400000) := by
  have hchecked : (parseCronExpression "* * * * *").toOption.any (fun parsed =>
      matchesCron londonCalendar (setBackAt - 86400000 + 60000) parsed
        "UTC") = true := by
    decide +kernel
  obtain ⟨parsed, hparsed, hmatch⟩ := (Option.any_eq_true _ _).mp hchecked
  have hadmits := matchesCron_iff.mp hmatch
  have hreading : londonCalendar.firstReading (setBackAt - 86400000) =
      setBackAt - 86400000 := by
    decide
  refine (host_independent_iff keeps_londonCalendar (by decide) (by decide)
    (toOption_eq_some.mp hparsed) rfl).mpr ⟨by decide, ?_, ?_, ?_⟩
  · intro time _ hlater hbefore
    rw [hreading] at hlater
    exact absurd hbefore (not_le.mpr hlater)
  · intro time hearliest _ _
    refine firstTime_london (lt_of_le_of_lt (not_lt.mp fun hlate => ?_)
      (show setBackAt - 86400000 + 60000 < setBackAt by decide))
    exact hearliest.earliest _ (by decide) (by decide) hlate hadmits
  · intro hnone
    exact absurd hadmits (hnone _ (by decide) (by decide) (by decide))

/-- Half an hour after the clock is set back. -/
theorem host_independent_fails :
    ∃ clock, londonCalendar.Keeps clock ∧
      ¬ HostIndependent londonCalendar "* * * * *" "UTC"
        (setBackAt + 1800000) := by
  have hback : (computeNextRunAt londonCalendar "* * * * *" "UTC"
      (setBackAt + 1800000)).toOption = some (some (setBackAt - 1740000)) := by
    decide +kernel
  refine ⟨londonClock, keeps_londonCalendar, fun hindependent => ?_⟩
  have hahead := hindependent.ahead _ (toOption_eq_some.mp hback)
  exact absurd hahead (by decide)

end SyncBridge.Cron
