import Mathlib.Order.Basic
import Mathlib.Tactic.Ring
import SyncBridge.Foundation.Enumeration

/-!
# Local clocks

A clock that is ahead of the time by an offset, in milliseconds, which changes
now and then.  Where the clock is set back it shows some of its times again,
where it is set forward it leaves some out.  A walk along the minutes of such a
clock comes to each minute that it shows for the first time, and to no other.
-/

namespace SyncBridge.Foundation

/-- A local clock: offsets of less than a day in whole minutes, changes on whole
minutes, and no two of them within two days. -/
structure Clock where
  offset : ℤ → ℤ
  low : ∀ time, -86400000 < offset time
  high : ∀ time, offset time < 86400000
  whole : ∀ time, offset time % 60000 = 0
  steady : ∀ time, offset time = offset (time - time % 60000)
  single : ∀ {first middle last}, first ≤ middle → middle ≤ last →
    last ≤ first + 172800000 →
    offset middle = offset first ∨ offset middle = offset last

namespace Clock

variable (clock : Clock)

def shows (time : ℤ) : ℤ := time + clock.offset time

def FirstTime (time : ℤ) : Prop :=
  ∀ earlier < time, clock.shows earlier ≠ clock.shows time

/-- The instant that a local time is read as: the earliest one that shows it; for
a local time that is left out, the one by the offset before the change. -/
structure ReadsAs (reading instant : ℤ) : Prop where
  shown : ∀ time, clock.shows time = reading →
    clock.shows instant = reading ∧ instant ≤ time
  skipped : (∀ time, clock.shows time ≠ reading) → ∃ last,
    clock.shows last < reading ∧
    (∀ time, clock.shows time < reading → clock.shows time ≤ clock.shows last) ∧
    (∀ time, clock.shows time = clock.shows last → time ≤ last) ∧
    instant = reading - clock.offset last

def FirstMinute (time : ℤ) : Prop := time % 60000 = 0 ∧ clock.FirstTime time

variable {clock : Clock} {time first last now next reading instant : ℤ}

theorem offset_minute (hwhole : first % 60000 = 0) (hlow : first ≤ time)
    (hhigh : time < first + 60000) : clock.offset time = clock.offset first := by
  rw [clock.steady time]
  congr 1
  omega

theorem ReadsAs.eq_of_first (h : clock.ReadsAs reading instant)
    (hshows : clock.shows time = reading) (hfirst : clock.FirstTime time) :
    instant = time := by
  obtain ⟨hread, hle⟩ := h.shown time hshows
  by_contra hne
  exact hfirst instant (lt_of_le_of_ne hle hne) (hread.trans hshows.symm)

theorem ReadsAs.firstTime (h : clock.ReadsAs reading instant)
    (hshows : clock.shows time = reading) : clock.FirstTime instant := by
  intro earlier hearlier hsame
  have hread := (h.shown time hshows).1
  have hle := (h.shown earlier (hsame.trans hread)).2
  omega

theorem FirstTime.shows_lt (h : clock.FirstTime now) (hlt : time < now) :
    clock.shows time < clock.shows now := by
  by_contra hge
  have hfirst := h (now - (clock.offset time - clock.offset now))
  have hsingle := @clock.single (now - (clock.offset time - clock.offset now))
    time now
  have hlow := clock.low now
  have hhigh := clock.high time
  simp only [shows] at hge hfirst
  rcases hsingle (by omega) (by omega) (by omega) with hsame | hsame
  · rw [← hsame] at hfirst
    omega
  · omega

theorem firstTime_of_shows_lt
    (h : ∀ time < now, clock.shows time < clock.shows now) :
    clock.FirstTime now :=
  fun time hlt => ne_of_lt (h time hlt)

/-! ## The next minute -/

/-- The offsets are less than two days apart, by more than a minute. -/
theorem offset_sub_le : clock.offset now - clock.offset time ≤ 172680000 := by
  have hnow := clock.whole now
  have htime := clock.whole time
  have hhigh := clock.high now
  have hlow := clock.low time
  omega

theorem shows_lt_next (hwhole : now % 60000 = 0)
    (hfirst : clock.FirstTime now) (hlt : time < now + 60000) :
    clock.shows time < now + 60000 + clock.offset now := by
  rcases lt_or_ge time now with hbefore | hafter
  · have hshows := hfirst.shows_lt hbefore
    simp only [shows] at hshows ⊢
    omega
  · rw [shows, offset_minute hwhole hafter hlt]
    omega

theorem offset_after (hchange : clock.offset (now + 60000) ≠ clock.offset now)
    (hlow : now + 60000 ≤ time) (hhigh : time ≤ now + 172800000) :
    clock.offset time = clock.offset (now + 60000) := by
  rcases clock.single (by omega) hlow hhigh with hsame | hsame
  · exact absurd hsame hchange
  · exact hsame.symm

section Forward

variable (hwhole : now % 60000 = 0) (hfirst : clock.FirstTime now)
  (hforward : clock.offset now ≤ clock.offset (now + 60000))

include hwhole hfirst hforward

theorem firstTime_forward : clock.FirstTime (now + 60000) := by
  refine firstTime_of_shows_lt fun time hlt => ?_
  have hshows := shows_lt_next hwhole hfirst hlt
  simp only [shows] at hshows ⊢
  omega

/-- A local time that is left out is read as the moment of the change. -/
theorem next_forward
    (h : clock.ReadsAs (clock.shows now + 60000) next) : next = now + 60000 := by
  have hreading : clock.shows now + 60000 = now + 60000 + clock.offset now := by
    rw [shows]
    ring
  rw [hreading] at h
  rcases hforward.eq_or_lt with hsame | hchange
  · refine h.eq_of_first ?_ (firstTime_forward hwhole hfirst hforward)
    rw [shows, hsame]
  · have hafter : ∀ time, now + 60000 ≤ time →
        clock.offset time < clock.offset now →
        now + 60000 + clock.offset now < clock.shows time := by
      intro time hlow hless
      by_contra hle
      have hspread := @offset_sub_le clock time now
      simp only [shows] at hle
      have hsame := offset_after hchange.ne' hlow (by omega)
      omega
    have hleft : ∀ time, clock.shows time ≠ now + 60000 + clock.offset now := by
      intro time hshows
      rcases lt_or_ge time (now + 60000) with hbefore | hlow
      · have hless := shows_lt_next hwhole hfirst hbefore
        omega
      · rw [shows] at hshows
        by_cases hless : clock.offset time < clock.offset now
        · have hless' := hafter time hlow hless
          rw [shows] at hless'
          omega
        · have heq : time = now + 60000 := by omega
          rw [heq] at hshows
          omega
    obtain ⟨last, hless, hgreatest, hlast, rfl⟩ := h.skipped hleft
    have hbefore : clock.shows (now + 59999) =
        now + 59999 + clock.offset now := by
      rw [shows, offset_minute hwhole (by omega) (by omega)]
    have hshows : clock.shows last = clock.shows (now + 59999) := by
      have hle := hgreatest (now + 59999) (by omega)
      omega
    have hlow := hlast (now + 59999) hshows.symm
    rcases lt_or_ge last (now + 60000) with hminute | hlate
    · rw [offset_minute hwhole (by omega) hminute]
      ring
    · rw [hbefore] at hshows
      have hless' := hafter last hlate
      simp only [shows] at hshows hless'
      omega

end Forward

section Back

variable (hwhole : now % 60000 = 0) (hfirst : clock.FirstTime now)
  (hback : clock.offset (now + 60000) < clock.offset now)

include hback

theorem shows_back : clock.shows
      (now + 60000 + (clock.offset now - clock.offset (now + 60000))) =
    now + 60000 + clock.offset now := by
  have hspread := @offset_sub_le clock (now + 60000) now
  have hoffset := @offset_after clock
    (now + 60000 + (clock.offset now - clock.offset (now + 60000))) now hback.ne
    (by omega) (by omega)
  rw [shows, hoffset]
  ring

include hwhole in
theorem not_firstTime_back (hlow : now + 60000 ≤ time)
    (hhigh : time <
      now + 60000 + (clock.offset now - clock.offset (now + 60000))) :
    ¬ clock.FirstTime time := by
  have hspread := @offset_sub_le clock (now + 60000) now
  have hoffset := offset_after hback.ne hlow (by omega)
  generalize hearlier : time - (clock.offset now - clock.offset (now + 60000)) =
    earlier
  have hbefore : clock.offset earlier = clock.offset now := by
    rcases lt_or_ge earlier now with hlt | hge
    · rcases @clock.single earlier now (now + 60000) (by omega) (by omega)
        (by omega) with hsame | hsame
      · exact hsame.symm
      · omega
    · exact offset_minute hwhole hge (by omega)
  intro hfirst
  refine hfirst earlier (by omega) ?_
  rw [shows, shows, hbefore, hoffset]
  omega

include hwhole hfirst in
theorem firstTime_back : clock.FirstTime
    (now + 60000 + (clock.offset now - clock.offset (now + 60000))) := by
  refine firstTime_of_shows_lt fun time hlt => ?_
  rw [shows_back hback]
  rcases lt_or_ge time (now + 60000) with hbefore | hlow
  · exact shows_lt_next hwhole hfirst hbefore
  · have hspread := @offset_sub_le clock (now + 60000) now
    rw [shows, offset_after hback.ne hlow (by omega)]
    omega

include hwhole hfirst in
theorem next_back (h : clock.ReadsAs (clock.shows now + 60000) next) :
    next = now + 60000 + (clock.offset now - clock.offset (now + 60000)) := by
  refine h.eq_of_first ?_ (firstTime_back hwhole hfirst hback)
  rw [shows_back hback, shows]
  ring

end Back

/-! ## The walk -/

section Walk

variable {step : ℤ → ℤ}
  (hstep : ∀ time, clock.ReadsAs (clock.shows time + 60000) (step time))

include hstep

theorem enumerates_step : Enumerates clock.FirstMinute step := by
  have hnext : ∀ {now}, clock.FirstMinute now →
      clock.FirstMinute (step now) ∧ now < step now ∧
      ∀ {other}, clock.FirstMinute other → now < other → step now ≤ other := by
    rintro now ⟨hwhole, hfirst⟩
    rcases le_or_gt (clock.offset now) (clock.offset (now + 60000)) with
      hforward | hback
    · rw [next_forward hwhole hfirst hforward (hstep now)]
      refine ⟨⟨by omega, firstTime_forward hwhole hfirst hforward⟩, by omega, ?_⟩
      rintro other ⟨hother, -⟩ hlt
      omega
    · rw [next_back hwhole hfirst hback (hstep now)]
      have hnow := clock.whole now
      have hafter := clock.whole (now + 60000)
      refine ⟨⟨by omega, firstTime_back hwhole hfirst hback⟩, by omega, ?_⟩
      rintro other ⟨hother, hshown⟩ hlt
      by_contra hbetween
      exact not_firstTime_back hwhole hback (by omega) (by omega) hshown
  exact ⟨fun h => (hnext h).1, fun h => (hnext h).2.1,
    fun h hother hlt => (hnext h).2.2 hother hlt⟩

theorem add_minute_le (h : clock.FirstMinute now) : now + 60000 ≤ step now := by
  have hmem := ((enumerates_step hstep).mem h).1
  have hlt := (enumerates_step hstep).lt h
  have hwhole := h.1
  omega

/-- The walk is not behind the minutes after a moment that it starts from, except
where it goes once more through what the clock shows again at that moment. -/
theorem le_iterate {start : ℤ} (hnow : now % 60000 = 0)
    (hstart : clock.FirstMinute start)
    (hshows : clock.shows start = clock.shows now) (hle : start ≤ now)
    (turn : Nat) :
    now + turn * 60000 ≤ step^[turn] start ∨
      step^[turn] start = start + turn * 60000 ∧ step^[turn] start < now ∧
        clock.offset (step^[turn] start) = clock.offset start := by
  induction turn with
  | zero =>
      rcases hle.eq_or_lt with rfl | hlt
      · exact .inl (by simp)
      · exact .inr ⟨by simp, hlt, rfl⟩
  | succ turn ih =>
      have hfirst := (enumerates_step hstep).mem_iterate hstart turn
      rw [Function.iterate_succ_apply']
      generalize step^[turn] start = reached at *
      have hadd := add_minute_le hstep hfirst
      push_cast
      rcases ih with hahead | ⟨hreached, hbefore, hsame⟩
      · exact .inl (by omega)
      · simp only [shows] at hshows
        have hspread := @offset_sub_le clock now start
        have hwhole := hfirst.1
        rcases @clock.single start (reached + 60000) now (by omega) (by omega)
          (by omega) with hstays | hback
        · have hnext := next_forward hfirst.1 hfirst.2
            (by rw [hsame, hstays]) (hstep reached)
          refine .inr ⟨by omega, ?_, by rw [hnext, hstays]⟩
          have hne : reached + 60000 ≠ now := by
            rintro rfl
            omega
          omega
        · have hnext := next_back hfirst.1 hfirst.2
            (by omega) (hstep reached)
          exact .inl (by omega)

end Walk

theorem first_reading (h : clock.ReadsAs
      (clock.shows time - clock.shows time % 60000) instant) :
    clock.FirstMinute instant ∧
      clock.shows instant = clock.shows (time - time % 60000) ∧
      instant ≤ time - time % 60000 := by
  have hsteady := clock.steady time
  have hwhole := clock.whole (time - time % 60000)
  have hreading : clock.shows (time - time % 60000) =
      clock.shows time - clock.shows time % 60000 := by
    simp only [shows]
    omega
  obtain ⟨hshows, hle⟩ := h.shown _ hreading
  refine ⟨⟨?_, h.firstTime hreading⟩, hshows.trans hreading.symm, hle⟩
  have hinstant := clock.whole instant
  simp only [shows] at hshows hreading
  omega

end Clock

end SyncBridge.Foundation
