import Mathlib
import SyncBridge.Http.RateLimitWindows

/-!
# The advertised retry times

A rejection advertises the end of its window twice: `Retry-After` rounds the
milliseconds that are left up to seconds, and `X-RateLimit-Reset` rounds the
end itself down, so a call in the last part of a second before the end comes at
the advertised time and is rejected again.
-/

namespace SyncBridge.RateLimitMiddleware

open SyncBridge.Foundation

structure Retry (calls : List Call) where
  before : List Call
  first : Call
  between : List Call
  later : Call
  after : List Call
  pair : Pair
  window : FixedWindow
  split : calls = before ++ first :: (between ++ later :: after)
  first_pair : pairOf first = some pair
  later_pair : pairOf later = some pair
  first_window : windowOf pair (before ++ [first]) = some window

namespace Retry

variable {calls : List Call}

def ends (retry : Retry calls) : Time :=
  retry.window.opened + retry.pair.1.windowMs

def since (retry : Retry calls) : Nat :=
  (pairTimes retry.pair retry.between).countP (FixedWindow.reached retry.ends)

def firstAnswer (retry : Retry calls) (disabled : Bool) : Option Answer :=
  (answers disabled calls)[retry.before.length]?

def laterAnswer (retry : Retry calls) (disabled : Bool) : Option Answer :=
  (answers disabled calls)[retry.before.length + 1 + retry.between.length]?

/-- The later call comes at or after a time that the answer advertises. -/
def Due (retry : Retry calls) (answer : Answer) : Prop :=
  (∃ seconds : ℤ,
      answer.headers.lookup "Retry-After" = some (toString seconds) ∧
      retry.first.now + 1000 * seconds ≤ retry.later.now) ∨
    ∃ seconds : ℤ,
      answer.headers.lookup "X-RateLimit-Reset" = some (toString seconds) ∧
      1000 * seconds ≤ retry.later.now

/-- The first call counts above the limit, and the later one comes in the
second of the window's end but before it. -/
def BeforeEnd (retry : Retry calls) : Prop :=
  retry.pair.1.limit < retry.window.hits ∧
    1000 * (retry.ends / 1000) ≤ retry.later.now ∧
    retry.later.now < retry.ends

end Retry

/-- Whoever is rejected is admitted at the times advertised, unless the limit
is used up in the meantime. -/
def RetryTimesHonoured (disabled : Bool) (calls : List Call) : Prop :=
  ∀ (retry : Retry calls) (answer : Answer),
    retry.firstAnswer disabled = some answer → answer.error.isSome = true →
    retry.since < retry.pair.1.limit → retry.Due answer →
    ∃ later, retry.laterAnswer disabled = some later ∧ later.error = none

/-! ## Seconds and milliseconds -/

theorem le_retryAfterSeconds (ms : ℤ) : ms ≤ 1000 * retryAfterSeconds ms := by
  simp only [retryAfterSeconds]
  omega

theorem answer_retryAfter {rule : RateLimitRule} {bucket : Bucket} {now : Time}
    (h : rule.limit < bucket.count) {seconds : ℤ}
    (hseconds : (answer rule bucket now).headers.lookup "Retry-After" =
      some (toString seconds)) :
    seconds = retryAfterSeconds (bucket.resetAt - now) := by
  simp only [answer, h, if_true, List.cons_append, List.nil_append,
    List.lookup_cons] at hseconds
  exact (Int.repr_inj.mp (Option.some.inj hseconds)).symm

theorem answer_reset {rule : RateLimitRule} {bucket : Bucket} {now : Time}
    (h : rule.limit < bucket.count) :
    (answer rule bucket now).headers.lookup "X-RateLimit-Reset" =
      some (toString (resetSeconds bucket.resetAt)) := by
  simp [answer, h, List.lookup_cons]

/-! ## The calls around -/

section Times

variable {first second calls : List Call} {call : Call} {pair : Pair}

theorem pairTimes_append :
    pairTimes pair (first ++ second) =
      pairTimes pair first ++ pairTimes pair second := by
  simp [pairTimes, List.filter_append]

theorem nows_sublist :
    (calls.map Call.now).Sublist
      (calls.flatMap fun call => [call.cleanupAt, call.now]) := by
  induction calls with
  | nil => exact .slnil
  | cons call calls ih => exact .cons _ (.cons_cons _ ih)

theorem pairTimes_sorted (h : Clocked calls) :
    (pairTimes pair calls).Pairwise (· ≤ ·) :=
  List.Pairwise.sublist ((List.filter_sublist.map Call.now).trans nows_sublist)
    h

theorem pairTimes_within_sorted {before between after : List Call}
    {first later : Call}
    (hsplit : calls = before ++ first :: (between ++ later :: after))
    (h : Clocked calls) :
    (pairTimes pair (between ++ [later])).Pairwise (· ≤ ·) := by
  have hcalls : calls =
      (before ++ [first]) ++ ((between ++ [later]) ++ after) := by
    rw [hsplit]
    simp
  have hsorted := @pairTimes_sorted calls pair h
  rw [hcalls, pairTimes_append, @pairTimes_append _ after] at hsorted
  exact (List.pairwise_append.mp (List.pairwise_append.mp hsorted).2.1).1

theorem answers_at {before after : List Call} {disabled : Bool}
    (hsplit : calls = before ++ call :: after) (h : Clocked calls) :
    (answers disabled calls)[before.length]? =
      some (referenceAnswer disabled before call) := by
  subst hsplit
  exact answers_getElem h

end Times

namespace Retry

variable {calls : List Call} {disabled : Bool}

theorem firstAnswer_eq (retry : Retry calls) (h : Clocked calls) :
    retry.firstAnswer disabled =
      some (referenceAnswer disabled retry.before retry.first) :=
  answers_at retry.split h

theorem laterAnswer_eq (retry : Retry calls) (h : Clocked calls) :
    retry.laterAnswer disabled =
      some (referenceAnswer disabled
        (retry.before ++ retry.first :: retry.between) retry.later) := by
  have hsplit : calls = (retry.before ++ retry.first :: retry.between) ++
      retry.later :: retry.after :=
    retry.split.trans (by simp)
  have hlength : (retry.before ++ retry.first :: retry.between).length =
      retry.before.length + 1 + retry.between.length := by
    simp
    omega
  rw [laterAnswer, ← hlength]
  exact answers_at hsplit h

def further (retry : Retry calls) : List Time :=
  pairTimes retry.pair (retry.between ++ [retry.later])

theorem further_eq (retry : Retry calls) :
    retry.further = pairTimes retry.pair retry.between ++ [retry.later.now] := by
  rw [further, pairTimes_concat, if_pos retry.later_pair]

theorem windowOf_later (retry : Retry calls) :
    windowOf retry.pair
        ((retry.before ++ retry.first :: retry.between) ++ [retry.later]) =
      FixedWindow.after retry.pair.1.windowMs
        (pairTimes retry.pair (retry.before ++ [retry.first]) ++
          retry.further) := by
  rw [windowOf, further, ← pairTimes_append]
  simp

theorem hits_le (retry : Retry calls) (h : Clocked calls)
    (hended : retry.ends ≤ retry.later.now) :
    ∃ window, windowOf retry.pair
        ((retry.before ++ retry.first :: retry.between) ++ [retry.later]) =
      some window ∧ window.hits ≤ retry.since + 1 := by
  rcases FixedWindow.after_append_ended retry.first_window
    (pairTimes_within_sorted retry.split h) with
    hwithin | ⟨window, hwindow, -, -, hhits⟩
  · have hlater := hwithin retry.later.now (by
      rw [← further, further_eq]
      simp)
    exact absurd hlater (not_lt.mpr hended)
  · refine ⟨window, retry.windowOf_later.trans hwindow, ?_⟩
    have hnow : FixedWindow.reached retry.ends retry.later.now = true :=
      FixedWindow.reached_iff.mpr hended
    rw [← further, further_eq, ← ends, List.countP_append,
      List.countP_singleton, if_pos hnow] at hhits
    exact hhits

theorem further_lt (retry : Retry calls) (h : Clocked calls)
    (hwithin : retry.later.now < retry.ends) :
    ∀ time ∈ retry.further, time < retry.ends := by
  have hsorted := @pairTimes_within_sorted calls retry.pair _ _ _ _ _
    retry.split h
  rw [← further, further_eq] at hsorted
  intro time htime
  rw [further_eq] at htime
  rcases List.mem_append.mp htime with hmem | hmem
  · exact lt_of_le_of_lt ((List.pairwise_append.mp hsorted).2.2 time hmem _
      (List.mem_singleton_self _)) hwithin
  · rw [List.mem_singleton.mp hmem]
    exact hwithin

theorem since_eq_zero (retry : Retry calls) (h : Clocked calls)
    (hwithin : retry.later.now < retry.ends) : retry.since = 0 := by
  rw [since, List.countP_eq_zero]
  intro time htime
  have hlt := retry.further_lt h hwithin time (by
    rw [further_eq]
    exact List.mem_append_left _ htime)
  rw [FixedWindow.reached_iff]
  exact not_le.mpr hlt

theorem hits_of_within (retry : Retry calls) (h : Clocked calls)
    (hwithin : retry.later.now < retry.ends) :
    ∃ window, windowOf retry.pair
        ((retry.before ++ retry.first :: retry.between) ++ [retry.later]) =
      some window ∧ retry.window.hits < window.hits := by
  have hbefore := retry.further_lt h hwithin
  refine ⟨_, retry.windowOf_later.trans
    (FixedWindow.after_append_within retry.first_window hbefore), ?_⟩
  rw [further_eq]
  simp

theorem limit_pos (retry : Retry calls) : 0 < retry.pair.1.limit := by
  have hrule : ∀ rule ∈ rateLimitRules, 0 < rule.limit := by decide
  obtain ⟨rule, hfound, hpair⟩ := Option.map_eq_some_iff.mp retry.first_pair
  rw [← hpair]
  exact hrule rule (ruleFor_mem hfound)

theorem firstAnswer_error (retry : Retry calls) :
    (referenceAnswer false retry.before retry.first).error.isSome = true ↔
      retry.pair.1.limit < retry.window.hits :=
  referenceAnswer_error retry.first_pair retry.first_window

theorem firstAnswer_answer (retry : Retry calls) :
    referenceAnswer false retry.before retry.first =
      answer retry.pair.1 (bucketOf retry.pair.1.windowMs retry.window)
        retry.first.now := by
  have hwindow := retry.first_window
  rw [windowOf_same retry.first_pair] at hwindow
  simp [referenceAnswer, retry.first_pair, Option.some.inj hwindow]

/-- At a time advertised the window has ended, or it is in its last second. -/
theorem ends_le_of_due (retry : Retry calls)
    (hrejected : retry.pair.1.limit < retry.window.hits)
    (hdue : retry.Due (referenceAnswer false retry.before retry.first)) :
    retry.ends ≤ retry.later.now ∨ retry.BeforeEnd := by
  rw [firstAnswer_answer] at hdue
  rcases hdue with ⟨seconds, hheader, hlater⟩ | ⟨seconds, hheader, hlater⟩
  · left
    obtain rfl := answer_retryAfter hrejected hheader
    have hup := le_retryAfterSeconds (retry.ends - retry.first.now)
    have hlater : retry.first.now +
        1000 * retryAfterSeconds (retry.ends - retry.first.now) ≤
        retry.later.now := hlater
    linarith
  · by_cases hended : retry.ends ≤ retry.later.now
    · exact .inl hended
    · right
      rw [answer_reset hrejected] at hheader
      have hseconds := Int.repr_inj.mp (Option.some.inj hheader)
      have hdown : retry.ends / 1000 = seconds := hseconds
      exact ⟨hrejected, by rw [hdown]; exact hlater, not_le.mp hended⟩

theorem not_honoured (retry : Retry calls) (h : Clocked calls)
    (hbefore : retry.BeforeEnd) : ¬ RetryTimesHonoured false calls := by
  obtain ⟨hrejected, hdue, hwithin⟩ := hbefore
  intro hhonoured
  have hsince : retry.since < retry.pair.1.limit := by
    rw [retry.since_eq_zero h hwithin]
    exact retry.limit_pos
  have hheader : (referenceAnswer false retry.before
      retry.first).headers.lookup "X-RateLimit-Reset" =
        some (toString (retry.ends / 1000)) := by
    rw [firstAnswer_answer, answer_reset hrejected]
    rfl
  obtain ⟨later, hlater, herror⟩ := hhonoured retry _
    (retry.firstAnswer_eq h) (retry.firstAnswer_error.mpr hrejected) hsince
    (.inr ⟨_, hheader, hdue⟩)
  obtain ⟨window, hwindow, hhits⟩ := retry.hits_of_within h hwithin
  have hagain := (referenceAnswer_error retry.later_pair hwindow).mpr
    (hrejected.trans hhits)
  rw [retry.laterAnswer_eq h] at hlater
  obtain rfl := Option.some.inj hlater
  simp [herror] at hagain

theorem admitted (retry : Retry calls) (h : Clocked calls)
    (hended : retry.ends ≤ retry.later.now)
    (hsince : retry.since < retry.pair.1.limit) :
    ∃ later, retry.laterAnswer false = some later ∧ later.error = none := by
  obtain ⟨window, hwindow, hhits⟩ := retry.hits_le h hended
  refine ⟨_, retry.laterAnswer_eq h, ?_⟩
  have hadmitted := mt (referenceAnswer_error retry.later_pair hwindow).mp
    (not_lt.mpr (hhits.trans hsince))
  simpa using hadmitted

end Retry

/-- The times are honoured exactly where no call comes in the last second of
the window of a call that it follows and that counts above the limit. -/
theorem retry_times_honoured_iff (disabled : Bool) {calls : List Call}
    (h : Clocked calls) :
    RetryTimesHonoured disabled calls ↔
      disabled = true ∨ ∀ retry : Retry calls, ¬ retry.BeforeEnd := by
  cases disabled with
  | true =>
      refine iff_of_true (fun retry answer hanswer herror => ?_) (.inl rfl)
      rw [retry.firstAnswer_eq h] at hanswer
      obtain rfl := Option.some.inj hanswer
      simp [referenceAnswer] at herror
  | false =>
      simp only [Bool.false_eq_true, false_or]
      constructor
      · intro hhonoured retry hbefore
        exact retry.not_honoured h hbefore hhonoured
      · intro hnone retry answer hanswer herror hsince hdue
        rw [retry.firstAnswer_eq h] at hanswer
        obtain rfl := Option.some.inj hanswer
        have hrejected := retry.firstAnswer_error.mp herror
        have hended := (retry.ends_le_of_due hrejected hdue).resolve_right
          (hnone retry)
        exact retry.admitted h hended hsince

def loginAt (time : Time) : Call :=
  ⟨⟨"POST", "/api/auth/login", "", none⟩, time, time⟩

theorem Retry.not_beforeEnd {calls : List Call} (retry : Retry calls)
    (h : ∀ call ∈ calls, call.now % 1000 = 0) : ¬ retry.BeforeEnd := by
  have hrules : ∀ rule ∈ rateLimitRules, rule.windowMs % 1000 = 0 := by decide
  obtain ⟨rule, hfound, hpair⟩ := Option.map_eq_some_iff.mp retry.first_pair
  have hwidth := hrules rule (ruleFor_mem hfound)
  obtain ⟨call, hcall, hopened⟩ :=
    List.mem_map.mp (FixedWindow.opened_mem retry.first_window)
  have hmem : call ∈ calls := by
    have hbefore := List.mem_of_mem_filter hcall
    rw [retry.split]
    simp only [List.mem_append, List.mem_cons, List.mem_nil_iff] at hbefore ⊢
    tauto
  have hends : retry.ends % 1000 = 0 := by
    rw [ends, ← hpair, ← hopened, Int.add_emod, h call hmem, hwidth]
    rfl
  rintro ⟨-, hdue, hwithin⟩
  have hwhole : 1000 * (retry.ends / 1000) = retry.ends :=
    Int.mul_ediv_cancel' (Int.dvd_of_emod_eq_zero hends)
  rw [hwhole] at hdue
  exact absurd hwithin (not_lt.mpr hdue)

/-- Of 21 logins at the start of a minute the last is rejected, and one that
comes at its end is admitted. -/
theorem retry_times_honoured_of_rejection :
    (answers false (List.replicate 21 (loginAt 0) ++ [loginAt 60000])).map
        (fun answer => answer.error.isSome) =
      List.replicate 20 false ++ [true, false] ∧
    RetryTimesHonoured false
      (List.replicate 21 (loginAt 0) ++ [loginAt 60000]) := by
  refine ⟨by decide +kernel, ?_⟩
  refine (retry_times_honoured_iff false (by decide +kernel)).mpr
    (.inr fun retry => retry.not_beforeEnd ?_)
  decide +kernel

/-- Of 21 logins at 1500 ms the last is rejected and told to come back at 61 s,
half a second before the window ends. -/
theorem retry_times_honoured_fails :
    Clocked (List.replicate 21 (loginAt 1500) ++ [loginAt 61000]) ∧
      ¬ RetryTimesHonoured false
        (List.replicate 21 (loginAt 1500) ++ [loginAt 61000]) := by
  have hclocked : Clocked
      (List.replicate 21 (loginAt 1500) ++ [loginAt 61000]) := by
    decide +kernel
  let retry : Retry (List.replicate 21 (loginAt 1500) ++ [loginAt 61000]) :=
    { before := List.replicate 20 (loginAt 1500)
      first := loginAt 1500
      between := []
      later := loginAt 61000
      after := []
      pair := (authLogin, "unknown")
      window := ⟨1500, 21⟩
      split := rfl
      first_pair := by decide +kernel
      later_pair := by decide +kernel
      first_window := by decide +kernel }
  have hlimit : 20 < 21 := by decide
  have hdue : (1000 : ℤ) * ((1500 + 60000) / 1000) ≤ 61000 := by decide
  have hwithin : (61000 : ℤ) < 1500 + 60000 := by decide
  exact ⟨hclocked, retry.not_honoured hclocked ⟨hlimit, hdue, hwithin⟩⟩

end SyncBridge.RateLimitMiddleware
