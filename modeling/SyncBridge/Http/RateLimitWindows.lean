import SyncBridge.Foundation.FixedWindow
import SyncBridge.Services.RateLimit

/-!
# Swept buckets and fixed windows

The limiter answers as one would that keeps, for every rule and client address,
the fixed window of all calls so far and never forgets any.  Sweeping forgets
ended windows only, and the next call opens a new one either way.
-/

namespace SyncBridge.RateLimitMiddleware

open SyncBridge.Foundation

/-! ## The reference -/

abbrev Pair := RateLimitRule × String

def pairOf (call : Call) : Option Pair :=
  (ruleFor call.request).map fun rule => (rule, clientAddress call.request)

def pairTimes (pair : Pair) (calls : List Call) : List Time :=
  (calls.filter fun call => pairOf call = some pair).map Call.now

def windowOf (pair : Pair) (calls : List Call) : Option FixedWindow :=
  FixedWindow.after pair.1.windowMs (pairTimes pair calls)

def bucketOf (windowMs : Time) (window : FixedWindow) : Bucket :=
  ⟨window.hits, window.opened + windowMs⟩

/-- The answer to a call after others, from the windows of all of them. -/
def referenceAnswer (disabled : Bool) (before : List Call) (call : Call) :
    Answer :=
  if disabled then {}
  else
    match pairOf call with
    | none => {}
    | some pair =>
        answer pair.1 (bucketOf pair.1.windowMs
          (FixedWindow.hit pair.1.windowMs call.now (windowOf pair before)))
          call.now

def referenceFrom (disabled : Bool) (before : List Call) :
    List Call → List Answer
  | [] => []
  | call :: calls =>
      referenceAnswer disabled before call ::
        referenceFrom disabled (before ++ [call]) calls

def referenceAnswers (disabled : Bool) (calls : List Call) : List Answer :=
  referenceFrom disabled [] calls

/-- No reading of the clock is before an earlier one. -/
def Clocked (calls : List Call) : Prop :=
  (calls.flatMap fun call => [call.cleanupAt, call.now]).Pairwise (· ≤ ·)

instance (calls : List Call) : Decidable (Clocked calls) :=
  inferInstanceAs (Decidable (List.Pairwise _ _))

/-! ## Keys -/

theorem eq_of_split {separator : Char} {name name' rest rest' : List Char}
    (hname : separator ∉ name) (hname' : separator ∉ name')
    (h : name ++ separator :: rest = name' ++ separator :: rest') :
    name = name' ∧ rest = rest' := by
  have htake : ∀ {text rest : List Char}, separator ∉ text →
      (text ++ separator :: rest).takeWhile (· ≠ separator) = text := by
    intro text rest htext
    rw [List.takeWhile_append_of_pos fun char hchar => by
      simpa using fun heq : char = separator => htext (heq ▸ hchar)]
    simp
  have heq : name = name' := by
    rw [← htake hname, h, htake hname']
  subst heq
  simpa using h

section Keys

variable {rule other : RateLimitRule} {address address' : String}

theorem colon_notMem_name (h : rule ∈ rateLimitRules) :
    ':' ∉ rule.name.toList := by
  revert rule
  decide

theorem eq_of_name : ∀ rule ∈ rateLimitRules, ∀ other ∈ rateLimitRules,
    rule.name = other.name → rule = other := by
  decide

/-- No rule's name has a colon, so the key tells the rule and the address. -/
theorem buildKey_inj (h : rule ∈ rateLimitRules) (h' : other ∈ rateLimitRules)
    (hkey : buildKey rule.name address = buildKey other.name address') :
    rule = other ∧ address = address' := by
  have hchars := congrArg String.toList hkey
  simp only [buildKey, toString, String.toList_append, List.append_assoc]
    at hchars
  obtain ⟨hname, haddress⟩ := eq_of_split (colon_notMem_name h)
    (colon_notMem_name h') hchars
  exact ⟨eq_of_name rule h other h' (String.toList_inj.mp hname),
    String.toList_inj.mp haddress⟩

end Keys

theorem ruleFor_mem {request : Request} {rule : RateLimitRule}
    (h : ruleFor request = some rule) : rule ∈ rateLimitRules := by
  rw [ruleFor, matchRule] at h
  exact List.mem_of_find?_eq_some h

/-! ## The counters and the windows -/

section Counters

variable {before : List Call} {now later : Time} {state : Counters}

/-- Every pair's window is held under its key, or has ended and is not. -/
def Holds (before : List Call) (now : Time) (state : Counters) : Prop :=
  ∀ rule ∈ rateLimitRules, ∀ address, ∃ kept,
    state.counters (buildKey rule.name address) =
      kept.map (bucketOf rule.windowMs) ∧
    FixedWindow.Pruned rule.windowMs now (windowOf (rule, address) before) kept

theorem holds_initial : Holds [] now .initial :=
  fun _ _ _ => ⟨none, rfl, .refl⟩

theorem Holds.mono (h : Holds before now state) (hle : now ≤ later) :
    Holds before later state := by
  intro rule hrule address
  obtain ⟨kept, hkept, hpruned⟩ := h rule hrule address
  exact ⟨kept, hkept, hpruned.mono hle⟩

/-- Sweeping forgets ended windows only. -/
theorem Holds.sweep (h : Holds before now state) :
    Holds before now (cleanupExpiredBuckets now state) := by
  intro rule hrule address
  obtain ⟨kept, hkept, hpruned⟩ := h rule hrule address
  by_cases hearly : now - state.lastCleanupAt < 30000
  · exact ⟨kept, by simp [cleanupExpiredBuckets, hearly, hkept], hpruned⟩
  · cases kept with
    | none =>
        refine ⟨none, ?_, hpruned⟩
        simp [cleanupExpiredBuckets, hearly, hkept]
    | some window =>
        by_cases hended : window.opened + rule.windowMs ≤ now
        · refine ⟨none, ?_, hpruned.forget (by simpa using hended)⟩
          simp [cleanupExpiredBuckets, hearly, hkept, bucketOf, hended]
        · refine ⟨some window, ?_, hpruned⟩
          simp [cleanupExpiredBuckets, hearly, hkept, bucketOf, hended]

theorem countRequest_bucketOf {windowMs : Time} {kept : Option FixedWindow} :
    countRequest windowMs now (kept.map (bucketOf windowMs)) =
      bucketOf windowMs (FixedWindow.hit windowMs now kept) := by
  cases kept with
  | none => simp [countRequest, bucketOf, FixedWindow.hit]
  | some window =>
      by_cases hended : window.opened + windowMs ≤ now <;>
        simp [countRequest, bucketOf, FixedWindow.hit, hended]

end Counters

/-! ## One call -/

section Call

variable {before calls : List Call} {now : Time} {state : Counters}
  {call : Call} {pair : Pair} {rule : RateLimitRule} {disabled : Bool}

theorem pairTimes_concat :
    pairTimes pair (before ++ [call]) =
      pairTimes pair before ++
        if pairOf call = some pair then [call.now] else [] := by
  by_cases h : pairOf call = some pair <;>
    simp [pairTimes, List.filter_append, h]

theorem windowOf_same (h : pairOf call = some pair) :
    windowOf pair (before ++ [call]) =
      some (FixedWindow.hit pair.1.windowMs call.now
        (windowOf pair before)) := by
  rw [windowOf, pairTimes_concat, if_pos h, FixedWindow.after_concat, windowOf]

theorem windowOf_other (h : pairOf call ≠ some pair) :
    windowOf pair (before ++ [call]) = windowOf pair before := by
  rw [windowOf, pairTimes_concat, if_neg h, List.append_nil, windowOf]

/-- A call is answered as the reference answers it, and its hit is held. -/
theorem Holds.useRequest (h : Holds before now state)
    (hcleanup : now ≤ call.cleanupAt) (hnow : call.cleanupAt ≤ call.now) :
    (useRequest false state call).1 = referenceAnswer false before call ∧
      Holds (before ++ [call]) call.now (useRequest false state call).2 := by
  cases hrule : ruleFor call.request with
  | none =>
      have hpair : pairOf call = none := by rw [pairOf, hrule]; rfl
      refine ⟨by simp [RateLimitMiddleware.useRequest, hrule, referenceAnswer,
        hpair], fun rule hmem address => ?_⟩
      rw [windowOf_other (by simp [hpair])]
      simpa [RateLimitMiddleware.useRequest, hrule] using
        h.mono (le_trans hcleanup hnow) rule hmem address
  | some rule =>
      have hpair : pairOf call = some (rule, clientAddress call.request) := by
        rw [pairOf, hrule]
        rfl
      have hmem := ruleFor_mem hrule
      have hswept := ((h.mono hcleanup).sweep).mono hnow
      obtain ⟨kept, hkept, hpruned⟩ :=
        hswept rule hmem (clientAddress call.request)
      have hbucket : countRequest rule.windowMs call.now
          ((cleanupExpiredBuckets call.cleanupAt state).counters
            (buildKey rule.name (clientAddress call.request))) =
          bucketOf rule.windowMs (FixedWindow.hit rule.windowMs call.now
            (windowOf (rule, clientAddress call.request) before)) := by
        rw [hkept, countRequest_bucketOf, hpruned.hit_eq]
      refine ⟨by simp [RateLimitMiddleware.useRequest, hrule, referenceAnswer,
        hpair, hbucket], fun other hother address => ?_⟩
      simp only [RateLimitMiddleware.useRequest, hrule, hbucket]
      by_cases hsame : pairOf call = some (other, address)
      · obtain ⟨rfl, rfl⟩ : rule = other ∧
            clientAddress call.request = address := by
          simpa [hpair] using hsame
        refine ⟨_, ?_, .inl (windowOf_same hsame).symm⟩
        simp
      · have hkey : buildKey other.name address ≠
            buildKey rule.name (clientAddress call.request) := by
          intro heq
          obtain ⟨rfl, rfl⟩ := buildKey_inj hother hmem heq
          exact hsame hpair
        obtain ⟨kept, hkept, hpruned⟩ := hswept other hother address
        rw [windowOf_other hsame]
        refine ⟨kept, ?_, hpruned⟩
        simpa [Function.update_of_ne hkey] using hkept

end Call

/-! ## All calls -/

section Calls

variable {before calls : List Call} {now : Time} {state : Counters}
  {disabled : Bool}

theorem clocked_cons {call : Call} (h : Clocked (call :: calls)) :
    call.cleanupAt ≤ call.now ∧ Clocked calls ∧
      ∀ other ∈ calls, call.now ≤ other.cleanupAt := by
  simp only [Clocked, List.flatMap_cons, List.cons_append, List.nil_append,
    List.pairwise_cons, List.mem_cons, List.mem_flatMap] at h
  obtain ⟨hcleanup, hnow, hrest⟩ := h
  exact ⟨hcleanup _ (.inl rfl), hrest, fun other hother =>
    hnow _ ⟨other, hother, by simp⟩⟩

theorem answersFrom_disabled :
    answersFrom true state calls = referenceFrom true before calls := by
  induction calls generalizing before with
  | nil => rfl
  | cons call calls ih =>
      simp [answersFrom, referenceFrom, useRequest, referenceAnswer, ← ih]

theorem answersFrom_enabled (h : Holds before now state)
    (hclocked : Clocked calls) (hlater : ∀ call ∈ calls, now ≤ call.cleanupAt) :
    answersFrom false state calls = referenceFrom false before calls := by
  induction calls generalizing before now state with
  | nil => rfl
  | cons call calls ih =>
      obtain ⟨hnow, hclocked, hrest⟩ := clocked_cons hclocked
      obtain ⟨hanswer, hholds⟩ :=
        h.useRequest (hlater call List.mem_cons_self) hnow
      rw [answersFrom, referenceFrom, ← hanswer, ← ih hholds hclocked hrest]

theorem answers_eq (h : Clocked calls) :
    answers disabled calls = referenceAnswers disabled calls := by
  cases disabled with
  | true => exact answersFrom_disabled
  | false =>
      cases calls with
      | nil => rfl
      | cons call calls =>
          obtain ⟨hnow, -, hrest⟩ := clocked_cons h
          refine @answersFrom_enabled [] (call :: calls) call.cleanupAt _
            holds_initial h fun other hother => ?_
          rcases List.mem_cons.mp hother with rfl | hother
          · exact le_refl _
          · exact le_trans hnow (hrest other hother)

theorem referenceFrom_getElem {call : Call} {after : List Call} :
    (referenceFrom disabled before (calls ++ call :: after))[calls.length]? =
      some (referenceAnswer disabled (before ++ calls) call) := by
  induction calls generalizing before with
  | nil => simp [referenceFrom]
  | cons first calls ih => simp [referenceFrom, ih]

end Calls

/-! ## Rejections -/

section Rejections

variable {before after calls : List Call} {call : Call} {pair : Pair}
  {rule : RateLimitRule} {bucket : Bucket} {now : Time}

theorem answer_error :
    (answer rule bucket now).error.isSome = true ↔ rule.limit < bucket.count := by
  by_cases h : rule.limit < bucket.count <;> simp [answer, h]

theorem referenceAnswer_error (hpair : pairOf call = some pair)
    {window : FixedWindow}
    (hwindow : windowOf pair (before ++ [call]) = some window) :
    (referenceAnswer false before call).error.isSome = true ↔
      pair.1.limit < window.hits := by
  rw [windowOf_same hpair] at hwindow
  obtain rfl := Option.some.inj hwindow
  simp only [referenceAnswer, hpair, Bool.false_eq_true, if_false, answer_error,
    bucketOf]

theorem answers_getElem {disabled : Bool}
    (h : Clocked (before ++ call :: after)) :
    (answers disabled (before ++ call :: after))[before.length]? =
      some (referenceAnswer disabled before call) := by
  rw [answers_eq h]
  exact @referenceFrom_getElem [] before disabled call after

end Rejections

/-- The answers are those of the limiter that forgets no window, and a call is
rejected exactly if its pair has had the limit and one more calls since the
window opened, this one included. -/
theorem sweeping_changes_no_answer (disabled : Bool) {calls : List Call}
    (h : Clocked calls) :
    answers disabled calls = referenceAnswers disabled calls ∧
      ∀ before call after pair inside, calls = before ++ call :: after →
        disabled = false → pairOf call = some pair →
        FixedWindow.Since pair.1.windowMs (pairTimes pair (before ++ [call]))
          inside →
        ∃ answer, (answers disabled calls)[before.length]? = some answer ∧
          (answer.error.isSome = true ↔ pair.1.limit + 1 ≤ inside.length) := by
  refine ⟨answers_eq h, ?_⟩
  rintro before call after pair inside rfl rfl hpair hinside
  refine ⟨_, answers_getElem h, ?_⟩
  have hafter := hinside.after
  rw [← windowOf, windowOf_same hpair] at hafter
  cases inside with
  | nil => cases hafter
  | cons opened inside =>
      exact referenceAnswer_error hpair ((windowOf_same hpair).trans hafter)

/-- Two logins from one address, a window apart. -/
theorem sweeping_changes_no_answer_of_logins :
    answers false [⟨⟨"POST", "/api/auth/login", "", none⟩, 0, 1⟩,
        ⟨⟨"POST", "/api/auth/login", "", none⟩, 60001, 60001⟩] =
      referenceAnswers false [⟨⟨"POST", "/api/auth/login", "", none⟩, 0, 1⟩,
        ⟨⟨"POST", "/api/auth/login", "", none⟩, 60001, 60001⟩] :=
  (sweeping_changes_no_answer false (by decide)).1

end SyncBridge.RateLimitMiddleware
