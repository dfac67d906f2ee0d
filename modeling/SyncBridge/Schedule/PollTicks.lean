import SyncBridge.Foundation.Ownership
import SyncBridge.Foundation.Rely
import SyncBridge.Sample
import SyncBridge.Services.Footprint

/-!
# Ticks of the poller

A call that passes the guard of `runPollingCycle` holds the lock of its process
until the `finally` block.  The handler audits the failure of a cycle, and
nothing catches what this audit call raises: as long as it goes through, every
call resolves and leaves the lock free.
-/

namespace SyncBridge

open SyncBridge.Foundation SyncBridge.Foundation.Prog
open SyncBridge.SchedulerService

/-! ## The guard -/

def Op.reportsTick : Op → Bool
  | .auditLogCreate data => data.action = "scheduler_tick_failed"
  | _ => false

def pastGuard (worker : Id) : Monitor Op.Res Call Bool where
  init _ := false
  note _ past op value :=
    match op, value with
    | .pollEnter entered _, value => if entered = worker then value else past
    | .pollLeave left, _ => if left = worker then false else past
    | _, _ => past
  guard _ past op :=
    match op with
    | .pollEnter entered _ => entered = worker → past = false
    | .pollLeave left => left = worker → past = true
    | _ => True
  facts _ _ _ _ := True
  fails _ _ op := op.fallible = true ∧ op.reportsTick = false

def Op.Elsewhere (worker : Id) : Op → Prop
  | .pollEnter entered _ => entered ≠ worker
  | .pollLeave left => left ≠ worker
  | _ => True

def PastGuard (worker : Id) (task : Task Op.Res Failure Answer Call) : Prop :=
  (pastGuard worker).state task = true

/-- One cycle at a time in a process, every call resolves, and the lock is free
unless a call that goes on holds it, so that the next tick may run. -/
structure PollsCleanly (env : Env) (pool : Platform) : Prop where
  exclusive : ∀ worker, AtMostOne (PastGuard worker) pool.tasks
  resolves : ∀ task ∈ pool.tasks, ∀ worker,
    task.call = .runPollingCycle worker → ∀ error, task.prog ≠ .throw error
  released : ∀ worker, pool.store.pollLocks worker = {} ∨
    ∃ task ∈ pool.tasks, PastGuard worker task ∧ task.prog.finished = false
  admits : ∀ worker ttl, (∀ task ∈ pool.tasks, ¬ PastGuard worker task) →
    0 ≤ pool.store.clock →
    ∃ store, exec env (.pollEnter worker ttl) pool.store = .ok (true, store)

/-- The audit call that reports a failed cycle throws. -/
def ReportFails (pool : Platform) : Step → Prop
  | .fail index _ =>
      match pool.tasks[index]? with
      | some ⟨_, _, .call op _⟩ => op.reportsTick = true
      | _ => False
  | _ => False

instance (pool : Platform) : DecidablePred (ReportFails pool)
  | .start _ | .run _ | .env _ => inferInstanceAs (Decidable False)
  | .fail index _ =>
      match htask : pool.tasks[index]? with
      | some ⟨_, _, .call op _⟩ =>
          decidable_of_iff (op.reportsTick = true)
            (by simp only [ReportFails, htask])
      | some ⟨_, _, .ret _⟩ | some ⟨_, _, .throw _⟩ | none =>
          isFalse (by simp [ReportFails, htask])

/-! ## What a call does -/

section Bodies

variable {env : Env} {worker : Id} {call : Call} {past : Bool}

def EndsCleanly (call : Call) (past : Bool)
    (result : Except Failure Answer) : Prop :=
  past = false ∧ ∀ polling, call = .runPollingCycle polling →
    ∃ value, result = .ok value

abbrev Unguarded (worker : Id) (call : Call) (past : Bool) (op : Op) : Prop :=
  (pastGuard worker).Silent call past op

theorem unguarded_of_elsewhere {op : Op} (h : op.Elsewhere worker) :
    Unguarded worker call past op := by
  cases op with
  | pollEnter entered ttl =>
      exact ⟨fun hworker => absurd hworker h, fun _ => if_neg h⟩
  | pollLeave left =>
      exact ⟨fun hworker => absurd hworker h, fun _ => if_neg h⟩
  | _ => exact ⟨trivial, fun _ => rfl⟩

theorem unguarded_quiet : AllowsQuiet (Unguarded worker call past) := by
  refine allowsQuiet fun op hop => unguarded_of_elsewhere ?_
  cases op with
  | pollEnter _ _ | pollLeave _ => cases hop
  | _ => trivial

theorem pollTick_unguarded {startedAt : Time} :
    (pollTick env startedAt).Uses (Unguarded worker call past) := by
  have quiet : AllowsQuiet (Unguarded worker call past) := unguarded_quiet
  have hother : ∀ op : Op, op.Elsewhere worker →
      (await op).Uses (Unguarded worker call past) :=
    fun op hop => (uses_await op).mpr (unguarded_of_elsewhere hop)
  refine pollTick_rule quiet (fun pipelineId actor => ?_)
    (fun _ => hother _ trivial) fun _ _ => hother _ trivial
  refine createScheduledForPipeline_rule quiet fun _ _ _ => ?_
  exact createRunFromPipeline_rule quiet (fun _ _ _ => hother _ trivial)
    (fun _ _ => hother _ trivial) (fun _ _ => hother _ trivial)
    (fun _ _ => hother _ trivial) (fun _ _ => hother _ trivial)
    fun _ _ _ => hother _ trivial

theorem accepts_currentTime_bind {α : Type} {rest : Time → Body α}
    {Q : Bool → Except Failure α → Prop}
    (h : ∀ time, (pastGuard worker).Accepts call Q (rest time) past) :
    (pastGuard worker).Accepts call Q (currentTime.bind rest) past :=
  Monitor.accepts_await_bind.mpr ⟨trivial, fun time _ => h time,
    fun hfails => by cases hfails.1⟩

/-- The `try` block under the `catch` block, which returns whatever has
happened. -/
theorem pollTick_accepts {startedAt : Time} :
    (pastGuard worker).Accepts call
      (fun past' result => past' = past ∧ ∃ value, result = .ok value)
      ((pollTick env startedAt).tryCatch (pollFailed startedAt)) past := by
  rw [Monitor.accepts_tryCatch]
  refine (Monitor.accepts_of_silent pollTick_unguarded).mono ?_
  rintro past' (failure | value) rfl
  · refine accepts_currentTime_bind fun finishedAt => ?_
    refine Monitor.accepts_await.mpr ⟨trivial, fun value _ => ?_, ?_⟩
    · exact ⟨rfl, value, rfl⟩
    · rintro ⟨-, hother⟩
      cases hother
  · exact ⟨rfl, value, rfl⟩

theorem runPollingCycle_accepts {polling : Id} :
    (pastGuard worker).Accepts call
      (fun past' result => past' = false ∧ ∃ value, result = .ok value)
      (runPollingCycle env polling) false := by
  have hfails : ∀ {past : Bool} {op : Op}, op.fallible = false →
      ¬ (pastGuard worker).fails call past op := by
    rintro past op hop ⟨hfallible, -⟩
    rw [hop] at hfallible
    cases hfallible
  simp only [runPollingCycle]
  split
  · exact ⟨rfl, (), rfl⟩
  · refine Monitor.accepts_await_bind.mpr ⟨fun _ => rfl, fun entered _ => ?_,
      fun hfailed => absurd hfailed (hfails rfl)⟩
    split
    · rename_i hrefused
      refine ⟨?_, (), rfl⟩
      simp only [pastGuard]
      split
      · simpa using hrefused
      · rfl
    · refine accepts_currentTime_bind fun startedAt => ?_
      rw [bind_eq, Monitor.accepts_bind, Monitor.accepts_attempt]
      refine pollTick_accepts.mono ?_
      rintro past' result ⟨rfl, value, rfl⟩
      refine Monitor.accepts_await_bind.mpr ⟨?_, fun left _ => ?_,
        fun hfailed => absurd hfailed (hfails rfl)⟩
      · rintro rfl
        simpa [pastGuard] using ‹¬ (!entered) = true›
      · refine ⟨?_, value, rfl⟩
        simp only [pastGuard]
        split <;> rfl

theorem body_endsCleanly (call : Call) :
    (pastGuard worker).Accepts call (EndsCleanly call) (call.body env)
      false := by
  cases call with
  | runPollingCycle polling =>
      refine Monitor.accepts_bind.mpr (runPollingCycle_accepts.mono ?_)
      rintro past' result ⟨rfl, value, rfl⟩
      exact ⟨rfl, fun _ _ => ⟨_, rfl⟩⟩
  | _ =>
      refine (Monitor.accepts_of_silent (body_uses_of ?_ ?_)).mono ?_
      · intro op hop
        refine unguarded_of_elsewhere ?_
        cases op with
        | pollEnter _ _ | pollLeave _ => cases hop
        | _ => trivial
      · intro op hop
        refine unguarded_of_elsewhere ?_
        cases op with
        | pollEnter _ _ | pollLeave _ => cases hop
        | _ => trivial
      · rintro past' result rfl
        exact ⟨rfl, fun _ hcall => by cases hcall⟩

end Bodies

/-! ## Runs of the platform -/

section Runs

variable {env : Env} {init : Store} {pool : Platform} {worker : Id}

theorem reports_of_raised {pool' : Platform} {index : Nat}
    {task : Task Op.Res Failure Answer Call} {op : Op}
    {next : Except Failure op.Res → Body Answer} {error : Failure}
    (hcause : ¬ ReportFails pool (.run index) ∧
        exec env op pool.store = .error error ∨
      ¬ ReportFails pool (.fail index error) ∧ op.fallible = true)
    (hraised : System.Raised pool pool' index task op next error) :
    op.fallible = true ∧ op.reportsTick = false := by
  rcases hcause with ⟨-, hexec⟩ | ⟨hkept, hfallible⟩
  · cases op with
    | now | pollEnter _ _ | pollLeave _ =>
        simp only [exec] at hexec
        try split at hexec
        all_goals cases hexec
    | auditLogCreate data => cases hexec
    | _ => exact ⟨rfl, rfl⟩
  · refine ⟨hfallible, ?_⟩
    obtain ⟨call, trace, prog⟩ := task
    obtain rfl := hraised.awaits
    simpa [ReportFails, hraised.at_index] using hkept

theorem pastGuard_accepts
    (h : (platform env).Reach (fun pool step => ¬ ReportFails pool step)
      init.boot pool) :
    ∀ task ∈ pool.tasks, (pastGuard worker).Accepts task.call
      (EndsCleanly task.call) task.prog
      ((pastGuard worker).state task) := by
  have hrely : Monitor.Rely (pastGuard worker) (platform env)
      (fun pool step => ¬ ReportFails pool step) init.boot (fun _ => True)
      (fun _ => True) (fun _ _ => True) EndsCleanly := by
    refine ⟨fun call _ => body_endsCleanly call,
      fun _ _ _ _ _ _ => ⟨trivial, trivial⟩,
      fun _ _ _ _ _ _ _ _ _ _ _ _ => ⟨trivial, trivial, trivial,
        fun _ _ _ _ _ => trivial⟩, ?_,
      fun _ _ _ _ _ _ _ _ => ⟨trivial, fun _ _ => trivial,
        fun _ _ => ⟨trivial, trivial⟩⟩⟩
    intro pool pool' index task op next error _ _ hcause hraised _
    exact ⟨reports_of_raised hcause hraised, trivial⟩
  exact (hrely.holds rfl trivial h).accepts

theorem elsewhere_cases (worker : Id) (op : Op) :
    (∃ ttl, op = .pollEnter worker ttl) ∨ op = .pollLeave worker ∨
      op.Elsewhere worker := by
  cases op with
  | pollEnter entered ttl =>
      by_cases hworker : entered = worker
      · exact .inl ⟨ttl, by rw [hworker]⟩
      · exact .inr (.inr hworker)
  | pollLeave left =>
      by_cases hworker : left = worker
      · exact .inr (.inl (by rw [hworker]))
      · exact .inr (.inr hworker)
  | _ => exact .inr (.inr trivial)

theorem effect_elsewhere {op : Op} {store : Store} (h : op.Elsewhere worker) :
    (op.effect store).pollLocks worker = store.pollLocks worker := by
  cases op with
  | pollEnter entered ttl =>
      simp only [Op.effect]
      split
      · rfl
      · exact if_neg (Ne.symm h)
  | pollLeave left => exact if_neg (Ne.symm h)
  | _ => rfl

theorem exec_pollLeave {store store' : Store} {left : Unit}
    (h : exec env (.pollLeave worker) store = .ok (left, store')) :
    store'.pollLocks worker = {} := by
  obtain rfl := congrArg Prod.snd (Except.ok.inj h)
  exact if_pos rfl

theorem exec_pollEnter {ttl : Nat} {store store' : Store} {entered : Bool}
    (h : exec env (.pollEnter worker ttl) store = .ok (entered, store')) :
    entered = false ∧ store' = store ∨
      entered = true ∧ (store.pollLocks worker).pollInProgress = false ∧
        (store'.pollLocks worker).pollInProgress = true := by
  simp only [exec] at h
  split at h
  · obtain ⟨rfl, rfl⟩ := Prod.mk.inj (Except.ok.inj h)
    exact .inl ⟨rfl, rfl⟩
  · rename_i hfree
    obtain ⟨rfl, rfl⟩ := Prod.mk.inj (Except.ok.inj h)
    simp only [Bool.or_eq_true, not_or, Bool.not_eq_true] at hfree
    exact .inr ⟨rfl, hfree.1, by simp⟩

theorem exec_pollEnter_free {ttl : Nat} {store : Store}
    (hlock : store.pollLocks worker = {}) (hclock : 0 ≤ store.clock) :
    ∃ store', exec env (.pollEnter worker ttl) store = .ok (true, store') := by
  have hfree : ¬ ((store.pollLocks worker).pollInProgress ||
      decide (store.clock < (store.pollLocks worker).lockUntil)) = true := by
    simpa [hlock] using hclock
  exact ⟨_, if_neg hfree⟩

/-- The lock is owned by the call that is past the guard. -/
theorem pastGuard_ownership :
    Ownership (pastGuard worker) (fun past => past = true)
      (fun store : Store => store.pollLocks worker = {})
      (fun _ store => (store.pollLocks worker).pollInProgress = true)
      (platform env) (fun pool step => ¬ ReportFails pool step) init.boot where
  start _ _ := nofun
  acts := by
    intro pool pool' index task op next value _ _ hdone hguard howns hheld
    have hexec := exec_of_done hdone
    rcases elsewhere_cases worker op with ⟨ttl, rfl⟩ | rfl | helse
    · exact absurd howns (by simp [hguard rfl])
    · exact .inr ⟨by simp [pastGuard], exec_pollLeave hexec⟩
    · refine .inl ⟨?_, ?_⟩
      · rw [(unguarded_of_elsewhere helse).2 value]
        exact howns
      · rw [effect_of_done hdone, effect_elsewhere helse]
        exact hheld
  passes := by
    intro pool pool' index task op next value _ hdone hguard hother hstays
    have hexec := exec_of_done hdone
    rcases elsewhere_cases worker op with ⟨ttl, rfl⟩ | rfl | helse
    · rcases exec_pollEnter hexec with ⟨-, hsame⟩ | ⟨rfl, -⟩
      · rw [hsame]
        exact ⟨id, fun _ => id⟩
      · exact absurd (by simp [pastGuard]) hstays
    · exact absurd (hguard rfl) hother
    · rw [effect_of_done hdone, effect_elsewhere helse]
      exact ⟨id, fun _ => id⟩
  takes := by
    intro pool pool' index task op next value _ hdone hguard hother htakes
    have hexec := exec_of_done hdone
    rcases elsewhere_cases worker op with ⟨ttl, rfl⟩ | rfl | helse
    · rcases exec_pollEnter hexec with ⟨rfl, -⟩ | ⟨-, hfree, hheld⟩
      · exact absurd htakes (by simp [pastGuard])
      · exact ⟨fun _ => by simp [hfree], fun _ => hheld⟩
    · exact absurd (hguard rfl) hother
    · rw [(unguarded_of_elsewhere helse).2 value] at htakes
      exact absurd htakes hother
  event := by
    intro pool pool' event calls _ _ henv
    obtain ⟨clock, jobs, hstore⟩ := Event.apply_store henv
    rw [hstore]
    exact .inl ⟨id, fun _ => id, fun _ _ => nofun⟩

/-- As long as the audit call that reports a failed cycle goes through, every
tick ends cleanly. -/
theorem polls_cleanly (hinit : ∀ worker, init.pollLocks worker = {})
    (h : (platform env).Reach (fun pool step => ¬ ReportFails pool step)
      init.boot pool) : PollsCleanly env pool := by
  have howned := fun worker => pastGuard_ownership.owned
    (fun _ hreach => pastGuard_accepts hreach) rfl (hinit worker) h
  refine ⟨fun worker => (howned worker).one, ?_, ?_, ?_⟩
  · intro task htask worker hcall error hthrows
    have haccepts := @pastGuard_accepts env init pool worker h task htask
    rw [hthrows] at haccepts
    obtain ⟨value, hvalue⟩ := haccepts.2 worker hcall
    cases hvalue
  · intro worker
    by_cases hfree : ∀ task ∈ pool.tasks, ¬ PastGuard worker task
    · exact .inl ((howned worker).free hfree)
    · push Not at hfree
      obtain ⟨task, htask, hpast⟩ := hfree
      refine .inr ⟨task, htask, hpast, ?_⟩
      have haccepts := @pastGuard_accepts env init pool worker h task htask
      obtain ⟨call, trace, prog⟩ := task
      cases prog with
      | call op next => rfl
      | ret value => exact absurd hpast (by simpa [PastGuard] using haccepts.1)
      | throw error => exact absurd hpast (by simpa [PastGuard] using haccepts.1)
  · exact fun worker ttl hfree hclock =>
      exec_pollEnter_free ((howned worker).free hfree) hclock

end Runs

/-! ## A cycle that fails -/

def failedTick : List Step :=
  [.start (.runPollingCycle 1), .run 0, .run 0, .fail 0 uniqueViolation, .run 0]

/-- The failure is reported, and the call resolves. -/
theorem polls_cleanly_of_failedTick :
    ∃ pool, (platform (Sample.env .async)).runWhere
        (fun pool step => ¬ ReportFails pool step) Sample.store.boot
        (failedTick ++ [.run 0, .run 0]) = some pool ∧
      (pool.tasks.all fun task => task.prog.finished) = true ∧
      PollsCleanly (Sample.env .async) pool := by
  have hruns : ((platform (Sample.env .async)).runWhere
      (fun pool step => ¬ ReportFails pool step) Sample.store.boot
      (failedTick ++ [.run 0, .run 0])).any (fun pool =>
        pool.tasks.all fun task => task.prog.finished) = true := by
    decide +kernel
  obtain ⟨pool, hrun, hended⟩ := (Option.any_eq_true _ _).mp hruns
  exact ⟨pool, hrun, hended,
    polls_cleanly (fun _ => rfl) (System.reach_of_runWhere hrun)⟩

def hasRejected (task : Task Op.Res Failure Answer Call) : Bool :=
  match task.call, task.prog with
  | .runPollingCycle _, .throw _ => true
  | _, _ => false

/-- The audit call that reports the failure throws, and the call rejects. -/
theorem polls_cleanly_fails :
    ∃ pool, Reachable (Sample.env .async) Sample.store pool ∧
      ¬ PollsCleanly (Sample.env .async) pool := by
  have hruns : ((platform (Sample.env .async)).run Sample.store.boot
      (failedTick ++ [.fail 0 uniqueViolation, .run 0])).any (fun pool =>
        pool.tasks.any hasRejected) = true := by
    decide +kernel
  obtain ⟨pool, hrun, hrejected⟩ := (Option.any_eq_true _ _).mp hruns
  refine ⟨pool, System.reach_of_run hrun, fun hclean => ?_⟩
  obtain ⟨⟨call, trace, prog⟩, htask, hthrown⟩ := List.any_eq_true.mp hrejected
  cases call with
  | runPollingCycle worker =>
      cases prog with
      | throw error =>
          exact hclean.resolves _ htask worker rfl error rfl
      | ret value => cases hthrown
      | call op next => cases hthrown
  | _ => cases hthrown

end SyncBridge
