import SyncBridge.Runs.Custody
import SyncBridge.Runs.Lifecycle

/-!
# Finished runs and jobs

The fields of the lifecycle match the status of every run and job as long as no
row is started again after it has been finished, and no row is given a start
that is later than the end which another call is about to write.
-/

namespace SyncBridge

open SyncBridge.Foundation SyncBridge.Foundation.Prog

/-- Of every run and every job the fields match the status. -/
structure LifecyclesMatch (store : Store) : Prop where
  runs : ∀ row ∈ store.syncRuns, row.lifecycle.Matches
  jobs : ∀ row ∈ store.backgroundJobs, row.lifecycle.Matches

structure StartsPassed (store : Store) : Prop where
  runs : ∀ row ∈ store.syncRuns, ∀ time, row.startedAt = some time →
    time ≤ store.clock
  jobs : ∀ row ∈ store.backgroundJobs, ∀ time, row.startedAt = some time →
    time ≤ store.clock

def Op.startsRow (store : Store) : Op → Option (Tracked × Time)
  | .syncRunCreate data => data.startedAt.map (Tracked.run store.nextId, ·)
  | .syncRunUpdate id data => data.startedAt.map (Tracked.run id, ·)
  | .backgroundJobUpdate id data => data.startedAt.map (Tracked.job id, ·)
  | _ => none

/-- The step starts a row that has been finished. -/
def Restarts (pool : Platform) : Step → Prop
  | .run index => ∃ task op next tracked time fields,
      pool.tasks[index]? = some task ∧ task.prog = .call op next ∧
      op.startsRow pool.store = some (tracked, time) ∧
      pool.store.HasLifecycle fields tracked ∧ fields.finishedAt.isSome = true
  | _ => False

/-- The step starts a row later than another call is about to finish it. -/
def StartsLate (pool : Platform) : Step → Prop
  | .run index => ∃ task op next tracked startedAt finishedAt,
      pool.tasks[index]? = some task ∧ task.prog = .call op next ∧
      op.startsRow pool.store = some (tracked, startedAt) ∧
      finishedAt < startedAt ∧ ∃ other ∈ pool.tasks.eraseIdx index,
        stamping.MayAct (.finish tracked finishedAt) other.prog
  | _ => False

structure StartsOnce (pool : Platform) (step : Step) : Prop where
  restarts : ¬ Restarts pool step
  startsLate : ¬ StartsLate pool step

section Runs

variable {env : Env} {init : Store} {pool pool' : Platform}
  {ok : Platform → Step → Prop}

theorem lifecyclesMatch_iff {store : Store} :
    LifecyclesMatch store ↔
      ∀ tracked fields, store.HasLifecycle fields tracked → fields.Matches := by
  constructor
  · rintro ⟨hruns, hjobs⟩ (id | id) fields ⟨row, hrow, -, rfl⟩
    · exact hruns row hrow
    · exact hjobs row hrow
  · intro h
    exact ⟨fun row hrow => h (.run row.id) _ ⟨row, hrow, rfl, rfl⟩,
      fun row hrow => h (.job row.id) _ ⟨row, hrow, rfl, rfl⟩⟩

theorem startsPassed_iff {store : Store} :
    StartsPassed store ↔ ∀ tracked fields, store.HasLifecycle fields tracked →
      ∀ time, fields.startedAt = some time → time ≤ store.clock := by
  constructor
  · rintro ⟨hruns, hjobs⟩ (id | id) fields ⟨row, hrow, -, rfl⟩
    · exact hruns row hrow
    · exact hjobs row hrow
  · intro h
    exact ⟨fun row hrow => h (.run row.id) _ ⟨row, hrow, rfl, rfl⟩,
      fun row hrow => h (.job row.id) _ ⟨row, hrow, rfl, rfl⟩⟩

theorem startTime_of_startsRow {op : Op} {store : Store} {tracked : Tracked}
    {time : Time} (h : op.startsRow store = some (tracked, time)) :
    op.startTime = some time := by
  cases op with
  | syncRunCreate _ | syncRunUpdate _ _ | backgroundJobUpdate _ _ =>
      obtain ⟨_, hgiven, heq⟩ := Option.map_eq_some_iff.mp h
      cases heq
      exact hgiven
  | _ => cases h

theorem startsRow_of_updates {op : Op} {store : Store} {tracked : Tracked}
    {update : Lifecycle.Update} {time : Time}
    (hop : op.updates = some (tracked, update))
    (htime : update.startedAt = some time) :
    op.startsRow store = some (tracked, time) := by
  cases op with
  | syncRunUpdate _ _ | backgroundJobUpdate _ _ =>
      cases hop
      exact Option.map_eq_some_iff.mpr ⟨time, htime, rfl⟩
  | _ => cases hop

theorem finishTime_of_updates {op : Op} {tracked : Tracked}
    {update : Lifecycle.Update} {time : Time}
    (hop : op.updates = some (tracked, update))
    (htime : update.finishedAt = some time) :
    op.finishTime = some (tracked, time) := by
  cases op with
  | syncRunUpdate _ _ | backgroundJobUpdate _ _ =>
      cases hop
      exact Option.map_eq_some_iff.mpr ⟨time, htime, rfl⟩
  | _ => cases hop

theorem startsRow_of_inserts {op : Op} {store : Store} {tracked : Tracked}
    {fields : Lifecycle} {time : Time}
    (hop : op.inserts store = some (tracked, fields))
    (htime : fields.startedAt = some time) :
    op.startsRow store = some (tracked, time) := by
  cases op with
  | syncRunCreate data =>
      cases hop
      exact Option.map_eq_some_iff.mpr ⟨time, htime, rfl⟩
  | backgroundJobCreate data =>
      cases hop
      cases htime
  | _ => cases hop

theorem startedAt_effect {op : Op} {store : Store} {tracked : Tracked}
    {fields : Lifecycle} {time : Time}
    (h : (op.effect store).HasLifecycle fields tracked)
    (htime : fields.startedAt = some time) :
    (∃ old, store.HasLifecycle old tracked ∧ old.startedAt = some time) ∨
      op.startsRow store = some (tracked, time) := by
  rcases hasLifecycle_effect h with hold | hinserts |
    ⟨update, old, hop, hold, rfl⟩
  · exact .inl ⟨fields, hold, htime⟩
  · exact .inr (startsRow_of_inserts hinserts htime)
  · rcases Option.or_eq_some_iff.mp htime with hwritten | ⟨-, hbefore⟩
    · exact .inr (startsRow_of_updates hop hwritten)
    · exact .inl ⟨old, hold, hbefore⟩

theorem hasLifecycle_event {event : Event} {store store' : Store} {count : Nat}
    {calls : List Call} {fields : Lifecycle} {tracked : Tracked}
    (henv : event.apply store count = some (store', calls))
    (h : store'.HasLifecycle fields tracked) :
    store.HasLifecycle fields tracked := by
  obtain ⟨clock, jobs, rfl⟩ := Event.apply_store henv
  cases tracked <;> exact h

/-! ## Starts -/

theorem now_of_done {index : Nat} {task : Task Op.Res Failure Answer Call}
    {next : Except Failure Time → Body Answer} {value : Time}
    (h : (platform env).Done pool pool' index task .now next value) :
    value = pool.store.clock ∧ pool'.store = pool.store :=
  ⟨(congrArg Prod.fst (Except.ok.inj (exec_of_done h))).symm, effect_of_done h⟩

theorem stamping_passes :
    stamping.Fits (platform env) ok init.boot fun store stamp =>
      ∀ time, stamp = .start time → time ≤ store.clock where
  body call := (body_clocked call).acts
  shown := by
    intro pool pool' index task op next value stamp _ _ hdone hlooks hshown _
      time hstamp
    obtain rfl : op = .now := hlooks
    obtain ⟨rfl, hstore⟩ := now_of_done hdone
    subst hstamp
    rw [hstore]
    exact le_of_eq hshown
  kept := by
    intro pool pool' index task op next value stamp _ _ hdone _ hpassed time
      hstamp
    rw [effect_of_done hdone, effect_clock]
    exact hpassed time hstamp
  event := by
    intro event store count store' calls henv stamp hpassed time hstamp
    exact le_trans (hpassed time hstamp) (Event.clock_le henv)

theorem startsPassed_of_reach (hinit : StartsPassed init)
    (h : (platform env).Reach ok init.boot pool) :
    StartsPassed pool.store := by
  refine h.invariant (I := fun pool => StartsPassed pool.store) hinit
    ?_ ?_ ?_ ?_
  · exact fun _ _ _ hold _ _ => hold
  · intro pool pool' index task op next value hreach hold _ hdone
    rw [startsPassed_iff] at hold ⊢
    intro tracked fields hfields time htime
    rw [effect_of_done hdone] at hfields ⊢
    rw [effect_clock]
    rcases startedAt_effect hfields htime with ⟨old, hbefore, htold⟩ | hstarts
    · exact hold tracked old hbefore time htold
    · refine (@stamping_passes env init ok).invariant rfl hreach task
        (List.mem_of_getElem? hdone.at_index) (.start time) ?_ time rfl
      rw [hdone.awaits]
      exact .inl (startTime_of_startsRow hstarts)
  · intro pool pool' index task op next failure _ hold _ hraised
    rw [hraised.store]
    exact hold
  · intro pool pool' event calls _ hold _ henv _
    rw [startsPassed_iff] at hold ⊢
    intro tracked fields hfields time htime
    exact le_trans (hold tracked fields (hasLifecycle_event henv hfields) time
      htime) (Event.clock_le henv)

/-- A call writes one time between two readings of the clock. -/
theorem time_unique (h : (platform env).Reach ok init.boot pool)
    {task : Task Op.Res Failure Answer Call} (htask : task ∈ pool.tasks)
    {first second : Stamp} (hfirst : stamping.MayAct first task.prog)
    (hsecond : stamping.MayAct second task.prog) :
    first.time = second.time := by
  obtain ⟨look, hlook⟩ := Lookup.shown_of_reach
    (fun call => (body_clocked call).acts) rfl h task htask
  obtain ⟨⟨op, value⟩, hmem, hshown⟩ := hlook first hfirst
  obtain ⟨entry, hmem', hshown'⟩ := hlook second hsecond
  obtain rfl := Option.mem_unique hmem hmem'
  cases op with
  | now => exact Eq.trans hshown (Eq.symm hshown')
  | _ => exact hshown.elim

/-! ## Ends -/

theorem stamping_fits (hinit : StartsPassed init) :
    stamping.Fits (platform env) StartsOnce init.boot fun store stamp =>
      ∀ tracked finishedAt, stamp = .finish tracked finishedAt →
        ∀ fields, store.HasLifecycle fields tracked →
        ∀ startedAt, fields.startedAt = some startedAt →
          startedAt ≤ finishedAt where
  body call := (body_clocked call).acts
  shown := by
    intro pool pool' index task op next value stamp hreach _ hdone hlooks
      hshown _ tracked finishedAt hstamp fields hfields startedAt hstart
    obtain rfl : op = .now := hlooks
    obtain ⟨rfl, hstore⟩ := now_of_done hdone
    subst hstamp
    rw [hstore] at hfields
    have hpassed := startsPassed_iff.mp (startsPassed_of_reach hinit hreach)
      tracked fields hfields startedAt hstart
    exact hpassed.trans (ge_of_eq hshown)
  kept := by
    intro pool pool' index task op next value stamp hreach hok hdone hacts hfit
      tracked finishedAt hstamp fields hfields startedAt hstart
    rw [effect_of_done hdone] at hfields
    rcases startedAt_effect hfields hstart with ⟨old, hold, hbefore⟩ | hstarts
    · exact hfit tracked finishedAt hstamp old hold startedAt hbefore
    · subst hstamp
      by_contra hlate
      obtain ⟨other, hother, hfinish⟩ := hacts
      obtain ⟨position, hposition⟩ := List.mem_iff_getElem?.mp hother
      by_cases hself : position = index
      · -- The call itself has read both times at once.
        subst hself
        obtain rfl := Option.some.inj (hdone.at_index.symm.trans hposition)
        have hnow : stamping.MayAct (.start startedAt) task.prog := by
          rw [hdone.awaits]
          exact .inl (startTime_of_startsRow hstarts)
        exact hlate (le_of_eq (time_unique hreach hother hnow hfinish))
      · exact hok.startsLate ⟨task, op, next, tracked, startedAt, finishedAt,
          hdone.at_index, hdone.awaits, hstarts, not_le.mp hlate, other,
          List.mem_eraseIdx_iff_getElem?.mpr ⟨position, hself, hposition⟩,
          hfinish⟩
  event := by
    intro event store count store' calls henv stamp hfit tracked finishedAt
      hstamp fields hfields
    exact hfit tracked finishedAt hstamp fields (hasLifecycle_event henv hfields)

theorem matches_inserted {op : Op} {store : Store} {tracked : Tracked}
    {fields : Lifecycle} (horderly : op.Orderly)
    (hop : op.inserts store = some (tracked, fields)) : fields.Matches := by
  cases op with
  | syncRunCreate data =>
      cases hop
      have hphase : data.status.phase = .unfinished := horderly
      constructor <;> simp [hphase]
  | backgroundJobCreate data =>
      cases hop
      have hphase : data.status.phase = .unfinished := horderly
      constructor <;> simp [hphase]
  | _ => cases hop

theorem transition_of_orderly {op : Op} {tracked : Tracked}
    {update : Lifecycle.Update} (horderly : op.Orderly)
    (hop : op.updates = some (tracked, update)) :
    ∃ transition, update = Lifecycle.Transition.update transition := by
  cases op with
  | syncRunUpdate _ _ | backgroundJobUpdate _ _ =>
      cases hop
      exact horderly
  | _ => cases hop

/-- The fields of the lifecycle match the status in every state. -/
theorem lifecycle_fields_match (hmatch : LifecyclesMatch init)
    (hpassed : StartsPassed init)
    (h : (platform env).Reach StartsOnce init.boot pool) :
    LifecyclesMatch pool.store := by
  refine h.invariant (I := fun pool => LifecyclesMatch pool.store) hmatch
    ?_ ?_ ?_ ?_
  · exact fun _ _ _ hold _ _ => hold
  · intro pool pool' index task op next value hreach hold hok hdone
    have hmem := List.mem_of_getElem? hdone.at_index
    have horderly : ∀ call, ((platform env).body call).Uses Op.Orderly :=
      fun call => (body_clocked call).orderly
    have huses := hreach.uses horderly rfl task hmem
    rw [hdone.awaits] at huses
    rw [lifecyclesMatch_iff] at hold ⊢
    intro tracked fields hfields
    rw [effect_of_done hdone] at hfields
    rcases hasLifecycle_effect hfields with hbefore | hinserts |
      ⟨update, old, hop, hbefore, rfl⟩
    · exact hold tracked fields hbefore
    · exact matches_inserted huses.1 hinserts
    · obtain ⟨transition, rfl⟩ := transition_of_orderly huses.1 hop
      have hends : ∀ time, op.finishTime = some (tracked, time) →
          ∀ startedAt, old.startedAt = some startedAt → startedAt ≤ time := by
        intro time hfinish
        refine (stamping_fits hpassed).invariant rfl hreach task hmem
          (.finish tracked time) ?_ tracked time rfl old hbefore
        rw [hdone.awaits]
        exact .inl hfinish
      refine (hold tracked old hbefore).update_iff.mpr ?_
      cases transition with
      | start time =>
          show old.finishedAt = none
          by_contra hfinished
          exact hok.restarts ⟨task, op, next, tracked, time, old,
            hdone.at_index, hdone.awaits, startsRow_of_updates hop rfl, hbefore,
            Option.isSome_iff_ne_none.mpr hfinished⟩
      | succeed time => exact hends time (finishTime_of_updates hop rfl)
      | fail message time => exact hends time (finishTime_of_updates hop rfl)
  · intro pool pool' index task op next failure _ hold _ hraised
    rw [hraised.store]
    exact hold
  · intro pool pool' event calls _ hold _ henv _
    rw [lifecyclesMatch_iff] at hold ⊢
    intro tracked fields hfields
    exact hold tracked fields (hasLifecycle_event henv hfields)

end Runs

/-! ## One job -/

theorem lifecyclesMatch_sample : LifecyclesMatch Sample.store where
  runs _ hrow := absurd hrow List.not_mem_nil
  jobs _ hrow := absurd hrow List.not_mem_nil

theorem startsPassed_sample : StartsPassed Sample.store where
  runs _ hrow := absurd hrow List.not_mem_nil
  jobs _ hrow := absurd hrow List.not_mem_nil

def Store.hasFinished (store : Store) : Tracked → Bool
  | .run id => store.syncRuns.any fun row =>
      row.id = id && row.finishedAt.isSome
  | .job id => store.backgroundJobs.any fun row =>
      row.id = id && row.finishedAt.isSome

def startsFresh (pool : Platform) (step : Step) : Bool :=
  pool.alone step && match step with
    | .run index =>
        match pool.tasks[index]? with
        | some ⟨_, _, .call op _⟩ =>
            (op.startsRow pool.store).all fun start =>
              !pool.store.hasFinished start.1
        | _ => true
    | _ => true

theorem startsOnce_of_startsFresh {pool : Platform} {step : Step}
    (h : startsFresh pool step = true) : StartsOnce pool step := by
  obtain ⟨halone, hfresh⟩ := Bool.and_eq_true_iff.mp h
  constructor
  · intro hrestarts
    cases step with
    | run index =>
        obtain ⟨⟨call, trace, prog⟩, op, next, tracked, time, fields, hget, rfl,
          hstarts, hfields, hfinished⟩ := hrestarts
        have hnever : pool.store.hasFinished tracked = false := by
          simpa [hget, hstarts] using hfresh
        cases tracked with
        | run id | job id =>
            obtain ⟨row, hrow, hid, rfl⟩ := hfields
            have hset : row.finishedAt.isSome = true := hfinished
            exact List.any_eq_false.mp hnever row hrow (by simp [hid, hset])
    | _ => exact hrestarts
  · intro hlate
    cases step with
    | run index =>
        obtain ⟨_, _, _, _, _, _, -, -, -, -, other, hother, hacts⟩ := hlate
        have hended := List.all_eq_true.mp halone other hother
        cases hprog : other.prog with
        | call op next =>
            rw [hprog] at hended
            cases hended
        | ret _ | throw _ =>
            rw [hprog] at hacts
            exact hacts
    | _ => exact hlate

def deliveredOnce : List Step :=
  [.start manualRun] ++ List.replicate 7 (.run 0) ++
    [.env (.tick 1000), .env (.deliver 0)] ++ List.replicate 16 (.run 1)

theorem lifecycle_fields_match_of_delivery :
    ∃ pool, (platform (Sample.env .async)).runWhere
        (fun pool step => startsFresh pool step = true) Sample.store.boot
        deliveredOnce = some pool ∧
      pool.store.syncRuns.map SyncRun.status = [.success] ∧
      pool.store.backgroundJobs.map BackgroundJob.status = [.completed] ∧
      LifecyclesMatch pool.store := by
  have hruns : ((platform (Sample.env .async)).runWhere
      (fun pool step => startsFresh pool step = true) Sample.store.boot
      deliveredOnce).any (fun pool =>
        pool.store.syncRuns.map SyncRun.status = [.success] &&
          pool.store.backgroundJobs.map BackgroundJob.status = [.completed]) =
            true := by
    decide +kernel
  obtain ⟨pool, hrun, hended⟩ := (Option.any_eq_true _ _).mp hruns
  simp only [Bool.and_eq_true, decide_eq_true_eq] at hended
  exact ⟨pool, hrun, hended.1, hended.2,
    lifecycle_fields_match lifecyclesMatch_sample startsPassed_sample
      ((System.reach_of_runWhere hrun).mono fun _ _ =>
        startsOnce_of_startsFresh)⟩

/-- The audit call of the first attempt fails, and the second attempt starts the
job again. -/
def deliveredTwice : List Step :=
  [.start manualRun] ++ List.replicate 7 (.run 0) ++ [.env (.deliver 0)] ++
    List.replicate 8 (.run 1) ++ [.fail 1 (.error "Connection lost")] ++
    List.replicate 7 (.run 1) ++ [.env (.deliver 0)] ++
    List.replicate 5 (.run 2)

def staleEnd (pool : Platform) : Bool :=
  pool.store.backgroundJobs.any fun row =>
    row.status = .processing && row.finishedAt.isSome

theorem lifecycle_fields_match_fails :
    ∃ pool, Reachable (Sample.env .async) Sample.store pool ∧
      ¬ LifecyclesMatch pool.store := by
  have hruns : ((platform (Sample.env .async)).run Sample.store.boot
      deliveredTwice).any staleEnd = true := by
    decide +kernel
  obtain ⟨pool, hrun, hstale⟩ := (Option.any_eq_true _ _).mp hruns
  refine ⟨pool, System.reach_of_run hrun, fun hmatch => ?_⟩
  obtain ⟨row, hrow, hended⟩ := List.any_eq_true.mp hstale
  simp only [Bool.and_eq_true, decide_eq_true_eq] at hended
  refine (hmatch.jobs row hrow).finished.mp hended.2 ?_
  exact congrArg BackgroundJobStatus.phase hended.1

end SyncBridge
