import SyncBridge.Sample
import SyncBridge.Schedule.IdleCheck

/-!
# Scheduled runs exclude each other

Nothing locks a pipeline between the count of its active runs and the insertion
of a new one, and the queue sets a run that has ended back to `RUNNING` when it
delivers its job again.  Unless two counts overlap or a run is reopened next to
another one, a pipeline has at most one active scheduled run.
-/

namespace SyncBridge

open SyncBridge.Foundation SyncBridge.Foundation.Prog

/-! ## Active scheduled runs -/

def SyncRun.ActiveScheduled (pipelineId : Id) (row : SyncRun) : Prop :=
  row.pipelineId = pipelineId ∧ row.triggerType = .scheduled ∧
    row.status.isActive = true

instance (pipelineId : Id) : DecidablePred (SyncRun.ActiveScheduled pipelineId) :=
  fun row => by unfold SyncRun.ActiveScheduled; infer_instance

def ScheduledRunsExclusive (store : Store) : Prop :=
  ∀ pipelineId, AtMostOne (SyncRun.ActiveScheduled pipelineId) store.syncRuns

/-- The step sets a scheduled run that has ended back to an active status, while
another one of its pipeline is active or about to be started. -/
def Reopens (pool : Platform) : Step → Prop
  | .run index =>
      match pool.tasks[index]? with
      | some ⟨_, _, .call (.syncRunUpdate id data) _⟩ =>
          data.status.isActive = true ∧
            ∃ row ∈ pool.store.syncRuns, row.id = id ∧
              row.triggerType = .scheduled ∧ row.status.isActive = false ∧
              ((∃ other ∈ pool.store.syncRuns,
                  other.ActiveScheduled row.pipelineId) ∨
                ∃ task ∈ pool.tasks, idleCheck.InWindow row.pipelineId task)
      | _ => False
  | _ => False

/-- Two calls find a pipeline idle before either has started its run, or a run
is reopened next to another one. -/
def Collides (env : Env) (pool : Platform) (step : Step) : Prop :=
  idleCheck.Overlaps (platform env) pool step ∨ Reopens pool step

/-! ## What a step makes active -/

section Steps

variable {env : Env} {init : Store} {pool pool' : Platform} {index : Nat}
  {task : Task Op.Res Failure Answer Call} {op : Op}
  {next : Except Failure op.Res → Body Answer} {value : op.Res}

def WindowsIdle (pool : Platform) : Prop :=
  ∀ pipelineId, ∀ task ∈ pool.tasks, idleCheck.InWindow pipelineId task →
    ∀ row ∈ pool.store.syncRuns, ¬ row.ActiveScheduled pipelineId

/-- An active scheduled run was active before, or the step has made it active
and its pipeline had none and is in no window. -/
def OnlyOpens (pool pool' : Platform) (opened : Id) : Prop :=
  ∀ pipelineId, ∀ row' ∈ pool'.store.syncRuns,
    row'.ActiveScheduled pipelineId →
    (∃ row ∈ pool.store.syncRuns, row.ActiveScheduled pipelineId ∧
      row.id = row'.id) ∨
    row'.id = opened ∧
      (∀ row ∈ pool.store.syncRuns, ¬ row.ActiveScheduled pipelineId) ∧
      ∀ task ∈ pool'.tasks, ¬ idleCheck.InWindow pipelineId task

theorem onlyOpens_of_eq (h : pool'.store.syncRuns = pool.store.syncRuns) :
    OnlyOpens pool pool' 0 := by
  intro pipelineId row' hrow' hactive
  rw [h] at hrow'
  exact .inl ⟨row', hrow', hactive, rfl⟩

theorem idle_of_findsIdle {pipelineId : Id}
    (hexec : exec env op pool.store = .ok (value, pool'.store))
    (hfound : op.findsIdle value = some pipelineId) :
    ∀ row ∈ pool'.store.syncRuns, ¬ row.ActiveScheduled pipelineId := by
  cases op with
  | syncRunCountActive counted =>
      simp only [exec, Except.ok.injEq, Prod.mk.injEq] at hexec
      obtain ⟨hcount, hstore⟩ := hexec
      simp only [Op.findsIdle] at hfound
      split at hfound
      · rename_i hzero
        obtain rfl := Option.some.inj hfound
        have hnone := List.length_eq_zero_iff.mp (hcount.trans hzero)
        rw [List.filter_eq_nil_iff] at hnone
        rintro row hrow ⟨hpipeline, -, hactive⟩
        rw [← hstore] at hrow
        exact hnone row hrow (by simp [hpipeline, hactive])
      · cases hfound
  | _ => cases hfound

theorem onlyOpens_of_create {data : NewSyncRun}
    {next : Except Failure SyncRun → Body Answer} {run : SyncRun}
    (hone : ∀ key, AtMostOne (idleCheck.InWindow key) pool.tasks)
    (hinside : ∀ key, Op.startsScheduled (.syncRunCreate data) = some key →
      idleCheck.InWindow key task)
    (hidle : WindowsIdle pool)
    (hdone : (platform env).Done pool pool' index task (.syncRunCreate data)
      next run) :
    OnlyOpens pool pool' pool.store.nextId := by
  intro pipelineId row' hrow' hactive
  rw [effect_of_done hdone] at hrow'
  rcases List.mem_append.mp hrow' with hold | hnew
  · exact .inl ⟨row', hold, hactive, rfl⟩
  · obtain rfl := List.mem_singleton.mp hnew
    obtain ⟨hpipeline, hscheduled, -⟩ := hactive
    have hacts : Op.startsScheduled (.syncRunCreate data) =
        some pipelineId := by
      rw [← hpipeline]
      exact if_pos hscheduled
    have hacting := hinside pipelineId hacts
    have hmem := List.mem_of_getElem? hdone.at_index
    refine .inr ⟨rfl, hidle pipelineId task hmem hacting, ?_⟩
    intro other hother hwindow
    obtain ⟨position, hposition⟩ := List.mem_iff_getElem?.mp hother
    rw [hdone.tasks_getElem?] at hposition
    split at hposition
    · obtain rfl := Option.some.inj hposition
      exact CheckThenAct.not_inWindow_of_acts rfl hacts _ hwindow
    · rename_i hne
      exact hne (hone pipelineId position index other task hposition
        hdone.at_index hwindow hacting)

theorem onlyOpens_of_update {id : Id} {data : SyncRunData}
    {next : Except Failure SyncRun → Body Answer} {run : SyncRun}
    (hkeeps : ¬ Reopens pool (.run index))
    (hdone : (platform env).Done pool pool' index task
      (.syncRunUpdate id data) next run) :
    OnlyOpens pool pool' id := by
  obtain ⟨call, trace, prog⟩ := task
  obtain rfl := hdone.awaits
  simp only [Reopens, hdone.at_index] at hkeeps
  intro pipelineId row' hrow' hactive
  rw [effect_of_done hdone] at hrow'
  obtain ⟨row, hrow, rfl⟩ := Table.mem_modify.mp hrow'
  split at hactive
  · rename_i hid
    rw [if_pos hid]
    obtain ⟨hpipeline, hscheduled, hopen⟩ := hactive
    cases hstatus : row.status.isActive with
    | true => exact .inl ⟨row, hrow, ⟨hpipeline, hscheduled, hstatus⟩, rfl⟩
    | false =>
        have hnone : ∀ other ∈ pool.store.syncRuns,
            ¬ other.ActiveScheduled pipelineId := by
          intro other hother hothers
          refine hkeeps ⟨hopen, row, hrow, hid, hscheduled, hstatus,
            .inl ⟨other, hother, ?_⟩⟩
          exact hpipeline ▸ hothers
        have houtside : ∀ inside ∈ pool.tasks,
            ¬ idleCheck.InWindow pipelineId inside := by
          intro inside hinside hwindow
          refine hkeeps ⟨hopen, row, hrow, hid, hscheduled, hstatus,
            .inr ⟨inside, hinside, ?_⟩⟩
          exact hpipeline ▸ hwindow
        refine .inr ⟨hid, hnone, ?_⟩
        intro other hother hwindow
        rw [hdone.tasks] at hother
        rcases List.mem_or_eq_of_mem_set hother with hold | rfl
        · exact houtside other hold hwindow
        · rcases CheckThenAct.inWindow_of_done hdone hwindow with
            hfound | hbefore
          · cases hfound
          · exact houtside _ (List.mem_of_getElem? hdone.at_index) hbefore
  · rename_i hid
    rw [if_neg hid]
    exact .inl ⟨row, hrow, hactive, rfl⟩

theorem onlyOpens_of_done (hasync : env.queueMode = .async)
    (hreach : (platform env).Reach (fun pool step => ¬ Collides env pool step)
      init.boot pool)
    (hidle : WindowsIdle pool) (hkeeps : ¬ Collides env pool (.run index))
    (hdone : (platform env).Done pool pool' index task op next value) :
    ∃ opened, OnlyOpens pool pool' opened := by
  have hone := CheckThenAct.atMostOne_inWindow
    (fun _ _ h hoverlaps => h (.inl hoverlaps)) rfl hreach
  have haccepts := (idleCheck.monitor).accepts_of_reach
    (fun _ _ _ _ _ _ => idleCheck_facts) (fun _ _ _ _ => trivial)
    (fun call => (body_checked hasync call).accepts) rfl hreach task
    (List.mem_of_getElem? hdone.at_index)
  cases hop : op.writesSyncRuns with
  | false =>
      refine ⟨0, onlyOpens_of_eq ?_⟩
      rw [effect_of_done hdone, effect_syncRuns hop]
  | true =>
      cases op with
      | syncRunCreate data =>
          exact ⟨_, onlyOpens_of_create hone (fun key hkey =>
            CheckThenAct.inWindow_of_acts haccepts hdone.awaits hkey) hidle
            hdone⟩
      | syncRunUpdate id data =>
          exact ⟨id, onlyOpens_of_update (fun h => hkeeps (.inr h)) hdone⟩
      | _ => cases hop

theorem windowsIdle_of_done {opened : Id} (hidle : WindowsIdle pool)
    (hdone : (platform env).Done pool pool' index task op next value)
    (hopens : OnlyOpens pool pool' opened) : WindowsIdle pool' := by
  intro pipelineId other hother hwindow row' hrow' hactive
  rcases hopens pipelineId row' hrow' hactive with
    ⟨row, hrow, hbefore, -⟩ | ⟨-, -, houtside⟩
  · rw [hdone.tasks] at hother
    rcases List.mem_or_eq_of_mem_set hother with hold | rfl
    · exact hidle pipelineId other hold hwindow row hrow hbefore
    · rcases CheckThenAct.inWindow_of_done hdone hwindow with hfound | hinside
      · exact idle_of_findsIdle (exec_of_done hdone) hfound row' hrow' hactive
      · exact hidle pipelineId task (List.mem_of_getElem? hdone.at_index)
          hinside row hrow hbefore
  · exact houtside other hother hwindow

def SameRun (store : Store) : Prop :=
  ∀ pipelineId, ∀ first ∈ store.syncRuns, ∀ second ∈ store.syncRuns,
    first.ActiveScheduled pipelineId → second.ActiveScheduled pipelineId →
    first.id = second.id

theorem sameRun_of_onlyOpens {opened : Id} (hsame : SameRun pool.store)
    (hopens : OnlyOpens pool pool' opened) : SameRun pool'.store := by
  intro pipelineId first hfirst second hsecond hactive hactive'
  rcases hopens pipelineId first hfirst hactive with
    ⟨row, hrow, hbefore, hid⟩ | ⟨hid, hnone, -⟩
  · rcases hopens pipelineId second hsecond hactive' with
      ⟨row', hrow', hbefore', hid'⟩ | ⟨-, hnone, -⟩
    · rw [← hid, ← hid']
      exact hsame pipelineId row hrow row' hrow' hbefore hbefore'
    · exact absurd hbefore (hnone row hrow)
  · rcases hopens pipelineId second hsecond hactive' with
      ⟨row', hrow', hbefore', -⟩ | ⟨hid', -, -⟩
    · exact absurd hbefore' (hnone row' hrow')
    · rw [hid, hid']

def RunKeys (store : Store) : Prop :=
  Table.Keyed SyncRun.id store.nextId store.syncRuns

theorem runKeys_effect {store : Store} (h : RunKeys store) :
    RunKeys (op.effect store) := by
  cases hop : op.writesSyncRuns with
  | false =>
      rw [RunKeys, effect_syncRuns hop]
      exact Table.Keyed.mono h nextId_le_effect
  | true =>
      cases op with
      | syncRunCreate data => exact Table.Keyed.append h rfl
      | syncRunUpdate id data => exact Table.Keyed.modify h fun _ => rfl
      | _ => cases hop

end Steps

/-! ## Runs of the platform -/

structure Exclusion (pool : Platform) : Prop where
  keys : RunKeys pool.store
  same : SameRun pool.store
  idle : WindowsIdle pool

theorem exclusion_of_reach {env : Env} {init : Store} {pool : Platform}
    (hasync : env.queueMode = .async) (hkeys : RunKeys init)
    (hinit : ScheduledRunsExclusive init)
    (h : (platform env).Reach (fun pool step => ¬ Collides env pool step)
      init.boot pool) : Exclusion pool := by
  refine h.invariant (I := Exclusion) ?_ ?_ ?_ ?_ ?_
  · refine ⟨hkeys, ?_, fun _ _ htask => nomatch htask⟩
    intro pipelineId first hfirst second hsecond hactive hactive'
    obtain ⟨i, hi⟩ := List.mem_iff_getElem?.mp hfirst
    obtain ⟨j, hj⟩ := List.mem_iff_getElem?.mp hsecond
    obtain rfl := hinit pipelineId i j first second hi hj hactive hactive'
    obtain rfl := Option.some.inj (hi.symm.trans hj)
    rfl
  · intro pool call _ hold _ _
    refine ⟨hold.keys, hold.same, fun pipelineId task htask hwindow => ?_⟩
    rcases List.mem_append.mp htask with hbefore | hnew
    · exact hold.idle pipelineId task hbefore hwindow
    · obtain rfl := List.mem_singleton.mp hnew
      exact absurd hwindow (CheckThenAct.not_inWindow_spawn _)
  · intro pool pool' index task op next value hreach hold hkeeps hdone
    obtain ⟨opened, hopens⟩ :=
      onlyOpens_of_done hasync hreach hold.idle hkeeps hdone
    refine ⟨?_, sameRun_of_onlyOpens hold.same hopens,
      windowsIdle_of_done hold.idle hdone hopens⟩
    rw [effect_of_done hdone]
    exact runKeys_effect hold.keys
  · intro pool pool' index task op next error _ hold _ hraised
    refine ⟨hraised.store ▸ hold.keys, hraised.store ▸ hold.same, ?_⟩
    intro pipelineId other hother hwindow
    rw [hraised.store]
    rw [hraised.tasks] at hother
    rcases List.mem_or_eq_of_mem_set hother with hbefore | rfl
    · exact hold.idle pipelineId other hbefore hwindow
    · exact hold.idle pipelineId task (List.mem_of_getElem? hraised.at_index)
        (CheckThenAct.inWindow_of_raised hraised hwindow)
  · intro pool pool' event calls _ hold _ henv htasks
    obtain ⟨clock, jobs, hstore⟩ := Event.apply_store henv
    refine ⟨hstore ▸ hold.keys, hstore ▸ hold.same, ?_⟩
    intro pipelineId task htask hwindow
    rw [hstore]
    rw [htasks] at htask
    rcases List.mem_append.mp htask with hbefore | hnew
    · exact hold.idle pipelineId task hbefore hwindow
    · obtain ⟨call, -, rfl⟩ := List.mem_map.mp hnew
      exact absurd hwindow (CheckThenAct.not_inWindow_spawn _)

theorem scheduled_runs_exclusive {env : Env} {init : Store} {pool : Platform}
    (hasync : env.queueMode = .async) (hkeys : RunKeys init)
    (hinit : ScheduledRunsExclusive init)
    (h : (platform env).Reach (fun pool step => ¬ Collides env pool step)
      init.boot pool) : ScheduledRunsExclusive pool.store := by
  have hpool := exclusion_of_reach hasync hkeys hinit h
  exact fun pipelineId => hpool.keys.atMostOne (hpool.same pipelineId)

/-! ## Calls that do not overlap -/

def Op.reopens (store : Store) : Op → Bool
  | .syncRunUpdate id data =>
      data.status.isActive && store.syncRuns.any fun row =>
        row.id = id && !row.status.isActive
  | _ => false

def undisturbed (pool : Platform) (step : Step) : Bool :=
  pool.alone step &&
    match step with
    | .run index =>
        match pool.tasks[index]? with
        | some ⟨_, _, .call op _⟩ => !op.reopens pool.store
        | _ => true
    | _ => true

theorem not_collides_of_undisturbed {env : Env} {pool : Platform} {step : Step}
    (h : undisturbed pool step = true) : ¬ Collides env pool step := by
  simp only [undisturbed, Bool.and_eq_true] at h
  obtain ⟨halone, hreopens⟩ := h
  rintro (hoverlaps | hreopened)
  · exact CheckThenAct.not_overlaps_of_alone halone hoverlaps
  · cases step with
    | run index =>
        simp only [Reopens] at hreopened
        split at hreopened
        · rename_i hget
          obtain ⟨hopen, row, hrow, hid, -, hended, -⟩ := hreopened
          simp only [hget, Op.reopens, hopen, Bool.true_and,
            Bool.not_eq_true', List.any_eq_false] at hreopens
          exact hreopens row hrow (by simp [hid, hended])
        · exact hreopened
    | _ => exact hreopened

def trigger : Call :=
  .triggerPipelineSchedule Sample.pipeline.id Sample.operator

/-- A triggered run, queued and worked off. -/
theorem scheduled_runs_exclusive_of_delivery :
    ∃ pool, (platform (Sample.env .async)).runWhere
        (fun pool step => undisturbed pool step = true) Sample.store.boot
        ([.start trigger] ++ List.replicate 9 (.run 0) ++
          [.env (.deliver 0)] ++ List.replicate 16 (.run 1)) = some pool ∧
      ScheduledRunsExclusive pool.store := by
  have hruns : ((platform (Sample.env .async)).runWhere
      (fun pool step => undisturbed pool step = true) Sample.store.boot
      ([.start trigger] ++ List.replicate 9 (.run 0) ++
        [.env (.deliver 0)] ++ List.replicate 16 (.run 1))).isSome = true := by
    decide
  obtain ⟨pool, hrun⟩ := Option.isSome_iff_exists.mp hruns
  have hkeys : RunKeys Sample.store :=
    ⟨List.nodup_nil, fun _ hrow => nomatch hrow⟩
  refine ⟨pool, hrun, scheduled_runs_exclusive rfl hkeys
    (fun _ => AtMostOne.nil) ((System.reach_of_runWhere hrun).mono ?_)⟩
  exact fun _ _ => not_collides_of_undisturbed

/-! ## Two triggers at once -/

def racingTriggers : List Step :=
  [.start trigger, .start trigger, .run 0, .run 0, .run 1, .run 1,
   .run 0, .run 0, .run 1, .run 1]

def twoScheduled (pool : Platform) : Bool :=
  match pool.store.syncRuns with
  | [first, second] =>
      decide (first.ActiveScheduled Sample.pipeline.id) &&
        decide (second.ActiveScheduled Sample.pipeline.id)
  | _ => false

theorem not_exclusive_of_twoScheduled {pool : Platform}
    (h : twoScheduled pool = true) : ¬ ScheduledRunsExclusive pool.store := by
  simp only [twoScheduled] at h
  split at h
  · rename_i first second hruns
    simp only [Bool.and_eq_true, decide_eq_true_eq] at h
    intro hexclusive
    have heq := hexclusive Sample.pipeline.id 0 1 first second
      (by simp [hruns]) (by simp [hruns]) h.1 h.2
    cases heq
  · cases h

theorem scheduled_runs_exclusive_fails :
    ∃ pool, Reachable (Sample.env .async) Sample.store pool ∧
      ¬ ScheduledRunsExclusive pool.store := by
  have hruns : ((platform (Sample.env .async)).run Sample.store.boot
      racingTriggers).any twoScheduled = true := by decide
  obtain ⟨pool, hrun, htwo⟩ := (Option.any_eq_true _ _).mp hruns
  exact ⟨pool, System.reach_of_run hrun, not_exclusive_of_twoScheduled htwo⟩

end SyncBridge
