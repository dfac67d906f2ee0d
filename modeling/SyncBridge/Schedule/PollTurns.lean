import SyncBridge.Foundation.Performed
import SyncBridge.Schedule.Exclusion

/-!
# A turn of the poller

A turn inserts the run of its pipeline before it moves `nextRunAt`, and it
leaves every other pipeline alone.  One that throws in between leaves a run
behind, and the pipeline due.
-/

namespace SyncBridge

open SyncBridge.Foundation SyncBridge.Foundation.Prog
open SyncBridge.SchedulerService

/-! ## What a cycle does to a pipeline -/

namespace Store

variable (store : Store) (pipelineId : Id)

def runsOf : List SyncRun :=
  store.syncRuns.filter fun row => row.pipelineId = pipelineId

def nextRunOf : Option (Option Time) :=
  (Table.find SyncPipeline.id pipelineId store.pipelines).map
    SyncPipeline.nextRunAt

def NothingRuns : Prop :=
  ∀ run ∈ store.runsOf pipelineId, run.status.isActive = false

end Store

def Started (pipelineId : Id) (before after : Store) : Prop :=
  ∃ run : SyncRun, after.runsOf pipelineId = before.runsOf pipelineId ++ [run] ∧
    run.triggerType = .scheduled

structure Enqueued (env : Env) (now : Time) (pipeline : SyncPipeline)
    (before after : Store) : Prop where
  started : Started pipeline.id before after
  moved : ∃ nextRunAt, env.cron.computeNextRunAt (cronOf pipeline)
      (timezoneOf pipeline) now = .ok nextRunAt ∧
    after.nextRunOf pipeline.id = some nextRunAt

structure LeftAlone (pipelineId : Id) (before after : Store) : Prop where
  runs : after.runsOf pipelineId = before.runsOf pipelineId
  nextRun : after.nextRunOf pipelineId = before.nextRunOf pipelineId

def Op.startsRun : Op → Bool
  | .syncRunCreate _ => true
  | _ => false

def Op.movesNextRun : Op → Bool
  | .pipelineUpdate _ data => data.nextRunAt.isSome
  | _ => false

abbrev Calls := List (Performed Op.Res Failure)

section Turns

variable {env : Env} {now : Time} {pipeline : SyncPipeline}
  {pipelineId other : Id} {before middle after : Store} {calls : Calls}

namespace LeftAlone

theorem refl : LeftAlone pipelineId before before := ⟨rfl, rfl⟩

theorem trans (h : LeftAlone pipelineId before middle)
    (h' : LeftAlone pipelineId middle after) :
    LeftAlone pipelineId before after :=
  ⟨h'.runs.trans h.runs, h'.nextRun.trans h.nextRun⟩

theorem of_tables (hruns : after.syncRuns = before.syncRuns)
    (hpipelines : after.pipelines = before.pipelines) :
    LeftAlone pipelineId before after := by
  constructor
  · rw [Store.runsOf, hruns, Store.runsOf]
  · rw [Store.nextRunOf, hpipelines, Store.nextRunOf]

theorem idle_iff (h : LeftAlone pipelineId before after) :
    after.NothingRuns pipelineId ↔ before.NothingRuns pipelineId := by
  rw [Store.NothingRuns, h.runs, Store.NothingRuns]

end LeftAlone

theorem Started.frame {first last : Store}
    (h : Started pipelineId before after)
    (hfirst : LeftAlone pipelineId first before)
    (hlast : LeftAlone pipelineId after last) :
    Started pipelineId first last := by
  rwa [Started, ← hfirst.runs, hlast.runs]

theorem Started.not_leftAlone (h : Started pipelineId before after) :
    ¬ LeftAlone pipelineId before after := by
  obtain ⟨run, hruns, -⟩ := h
  intro halone
  have hsame := hruns.symm.trans halone.runs
  simp at hsame

/-! ## The run of a pipeline -/

structure RunAdded (pipelineId : Id) (before after : Store) : Prop where
  run : ∃ run : SyncRun, after.syncRuns = before.syncRuns ++ [run] ∧
    run.id = before.nextId ∧ run.pipelineId = pipelineId ∧
    run.triggerType = .scheduled
  nextRuns : ∀ other, after.nextRunOf other = before.nextRunOf other

theorem RunAdded.started (h : RunAdded pipelineId before after) :
    Started pipelineId before after := by
  obtain ⟨run, hruns, -, hof, htrigger⟩ := h.run
  refine ⟨run, ?_, htrigger⟩
  rw [Store.runsOf, hruns, List.filter_append]
  simp [Store.runsOf, hof]

theorem RunAdded.others (h : RunAdded pipelineId before after)
    (hother : other ≠ pipelineId) : LeftAlone other before after := by
  obtain ⟨run, hruns, -, hof, -⟩ := h.run
  refine ⟨?_, h.nextRuns other⟩
  rw [Store.runsOf, hruns, List.filter_append]
  simp [Store.runsOf, hof, hother.symm]

def Op.FollowsRun (runId : Id) : Op → Prop
  | .syncRunCreate _ => False
  | .pipelineCreate _ => False
  | .syncRunUpdate id _ => id = runId
  | .pipelineUpdate _ data => data.nextRunAt = none
  | _ => True

theorem followsRun_quiet {runId : Id} : AllowsQuiet (Op.FollowsRun runId) := by
  refine allowsQuiet fun op hop => ?_
  cases op with
  | syncRunCreate _ | pipelineCreate _ | syncRunUpdate _ _
  | pipelineUpdate _ _ => cases hop
  | _ => trivial

theorem nextRunOf_modify {id : Id} {data : PipelineData} (store : Store) :
    ((Op.pipelineUpdate id data).effect store).nextRunOf other =
      (Table.find SyncPipeline.id other store.pipelines).map fun row =>
        if row.id = id then data.nextRunAt.getD row.nextRunAt
        else row.nextRunAt := by
  have hkey : ∀ row, (data.apply row).id = row.id := fun _ => rfl
  simp only [Store.nextRunOf, Op.effect, Table.find_modify hkey,
    Option.map_map]
  congr 1
  funext row
  by_cases hid : row.id = id <;> simp [hid, PipelineData.apply]

theorem RunAdded.effect {op : Op} (hkeys : RunKeys before)
    (h : RunAdded pipelineId before middle)
    (hop : op.FollowsRun before.nextId) :
    RunAdded pipelineId before (op.effect middle) := by
  obtain ⟨run, hruns, hid, hof, htrigger⟩ := h.run
  constructor
  · cases hwrites : op.writesSyncRuns with
    | false =>
        rw [effect_syncRuns hwrites]
        exact h.run
    | true =>
        cases op with
        | syncRunCreate _ => exact hop.elim
        | syncRunUpdate id data =>
            obtain rfl : id = before.nextId := hop
            refine ⟨data.apply run, ?_, hid, hof, htrigger⟩
            simp only [Op.effect, hruns, Table.modify, List.map_append,
              List.map_singleton, hid, if_true]
            congr 1
            refine (List.map_congr_left fun row hrow => ?_).trans
              (List.map_id _)
            exact if_neg (Nat.ne_of_lt (hkeys.below row hrow))
        | _ => cases hwrites
  · intro other
    rw [← h.nextRuns other]
    cases hwrites : op.writesPipelines with
    | false => rw [Store.nextRunOf, effect_pipelines hwrites, Store.nextRunOf]
    | true =>
        cases op with
        | pipelineCreate _ => exact hop.elim
        | pipelineUpdate id data =>
            have hnone : data.nextRunAt = none := hop
            rw [nextRunOf_modify, hnone]
            simp [Store.nextRunOf]
        | _ => cases hwrites

theorem RunAdded.of_uses {α : Type} {body : Body α} {result : Except Failure α}
    (hkeys : RunKeys before) (h : RunAdded pipelineId before middle)
    (huses : body.Uses (Op.FollowsRun before.nextId))
    (hrun : (machine env).Performs body middle calls result after) :
    RunAdded pipelineId before after := by
  refine (Machine.ensures_of_uses (J := RunAdded pipelineId before)
    ?_ huses h).of_runs hrun.runs
  intro op store value store' hop hexec hstore
  rw [machine_effect hexec]
  exact hstore.effect hkeys hop

theorem insertRun_added {α : Type} {data : NewSyncRun}
    {rest : SyncRun → Body α} {result : Except Failure α}
    (hkeys : RunKeys before) (hof : data.pipelineId = pipelineId)
    (htrigger : data.triggerType = .scheduled)
    (hrest : ∀ run, (rest run).Uses (Op.FollowsRun run.id))
    (h : (machine env).Performs ((await (.syncRunCreate data)).bind rest)
      before calls result after) :
    (after = before ∧ ¬ Performed.GoesThrough Op.startsRun calls ∧
      ∃ error, result = .error error) ∨
    RunAdded pipelineId before after ∧
      Performed.GoesThrough Op.startsRun calls := by
  rcases Machine.performs_bind.mp h with ⟨error, hcreate, rfl⟩ |
    ⟨run, middle, first, second, hcreate, hlater, rfl⟩
  · obtain ⟨rfl, -, rfl⟩ := Machine.performs_await.mp hcreate
    exact .inl ⟨rfl, by simp [Performed.GoesThrough], error, rfl⟩
  · obtain ⟨rfl, hends⟩ := Machine.performs_await.mp hcreate
    obtain ⟨rfl, rfl⟩ := Prod.mk.inj (Except.ok.inj hends)
    refine .inr ⟨?_, Performed.goesThrough_append.mpr (.inl ?_)⟩
    · have hadded : RunAdded pipelineId before
          (before.createSyncRun data).2 :=
        ⟨⟨(before.createSyncRun data).1, rfl, rfl, hof, htrigger⟩,
          fun _ => rfl⟩
      exact hadded.of_uses hkeys (hrest (before.createSyncRun data).1) hlater
    · simp [Performed.GoesThrough, Op.startsRun]

theorem createRunFromPipeline_added {row : SyncPipeline}
    {options : CreateRunOptions}
    {result : Except Failure RunAnswer} (hkeys : RunKeys before)
    (htrigger : options.triggerType = .scheduled)
    (h : (machine env).Performs
      (SyncRunsService.createRunFromPipeline env row options) before calls result
      after) :
    (after = before ∧ ¬ Performed.GoesThrough Op.startsRun calls ∧
      ∃ error, result = .error error) ∨
    RunAdded row.id before after ∧
      Performed.GoesThrough Op.startsRun calls := by
  rw [SyncRunsService.createRunFromPipeline] at h
  split at h
  · refine insertRun_added hkeys rfl htrigger (fun run => ?_) h
    have quiet : AllowsQuiet (Op.FollowsRun run.id) := followsRun_quiet
    refine Uses.await trivial fun job => ?_
    refine (enqueueJob_rule quiet ((uses_await _).mpr trivial)).bind fun _ => ?_
    exact (log_rule quiet).bind fun _ => (log_rule quiet).bind fun _ => trivial
  · rcases Machine.performs_bind.mp h with ⟨error, hnow, rfl⟩ |
      ⟨startedAt, middle, first, second, hnow, hrun, rfl⟩
    · obtain ⟨rfl, -, rfl⟩ := Machine.performs_await.mp hnow
      exact .inl ⟨rfl, by simp [Performed.GoesThrough], error, rfl⟩
    · obtain ⟨rfl, hends⟩ := Machine.performs_await.mp hnow
      obtain rfl : middle = before := machine_effect hends
      have hadded := insertRun_added hkeys rfl htrigger (fun run => ?_) hrun
      · have hread : ¬ Performed.GoesThrough Op.startsRun
            [(⟨.now, .ok startedAt⟩ : Performed Op.Res Failure)] := by
          simp [Performed.GoesThrough, Op.startsRun]
        simpa only [Performed.goesThrough_append, hread, false_or] using hadded
      · have quiet : AllowsQuiet (Op.FollowsRun run.id) := followsRun_quiet
        refine (log_rule quiet).bind fun _ => ?_
        refine (processRunRecords_rule quiet (fun _ _ hdata => ?_)
          fun _ _ => (uses_await _).mpr trivial).bind fun summary => ?_
        · rcases hdata with ⟨time, rfl⟩ | ⟨cursorValue, rfl⟩
          · exact (uses_await _).mpr rfl
          · exact (uses_await _).mpr rfl
        · refine (currentTime_rule quiet).bind fun finishedAt => ?_
          refine Uses.await rfl fun completed => Uses.await rfl fun _ => ?_
          exact (log_rule quiet).bind fun _ =>
            (log_rule quiet).bind fun _ => trivial

theorem getById_performs {result : Except Failure SyncPipeline}
    (h : (machine env).Performs (PipelinesService.getById pipelineId) before
      calls result after) :
    after = before ∧ ¬ Performed.GoesThrough Op.startsRun calls ∧
      ∀ row, result = .ok row → row.id = pipelineId := by
  have hread : ∀ outcome, ¬ Performed.GoesThrough Op.startsRun
      [(⟨.pipelineFindUnique pipelineId, outcome⟩ :
        Performed Op.Res Failure)] := by
    simp [Performed.GoesThrough, Op.startsRun]
  rcases Machine.performs_bind.mp h with ⟨error, hfind, rfl⟩ |
    ⟨found, middle, first, second, hfind, hcheck, rfl⟩
  · obtain ⟨rfl, -, rfl⟩ := Machine.performs_await.mp hfind
    exact ⟨rfl, hread _, fun _ herror => by cases herror⟩
  · obtain ⟨rfl, hends⟩ := Machine.performs_await.mp hfind
    have hexec : exec env (.pipelineFindUnique pipelineId) before =
        .ok (found, middle) := hends
    obtain rfl := exec_pipelineFindUnique hexec
    obtain rfl : middle = before := machine_effect hends
    cases hfound : Table.find SyncPipeline.id pipelineId middle.pipelines with
    | none =>
        rw [hfound] at hcheck
        cases hcheck
        exact ⟨rfl, hread _, fun _ herror => by cases herror⟩
    | some row =>
        rw [hfound] at hcheck
        cases hcheck
        refine ⟨rfl, hread _, fun other hother => ?_⟩
        obtain rfl := Except.ok.inj hother
        exact Table.find_key hfound

theorem createScheduledForPipeline_added {actor : AuditActor}
    {result : Except Failure RunAnswer} (hkeys : RunKeys before)
    (h : (machine env).Performs (SyncRunsService.createScheduledForPipeline env
      pipelineId actor) before calls result after) :
    (after = before ∧ ¬ Performed.GoesThrough Op.startsRun calls ∧
      ∃ error, result = .error error) ∨
    RunAdded pipelineId before after ∧
      Performed.GoesThrough Op.startsRun calls := by
  rcases Machine.performs_bind.mp h with ⟨error, hfind, rfl⟩ |
    ⟨row, middle, first, second, hfind, hrun, rfl⟩
  · obtain ⟨rfl, hread, -⟩ := getById_performs hfind
    exact .inl ⟨rfl, hread, error, rfl⟩
  · obtain ⟨rfl, hread, hrow⟩ := getById_performs hfind
    obtain rfl := hrow row rfl
    simpa only [Performed.goesThrough_append, hread, false_or] using
      createRunFromPipeline_added hkeys rfl hrun

theorem createScheduledForPipeline_stays {actor : AuditActor}
    {result : Except Failure RunAnswer}
    (h : (machine env).Performs (SyncRunsService.createScheduledForPipeline env
      pipelineId actor) before calls result after) :
    ¬ Performed.GoesThrough Op.movesNextRun calls := by
  have quiet : AllowsQuiet fun op => op.movesNextRun = false := by
    refine allowsQuiet fun op hop => ?_
    cases op with
    | pipelineUpdate _ _ => cases hop
    | _ => rfl
  have huses : (SyncRunsService.createScheduledForPipeline env pipelineId
      actor).Uses fun op => op.movesNextRun = false := by
    refine createScheduledForPipeline_rule quiet fun _ _ _ => ?_
    refine createRunFromPipeline_rule quiet (fun _ data hdata => ?_)
      (fun _ _ => (uses_await _).mpr rfl) (fun _ _ => (uses_await _).mpr rfl)
      (fun _ _ => (uses_await _).mpr rfl) (fun _ _ => (uses_await _).mpr rfl)
      fun _ _ _ => (uses_await _).mpr rfl
    rcases hdata with ⟨time, rfl⟩ | ⟨cursorValue, rfl⟩
    · exact (uses_await _).mpr rfl
    · exact (uses_await _).mpr rfl
  exact Performed.not_goesThrough_of_forall (h.allowed huses)

/-! ## One turn -/

/-- What a turn makes of its pipeline. -/
inductive Outcome (env : Env) (now : Time) (pipeline : SyncPipeline)
    (before after : Store) (calls : Calls) (throws : Prop) : Prop
  | passed : LeftAlone pipeline.id before after →
      ¬ Performed.GoesThrough Op.startsRun calls →
      (before.NothingRuns pipeline.id → throws) →
      Outcome env now pipeline before after calls throws
  | half : Started pipeline.id before after →
      after.nextRunOf pipeline.id = before.nextRunOf pipeline.id →
      Performed.GoesThrough Op.startsRun calls →
      ¬ Performed.GoesThrough Op.movesNextRun calls → throws →
      Outcome env now pipeline before after calls throws
  | enqueued : Enqueued env now pipeline before after →
      Performed.GoesThrough Op.movesNextRun calls →
      Outcome env now pipeline before after calls throws

theorem Outcome.mono {throws throws' : Prop}
    (h : Outcome env now pipeline before after calls throws)
    (himp : throws → throws') :
    Outcome env now pipeline before after calls throws' := by
  cases h with
  | passed halone hnone hidle =>
      exact .passed halone hnone fun hbefore => himp (hidle hbefore)
  | half hstarted hsame hstarts hnone hthrows =>
      exact .half hstarted hsame hstarts hnone (himp hthrows)
  | enqueued henqueued hmoves => exact .enqueued henqueued hmoves

theorem Outcome.frame {throws : Prop} {first last : Store}
    (h : Outcome env now pipeline before after calls throws)
    (hfirst : LeftAlone pipeline.id first before)
    (hlast : LeftAlone pipeline.id after last) :
    Outcome env now pipeline first last calls throws := by
  cases h with
  | passed halone hnone hidle =>
      exact .passed ((hfirst.trans halone).trans hlast) hnone fun hbefore =>
        hidle (hfirst.idle_iff.mpr hbefore)
  | half hstarted hsame hstarts hnone hthrows =>
      exact .half (hstarted.frame hfirst hlast)
        (hlast.nextRun.trans (hsame.trans hfirst.nextRun)) hstarts hnone hthrows
  | enqueued henqueued hmoves =>
      obtain ⟨hstarted, nextRunAt, hnext, hmoved⟩ := henqueued
      exact .enqueued ⟨hstarted.frame hfirst hlast, nextRunAt, hnext,
        hlast.nextRun.trans hmoved⟩ hmoves

structure Turned (env : Env) (now : Time) (pipeline : SyncPipeline)
    (before after : Store) (calls : Calls) (throws : Prop) : Prop where
  own : Outcome env now pipeline before after calls throws
  others : ∀ other, other ≠ pipeline.id → LeftAlone other before after

theorem log_leavesAlone {action entityType entityId : String} {metadata : Record}
    {actor : AuditActor} {result : Except Failure Unit}
    (h : (machine env).Performs (AuditService.log action entityType entityId
      metadata actor) before calls result after) :
    (∀ other, LeftAlone other before after) ∧
      ¬ Performed.GoesThrough Op.startsRun calls := by
  obtain ⟨rfl, hends⟩ := Machine.performs_await.mp h
  refine ⟨fun other => ?_, by simp [Performed.GoesThrough, Op.startsRun]⟩
  cases result with
  | ok value =>
      rw [machine_effect hends]
      exact .of_tables rfl rfl
  | error error =>
      obtain ⟨-, rfl⟩ := hends
      exact .refl

theorem moveNextRun_turned {nextRunAt : Option Time} {rest : Calls}
    {throws : Prop} (hadded : RunAdded pipeline.id before middle)
    (hnext : env.cron.computeNextRunAt (cronOf pipeline) (timezoneOf pipeline)
      now = .ok nextRunAt)
    {value : SyncPipeline} {moved : Store}
    (hmoves : exec env (.pipelineUpdate pipeline.id
      { nextRunAt := some nextRunAt }) middle = .ok (value, moved))
    (hsame : ∀ other, LeftAlone other moved after) :
    Turned env now pipeline before after (calls ++ ⟨.pipelineUpdate pipeline.id
      { nextRunAt := some nextRunAt }, .ok value⟩ :: rest) throws := by
  have hmoved := exec_effect hmoves
  have hstarted : Started pipeline.id before after := by
    rw [Started, (hsame _).runs, hmoved]
    exact hadded.started
  refine ⟨.enqueued ⟨hstarted, nextRunAt, hnext, ?_⟩ ?_, fun other hother => ?_⟩
  · rw [(hsame _).nextRun, hmoved, nextRunOf_modify]
    simp only [exec] at hmoves
    split at hmoves
    · cases hmoves
    · rename_i row hfound
      simp [hfound, Table.find_key hfound]
  · exact Performed.goesThrough_append.mpr
      (.inr (Performed.goesThrough_cons.mpr (.inl ⟨rfl, rfl⟩)))
  · refine (hadded.others hother).trans (.trans ⟨?_, ?_⟩ (hsame other))
    · rw [hmoved]
      rfl
    · rw [hmoved, nextRunOf_modify, Store.nextRunOf]
      cases hfound : Table.find SyncPipeline.id other middle.pipelines with
      | none => rfl
      | some row => simp [Table.find_key hfound, hother]

theorem enqueueDue_turned {result : Except Failure Unit}
    (hkeys : RunKeys before)
    (h : (machine env).Performs (enqueueDue env now pipeline) before calls
      result after) :
    Turned env now pipeline before after calls
      (∃ error, result = .error error) := by
  have hhalf : ∀ {started rest : Calls} {error : Failure},
      RunAdded pipeline.id before after →
      Performed.GoesThrough Op.startsRun started →
      ¬ Performed.GoesThrough Op.movesNextRun (started ++ rest) →
      Turned env now pipeline before after (started ++ rest)
        (∃ error', Except.error error = (.error error' : Except Failure Unit)) :=
    fun hadded hstarts hstays =>
      ⟨.half hadded.started (hadded.nextRuns _)
        (Performed.goesThrough_append.mpr (.inl hstarts)) hstays ⟨_, rfl⟩,
        fun _ => hadded.others⟩
  rcases Machine.performs_bind.mp h with ⟨error, hcreate, rfl⟩ |
    ⟨run, middle, first, second, hcreate, hlater, rfl⟩
  · have hstays := createScheduledForPipeline_stays hcreate
    rcases createScheduledForPipeline_added hkeys hcreate with
      ⟨rfl, hnone, -⟩ | ⟨hadded, hstarts⟩
    · exact ⟨.passed .refl hnone fun _ => ⟨_, rfl⟩, fun _ _ => .refl⟩
    · rw [← List.append_nil calls] at hstays ⊢
      exact hhalf hadded hstarts hstays
  · have hstays := createScheduledForPipeline_stays hcreate
    rcases createScheduledForPipeline_added hkeys hcreate with
      ⟨-, -, error, herror⟩ | ⟨hadded, hstarts⟩
    · cases herror
    rcases Machine.performs_bind.mp hlater with ⟨error, hnext, rfl⟩ |
      ⟨nextRunAt, _, none, writes, hnext, hwrites, rfl⟩
    · obtain ⟨rfl, -, rfl⟩ := Machine.performs_ofExcept.mp hnext
      exact hhalf hadded hstarts (by simpa using hstays)
    obtain ⟨rfl, hcomputed, rfl⟩ := Machine.performs_ofExcept.mp hnext
    rcases Machine.performs_bind.mp hwrites with ⟨error, hmove, rfl⟩ |
      ⟨value, moved, move, audit, hmove, haudit, rfl⟩
    · obtain ⟨rfl, -, rfl⟩ := Machine.performs_await.mp hmove
      refine hhalf hadded hstarts ?_
      rw [Performed.goesThrough_append]
      rintro (hbefore | hmoves)
      · exact hstays hbefore
      · simp [Performed.GoesThrough] at hmoves
    · obtain ⟨rfl, hends⟩ := Machine.performs_await.mp hmove
      exact moveNextRun_turned hadded hcomputed.symm hends (log_leavesAlone haudit).1

theorem hasActiveRun_performs {result : Except Failure Bool}
    (h : (machine env).Performs (SyncRunsService.hasActiveRun pipelineId) before
      calls result after) :
    after = before ∧
      (∃ outcome, calls = [⟨.syncRunCountActive pipelineId, outcome⟩]) ∧
      (result = .ok true → ¬ before.NothingRuns pipelineId) := by
  rcases Machine.performs_bind.mp h with ⟨error, hcount, rfl⟩ |
    ⟨count, middle, first, second, hcount, hreturn, rfl⟩
  · obtain ⟨rfl, -, rfl⟩ := Machine.performs_await.mp hcount
    exact ⟨rfl, ⟨_, rfl⟩, fun herror => by cases herror⟩
  · obtain ⟨rfl, hends⟩ := Machine.performs_await.mp hcount
    obtain ⟨rfl, rfl⟩ := Prod.mk.inj (Except.ok.inj hends)
    cases hreturn
    refine ⟨rfl, ⟨_, rfl⟩, fun hactive hidle => ?_⟩
    have hcounted := of_decide_eq_true (Except.ok.inj hactive)
    obtain ⟨run, hrun⟩ := List.exists_mem_of_length_pos hcounted
    obtain ⟨hmem, hrunning⟩ := List.mem_filter.mp hrun
    simp only [Bool.and_eq_true, decide_eq_true_eq] at hrunning
    have hnone := hidle run (List.mem_filter.mpr ⟨hmem, by simp [hrunning.1]⟩)
    rw [hrunning.2] at hnone
    cases hnone

theorem goesThrough_count {kind : Op → Bool}
    {outcome : Except Failure (Op.syncRunCountActive pipelineId).Res}
    (hkind : kind (.syncRunCountActive pipelineId) = false) :
    Performed.GoesThrough kind (⟨.syncRunCountActive pipelineId, outcome⟩ ::
      calls) ↔ Performed.GoesThrough kind calls := by
  simp [Performed.goesThrough_cons, hkind]

theorem Turned.after_count {throws : Prop}
    {outcome : Except Failure (Op.syncRunCountActive pipelineId).Res}
    (h : Turned env now pipeline before after calls throws) :
    Turned env now pipeline before after
      (⟨.syncRunCountActive pipelineId, outcome⟩ :: calls) throws := by
  refine ⟨?_, h.others⟩
  cases h.own with
  | passed halone hnone hidle =>
      exact .passed halone (mt (goesThrough_count rfl).mp hnone) hidle
  | half hstarted hsame hstarts hnone hthrows =>
      exact .half hstarted hsame ((goesThrough_count rfl).mpr hstarts)
        (mt (goesThrough_count rfl).mp hnone) hthrows
  | enqueued henqueued hmoves =>
      exact .enqueued henqueued ((goesThrough_count rfl).mpr hmoves)

theorem pollPipeline_turned {summary : PollSummary}
    {result : Except Failure PollSummary} (hkeys : RunKeys before)
    (hvalid : validSchedule env pipeline = true)
    (h : (machine env).Performs (pollPipeline env now summary pipeline) before
      calls result after) :
    Turned env now pipeline before after calls
      (∃ error, result = .error error) := by
  rw [pollPipeline, if_neg (by simp [hvalid])] at h
  rcases Machine.performs_bind.mp h with ⟨error, hcount, rfl⟩ |
    ⟨hasActiveRun, middle, first, second, hcount, hlater, rfl⟩
  · obtain ⟨rfl, ⟨outcome, rfl⟩, -⟩ := hasActiveRun_performs hcount
    refine ⟨.passed .refl ?_ fun _ => ⟨error, rfl⟩, fun _ _ => .refl⟩
    simp [Performed.GoesThrough, Op.startsRun]
  obtain ⟨rfl, ⟨outcome, rfl⟩, hbusy⟩ := hasActiveRun_performs hcount
  refine Turned.after_count ?_
  split at hlater
  · rename_i hactive
    have hskips : ∃ logged, (machine env).Performs (AuditService.log
        "scheduled_pipeline_skipped" "pipeline" (idString pipeline.id)
        (activeRunMetadata pipeline.id) (pollActor pipeline)) middle second
        logged after := by
      rcases Machine.performs_bind.mp hlater with ⟨error, hlog, -⟩ |
        ⟨value, last, audit, rest, hlog, hreturn, rfl⟩
      · exact ⟨_, hlog⟩
      · cases hreturn
        rw [List.append_nil]
        exact ⟨_, hlog⟩
    obtain ⟨logged, hlog⟩ := hskips
    obtain ⟨halone, hnone⟩ := log_leavesAlone hlog
    refine ⟨.passed (halone _) hnone fun hidle => ?_,
      fun other _ => halone other⟩
    exact absurd hidle (hbusy (congrArg _ hactive))
  · rcases Machine.performs_bind.mp hlater with ⟨error, hdue, rfl⟩ |
      ⟨value, last, started, rest, hdue, hreturn, rfl⟩
    · obtain ⟨hown, hothers⟩ := enqueueDue_turned hkeys hdue
      exact ⟨hown.mono fun _ => ⟨_, rfl⟩, hothers⟩
    · cases hreturn
      rw [List.append_nil]
      obtain ⟨hown, hothers⟩ := enqueueDue_turned hkeys hdue
      refine ⟨hown.mono ?_, hothers⟩
      rintro ⟨_, herror⟩
      cases herror

end Turns

end SyncBridge
