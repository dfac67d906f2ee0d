import SyncBridge.Sample
import SyncBridge.Schedule.Writes
import SyncBridge.Services.CronUtils

/-!
# Enabled schedules are well formed

An edit of a schedule reads the row, mixes it with the request and validates
the result before it writes all of it at once.  Whatever other edits have done
in between, an enabled schedule in the table was validated as a whole.
-/

namespace SyncBridge

open SyncBridge.Foundation SyncBridge.Foundation.Prog

variable {env : Env}

/-! ## Rows -/

/-- The expression and the timezone are the trimmed and validated ones. -/
structure ValidatedSchedule (env : Env) (cron timezone : String) : Prop where
  cron_trimmed : trim cron = cron
  cron_given : cron.isEmpty = false
  cron_valid : env.cron.validateCronExpression cron = []
  timezone_trimmed : trim timezone = timezone
  timezone_valid : env.cron.validateTimezone timezone = true

def SyncPipeline.Validated (env : Env) (row : SyncPipeline) : Prop :=
  row.scheduleEnabled = true → ∃ cron timezone,
    row.scheduleCron = some cron ∧ row.scheduleTimezone = some timezone ∧
      ValidatedSchedule env cron timezone

theorem validatedSchedule_effective {dto : UpdatePipelineScheduleDto}
    {row : SyncPipeline} {status : PipelineStatus}
    (hcheck : SchedulerService.checkSchedule env
      (SchedulerService.effectiveSchedule dto row) status = .ok ())
    (henabled : (SchedulerService.effectiveSchedule dto row).enabled = true) :
    ValidatedSchedule env (SchedulerService.effectiveSchedule dto row).cron
      (SchedulerService.effectiveSchedule dto row).timezone := by
  obtain ⟨hgiven, hcron, htimezone⟩ := checkSchedule_eq_ok hcheck henabled
  exact ⟨trim_trim _, hgiven, hcron, trim_trim _, htimezone⟩

/-- Every planned write keeps the rows validated, whatever row it lands on. -/
theorem validated_apply {data : PipelineData} {known row : SyncPipeline}
    (call : Call) (hrow : row.Validated env)
    (hdata : data.LeavesSchedule ∨ data.Planned env known call) :
    (data.apply row).Validated env := by
  rcases hdata with hleaves | hplanned
  · have henabled : (data.apply row).scheduleEnabled = row.scheduleEnabled := by
      simp [PipelineData.apply, hleaves.scheduleEnabled]
    have hcron : (data.apply row).scheduleCron = row.scheduleCron := by
      simp [PipelineData.apply, hleaves.scheduleCron]
    have htimezone :
        (data.apply row).scheduleTimezone = row.scheduleTimezone := by
      simp [PipelineData.apply, hleaves.scheduleTimezone]
    rw [SyncPipeline.Validated, henabled, hcron, htimezone]
    exact hrow
  · cases hplanned with
    | poll _ _ _ => exact hrow
    | @edit _ dto _ _ _ hcheck _ =>
        intro henabled
        have hschedule :
            (SchedulerService.effectiveSchedule dto known).enabled = true :=
          henabled
        refine ⟨_, _, ?_, ?_, validatedSchedule_effective hcheck hschedule⟩
        · simp [PipelineData.apply, SchedulerService.scheduleData, hschedule]
        · simp [PipelineData.apply, SchedulerService.scheduleData, hschedule]

theorem schedule_of_validated {row : SyncPipeline}
    (hempty : env.cron.validateTimezone "" = false)
    (hrow : row.Validated env) (henabled : row.scheduleEnabled = true) :
    row.scheduleCron = some (SchedulerService.cronOf row) ∧
      row.scheduleTimezone = some (SchedulerService.timezoneOf row) ∧
      ValidatedSchedule env (SchedulerService.cronOf row)
        (SchedulerService.timezoneOf row) := by
  obtain ⟨cron, timezone, hcron, htimezone, hvalid⟩ := hrow henabled
  have hcronOf : SchedulerService.cronOf row = cron := by
    simp [SchedulerService.cronOf, hcron, hvalid.cron_trimmed]
  have hgiven : timezone.isEmpty = false := by
    by_contra hnone
    have hnil : timezone = "" := by simpa using hnone
    have haccepted := hvalid.timezone_valid
    rw [hnil, hempty] at haccepted
    cases haccepted
  have hzoneOf : SchedulerService.timezoneOf row = timezone := by
    simp [SchedulerService.timezoneOf, htimezone, hvalid.timezone_trimmed,
      hgiven]
  rw [hcronOf, hzoneOf]
  exact ⟨hcron, htimezone, hvalid⟩

theorem validSchedule_of_validated {row : SyncPipeline}
    (hempty : env.cron.validateTimezone "" = false)
    (hrow : row.Validated env) (henabled : row.scheduleEnabled = true) :
    SchedulerService.validSchedule env row = true := by
  obtain ⟨-, -, hvalid⟩ := schedule_of_validated hempty hrow henabled
  simp [SchedulerService.validSchedule, hvalid.cron_given, hvalid.cron_valid,
    hvalid.timezone_valid]

/-! ## Requests that are rejected -/

def Failure.isBadRequest : Failure → Bool
  | .badRequest _ => true
  | _ => false

def plainFailure (op : Op) (failure : Failure) : Prop :=
  (∀ raw fields, op ≠ .transform raw fields) → failure.isBadRequest = false

theorem plainFailure_of_exec {op : Op} {store : Store} {failure : Failure}
    (h : exec env op store = .error failure) : plainFailure op failure := by
  intro hop
  cases op with
  | transform raw fields => exact absurd rfl (hop raw fields)
  | _ =>
      simp only [exec] at h
      try split at h
      all_goals first
        | cases h; rfl
        | cases h

theorem updatePipelineSchedule_throws {pipelineId : Id}
    {dto : UpdatePipelineScheduleDto} {user : AuthenticatedUser} :
    (Call.body env (.updatePipelineSchedule pipelineId dto user)).ThrowsOnlyAfter
      Op.writesPipelines plainFailure (·.isBadRequest = false) := by
  have hlog : ∀ {action entityType entityId : String} {metadata : Record}
      {actor : AuditActor}, (AuditService.log action entityType entityId
        metadata actor).ThrowsOnly plainFailure (·.isBadRequest = false) :=
    throwsOnly_await fun _ hraises => hraises fun _ _ => nofun
  simp only [Call.body, SchedulerService.updatePipelineSchedule,
    PipelinesService.findOne, PipelinesService.getById, map_eq, bind_eq,
    bind_assoc]
  refine throwsOnlyAfter_await_bind rfl fun found => ?_
  cases found with
  | none => trivial
  | some row =>
      refine throwsOnlyAfter_ofExcept_bind fun _ => ?_
      refine throwsOnlyAfter_ofExcept_bind fun _ => ?_
      refine throwsOnlyAfter_await_bind rfl fun baseTime => ?_
      refine throwsOnlyAfter_ofExcept_bind fun nextRunAt => ?_
      refine throwsOnlyAfter_of_throwsOnly rfl fun updated => ?_
      refine ThrowsOnly.bind hlog fun _ => ThrowsOnly.bind ?_ fun _ => trivial
      split
      · exact ThrowsOnly.bind hlog fun _ => trivial
      · trivial

/-! ## Interleavings -/

def StorageErrors (_ : Platform) : Step → Prop
  | .fail _ failure => failure.isBadRequest = false
  | _ => True

instance (pool : Platform) : DecidablePred (StorageErrors pool)
  | .fail _ failure =>
      inferInstanceAs (Decidable (failure.isBadRequest = false))
  | .start _ | .run _ | .env _ => inferInstanceAs (Decidable True)

section Interleavings

variable {ok : Platform → Step → Prop} {init : Store} {pool : Platform}

theorem validated_of_reach (hinit : ∀ row ∈ init.pipelines, row.Validated env)
    (h : (platform env).Reach ok init.boot pool) :
    ∀ row ∈ pool.store.pipelines, row.Validated env := by
  refine h.invariant
    (I := fun pool => ∀ row ∈ pool.store.pipelines, row.Validated env)
    hinit ?_ ?_ ?_ ?_
  · exact fun _ _ _ hold _ _ => hold
  · intro pool pool' index task op next value hreach hold _ hdone
    have haccepts := planned_of_reach hreach task
      (List.mem_of_getElem? hdone.at_index)
    rw [hdone.awaits, Monitor.accepts_call] at haccepts
    rw [effect_of_done hdone]
    cases hop : op.writesPipelines with
    | false => rwa [effect_pipelines hop]
    | true =>
        cases op with
        | pipelineCreate data =>
            intro row hrow
            rcases List.mem_append.mp hrow with hbefore | hnew
            · exact hold row hbefore
            · obtain rfl := List.mem_singleton.mp hnew
              exact nofun
        | pipelineUpdate id data =>
            refine Table.forall_modify hold fun row _ _ hrow => ?_
            rcases haccepts.1 with hleaves | ⟨known, -, -, hplanned⟩
            · exact @validated_apply _ _ row _ task.call hrow
                (.inl hleaves)
            · exact validated_apply task.call hrow (.inr hplanned)
        | _ => cases hop
  · intro pool pool' _ _ _ _ _ _ hold _ hraised
    rwa [hraised.store]
  · intro pool pool' event calls _ hold _ henv _
    obtain ⟨clock, jobs, hstore⟩ := Event.apply_store henv
    rw [hstore]
    exact hold

theorem due_valid_of_reach (hinit : ∀ row ∈ init.pipelines, row.Validated env)
    (hempty : env.cron.validateTimezone "" = false)
    (h : (platform env).Reach ok init.boot pool) :
    ∀ task ∈ pool.tasks, ∀ now due,
      (⟨.pipelineFindDue now, due⟩ : Σ op, Op.Res op) ∈ task.trace →
      ∀ row ∈ due, SchedulerService.validSchedule env row = true := by
  refine h.forall_tasks (P := fun _ task => ∀ now due,
    (⟨.pipelineFindDue now, due⟩ : Σ op, Op.Res op) ∈ task.trace →
      ∀ row ∈ due, SchedulerService.validSchedule env row = true)
    ?_ ?_ ?_ ?_ ?_ ?_
  · simp [Store.boot]
  · intro store call now due hentry
    cases hentry
  · exact fun _ _ _ _ _ _ hold => hold
  · exact fun _ _ _ _ _ _ _ hold => hold
  · intro pool pool' index task op next value hreach hold hdone now due hentry
      row hrow
    rcases List.mem_cons.mp hentry with heq | hbefore
    · cases heq
      obtain ⟨hstored, hdue⟩ := exec_pipelineFindDue (exec_of_done hdone) hrow
      exact validSchedule_of_validated hempty
        (validated_of_reach hinit hreach row hstored) (of_isDue hdue).2
    · exact hold now due hbefore row hrow
  · exact fun _ _ _ _ _ _ hold _ => hold

theorem edit_clean_of_reach
    (hok : ∀ pool step, ok pool step → StorageErrors pool step)
    (h : (platform env).Reach ok init.boot pool) :
    ∀ task ∈ pool.tasks, ∀ pipelineId dto user,
      task.call = .updatePipelineSchedule pipelineId dto user →
      ((∀ entry ∈ task.trace, entry.1.writesPipelines = false) ∧
        task.prog.ThrowsOnlyAfter Op.writesPipelines plainFailure
          (·.isBadRequest = false)) ∨
      task.prog.ThrowsOnly plainFailure (·.isBadRequest = false) := by
  refine h.invariant (I := fun pool => ∀ task ∈ pool.tasks,
    ∀ pipelineId dto user,
      task.call = .updatePipelineSchedule pipelineId dto user →
      ((∀ entry ∈ task.trace, entry.1.writesPipelines = false) ∧
        task.prog.ThrowsOnlyAfter Op.writesPipelines plainFailure
          (·.isBadRequest = false)) ∨
      task.prog.ThrowsOnly plainFailure (·.isBadRequest = false))
    ?_ ?_ ?_ ?_ ?_
  · simp [Store.boot]
  · intro pool call _ hold _ _ task htask pipelineId dto user hcall
    rcases List.mem_append.mp htask with hmem | hnew
    · exact hold task hmem pipelineId dto user hcall
    · obtain rfl := List.mem_singleton.mp hnew
      obtain rfl : call = _ := hcall
      exact .inl ⟨by simp [System.spawn], updatePipelineSchedule_throws⟩
  · intro pool pool' index task op next value _ hold _ hdone other hother
      pipelineId dto user hcall
    have hmem := List.mem_of_getElem? hdone.at_index
    rw [hdone.tasks] at hother
    rcases List.mem_or_eq_of_mem_set hother with hmember | rfl
    · exact hold other hmember pipelineId dto user hcall
    · have hbefore := hold task hmem pipelineId dto user hcall
      rw [hdone.awaits] at hbefore
      rcases hbefore with ⟨hclean, hrest⟩ | hrest
      · have hvalue := hrest.1 value
        split at hvalue
        · exact .inr hvalue
        · rename_i hop
          refine .inl ⟨fun entry hentry => ?_, hvalue⟩
          rcases List.mem_cons.mp hentry with rfl | hentry
          · simpa using hop
          · exact hclean entry hentry
      · exact .inr (hrest.1 value)
  · intro pool pool' index task op next error _ hold hcause hraised other hother
      pipelineId dto user hcall
    have hmem := List.mem_of_getElem? hraised.at_index
    have hplain : plainFailure op error := by
      rcases hcause with ⟨-, hexec⟩ | ⟨hkeeps, -⟩
      · exact plainFailure_of_exec hexec
      · exact fun _ => hok _ _ hkeeps
    rw [hraised.tasks] at hother
    rcases List.mem_or_eq_of_mem_set hother with hmember | rfl
    · exact hold other hmember pipelineId dto user hcall
    · have hbefore := hold task hmem pipelineId dto user hcall
      rw [hraised.awaits] at hbefore
      rcases hbefore with ⟨hclean, hrest⟩ | hrest
      · exact .inl ⟨hclean, hrest.2 error⟩
      · exact .inr (hrest.2 error hplain)
  · intro pool pool' event calls _ hold _ _ htasks task htask pipelineId dto
      user hcall
    rw [htasks] at htask
    rcases List.mem_append.mp htask with hmem | hnew
    · exact hold task hmem pipelineId dto user hcall
    · obtain ⟨call, -, rfl⟩ := List.mem_map.mp hnew
      obtain rfl : call = _ := hcall
      exact .inl ⟨by simp [System.spawn], updatePipelineSchedule_throws⟩

end Interleavings

/-! ## Well-formed schedules -/

variable {calendar : Cron.Calendar}

def SyncPipeline.WellScheduled (calendar : Cron.Calendar) (row : SyncPipeline) :
    Prop :=
  row.scheduleEnabled = true →
    (∃ cron parsed, row.scheduleCron = some cron ∧
      Cron.parseCronExpression cron = .ok parsed) ∧
    ∃ timezone, row.scheduleTimezone = some timezone ∧
      Cron.validateTimezone calendar timezone = true

theorem wellScheduled_of_validated {row : SyncPipeline}
    (hcron : env.cron = Cron.utils calendar) (hrow : row.Validated env) :
    row.WellScheduled calendar := by
  intro henabled
  obtain ⟨cron, timezone, hstored, hzone, hvalid⟩ := hrow henabled
  have hexpression := hvalid.cron_valid
  have haccepted := hvalid.timezone_valid
  rw [hcron] at hexpression haccepted
  refine ⟨?_, timezone, hzone, haccepted⟩
  cases hparsed : Cron.parseCronExpression cron with
  | ok parsed => exact ⟨cron, parsed, hstored, hparsed⟩
  | error failure =>
      simp [Cron.utils, Cron.validateCronExpression, hparsed] at hexpression

/-- What the schedules of a platform are like in every interleaving. -/
structure SchedulesWellFormed (env : Env) (calendar : Cron.Calendar)
    (pool : Platform) : Prop where
  enabled : ∀ row ∈ pool.store.pipelines, row.WellScheduled calendar
  /-- The branch of invalid configurations is not taken. -/
  polled : ∀ task ∈ pool.tasks, ∀ now due,
    (⟨.pipelineFindDue now, due⟩ : Σ op, Op.Res op) ∈ task.trace →
    ∀ row ∈ due, SchedulerService.validSchedule env row = true
  rejected : ∀ task ∈ pool.tasks, ∀ pipelineId dto user messages,
    task.call = .updatePipelineSchedule pipelineId dto user →
    task.prog = .throw (.badRequest messages) →
    ∀ entry ∈ task.trace, ∀ store,
      (entry.1.effect store).pipelines = store.pipelines

/-- From pipelines as `create` leaves them, every interleaving keeps the enabled
schedules well formed. -/
theorem schedules_well_formed {init : Store} {pool : Platform}
    (hcron : env.cron = Cron.utils calendar)
    (hempty : calendar.acceptsTimezone "" = false)
    (hinit : ∀ row ∈ init.pipelines, row.scheduleEnabled = false)
    (h : (platform env).Reach StorageErrors init.boot pool) :
    SchedulesWellFormed env calendar pool where
  enabled := by
    intro row hrow
    refine wellScheduled_of_validated hcron
      (validated_of_reach (fun row hrow henabled => ?_) h row hrow)
    rw [hinit row hrow] at henabled
    cases henabled
  polled := by
    refine due_valid_of_reach (fun row hrow henabled => ?_) ?_ h
    · rw [hinit row hrow] at henabled
      cases henabled
    · rw [hcron]
      exact hempty
  rejected := by
    intro task htask pipelineId dto user messages hcall hprog entry hentry store
    rcases edit_clean_of_reach (fun _ _ hok => hok) h task htask pipelineId dto
      user hcall with ⟨hclean, -⟩ | hthrows
    · exact effect_pipelines (hclean entry hentry)
    · rw [hprog] at hthrows
      cases hthrows

/-! ## An edit and a polling cycle -/

def editedAndPolled : List Step :=
  [.start (Sample.editSchedule (some true) (some "60 * * * *")),
   .start (Sample.editSchedule (some true) (some " * * * * * ")),
   .start (.runPollingCycle 0)] ++
    List.replicate 1 (.run 0) ++ List.replicate 5 (.run 1) ++
    [.env (.tick 60000)] ++ List.replicate 16 (.run 2)

theorem schedules_well_formed_of_edit :
    ∃ pool, (platform Sample.cronEnv).runWhere StorageErrors
        Sample.unscheduledStore.boot editedAndPolled = some pool ∧
      (∀ row ∈ pool.store.pipelines, row.scheduleEnabled = true) ∧
      SchedulesWellFormed Sample.cronEnv Sample.calendar pool := by
  have hruns : ((platform Sample.cronEnv).runWhere StorageErrors
      Sample.unscheduledStore.boot editedAndPolled).any (fun pool =>
        pool.store.pipelines.all fun row => row.scheduleEnabled) = true := by
    decide +kernel
  obtain ⟨pool, hrun, henabled⟩ := (Option.any_eq_true _ _).mp hruns
  refine ⟨pool, hrun, List.all_eq_true.mp henabled, ?_⟩
  refine schedules_well_formed rfl (by decide) ?_
    (System.reach_of_runWhere hrun)
  simp [Sample.unscheduledStore, Sample.unscheduled]

end SyncBridge
