import SyncBridge.Services.SyncRuns

/-!
# The scheduler

`SchedulerService`: the schedule of a pipeline, its manual trigger and the
polling cycle of a worker process.
-/

namespace SyncBridge

open SyncBridge.Foundation

structure UpdatePipelineScheduleDto where
  scheduleEnabled : Option Bool := none
  scheduleCron : Option String := none
  scheduleTimezone : Option String := none
  incrementalMode : Option Bool := none

structure ScheduleResponse where
  pipelineId : Id
  pipelineStatus : PipelineStatus
  scheduleEnabled : Bool
  scheduleCron : Option String
  scheduleTimezone : Option String
  nextRunAt : Option Time
  lastRunAt : Option Time
  incrementalMode : Bool
  cursorSummary : Option Record

structure PollSummary where
  duePipelines : Nat
  enqueued : Nat
  skipped : Nat

namespace SchedulerService

variable (env : Env)

def toCursorSummary : Option Json → Option Record
  | some (.obj raw) =>
      let sequence : Record := match Record.get raw "sequence" with
        | some (.num sequence) => [("sequence", .num sequence)]
        | _ => []
      let updatedAt : Record := match Record.get raw "updatedAt" with
        | some (.str updatedAt) => [("updatedAt", .str updatedAt)]
        | _ => []
      match sequence ++ updatedAt with
      | [] => none
      | summary => some summary
  | _ => none

def toScheduleResponse (pipeline : SyncPipeline) : ScheduleResponse where
  pipelineId := pipeline.id
  pipelineStatus := pipeline.status
  scheduleEnabled := pipeline.scheduleEnabled
  scheduleCron := pipeline.scheduleCron
  scheduleTimezone := pipeline.scheduleTimezone
  nextRunAt := pipeline.nextRunAt
  lastRunAt := pipeline.lastRunAt
  incrementalMode := pipeline.incrementalMode
  cursorSummary := toCursorSummary pipeline.cursorJson

/-! ## The schedule of a pipeline -/

structure EffectiveSchedule where
  enabled : Bool
  cron : String
  timezone : String
  incrementalMode : Bool

def effectiveSchedule (dto : UpdatePipelineScheduleDto)
    (pipeline : SyncPipeline) : EffectiveSchedule where
  enabled := dto.scheduleEnabled.getD pipeline.scheduleEnabled
  cron := trim ((dto.scheduleCron.or pipeline.scheduleCron).getD "")
  timezone :=
    trim ((dto.scheduleTimezone.or pipeline.scheduleTimezone).getD "UTC")
  incrementalMode := dto.incrementalMode.getD pipeline.incrementalMode

def checkSchedule (schedule : EffectiveSchedule) (status : PipelineStatus) :
    Except Failure Unit :=
  if status = .archived ∧ schedule.enabled then
    .error (.badRequest ["Archived pipelines cannot be scheduled"])
  else if schedule.enabled ∧ schedule.cron.isEmpty then
    .error (.badRequest
      ["scheduleCron is required when scheduleEnabled is true"])
  else if schedule.enabled then
    match env.cron.validateCronExpression schedule.cron with
    | [] =>
        if env.cron.validateTimezone schedule.timezone then .ok ()
        else .error (.badRequest ["Invalid schedule timezone"])
    | errors => .error (.badRequest errors)
  else .ok ()

def scheduledNextRunAt (schedule : EffectiveSchedule)
    (status : PipelineStatus) (baseTime : Time) :
    Except Failure (Option Time) :=
  if schedule.enabled ∧ status = .active then
    env.cron.computeNextRunAt schedule.cron schedule.timezone baseTime
  else .ok none

def scheduleData (schedule : EffectiveSchedule) (pipeline : SyncPipeline)
    (nextRunAt : Option Time) : PipelineData where
  scheduleEnabled := some schedule.enabled
  scheduleCron :=
    some (if schedule.enabled then some schedule.cron
      else pipeline.scheduleCron)
  scheduleTimezone :=
    some (if schedule.enabled then some schedule.timezone
      else some (pipeline.scheduleTimezone.getD "UTC"))
  nextRunAt := some nextRunAt
  incrementalMode := some schedule.incrementalMode

def updatePipelineSchedule (pipelineId : Id) (dto : UpdatePipelineScheduleDto)
    (user : AuthenticatedUser) : Body ScheduleResponse := do
  let pipeline ← PipelinesService.findOne pipelineId user
  let schedule := effectiveSchedule dto pipeline
  Prog.ofExcept (checkSchedule env schedule pipeline.status)
  let baseTime ← currentTime
  let nextRunAt ←
    Prog.ofExcept (scheduledNextRunAt env schedule pipeline.status baseTime)
  let updated ← await (.pipelineUpdate pipeline.id
    (scheduleData schedule pipeline nextRunAt))
  AuditService.log "pipeline_schedule_updated" "pipeline"
    (idString pipeline.id)
    [("pipelineId", .id pipeline.id),
     ("scheduleEnabled", .bool updated.scheduleEnabled),
     ("scheduleCron", .ofText updated.scheduleCron),
     ("scheduleTimezone", .ofText updated.scheduleTimezone),
     ("nextRunAt", env.dates.json updated.nextRunAt),
     ("incrementalMode", .bool updated.incrementalMode)] (some user)
  if pipeline.scheduleEnabled ≠ updated.scheduleEnabled then
    AuditService.log
      (if updated.scheduleEnabled then "pipeline_schedule_enabled"
        else "pipeline_schedule_disabled")
      "pipeline" (idString pipeline.id)
      [("pipelineId", .id pipeline.id),
       ("scheduleEnabled", .bool updated.scheduleEnabled),
       ("nextRunAt", env.dates.json updated.nextRunAt)] (some user)
  pure (toScheduleResponse updated)

/-! ## Starting scheduled runs -/

def activeRunMetadata (pipelineId : Id) : Record :=
  [("pipelineId", .id pipelineId),
   ("triggerType", SyncRunTriggerType.scheduled.text),
   ("reason", .str "active_run_exists")]

def enqueuedMetadata (pipelineId : Id) (run : RunAnswer) : Record :=
  [("pipelineId", .id pipelineId),
   ("triggerType", SyncRunTriggerType.scheduled.text),
   ("syncRunId", .id run.syncRunId),
   ("jobId", .ofText (run.jobId.map idString))]

def checkTrigger : PipelineStatus → Except Failure Unit
  | .archived =>
      .error (.badRequest ["Archived pipelines cannot be triggered"])
  | .paused => .error (.badRequest ["Paused pipelines cannot be triggered"])
  | .active => .ok ()

def triggerPipelineSchedule (pipelineId : Id) (user : AuthenticatedUser) :
    Body RunAnswer := do
  let pipeline ← PipelinesService.findOne pipelineId user
  Prog.ofExcept (checkTrigger pipeline.status)
  let hasActiveRun ← SyncRunsService.hasActiveRun pipeline.id
  if hasActiveRun then
    AuditService.log "scheduled_pipeline_skipped" "pipeline"
      (idString pipeline.id) (activeRunMetadata pipeline.id) (some user)
    throw (.badRequest
      ["A queued or running sync already exists for this pipeline"])
  else
    let run ← SyncRunsService.createScheduledForPipeline env pipeline.id
      (some user)
    AuditService.log "scheduled_sync_enqueued" "pipeline"
      (idString pipeline.id) (enqueuedMetadata pipeline.id run) (some user)
    pure run

/-! ## Polling -/

def cronOf (pipeline : SyncPipeline) : String :=
  trim (pipeline.scheduleCron.getD "")

def timezoneOf (pipeline : SyncPipeline) : String :=
  let timezone := trim (pipeline.scheduleTimezone.getD "UTC")
  if timezone.isEmpty then "UTC" else timezone

def validSchedule (pipeline : SyncPipeline) : Bool :=
  !(cronOf pipeline).isEmpty &&
    env.cron.validateTimezone (timezoneOf pipeline) &&
    (env.cron.validateCronExpression (cronOf pipeline)).isEmpty

def pollActor (pipeline : SyncPipeline) : AuditActor :=
  some ⟨pipeline.ownerId, .operator⟩

def enqueueDue (now : Time) (pipeline : SyncPipeline) : Body Unit := do
  let run ← SyncRunsService.createScheduledForPipeline env pipeline.id
    (pollActor pipeline)
  let nextRunAt ← Prog.ofExcept (env.cron.computeNextRunAt (cronOf pipeline)
    (timezoneOf pipeline) now)
  let _ ← await (.pipelineUpdate pipeline.id { nextRunAt := some nextRunAt })
  AuditService.log "scheduled_sync_enqueued" "pipeline"
    (idString pipeline.id)
    (enqueuedMetadata pipeline.id run ++
      [("nextRunAt", env.dates.json nextRunAt)]) (pollActor pipeline)

/-- One turn of the loop over the due pipelines. -/
def pollPipeline (now : Time) (summary : PollSummary)
    (pipeline : SyncPipeline) : Body PollSummary := do
  if !validSchedule env pipeline then
    AuditService.log "scheduled_pipeline_skipped" "pipeline"
      (idString pipeline.id)
      [("pipelineId", .id pipeline.id),
       ("reason", .str "invalid_schedule_configuration")]
      (pollActor pipeline)
    pure { summary with skipped := summary.skipped + 1 }
  else
    let hasActiveRun ← SyncRunsService.hasActiveRun pipeline.id
    if hasActiveRun then
      AuditService.log "scheduled_pipeline_skipped" "pipeline"
        (idString pipeline.id) (activeRunMetadata pipeline.id)
        (pollActor pipeline)
      pure { summary with skipped := summary.skipped + 1 }
    else
      enqueueDue env now pipeline
      pure { summary with enqueued := summary.enqueued + 1 }

def enqueueDuePipelines : Body PollSummary := do
  let now ← currentTime
  let duePipelines ← await (.pipelineFindDue now)
  duePipelines.foldlM (pollPipeline env now) ⟨duePipelines.length, 0, 0⟩

def shouldRunPolling : Bool :=
  env.schedulerEnabled && env.isWorker && !env.isTestEnv

/-- The `try` block of `runPollingCycle`. -/
def pollTick (startedAt : Time) : Body Unit := do
  AuditService.log "scheduler_tick_started" "scheduler" "default"
    [("startedAt", env.dates.json (some startedAt))] none
  let summary ← enqueueDuePipelines env
  let finishedAt ← currentTime
  AuditService.log "scheduler_tick_completed" "scheduler" "default"
    [("duePipelines", .nat summary.duePipelines),
     ("enqueued", .nat summary.enqueued),
     ("skipped", .nat summary.skipped),
     ("durationMs", .num (finishedAt - startedAt : Time))] none

/-- The `catch` block of `runPollingCycle`. -/
def pollFailed (startedAt : Time) (failure : Failure) : Body Unit := do
  let finishedAt ← currentTime
  AuditService.log "scheduler_tick_failed" "scheduler" "default"
    [("errorMessage", .str failure.message),
     ("durationMs", .num (finishedAt - startedAt : Time))] none

/-- The `finally` block runs after the `catch` block too, whether or not that
throws. -/
def runPollingCycle (worker : Id) : Body Unit := do
  if !shouldRunPolling env then pure ()
  else
    let entered : Bool ← await (.pollEnter worker env.lockTtlSeconds)
    if !entered then pure ()
    else
      let startedAt ← currentTime
      let outcome ← Prog.attempt
        (tryCatch (pollTick env startedAt) (pollFailed startedAt))
      await (.pollLeave worker)
      Prog.ofExcept outcome

end SchedulerService

end SyncBridge
