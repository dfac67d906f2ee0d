import SyncBridge.Services.Cursor
import SyncBridge.Services.Jobs

/-!
# Sync runs

`SyncRunsService`: a run of a pipeline over a batch of records, executed at
once or queued and executed by a worker.
-/

namespace SyncBridge

open SyncBridge.Foundation

structure CreateSyncRunDto where
  mockRecords : Option (List SyncRunMockRecordPayload)
  sampleRecords : Option (List SyncRunMockRecordPayload)
  ignoreCursor : Option Bool

structure CreateRunOptions where
  mockRecords : List SyncRunMockRecordPayload
  ignoreCursor : Bool
  triggerType : SyncRunTriggerType
  actor : AuditActor

structure RunProcessingSummary where
  recordsReceived : Nat
  recordsProcessed : Nat
  recordsFailed : Nat
  errorCount : Nat
  skippedByCursor : Nat
  cursorAdvanced : Bool
  cursorValue : Option Record

inductive RunAnswer where
  | queued (jobId syncRunId pipelineId : Id)
  | completed (run : SyncRun)

def RunAnswer.syncRunId : RunAnswer → Id
  | .queued _ syncRunId _ => syncRunId
  | .completed run => run.id

def RunAnswer.jobId : RunAnswer → Option Id
  | .queued jobId _ _ => some jobId
  | .completed _ => none

namespace SyncRunsService

variable (env : Env)

def hasActiveRun (pipelineId : Id) : Body Bool := do
  let count : Nat ← await (.syncRunCountActive pipelineId)
  pure (decide (0 < count))

/-! ## The records of a run -/

def compileMappingOrThrow (mappingJson : Json) :
    Except Failure (List NormalizedMappingField) :=
  match env.engine.compileMapping mappingJson with
  | .error (.mappingValidation messages) => .error (.badRequest messages)
  | result => result

def eligibleRecords (pipeline : SyncPipeline) (ignoreCursor : Bool)
    (mockRecords : List SyncRunMockRecordPayload) :
    List SyncRunMockRecordPayload :=
  if pipeline.incrementalMode && !ignoreCursor then
    mockRecords.filter fun record =>
      shouldProcessRecord env.dates record
        (normalizeCursorState env.dates pipeline.cursorJson)
  else mockRecords

/-- The variables of the loop over the records. -/
structure LoopState where
  createdCount : Nat := 0
  failedCount : Nat := 0
  totalErrorCount : Nat := 0
  maxCursor : Option CursorCandidate := none

def LoopState.fail (state : LoopState) (errors : Nat) : LoopState :=
  { state with
    failedCount := state.failedCount + 1
    totalErrorCount := state.totalErrorCount + errors }

def LoopState.created (state : LoopState) (candidate : Option CursorCandidate) :
    LoopState :=
  { state with
    createdCount := state.createdCount + 1
    maxCursor := pickLatestCursor state.maxCursor candidate }

def persistedRecord (syncRunId pipelineId : Id)
    (record : SyncRunMockRecordPayload) (normalized : Record) :
    NewSyncedRecord where
  pipelineId := pipelineId
  syncRunId := syncRunId
  externalId := record.externalId
  sourceType := "MANUAL"
  rawJson := .obj (ensureRecordObject record.raw)
  normalizedJson := .obj normalized

/-- The `try` block of the loop.  The row counts as created before the audit
calls, so when one of these throws the record is counted a second time, as
failed. -/
def persistRecord (syncRunId pipelineId : Id) (actor : AuditActor)
    (state : LoopState) (record : SyncRunMockRecordPayload)
    (normalized : Record) : Body LoopState := do
  match ← Prog.attempt (await (.syncedRecordCreate
      (persistedRecord syncRunId pipelineId record normalized))) with
  | .error _ => pure (state.fail 1)
  | .ok syncedRecord =>
      let state := state.created (extractCursorCandidate env.dates
        (ensureRecordObject record.raw))
      let audits : Body Unit := do
        AuditService.log "transformation_applied" "sync_run"
          (idString syncRunId)
          [("pipelineId", .id pipelineId),
           ("externalId", .ofText record.externalId)] actor
        AuditService.log "synced_record_created" "synced_record"
          (idString syncedRecord.id)
          [("pipelineId", .id pipelineId),
           ("syncRunId", .id syncRunId),
           ("externalId", .ofText syncedRecord.externalId)] actor
      match ← Prog.attempt audits with
      | .error _ => pure (state.fail 1)
      | .ok _ => pure state

/-- One turn of the loop. -/
def processRecord (syncRunId pipelineId : Id)
    (compiledMapping : List NormalizedMappingField) (actor : AuditActor)
    (state : LoopState) (record : SyncRunMockRecordPayload) :
    Body LoopState := do
  let transformed ← await
    (.transform (ensureRecordObject record.raw) compiledMapping)
  if transformed.errors.length > 0 then
    AuditService.log "transformation_failed" "sync_run" (idString syncRunId)
      [("pipelineId", .id pipelineId),
       ("externalId", .ofText record.externalId),
       ("errorCount", .nat transformed.errors.length)] actor
    pure (state.fail transformed.errors.length)
  else
    persistRecord env syncRunId pipelineId actor state record
      transformed.normalized

/-- The cursor is written only after a batch without failures. -/
def updateCursor (syncRunId : Id) (pipeline : SyncPipeline) (state : LoopState)
    (actor : AuditActor) : Body (Option Record) := do
  let candidate := if state.failedCount = 0 then state.maxCursor else none
  if !pipeline.incrementalMode then pure none
  else match candidate with
  | some maxCursor =>
      match cursorCandidateToJson env.dates maxCursor with
      | some cursorValue =>
          let _ ← await (.pipelineUpdate pipeline.id
            { cursorJson := some (.obj cursorValue) })
          AuditService.log "incremental_cursor_updated" "pipeline"
            (idString pipeline.id)
            [("pipelineId", .id pipeline.id),
             ("syncRunId", .id syncRunId),
             ("cursorSummary", .obj cursorValue)] actor
          pure (some cursorValue)
      | none => pure none
  | none =>
      AuditService.log "incremental_cursor_not_advanced" "pipeline"
        (idString pipeline.id)
        [("pipelineId", .id pipeline.id),
         ("syncRunId", .id syncRunId),
         ("reason", .str (if state.failedCount = 0 then "no_cursor_candidates"
           else "run_failed"))] actor
      pure none

def processRunRecords (syncRunId : Id) (pipeline : SyncPipeline)
    (mockRecords : List SyncRunMockRecordPayload) (ignoreCursor : Bool)
    (actor : AuditActor) : Body RunProcessingSummary := do
  let compiledMapping ←
    Prog.ofExcept (compileMappingOrThrow env pipeline.mappingJson)
  let eligible := eligibleRecords env pipeline ignoreCursor mockRecords
  let state ← eligible.foldlM
    (processRecord env syncRunId pipeline.id compiledMapping actor) {}
  let cursorValue ← updateCursor env syncRunId pipeline state actor
  pure {
    recordsReceived := mockRecords.length
    recordsProcessed := state.createdCount
    recordsFailed := state.failedCount
    errorCount := state.totalErrorCount
    skippedByCursor := mockRecords.length - eligible.length
    cursorAdvanced := cursorValue.isSome
    cursorValue := cursorValue }

/-! ## The life of a run -/

def RunProcessingSummary.finalRunStatus (summary : RunProcessingSummary) :
    SyncRunStatus :=
  if summary.recordsFailed > 0 then .failed else .success

def finalRunData (summary : RunProcessingSummary) (finishedAt : Time) :
    SyncRunData where
  status := RunProcessingSummary.finalRunStatus summary
  recordsReceived := some summary.recordsReceived
  recordsProcessed := some summary.recordsProcessed
  recordsFailed := some summary.recordsFailed
  errorMessage := some (if summary.recordsFailed > 0 then
    some "One or more records failed during processing." else none)
  finishedAt := some finishedAt

def finalRunAction (summary : RunProcessingSummary) : String :=
  if RunProcessingSummary.finalRunStatus summary = .success then
    "sync_run_completed" else "sync_run_failed"

def executeSyncRunNow (pipeline : SyncPipeline) (options : CreateRunOptions) :
    Body RunAnswer := do
  let startedAt ← currentTime
  let initialRun ← await (.syncRunCreate {
    pipelineId := pipeline.id
    status := .running
    triggerType := options.triggerType
    startedAt := some startedAt })
  AuditService.log "sync_run_started" "sync_run" (idString initialRun.id)
    [("syncRunId", .id initialRun.id),
     ("pipelineId", .id pipeline.id),
     ("status", SyncRunStatus.running.text),
     ("attempts", .nat 1),
     ("triggerType", options.triggerType.text)] options.actor
  let summary ← processRunRecords env initialRun.id pipeline
    options.mockRecords options.ignoreCursor options.actor
  let finishedAt ← currentTime
  let completedRun ← await (.syncRunUpdate initialRun.id
    (finalRunData summary finishedAt))
  let _ ← await (.pipelineUpdate pipeline.id { lastRunAt := some finishedAt })
  AuditService.log (finalRunAction summary) "sync_run"
    (idString completedRun.id)
    [("syncRunId", .id completedRun.id),
     ("pipelineId", .id pipeline.id),
     ("status", (RunProcessingSummary.finalRunStatus summary).text),
     ("attempts", .nat 1),
     ("durationMs", .num (finishedAt - startedAt : Time)),
     ("recordsReceived", .nat completedRun.recordsReceived),
     ("recordsProcessed", .nat completedRun.recordsProcessed),
     ("recordsFailed", .nat completedRun.recordsFailed),
     ("errorCount", .nat summary.errorCount),
     ("skippedByCursor", .nat summary.skippedByCursor),
     ("triggerType", options.triggerType.text)] options.actor
  AuditService.log "sync_run_created" "sync_run" (idString completedRun.id)
    [("pipelineId", .id pipeline.id),
     ("recordsReceived", .nat completedRun.recordsReceived),
     ("recordsProcessed", .nat completedRun.recordsProcessed),
     ("recordsFailed", .nat completedRun.recordsFailed),
     ("errorCount", .nat summary.errorCount),
     ("skippedByCursor", .nat summary.skippedByCursor),
     ("triggerType", options.triggerType.text)] options.actor
  pure (.completed completedRun)

/-- The requester of a job without an actor, `'system'` in the source. -/
def systemUser : AuthenticatedUser := ⟨0, .operator⟩

def queuedPayload (pipeline : SyncPipeline) (options : CreateRunOptions)
    (syncRunId backgroundJobId : Id) : ExecuteSyncRunJobPayload where
  backgroundJobId := backgroundJobId
  syncRunId := syncRunId
  pipelineId := pipeline.id
  requestedByUserId := (options.actor.getD systemUser).sub
  requestedByRole := (options.actor.getD systemUser).role
  mockRecords := options.mockRecords.map fun record =>
    { record with raw := .obj (ensureRecordObject record.raw) }
  ignoreCursor := options.ignoreCursor
  triggerType := options.triggerType

def queueSyncRun (pipeline : SyncPipeline) (options : CreateRunOptions) :
    Body RunAnswer := do
  let syncRun ← await (.syncRunCreate {
    pipelineId := pipeline.id
    status := .queued
    triggerType := options.triggerType })
  let backgroundJob ← await (.backgroundJobCreate {
    type := .syncRun
    status := .queued
    entityType := "sync_run"
    entityId := syncRun.id
    attempts := 0
    metadataJson := .obj
      [("pipelineId", .id pipeline.id),
       ("recordsReceived", .nat options.mockRecords.length),
       ("triggerType", options.triggerType.text),
       ("ignoreCursor", .bool options.ignoreCursor)] })
  let _ ← JobsService.enqueueExecuteSyncRunJob env
    (queuedPayload pipeline options syncRun.id backgroundJob.id)
  AuditService.log "sync_run_queued" "sync_run" (idString syncRun.id)
    [("jobId", .id backgroundJob.id),
     ("syncRunId", .id syncRun.id),
     ("pipelineId", .id pipeline.id),
     ("status", SyncRunStatus.queued.text),
     ("attempts", .nat 0),
     ("recordsReceived", .nat options.mockRecords.length),
     ("ignoreCursor", .bool options.ignoreCursor),
     ("triggerType", options.triggerType.text)] options.actor
  AuditService.log "background_job_queued" "background_job"
    (idString backgroundJob.id)
    [("jobId", .id backgroundJob.id),
     ("syncRunId", .id syncRun.id),
     ("pipelineId", .id pipeline.id),
     ("status", BackgroundJobStatus.queued.text),
     ("attempts", .nat 0),
     ("triggerType", options.triggerType.text)] options.actor
  pure (.queued backgroundJob.id syncRun.id pipeline.id)

def createRunFromPipeline (pipeline : SyncPipeline)
    (options : CreateRunOptions) : Body RunAnswer :=
  if env.queueMode = .async then queueSyncRun env pipeline options
  else executeSyncRunNow env pipeline options

def createForPipeline (pipelineId : Id) (dto : CreateSyncRunDto)
    (user : AuthenticatedUser) : Body RunAnswer := do
  let pipeline ← PipelinesService.findOne pipelineId user
  let mockRecords := (dto.mockRecords.or dto.sampleRecords).getD []
  let ignoreCursor := dto.ignoreCursor = some true
  AuditService.log "manual_sync_triggered" "pipeline" (idString pipeline.id)
    [("pipelineId", .id pipeline.id),
     ("triggerType", SyncRunTriggerType.manual.text),
     ("ignoreCursor", .bool ignoreCursor),
     ("recordsReceived", .nat mockRecords.length)] (some user)
  createRunFromPipeline env pipeline {
    mockRecords := mockRecords
    ignoreCursor := ignoreCursor
    triggerType := .manual
    actor := some user }

def createScheduledForPipeline (pipelineId : Id) (actor : AuditActor) :
    Body RunAnswer := do
  let pipeline ← PipelinesService.getById pipelineId
  createRunFromPipeline env pipeline {
    mockRecords := []
    ignoreCursor := false
    triggerType := .scheduled
    actor := actor }

/-! ## The worker -/

/-- The `try` block of `processQueuedSyncRun`. -/
def runQueuedRecords (payload : ExecuteSyncRunJobPayload) (attempts : Nat)
    (backgroundJobId syncRunId : Id) (pipeline : SyncPipeline)
    (startedAt : Time) (actor : AuditActor) : Body Unit := do
  let summary ← processRunRecords env syncRunId pipeline
    payload.mockRecords payload.ignoreCursor actor
  let finishedAt ← currentTime
  let durationMs := finishedAt - startedAt
  let _ ← await (.syncRunUpdate syncRunId
    (finalRunData summary finishedAt))
  let _ ← await (.pipelineUpdate pipeline.id { lastRunAt := some finishedAt })
  let _ ← await (.backgroundJobUpdate backgroundJobId {
    status := .completed
    attempts := attempts
    lastError := some none
    finishedAt := some finishedAt
    durationMs := some durationMs
    metadataJson := some (.obj
      [("pipelineId", .id pipeline.id),
       ("recordsReceived", .nat summary.recordsReceived),
       ("recordsProcessed", .nat summary.recordsProcessed),
       ("recordsFailed", .nat summary.recordsFailed),
       ("errorCount", .nat summary.errorCount),
       ("skippedByCursor", .nat summary.skippedByCursor),
       ("triggerType", payload.triggerType.text)]) })
  AuditService.log "background_job_completed" "background_job"
    (idString backgroundJobId)
    [("jobId", .id backgroundJobId),
     ("syncRunId", .id syncRunId),
     ("pipelineId", .id pipeline.id),
     ("status", BackgroundJobStatus.completed.text),
     ("attempts", .nat attempts),
     ("durationMs", .num durationMs),
     ("recordsReceived", .nat summary.recordsReceived),
     ("recordsProcessed", .nat summary.recordsProcessed),
     ("recordsFailed", .nat summary.recordsFailed),
     ("skippedByCursor", .nat summary.skippedByCursor),
     ("triggerType", payload.triggerType.text)] actor
  AuditService.log (finalRunAction summary) "sync_run"
    (idString syncRunId)
    [("jobId", .id backgroundJobId),
     ("syncRunId", .id syncRunId),
     ("pipelineId", .id pipeline.id),
     ("status", (RunProcessingSummary.finalRunStatus summary).text),
     ("recordsReceived", .nat summary.recordsReceived),
     ("recordsProcessed", .nat summary.recordsProcessed),
     ("recordsFailed", .nat summary.recordsFailed),
     ("errorCount", .nat summary.errorCount),
     ("skippedByCursor", .nat summary.skippedByCursor),
     ("attempts", .nat attempts),
     ("durationMs", .num durationMs),
     ("triggerType", payload.triggerType.text)] actor

/-- The `catch` block of `processQueuedSyncRun`. -/
def failQueuedRun (payload : ExecuteSyncRunJobPayload) (attempts : Nat)
    (backgroundJobId syncRunId : Id) (pipeline : SyncPipeline)
    (startedAt : Time) (actor : AuditActor) (failure : Failure) :
    Body Unit := do
  let finishedAt ← currentTime
  let durationMs := finishedAt - startedAt
  let message := sanitizeErrorMessage "Background sync run failed" failure
  let _ ← await (.syncRunUpdate syncRunId {
    status := .failed
    errorMessage := some (some message)
    finishedAt := some finishedAt })
  let _ ← await (.pipelineUpdate pipeline.id { lastRunAt := some finishedAt })
  let _ ← await (.backgroundJobUpdate backgroundJobId {
    status := .failed
    attempts := attempts
    lastError := some (some message)
    finishedAt := some finishedAt
    durationMs := some durationMs })
  AuditService.log "background_job_failed" "background_job"
    (idString backgroundJobId)
    [("jobId", .id backgroundJobId),
     ("syncRunId", .id syncRunId),
     ("pipelineId", .id pipeline.id),
     ("status", BackgroundJobStatus.failed.text),
     ("attempts", .nat attempts),
     ("durationMs", .num durationMs),
     ("triggerType", payload.triggerType.text)] actor
  AuditService.log "sync_run_failed" "sync_run" (idString syncRunId)
    [("jobId", .id backgroundJobId),
     ("syncRunId", .id syncRunId),
     ("pipelineId", .id pipeline.id),
     ("status", SyncRunStatus.failed.text),
     ("attempts", .nat attempts),
     ("durationMs", .num durationMs),
     ("triggerType", payload.triggerType.text)] actor
  throw failure

def processQueuedSyncRun (payload : ExecuteSyncRunJobPayload)
    (attempts : Nat) : Body Unit := do
  let found ← await (.backgroundJobFindUnique payload.backgroundJobId)
  let backgroundJob ← orNotFound "Background job not found" found
  let found ← await (.syncRunFindUnique payload.syncRunId)
  let syncRun ← orNotFound "Sync run not found" found
  let pipeline ← PipelinesService.getById payload.pipelineId
  let startedAt ← currentTime
  let _ ← await (.backgroundJobUpdate backgroundJob.id {
    status := .processing
    startedAt := some startedAt
    attempts := attempts })
  let _ ← await (.syncRunUpdate syncRun.id {
    status := .running
    startedAt := some startedAt })
  let actor : AuditActor :=
    some ⟨payload.requestedByUserId, payload.requestedByRole⟩
  AuditService.log "background_job_started" "background_job"
    (idString backgroundJob.id)
    [("jobId", .id backgroundJob.id),
     ("syncRunId", .id syncRun.id),
     ("pipelineId", .id pipeline.id),
     ("status", BackgroundJobStatus.processing.text),
     ("attempts", .nat attempts),
     ("triggerType", payload.triggerType.text)] actor
  AuditService.log "sync_run_started" "sync_run" (idString syncRun.id)
    [("syncRunId", .id syncRun.id),
     ("pipelineId", .id pipeline.id),
     ("status", SyncRunStatus.running.text),
     ("attempts", .nat attempts),
     ("triggerType", payload.triggerType.text)] actor
  tryCatch
    (runQueuedRecords env payload attempts backgroundJob.id syncRun.id
      pipeline startedAt actor)
    (failQueuedRun payload attempts backgroundJob.id syncRun.id pipeline
      startedAt actor)

end SyncRunsService

end SyncBridge
