import Mathlib.Data.List.Sort
import SyncBridge.Foundation.Pool
import SyncBridge.Foundation.Table
import SyncBridge.Schema

/-!
# The store and its operations

Everything a service call awaits: queries and writes of the database, jobs
handed to the queue and taken off it, and the stretches of code that depend on
the clock, on chance or on the memory of the process.  One operation is one
atomic step; it goes through, or it fails and leaves the store as it was.
-/

namespace SyncBridge

open SyncBridge.Foundation

/-! ## Failures -/

inductive Failure where
  | notFound (message : String)
  | forbidden (message : String)
  | badRequest (messages : List String)
  | payloadTooLarge (message : String)
  | mappingValidation (messages : List String)
  | error (message : String)
  deriving DecidableEq, Repr

def Failure.message : Failure → String
  | .notFound message => message
  | .forbidden message => message
  | .badRequest _ => "Bad Request Exception"
  | .payloadTooLarge message => message
  | .mappingValidation _ => "Invalid mappingJson"
  | .error message => message

/-- The message of a failed job; `fallback` differs between the services. -/
def sanitizeErrorMessage (fallback : String) : Failure → String
  | .badRequest messages => ", ".intercalate messages
  | failure => if failure.message.isEmpty then fallback else failure.message

/-! ## The parts of the program that enter as they are

The transformation engine, the schedule calculations and the dates of the
runtime are used through the functions below only. -/

inductive TransformationValueType where
  | string
  | number
  | boolean
  | date
  | json
  deriving DecidableEq, Repr

inductive ComputeMode where
  | now
  | uuid
  deriving DecidableEq, Repr

structure NormalizedMappingField where
  outputPath : String
  sourcePath : String
  required : Bool
  hasDefault : Bool
  defaultValue : Option Json
  type : TransformationValueType
  trim : Bool
  lowercase : Bool
  uppercase : Bool
  compute : Option ComputeMode

structure TransformationErrorDetail where
  field : String
  code : String
  message : String
  path : Option String

structure TransformationResult where
  normalized : Record
  errors : List TransformationErrorDetail

/-- What a computed field is made from: the time and a fresh random value. -/
structure Ambient where
  now : Time
  random : Nat

structure TransformationEngine where
  compileMapping : Json → Except Failure (List NormalizedMappingField)
  transformRecordWithCompiledMapping :
    Ambient → Record → List NormalizedMappingField →
      Except Failure TransformationResult

structure CronUtils where
  /-- The errors of a cron expression, none when it is valid. -/
  validateCronExpression : String → List String
  validateTimezone : String → Bool
  computeNextRunAt : String → String → Time → Except Failure (Option Time)

inductive QueueMode where
  | sync
  | async
  deriving DecidableEq, Repr

/-- The configuration of the process and the parts above. -/
structure Env where
  queueMode : QueueMode
  isTestEnv : Bool
  defaultAttempts : Nat
  schedulerEnabled : Bool
  /-- Whether `SYNCBRIDGE_PROCESS_ROLE` is `worker`. -/
  isWorker : Bool
  lockTtlSeconds : Nat
  /-- The bytes of a payload as JSON text. -/
  payloadBytes : Record → Nat
  engine : TransformationEngine
  cron : CronUtils
  dates : Dates

/-! ## Jobs -/

structure AuthenticatedUser where
  sub : Id
  role : UserRole
  deriving DecidableEq, Repr

abbrev AuditActor := Option AuthenticatedUser

structure SyncRunMockRecordPayload where
  externalId : Option String
  raw : Json

structure ExecuteSyncRunJobPayload where
  backgroundJobId : Id
  syncRunId : Id
  pipelineId : Id
  requestedByUserId : Id
  requestedByRole : UserRole
  mockRecords : List SyncRunMockRecordPayload
  ignoreCursor : Bool
  triggerType : SyncRunTriggerType

structure ProcessWebhookEventJobPayload where
  backgroundJobId : Id
  webhookEventId : Id
  requestedByUserId : Option Id
  requestedByRole : Option UserRole

/-- The jobs `execute-sync-run` of the queue `sync-runs` and
`process-webhook-event` of the queue `webhooks`. -/
inductive JobPayload where
  | executeSyncRun (payload : ExecuteSyncRunJobPayload)
  | processWebhookEvent (payload : ProcessWebhookEventJobPayload)

/-- A delivery holds a job under a token of its own.  Delayed jobs count as
waiting. -/
inductive QueueJobState where
  | waiting
  | active (token : Nat)
  | completed
  | failed
  deriving DecidableEq, Repr

structure QueueJob where
  id : Id
  payload : JobPayload
  attempts : Nat
  attemptsMade : Nat
  state : QueueJobState

def QueueJob.complete (job : QueueJob) : QueueJob :=
  { job with state := .completed }

/-- A failed attempt is delivered again up to the attempts limit. -/
def QueueJob.retryOrFail (job : QueueJob) : QueueJob :=
  { job with
    attemptsMade := job.attemptsMade + 1
    state := if job.attemptsMade + 1 < job.attempts then .waiting else .failed }

/-! ## Store -/

/-- What a scheduler process keeps in memory. -/
structure PollLock where
  pollInProgress : Bool := false
  lockUntil : Time := 0

structure Store where
  clock : Time
  nextId : Id
  connectors : List Connector
  pipelines : List SyncPipeline
  syncRuns : List SyncRun
  backgroundJobs : List BackgroundJob
  webhookEvents : List WebhookEvent
  syncedRecords : List SyncedRecord
  auditLogs : List AuditLog
  jobs : List QueueJob
  pollLocks : Id → PollLock

inductive Op where
  | now
  | transform (raw : Record) (fields : List NormalizedMappingField)
  | connectorCreate (data : NewConnector)
  | connectorFindUnique (id : Id)
  | connectorUpdate (id : Id) (data : ConnectorData)
  | pipelineCreate (data : NewPipeline)
  | pipelineFindUnique (id : Id)
  | pipelineFindActive (sourceConnectorId : Id)
  | pipelineFindDue (now : Time)
  | pipelineUpdate (id : Id) (data : PipelineData)
  | syncRunCreate (data : NewSyncRun)
  | syncRunFindUnique (id : Id)
  | syncRunCountActive (pipelineId : Id)
  | syncRunUpdate (id : Id) (data : SyncRunData)
  | backgroundJobCreate (data : NewBackgroundJob)
  | backgroundJobFindUnique (id : Id)
  | backgroundJobUpdate (id : Id) (data : BackgroundJobData)
  | webhookEventFindFirst (sourceConnectorRef : Id) (idempotencyKey : String)
  | webhookEventCreate (data : NewWebhookEvent)
  | webhookEventFindUnique (id : Id)
  | webhookEventFindUniqueWithConnector (id : Id)
  | webhookEventUpdate (id : Id) (data : WebhookEventData)
  | syncedRecordCreate (data : NewSyncedRecord)
  | auditLogCreate (data : NewAuditLog)
  | queueAdd (jobId : Id) (payload : JobPayload) (attempts : Nat)
  | moveToCompleted (jobId : Id) (token : Nat)
  | moveToFailed (jobId : Id) (token : Nat)
  | pollEnter (worker : Id) (lockTtlSeconds : Nat)
  | pollLeave (worker : Id)

abbrev Op.Res : Op → Type
  | .now => Time
  | .transform _ _ => TransformationResult
  | .connectorCreate _ => Connector
  | .connectorFindUnique _ => Option Connector
  | .connectorUpdate _ _ => Connector
  | .pipelineCreate _ => SyncPipeline
  | .pipelineFindUnique _ => Option SyncPipeline
  | .pipelineFindActive _ => List SyncPipeline
  | .pipelineFindDue _ => List SyncPipeline
  | .pipelineUpdate _ _ => SyncPipeline
  | .syncRunCreate _ => SyncRun
  | .syncRunFindUnique _ => Option SyncRun
  | .syncRunCountActive _ => Nat
  | .syncRunUpdate _ _ => SyncRun
  | .backgroundJobCreate _ => BackgroundJob
  | .backgroundJobFindUnique _ => Option BackgroundJob
  | .backgroundJobUpdate _ _ => BackgroundJob
  | .webhookEventFindFirst _ _ => Option WebhookEvent
  | .webhookEventCreate _ => WebhookEvent
  | .webhookEventFindUnique _ => Option WebhookEvent
  | .webhookEventFindUniqueWithConnector _ =>
      Option (WebhookEvent × Option Connector)
  | .webhookEventUpdate _ _ => WebhookEvent
  | .syncedRecordCreate _ => SyncedRecord
  | .auditLogCreate _ => Unit
  | .queueAdd _ _ _ => Id
  | .moveToCompleted _ _ => Unit
  | .moveToFailed _ _ => Unit
  | .pollEnter _ _ => Bool
  | .pollLeave _ => Unit

/-- Reading the clock and the memory of the process cannot fail. -/
def Op.fallible : Op → Bool
  | .now => false
  | .pollEnter _ _ => false
  | .pollLeave _ => false
  | _ => true

abbrev Body (α : Type) := Prog Op.Res Failure α

abbrev await (op : Op) : Body op.Res := Prog.await op

def orNotFound {α : Type} (message : String) : Option α → Body α
  | some value => .ret value
  | none => .throw (.notFound message)

/-- `new Date()` and `Date.now()`. -/
abbrev currentTime : Body Time := await .now

def SyncRunStatus.isActive : SyncRunStatus → Bool
  | .queued => true
  | .running => true
  | _ => false

def SyncPipeline.isDue (now : Time) (row : SyncPipeline) : Bool :=
  row.status = .active && row.scheduleEnabled && row.scheduleCron.isSome &&
    row.nextRunAt.any (· ≤ now)

/-- The insertion sort by a date column, stable on equal dates. -/
def orderBy (column : SyncPipeline → Time) (rows : List SyncPipeline) :
    List SyncPipeline :=
  rows.insertionSort fun left right => column left ≤ column right

/-! ## What the operations do -/

def recordNotFound : Failure := .error "Record to update not found."

def uniqueViolation : Failure := .error "Unique constraint failed"

def missingLock : Failure := .error "Missing lock for job"

/-- The unique constraint on `(sourceConnectorRef, idempotencyKey)`; nulls are
distinct. -/
def violatesUnique (data : NewWebhookEvent) (rows : List WebhookEvent) : Bool :=
  data.idempotencyKey.isSome && rows.any fun row =>
    row.sourceConnectorRef = data.sourceConnectorRef &&
      row.idempotencyKey = data.idempotencyKey

namespace Store

variable (store : Store)

def createConnector (data : NewConnector) : Connector × Store :=
  let row : Connector := {
    id := store.nextId
    name := data.name
    type := data.type
    status := .active
    configJson := data.configJson
    ownerId := data.ownerId
    createdAt := store.clock }
  (row, { store with
    nextId := store.nextId + 1
    connectors := store.connectors ++ [row] })

def createPipeline (data : NewPipeline) : SyncPipeline × Store :=
  let row : SyncPipeline := {
    id := store.nextId
    name := data.name
    description := data.description
    sourceConnectorId := data.sourceConnectorId
    targetName := data.targetName
    status := data.status
    mappingJson := data.mappingJson
    scheduleEnabled := false
    scheduleCron := none
    scheduleTimezone := none
    nextRunAt := none
    lastRunAt := none
    cursorJson := none
    incrementalMode := false
    ownerId := data.ownerId
    createdAt := store.clock }
  (row, { store with
    nextId := store.nextId + 1
    pipelines := store.pipelines ++ [row] })

def createSyncRun (data : NewSyncRun) : SyncRun × Store :=
  let row : SyncRun := {
    id := store.nextId
    pipelineId := data.pipelineId
    status := data.status
    triggerType := data.triggerType
    recordsReceived := data.recordsReceived
    recordsProcessed := data.recordsProcessed
    recordsFailed := data.recordsFailed
    errorMessage := none
    startedAt := data.startedAt
    finishedAt := none
    createdAt := store.clock }
  (row, { store with
    nextId := store.nextId + 1
    syncRuns := store.syncRuns ++ [row] })

def createBackgroundJob (data : NewBackgroundJob) : BackgroundJob × Store :=
  let row : BackgroundJob := {
    id := store.nextId
    type := data.type
    status := data.status
    entityType := data.entityType
    entityId := data.entityId
    attempts := data.attempts
    lastError := none
    metadataJson := some data.metadataJson
    createdAt := store.clock
    startedAt := none
    finishedAt := none
    durationMs := none }
  (row, { store with
    nextId := store.nextId + 1
    backgroundJobs := store.backgroundJobs ++ [row] })

def createWebhookEvent (data : NewWebhookEvent) : WebhookEvent × Store :=
  let row : WebhookEvent := {
    id := store.nextId
    sourceConnectorRef := data.sourceConnectorRef
    connectorId := data.connectorId
    idempotencyKey := data.idempotencyKey
    eventType := data.eventType
    status := data.status
    payloadJson := data.payloadJson
    headersJson := data.headersJson
    receivedAt := store.clock
    processedAt := none
    errorMessage := none }
  (row, { store with
    nextId := store.nextId + 1
    webhookEvents := store.webhookEvents ++ [row] })

def createSyncedRecord (data : NewSyncedRecord) : SyncedRecord × Store :=
  let row : SyncedRecord := {
    id := store.nextId
    pipelineId := data.pipelineId
    externalId := data.externalId
    sourceType := data.sourceType
    rawJson := data.rawJson
    normalizedJson := data.normalizedJson
    syncRunId := data.syncRunId
    createdAt := store.clock }
  (row, { store with
    nextId := store.nextId + 1
    syncedRecords := store.syncedRecords ++ [row] })

def createAuditLog (data : NewAuditLog) : Store :=
  { store with
    nextId := store.nextId + 1
    auditLogs := store.auditLogs ++ [{
      id := store.nextId
      actorId := data.actorId
      action := data.action
      entityType := data.entityType
      entityId := data.entityId
      metadataJson := data.metadataJson
      createdAt := store.clock }] }

/-- The queue ignores an addition under a known id; the ids given to it are
those of rows just created. -/
def addJob (jobId : Id) (payload : JobPayload) (attempts : Nat) : Store :=
  { store with
    jobs := store.jobs ++ [{
      id := jobId
      payload := payload
      attempts := attempts
      attemptsMade := 0
      state := .waiting }] }

def settleJob (jobId : Id) (token : Nat) (settle : QueueJob → QueueJob) :
    Option Store :=
  match store.jobs.find? fun job =>
      job.id = jobId && job.state = .active token with
  | none => none
  | some _ =>
      some { store with
        jobs := store.jobs.map fun job =>
          if job.id = jobId && job.state = .active token then settle job
          else job }

end Store

def exec (env : Env) :
    (op : Op) → Store → Except Failure (op.Res × Store)
  | .now, store => .ok (store.clock, store)
  | .transform raw fields, store =>
      match env.engine.transformRecordWithCompiledMapping
          ⟨store.clock, store.nextId⟩ raw fields with
      | .ok result => .ok (result, store)
      | .error failure => .error failure
  | .connectorCreate data, store => .ok (store.createConnector data)
  | .connectorFindUnique id, store =>
      .ok (Table.find Connector.id id store.connectors, store)
  | .connectorUpdate id data, store =>
      match Table.find Connector.id id store.connectors with
      | none => .error recordNotFound
      | some row => .ok (data.apply row, { store with
          connectors :=
            Table.modify Connector.id id data.apply store.connectors })
  | .pipelineCreate data, store => .ok (store.createPipeline data)
  | .pipelineFindUnique id, store =>
      .ok (Table.find SyncPipeline.id id store.pipelines, store)
  | .pipelineFindActive sourceConnectorId, store =>
      .ok (orderBy SyncPipeline.createdAt
        (store.pipelines.filter fun row =>
          row.sourceConnectorId = sourceConnectorId && row.status = .active),
        store)
  | .pipelineFindDue now, store =>
      .ok (orderBy (fun row => row.nextRunAt.getD now)
        (store.pipelines.filter (SyncPipeline.isDue now)), store)
  | .pipelineUpdate id data, store =>
      match Table.find SyncPipeline.id id store.pipelines with
      | none => .error recordNotFound
      | some row => .ok (data.apply row, { store with
          pipelines :=
            Table.modify SyncPipeline.id id data.apply store.pipelines })
  | .syncRunCreate data, store => .ok (store.createSyncRun data)
  | .syncRunFindUnique id, store =>
      .ok (Table.find SyncRun.id id store.syncRuns, store)
  | .syncRunCountActive pipelineId, store =>
      .ok ((store.syncRuns.filter fun row =>
        row.pipelineId = pipelineId && row.status.isActive).length, store)
  | .syncRunUpdate id data, store =>
      match Table.find SyncRun.id id store.syncRuns with
      | none => .error recordNotFound
      | some row => .ok (data.apply row, { store with
          syncRuns := Table.modify SyncRun.id id data.apply store.syncRuns })
  | .backgroundJobCreate data, store => .ok (store.createBackgroundJob data)
  | .backgroundJobFindUnique id, store =>
      .ok (Table.find BackgroundJob.id id store.backgroundJobs, store)
  | .backgroundJobUpdate id data, store =>
      match Table.find BackgroundJob.id id store.backgroundJobs with
      | none => .error recordNotFound
      | some row => .ok (data.apply row, { store with
          backgroundJobs := Table.modify BackgroundJob.id id data.apply
            store.backgroundJobs })
  | .webhookEventFindFirst sourceConnectorRef idempotencyKey, store =>
      .ok (store.webhookEvents.find? fun row =>
        row.sourceConnectorRef = sourceConnectorRef &&
          row.idempotencyKey = some idempotencyKey, store)
  | .webhookEventCreate data, store =>
      if violatesUnique data store.webhookEvents then .error uniqueViolation
      else .ok (store.createWebhookEvent data)
  | .webhookEventFindUnique id, store =>
      .ok (Table.find WebhookEvent.id id store.webhookEvents, store)
  | .webhookEventFindUniqueWithConnector id, store =>
      .ok ((Table.find WebhookEvent.id id store.webhookEvents).map fun row =>
        (row, row.connectorId.bind fun connectorId =>
          Table.find Connector.id connectorId store.connectors), store)
  | .webhookEventUpdate id data, store =>
      match Table.find WebhookEvent.id id store.webhookEvents with
      | none => .error recordNotFound
      | some row => .ok (data.apply row, { store with
          webhookEvents := Table.modify WebhookEvent.id id data.apply
            store.webhookEvents })
  | .syncedRecordCreate data, store => .ok (store.createSyncedRecord data)
  | .auditLogCreate data, store => .ok ((), store.createAuditLog data)
  | .queueAdd jobId payload attempts, store =>
      .ok (jobId, store.addJob jobId payload attempts)
  | .moveToCompleted jobId token, store =>
      match store.settleJob jobId token QueueJob.complete with
      | none => .error missingLock
      | some store => .ok ((), store)
  | .moveToFailed jobId token, store =>
      match store.settleJob jobId token QueueJob.retryOrFail with
      | none => .error missingLock
      | some store => .ok ((), store)
  | .pollEnter worker lockTtlSeconds, store =>
      let lock := store.pollLocks worker
      if lock.pollInProgress || store.clock < lock.lockUntil then
        .ok (false, store)
      else
        .ok (true, { store with
          pollLocks := fun other =>
            if other = worker then
              ⟨true, store.clock + (lockTtlSeconds : Time) * 1000⟩
            else store.pollLocks other })
  | .pollLeave worker, store =>
      .ok ((), { store with
        pollLocks := fun other =>
          if other = worker then {} else store.pollLocks other })

end SyncBridge
