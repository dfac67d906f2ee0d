import SyncBridge.JavaScript

/-!
# The database schema

The tables of `schema.prisma` with the columns the services read or write.
Identifiers are UUIDs there; here they are numbers, handed out in increasing
order, and `idString` is their text.
-/

namespace SyncBridge

abbrev Id := Nat

def idString (id : Id) : String := toString id

def Json.id (id : Id) : Json := .str (idString id)

def Json.nat (value : Nat) : Json := .num value

def Json.ofText (text : Option String) : Json :=
  match text with
  | some text => .str text
  | none => .null

inductive UserRole where
  | user
  | operator
  | admin
  deriving DecidableEq, Repr

inductive ConnectorType where
  | restApi
  | webhook
  | csvUpload
  | jsonUpload
  | database
  | googleSheets
  | oneCExport
  | manual
  deriving DecidableEq, Repr

inductive ConnectorStatus where
  | active
  | paused
  | error
  deriving DecidableEq, Repr

inductive PipelineStatus where
  | active
  | paused
  | archived
  deriving DecidableEq, Repr

inductive SyncRunStatus where
  | queued
  | running
  | success
  | failed
  | cancelled
  deriving DecidableEq, Repr

inductive SyncRunTriggerType where
  | manual
  | webhook
  | scheduled
  deriving DecidableEq, Repr

inductive WebhookEventStatus where
  | received
  | processed
  | failed
  | ignored
  deriving DecidableEq, Repr

inductive BackgroundJobType where
  | syncRun
  | webhookProcessing
  deriving DecidableEq, Repr

inductive BackgroundJobStatus where
  | queued
  | processing
  | completed
  | failed
  deriving DecidableEq, Repr

/-! ## The names the enumerations have as text -/

def ConnectorType.text : ConnectorType → Json
  | .restApi => .str "REST_API"
  | .webhook => .str "WEBHOOK"
  | .csvUpload => .str "CSV_UPLOAD"
  | .jsonUpload => .str "JSON_UPLOAD"
  | .database => .str "DATABASE"
  | .googleSheets => .str "GOOGLE_SHEETS"
  | .oneCExport => .str "ONE_C_EXPORT"
  | .manual => .str "MANUAL"

def ConnectorStatus.text : ConnectorStatus → Json
  | .active => .str "ACTIVE"
  | .paused => .str "PAUSED"
  | .error => .str "ERROR"

def PipelineStatus.text : PipelineStatus → Json
  | .active => .str "ACTIVE"
  | .paused => .str "PAUSED"
  | .archived => .str "ARCHIVED"

def SyncRunStatus.text : SyncRunStatus → Json
  | .queued => .str "QUEUED"
  | .running => .str "RUNNING"
  | .success => .str "SUCCESS"
  | .failed => .str "FAILED"
  | .cancelled => .str "CANCELLED"

def SyncRunTriggerType.text : SyncRunTriggerType → Json
  | .manual => .str "MANUAL"
  | .webhook => .str "WEBHOOK"
  | .scheduled => .str "SCHEDULED"

def BackgroundJobStatus.text : BackgroundJobStatus → Json
  | .queued => .str "QUEUED"
  | .processing => .str "PROCESSING"
  | .completed => .str "COMPLETED"
  | .failed => .str "FAILED"

/-! ## Tables -/

structure Connector where
  id : Id
  name : String
  type : ConnectorType
  status : ConnectorStatus
  configJson : Json
  ownerId : Id
  createdAt : Time

structure SyncPipeline where
  id : Id
  name : String
  description : Option String
  sourceConnectorId : Id
  targetName : String
  status : PipelineStatus
  mappingJson : Json
  scheduleEnabled : Bool
  scheduleCron : Option String
  scheduleTimezone : Option String
  nextRunAt : Option Time
  lastRunAt : Option Time
  cursorJson : Option Json
  incrementalMode : Bool
  ownerId : Id
  createdAt : Time

structure SyncRun where
  id : Id
  pipelineId : Id
  status : SyncRunStatus
  triggerType : SyncRunTriggerType
  recordsReceived : Nat
  recordsProcessed : Nat
  recordsFailed : Nat
  errorMessage : Option String
  startedAt : Option Time
  finishedAt : Option Time
  createdAt : Time

structure BackgroundJob where
  id : Id
  type : BackgroundJobType
  status : BackgroundJobStatus
  entityType : String
  entityId : Id
  attempts : Nat
  lastError : Option String
  metadataJson : Option Json
  createdAt : Time
  startedAt : Option Time
  finishedAt : Option Time
  durationMs : Option Time

structure WebhookEvent where
  id : Id
  sourceConnectorRef : Id
  connectorId : Option Id
  idempotencyKey : Option String
  eventType : String
  status : WebhookEventStatus
  payloadJson : Json
  headersJson : Json
  receivedAt : Time
  processedAt : Option Time
  errorMessage : Option String

structure SyncedRecord where
  id : Id
  pipelineId : Id
  externalId : Option String
  sourceType : String
  rawJson : Json
  normalizedJson : Json
  syncRunId : Id
  createdAt : Time

structure AuditLog where
  id : Id
  actorId : Option Id
  action : String
  entityType : String
  entityId : String
  metadataJson : Json
  createdAt : Time

/-! ## Writes

The `data` of a `create` leaves out what the database fills in.  In the `data`
of an `update` a column that is `none` is not written. -/

structure NewConnector where
  name : String
  type : ConnectorType
  configJson : Json
  ownerId : Id

structure ConnectorData where
  name : Option String := none
  status : Option ConnectorStatus := none
  configJson : Option Json := none

def ConnectorData.apply (data : ConnectorData) (row : Connector) : Connector :=
  { row with
    name := data.name.getD row.name
    status := data.status.getD row.status
    configJson := data.configJson.getD row.configJson }

structure NewPipeline where
  name : String
  description : Option String
  sourceConnectorId : Id
  targetName : String
  mappingJson : Json
  status : PipelineStatus
  ownerId : Id

structure PipelineData where
  name : Option String := none
  description : Option (Option String) := none
  sourceConnectorId : Option Id := none
  targetName : Option String := none
  mappingJson : Option Json := none
  status : Option PipelineStatus := none
  scheduleEnabled : Option Bool := none
  scheduleCron : Option (Option String) := none
  scheduleTimezone : Option (Option String) := none
  nextRunAt : Option (Option Time) := none
  lastRunAt : Option Time := none
  cursorJson : Option Json := none
  incrementalMode : Option Bool := none

def PipelineData.apply (data : PipelineData) (row : SyncPipeline) :
    SyncPipeline :=
  { row with
    name := data.name.getD row.name
    description := data.description.getD row.description
    sourceConnectorId := data.sourceConnectorId.getD row.sourceConnectorId
    targetName := data.targetName.getD row.targetName
    mappingJson := data.mappingJson.getD row.mappingJson
    status := data.status.getD row.status
    scheduleEnabled := data.scheduleEnabled.getD row.scheduleEnabled
    scheduleCron := data.scheduleCron.getD row.scheduleCron
    scheduleTimezone := data.scheduleTimezone.getD row.scheduleTimezone
    nextRunAt := data.nextRunAt.getD row.nextRunAt
    lastRunAt := data.lastRunAt.or row.lastRunAt
    cursorJson := data.cursorJson.or row.cursorJson
    incrementalMode := data.incrementalMode.getD row.incrementalMode }

structure NewSyncRun where
  pipelineId : Id
  status : SyncRunStatus
  triggerType : SyncRunTriggerType
  recordsReceived : Nat := 0
  recordsProcessed : Nat := 0
  recordsFailed : Nat := 0
  startedAt : Option Time := none

structure SyncRunData where
  status : SyncRunStatus
  recordsReceived : Option Nat := none
  recordsProcessed : Option Nat := none
  recordsFailed : Option Nat := none
  errorMessage : Option (Option String) := none
  startedAt : Option Time := none
  finishedAt : Option Time := none

def SyncRunData.apply (data : SyncRunData) (row : SyncRun) : SyncRun :=
  { row with
    status := data.status
    recordsReceived := data.recordsReceived.getD row.recordsReceived
    recordsProcessed := data.recordsProcessed.getD row.recordsProcessed
    recordsFailed := data.recordsFailed.getD row.recordsFailed
    errorMessage := data.errorMessage.getD row.errorMessage
    startedAt := data.startedAt.or row.startedAt
    finishedAt := data.finishedAt.or row.finishedAt }

structure NewBackgroundJob where
  type : BackgroundJobType
  status : BackgroundJobStatus
  entityType : String
  entityId : Id
  attempts : Nat
  metadataJson : Json

structure BackgroundJobData where
  status : BackgroundJobStatus
  attempts : Nat
  lastError : Option (Option String) := none
  metadataJson : Option Json := none
  startedAt : Option Time := none
  finishedAt : Option Time := none
  durationMs : Option Time := none

def BackgroundJobData.apply (data : BackgroundJobData) (row : BackgroundJob) :
    BackgroundJob :=
  { row with
    status := data.status
    attempts := data.attempts
    lastError := data.lastError.getD row.lastError
    metadataJson := data.metadataJson.or row.metadataJson
    startedAt := data.startedAt.or row.startedAt
    finishedAt := data.finishedAt.or row.finishedAt
    durationMs := data.durationMs.or row.durationMs }

structure NewWebhookEvent where
  sourceConnectorRef : Id
  connectorId : Option Id
  idempotencyKey : Option String
  eventType : String
  status : WebhookEventStatus
  payloadJson : Json
  headersJson : Json

structure WebhookEventData where
  status : WebhookEventStatus
  errorMessage : Option String
  processedAt : Option Time

def WebhookEventData.apply (data : WebhookEventData) (row : WebhookEvent) :
    WebhookEvent :=
  { row with
    status := data.status
    errorMessage := data.errorMessage
    processedAt := data.processedAt }

structure NewSyncedRecord where
  pipelineId : Id
  syncRunId : Id
  externalId : Option String
  sourceType : String
  rawJson : Json
  normalizedJson : Json

structure NewAuditLog where
  action : String
  entityType : String
  entityId : String
  metadataJson : Json
  actorId : Option Id

end SyncBridge
