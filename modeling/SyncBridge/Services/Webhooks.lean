import SyncBridge.Services.Jobs

/-!
# Webhooks

`WebhooksService`: intake of an event under an idempotency key, its processing
for every active pipeline of the connector, and the calls that bring an event
back to processing.
-/

namespace SyncBridge

open SyncBridge.Foundation

structure ReceiveEventParams where
  connectorId : Id
  payload : Json
  headers : Record
  actor : AuditActor

/-- What intake, retry and manual processing answer. -/
structure WebhookAnswer where
  eventId : Id
  status : WebhookEventStatus
  duplicate : Bool
  jobId : Option Id
  message : String

structure WebhookProcessingSummary where
  status : WebhookEventStatus
  pipelineIds : List Id
  syncRunIds : List Id
  recordsProcessed : Nat
  recordsFailed : Nat
  message : String

namespace WebhooksService

variable (env : Env)

/-! ## Intake -/

def webhookMaxPayloadBytes : Nat := 250 * 1024

def sensitiveHeaders : List String :=
  ["authorization", "cookie", "x-api-key", "x-auth-token"]

def sanitizePayload : Json → Record
  | .obj fields => fields
  | payload => [("rawPayload", payload)]

def assertPayloadSize (payload : Record) : Except Failure Unit :=
  if env.payloadBytes payload > webhookMaxPayloadBytes then
    .error (.payloadTooLarge "Webhook payload exceeds allowed size")
  else .ok ()

def redactHeaders (headers : Record) : Record :=
  headers.map fun (rawKey, value) =>
    if sensitiveHeaders.contains (toLowerCase rawKey) then
      (rawKey, .str "REDACTED")
    else (rawKey, value)

/-- Only the first header of the name counts, whatever its case. -/
def getIdempotencyKey : Record → Option String
  | [] => none
  | (headerName, headerValue) :: headers =>
      if toLowerCase headerName != "x-syncbridge-event-id" then
        getIdempotencyKey headers
      else match headerValue with
      | .str text =>
          let normalized := trim text
          if normalized.isEmpty then none else some normalized
      | _ => none

def eventTypeOf (payload : Record) : String :=
  match payload.get "eventType" with
  | some (.str text) =>
      if (trim text).isEmpty then "generic_event" else trim text
  | _ => "generic_event"

/-! ## Processing -/

/-- The exits of `processWebhookForPipeline` with a failed run. -/
def failWebhookRun (eventId pipelineId syncRunId : Id) (externalId : String)
    (message : String) (errorCount : Nat) (actor : AuditActor) :
    Body (Nat × Nat) := do
  let finishedAt ← currentTime
  let _ ← await (.syncRunUpdate syncRunId {
    status := .failed
    recordsReceived := some 1
    recordsProcessed := some 0
    recordsFailed := some 1
    errorMessage := some (some message)
    finishedAt := some finishedAt })
  let lastRunAt ← currentTime
  let _ ← await (.pipelineUpdate pipelineId { lastRunAt := some lastRunAt })
  AuditService.log "transformation_failed" "sync_run" (idString syncRunId)
    [("pipelineId", .id pipelineId),
     ("webhookEventId", .id eventId),
     ("externalId", .str externalId),
     ("errorCount", .nat errorCount)] actor
  AuditService.log "sync_run_failed" "sync_run" (idString syncRunId)
    [("pipelineId", .id pipelineId),
     ("webhookEventId", .id eventId),
     ("recordsReceived", .nat 1),
     ("recordsProcessed", .nat 0),
     ("recordsFailed", .nat 1),
     ("triggerType", SyncRunTriggerType.webhook.text)] actor
  pure (0, 1)

/-- The exit of `processWebhookForPipeline` with a stored record. -/
def storeWebhookRecord (eventId pipelineId syncRunId : Id)
    (externalId : String) (payload normalized : Record) (actor : AuditActor) :
    Body (Nat × Nat) := do
  let syncedRecord ← await (.syncedRecordCreate {
    pipelineId := pipelineId
    syncRunId := syncRunId
    externalId := some externalId
    sourceType := "WEBHOOK"
    rawJson := .obj payload
    normalizedJson := .obj normalized })
  let finishedAt ← currentTime
  let _ ← await (.syncRunUpdate syncRunId {
    status := .success
    recordsReceived := some 1
    recordsProcessed := some 1
    recordsFailed := some 0
    errorMessage := some none
    finishedAt := some finishedAt })
  let lastRunAt ← currentTime
  let _ ← await (.pipelineUpdate pipelineId { lastRunAt := some lastRunAt })
  AuditService.log "transformation_applied" "sync_run" (idString syncRunId)
    [("pipelineId", .id pipelineId),
     ("webhookEventId", .id eventId),
     ("externalId", .str externalId)] actor
  AuditService.log "sync_run_completed" "sync_run" (idString syncRunId)
    [("pipelineId", .id pipelineId),
     ("webhookEventId", .id eventId),
     ("recordsReceived", .nat 1),
     ("recordsProcessed", .nat 1),
     ("recordsFailed", .nat 0),
     ("triggerType", SyncRunTriggerType.webhook.text)] actor
  AuditService.log "synced_record_created" "synced_record"
    (idString syncedRecord.id)
    [("pipelineId", .id pipelineId),
     ("syncRunId", .id syncRunId),
     ("externalId", .str externalId),
     ("sourceType", .str "WEBHOOK")] actor
  pure (1, 0)

def processWebhookForPipeline (eventId pipelineId : Id) (mappingJson : Json)
    (payload : Record) (externalId : String) (syncRunId : Id)
    (actor : AuditActor) : Body (Nat × Nat) := do
  match env.engine.compileMapping mappingJson with
  | .error failure =>
      let message := match failure with
        | .mappingValidation messages => ", ".intercalate messages
        | failure => sanitizeErrorMessage "Webhook processing failed" failure
      failWebhookRun eventId pipelineId syncRunId externalId message 1 actor
  | .ok compiledMapping =>
      let transformed ← await (.transform payload compiledMapping)
      if transformed.errors.length > 0 then
        failWebhookRun eventId pipelineId syncRunId externalId
          "One or more records failed during processing."
          transformed.errors.length actor
      else
        storeWebhookRecord eventId pipelineId syncRunId externalId payload
          transformed.normalized actor

/-- The variables of the loop over the pipelines. -/
structure Totals where
  pipelineIds : List Id := []
  syncRunIds : List Id := []
  recordsProcessed : Nat := 0
  recordsFailed : Nat := 0

/-- One turn of the loop over the pipelines. -/
def processPipeline (event : WebhookEvent) (actor : AuditActor)
    (totals : Totals) (pipeline : SyncPipeline) : Body Totals := do
  let startedAt ← currentTime
  let syncRun ← await (.syncRunCreate {
    pipelineId := pipeline.id
    status := .running
    triggerType := .webhook
    startedAt := some startedAt })
  AuditService.log "sync_run_started" "sync_run" (idString syncRun.id)
    [("syncRunId", .id syncRun.id),
     ("pipelineId", .id pipeline.id),
     ("source", .str "webhook_event"),
     ("webhookEventId", .id event.id),
     ("triggerType", SyncRunTriggerType.webhook.text)] actor
  let (processed, failed) ← processWebhookForPipeline env event.id pipeline.id
    pipeline.mappingJson (ensureRecordObject event.payloadJson)
    (event.idempotencyKey.getD (idString event.id)) syncRun.id actor
  pure {
    pipelineIds := totals.pipelineIds ++ [pipeline.id]
    syncRunIds := totals.syncRunIds ++ [syncRun.id]
    recordsProcessed := totals.recordsProcessed + processed
    recordsFailed := totals.recordsFailed + failed }

/-- The final write of `processWebhookEventNow`, one for each of its exits. -/
def finishEvent (eventId : Id) (status : WebhookEventStatus)
    (errorMessage : Option String) : Body WebhookEvent := do
  let processedAt ← currentTime
  await (.webhookEventUpdate eventId {
    status := status
    errorMessage := errorMessage
    processedAt := some processedAt })

def failWithoutConnector (event : WebhookEvent) (actor : AuditActor) :
    Body WebhookProcessingSummary := do
  let updated ← finishEvent event.id .failed
    (some "Connector not found for webhook event")
  AuditService.log "webhook_event_processing_failed" "webhook_event"
    (idString event.id)
    [("eventId", .id event.id),
     ("connectorId", .id event.sourceConnectorRef),
     ("errorMessage", .ofText updated.errorMessage)] actor
  pure {
    status := .failed
    pipelineIds := []
    syncRunIds := []
    recordsProcessed := 0
    recordsFailed := 0
    message := "Webhook event failed: connector not found." }

def ignoreWithoutPipelines (event : WebhookEvent) (connector : Connector)
    (actor : AuditActor) : Body WebhookProcessingSummary := do
  let _ ← finishEvent event.id .ignored none
  AuditService.log "webhook_event_ignored" "webhook_event" (idString event.id)
    [("eventId", .id event.id),
     ("connectorId", .id connector.id),
     ("reason", .str "no_active_pipelines")] actor
  pure {
    status := .ignored
    pipelineIds := []
    syncRunIds := []
    recordsProcessed := 0
    recordsFailed := 0
    message :=
      "Webhook event ignored: no active pipelines for connector." }

def processForPipelines (event : WebhookEvent) (connector : Connector)
    (pipelines : List SyncPipeline) (actor : AuditActor) :
    Body WebhookProcessingSummary := do
  let totals ← pipelines.foldlM (processPipeline env event actor) {}
  let _ ← finishEvent event.id .processed none
  AuditService.log "webhook_event_processed" "webhook_event"
    (idString event.id)
    [("eventId", .id event.id),
     ("connectorId", .id connector.id),
     ("pipelineIds", .arr (totals.pipelineIds.map Json.id)),
     ("syncRunIds", .arr (totals.syncRunIds.map Json.id)),
     ("recordsProcessed", .nat totals.recordsProcessed),
     ("recordsFailed", .nat totals.recordsFailed)] actor
  pure {
    status := .processed
    pipelineIds := totals.pipelineIds
    syncRunIds := totals.syncRunIds
    recordsProcessed := totals.recordsProcessed
    recordsFailed := totals.recordsFailed
    message := "Webhook event processed." }

def findEventConnector (event : WebhookEvent) : Body (Option Connector) :=
  match event.connectorId with
  | some connectorId => await (.connectorFindUnique connectorId)
  | none => pure none

def processWebhookEventNow (eventId : Id) (actor : AuditActor) :
    Body WebhookProcessingSummary := do
  let found ← await (.webhookEventFindUnique eventId)
  let event ← orNotFound "Webhook event not found" found
  match ← findEventConnector event with
  | none => failWithoutConnector event actor
  | some connector =>
      let pipelines ← await (.pipelineFindActive connector.id)
      if pipelines.isEmpty then ignoreWithoutPipelines event connector actor
      else processForPipelines env event connector pipelines actor

/-! ## The end of a call that started processing -/

/-- Processing in the call itself, in the queue mode `sync`. -/
def processInline (eventId : Id) (actor : AuditActor) : Body WebhookAnswer := do
  let summary ← processWebhookEventNow env eventId actor
  let updated : Option WebhookEvent ← await (.webhookEventFindUnique eventId)
  pure {
    eventId := eventId
    status := (updated.map WebhookEvent.status).getD summary.status
    duplicate := false
    jobId := none
    message := summary.message }

/-- The job row and the queued job, in the queue mode `async`; the intake and
the later calls differ in the row's metadata, the audited action and the
message. -/
def queueProcessing (eventId connectorId : Id) (status : WebhookEventStatus)
    (metadata : Record) (action message : String) (actor : AuditActor) :
    Body WebhookAnswer := do
  let backgroundJob ← await (.backgroundJobCreate {
    type := .webhookProcessing
    status := .queued
    entityType := "webhook_event"
    entityId := eventId
    attempts := 0
    metadataJson := .obj
      ([("eventId", .id eventId), ("connectorId", .id connectorId)] ++
        metadata) })
  let _ ← JobsService.enqueueProcessWebhookEventJob env {
    backgroundJobId := backgroundJob.id
    webhookEventId := eventId
    requestedByUserId := actor.map AuthenticatedUser.sub
    requestedByRole := actor.map AuthenticatedUser.role }
  AuditService.log action "webhook_event" (idString eventId)
    [("eventId", .id eventId),
     ("connectorId", .id connectorId),
     ("jobId", .id backgroundJob.id),
     ("attempts", .nat 0)] actor
  AuditService.log "background_job_queued" "background_job"
    (idString backgroundJob.id)
    [("eventId", .id eventId),
     ("connectorId", .id connectorId),
     ("jobId", .id backgroundJob.id),
     ("status", BackgroundJobStatus.queued.text),
     ("attempts", .nat 0)] actor
  pure {
    eventId := eventId
    status := status
    duplicate := false
    jobId := some backgroundJob.id
    message := message }

/-! ## The calls -/

def findExistingEvent (connectorId : Id) :
    Option String → Body (Option WebhookEvent)
  | some idempotencyKey =>
      await (.webhookEventFindFirst connectorId idempotencyKey)
  | none => pure none

def ignoreDuplicate (params : ReceiveEventParams) (existing : WebhookEvent) :
    Body WebhookAnswer := do
  AuditService.log "webhook_event_duplicate_ignored" "webhook_event"
    (idString existing.id)
    [("eventId", .id existing.id),
     ("connectorId", .id params.connectorId),
     ("idempotencyKey", .ofText (getIdempotencyKey params.headers))]
    params.actor
  pure {
    eventId := existing.id
    status := existing.status
    duplicate := true
    jobId := none
    message := "Duplicate webhook event ignored." }

def receivedEvent (params : ReceiveEventParams)
    (connector : Option Connector) : NewWebhookEvent where
  sourceConnectorRef := params.connectorId
  connectorId := connector.map Connector.id
  idempotencyKey := getIdempotencyKey params.headers
  eventType := eventTypeOf (sanitizePayload params.payload)
  status := .received
  payloadJson := .obj (sanitizePayload params.payload)
  headersJson := .obj (redactHeaders params.headers)

def handleReceived (params : ReceiveEventParams) (event : WebhookEvent) :
    Body WebhookAnswer := do
  AuditService.log "webhook_event_received" "webhook_event"
    (idString event.id)
    [("eventId", .id event.id),
     ("connectorId", .id params.connectorId),
     ("eventType", .str event.eventType),
     ("idempotencyKey", .ofText (getIdempotencyKey params.headers))]
    params.actor
  if JobsService.isAsyncMode env then
    queueProcessing env event.id params.connectorId event.status []
      "webhook_event_processing_queued"
      "Webhook event queued for processing." params.actor
  else processInline env event.id params.actor

def receiveEvent (params : ReceiveEventParams) : Body WebhookAnswer := do
  Prog.ofExcept (assertPayloadSize env (sanitizePayload params.payload))
  match ← findExistingEvent params.connectorId
      (getIdempotencyKey params.headers) with
  | some existing => ignoreDuplicate params existing
  | none =>
      let connector ← await (.connectorFindUnique params.connectorId)
      let event ← await (.webhookEventCreate (receivedEvent params connector))
      handleReceived env params event

def getAccessibleEvent (id : Id) (user : AuthenticatedUser) :
    Body WebhookEvent := do
  let found ← await (.webhookEventFindUniqueWithConnector id)
  let (event, connector) ← orNotFound "Webhook event not found" found
  if !isPrivileged user.role &&
      connector.map Connector.ownerId != some user.sub then
    throw (.forbidden "You do not have access to this webhook event")
  else pure event

def queueOrProcessEvent (eventId : Id) (user : AuthenticatedUser)
    (isRetry : Bool) : Body WebhookAnswer := do
  let _ ← await (.webhookEventUpdate eventId {
    status := .received
    errorMessage := none
    processedAt := none })
  if JobsService.isAsyncMode env then
    let found ← await (.webhookEventFindUnique eventId)
    let event ← orNotFound "Webhook event not found" found
    queueProcessing env event.id event.sourceConnectorRef .received
      [("isRetry", .bool isRetry)]
      (if isRetry then "webhook_event_retry_queued"
        else "webhook_event_processing_queued")
      (if isRetry then "Webhook event retry queued for processing."
        else "Webhook event queued for processing.") (some user)
  else processInline env eventId (some user)

def retryEvent (id : Id) (user : AuthenticatedUser) : Body WebhookAnswer := do
  let event ← getAccessibleEvent id user
  if event.status ≠ .failed then
    throw (.badRequest ["Only FAILED webhook events can be retried"])
  else queueOrProcessEvent env event.id user true

def processEvent (id : Id) (user : AuthenticatedUser) :
    Body WebhookAnswer := do
  let event ← getAccessibleEvent id user
  if event.status = .processed ∨ event.status = .ignored then
    throw (.badRequest ["Webhook event is already finalized"])
  else queueOrProcessEvent env event.id user false

/-! ## The worker -/

def actorFromPayload (payload : ProcessWebhookEventJobPayload) : AuditActor :=
  match payload.requestedByUserId, payload.requestedByRole with
  | some sub, some role => some ⟨sub, role⟩
  | _, _ => none

/-- The `try` block of `processQueuedWebhookEvent`. -/
def runQueuedEvent (attempts : Nat) (backgroundJobId : Id)
    (webhookEvent : WebhookEvent) (startedAt : Time) (actor : AuditActor) :
    Body Unit := do
  let summary ← processWebhookEventNow env webhookEvent.id actor
  let finishedAt ← currentTime
  let durationMs := finishedAt - startedAt
  let _ ← await (.backgroundJobUpdate backgroundJobId {
    status := .completed
    attempts := attempts
    lastError := some none
    finishedAt := some finishedAt
    durationMs := some durationMs
    metadataJson := some (.obj
      [("eventId", .id webhookEvent.id),
       ("connectorId", .id webhookEvent.sourceConnectorRef),
       ("pipelineIds", .arr (summary.pipelineIds.map Json.id)),
       ("syncRunIds", .arr (summary.syncRunIds.map Json.id)),
       ("recordsProcessed", .nat summary.recordsProcessed),
       ("recordsFailed", .nat summary.recordsFailed)]) })
  AuditService.log "background_job_completed" "background_job"
    (idString backgroundJobId)
    [("jobId", .id backgroundJobId),
     ("eventId", .id webhookEvent.id),
     ("status", BackgroundJobStatus.completed.text),
     ("attempts", .nat attempts),
     ("durationMs", .num durationMs),
     ("recordsProcessed", .nat summary.recordsProcessed),
     ("recordsFailed", .nat summary.recordsFailed)] actor

/-- The `catch` block of `processQueuedWebhookEvent`. -/
def failQueuedEvent (attempts : Nat) (backgroundJobId : Id)
    (webhookEvent : WebhookEvent) (startedAt : Time) (actor : AuditActor)
    (failure : Failure) : Body Unit := do
  let finishedAt ← currentTime
  let durationMs := finishedAt - startedAt
  let message := sanitizeErrorMessage "Webhook processing failed" failure
  let _ ← await (.webhookEventUpdate webhookEvent.id {
    status := .failed
    errorMessage := some message
    processedAt := some finishedAt })
  let _ ← await (.backgroundJobUpdate backgroundJobId {
    status := .failed
    attempts := attempts
    lastError := some (some message)
    finishedAt := some finishedAt
    durationMs := some durationMs })
  AuditService.log "webhook_event_processing_failed" "webhook_event"
    (idString webhookEvent.id)
    [("eventId", .id webhookEvent.id),
     ("connectorId", .id webhookEvent.sourceConnectorRef),
     ("jobId", .id backgroundJobId),
     ("attempts", .nat attempts),
     ("errorMessage", .str message)] actor
  AuditService.log "background_job_failed" "background_job"
    (idString backgroundJobId)
    [("jobId", .id backgroundJobId),
     ("eventId", .id webhookEvent.id),
     ("status", BackgroundJobStatus.failed.text),
     ("attempts", .nat attempts),
     ("durationMs", .num durationMs)] actor
  throw failure

def processQueuedWebhookEvent (payload : ProcessWebhookEventJobPayload)
    (attempts : Nat) : Body Unit := do
  let found ← await (.backgroundJobFindUnique payload.backgroundJobId)
  let backgroundJob ← orNotFound "Background job not found" found
  let found ← await (.webhookEventFindUnique payload.webhookEventId)
  let webhookEvent ← orNotFound "Webhook event not found" found
  let actor := actorFromPayload payload
  let startedAt ← currentTime
  let _ ← await (.backgroundJobUpdate backgroundJob.id {
    status := .processing
    startedAt := some startedAt
    attempts := attempts })
  AuditService.log "background_job_started" "background_job"
    (idString backgroundJob.id)
    [("jobId", .id backgroundJob.id),
     ("eventId", .id webhookEvent.id),
     ("status", BackgroundJobStatus.processing.text),
     ("attempts", .nat attempts)] actor
  AuditService.log "webhook_event_processing_started" "webhook_event"
    (idString webhookEvent.id)
    [("eventId", .id webhookEvent.id),
     ("connectorId", .id webhookEvent.sourceConnectorRef),
     ("jobId", .id backgroundJob.id),
     ("attempts", .nat attempts)] actor
  tryCatch
    (runQueuedEvent env attempts backgroundJob.id webhookEvent startedAt actor)
    (failQueuedEvent attempts backgroundJob.id webhookEvent startedAt actor)

end WebhooksService

end SyncBridge
