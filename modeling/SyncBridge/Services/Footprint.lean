import SyncBridge.Platform

/-!
# Footprints

Which operations a service function can attempt.  Most operations are of no
interest to any invariant below: they read, or they write rows that nothing
else depends on.  Each lemma names the others that its function may attempt.
-/

namespace SyncBridge

open SyncBridge.Foundation SyncBridge.Foundation.Prog

/-- Reads, and writes of audit entries. -/
def Op.isQuiet : Op → Bool
  | .now => true
  | .transform _ _ => true
  | .connectorFindUnique _ => true
  | .pipelineFindUnique _ => true
  | .pipelineFindActive _ => true
  | .pipelineFindDue _ => true
  | .syncRunFindUnique _ => true
  | .backgroundJobFindUnique _ => true
  | .webhookEventFindUnique _ => true
  | .webhookEventFindUniqueWithConnector _ => true
  | .auditLogCreate _ => true
  | _ => false

structure Quiet (P : ∀ {α : Type}, Body α → Prop) : Prop extends
    Prog.Compositional P where
  op : ∀ op, op.isQuiet = true → P (await op)

theorem Quiet.await {P : ∀ {α : Type}, Body α → Prop} {α : Type} {op : Op}
    {rest : op.Res → Body α} (quiet : Quiet P) (h : op.isQuiet = true)
    (hrest : ∀ value, P (rest value)) : P ((Prog.await op).bind rest) :=
  quiet.bind (quiet.op op h) hrest

theorem Quiet.checked {P : ∀ {α : Type}, Body α → Prop} {α β : Type}
    {result : Except Failure β} {rest : β → Body α} (quiet : Quiet P)
    (hrest : ∀ value, result = .ok value → P (rest value)) :
    P ((Prog.ofExcept result).bind rest) := by
  cases result with
  | error error => exact quiet.throw error
  | ok value => exact hrest value rfl

abbrev AllowsQuiet (allowed : Op → Prop) : Prop :=
  Quiet fun {_} (body : Body _) => body.Uses allowed

theorem allowsQuiet {allowed : Op → Prop}
    (h : ∀ op, op.isQuiet = true → allowed op) : AllowsQuiet allowed where
  toCompositional := compositional_uses allowed
  op op hop := (uses_await op).mpr (h op hop)

def PipelineData.OfRun (data : PipelineData) : Prop :=
  (∃ time, data = { lastRunAt := some time }) ∨
    ∃ cursorValue, data = { cursorJson := some (.obj cursorValue) }

theorem ofRun_lastRunAt {time : Time} :
    PipelineData.OfRun { lastRunAt := some time } := .inl ⟨time, rfl⟩

theorem ofRun_cursorJson {cursorValue : Record} :
    PipelineData.OfRun { cursorJson := some (.obj cursorValue) } :=
  .inr ⟨cursorValue, rfl⟩

def ConnectorData.ChecksConfig (data : ConnectorData) : Prop :=
  ∀ json, data.configJson = some json → ∃ configJson, json = .obj configJson ∧
    ConnectorsService.assertSafeConfig configJson = .ok ()

def PipelineData.ChecksMapping (env : Env) (data : PipelineData) : Prop :=
  ∀ json, data.mappingJson = some json → ∃ mappingJson,
    json = .obj mappingJson ∧
      PipelinesService.assertValidMapping env mappingJson = .ok ()

theorem checksConfig_status {status : ConnectorStatus} :
    ConnectorData.ChecksConfig { status := some status } := by
  intro json hjson
  cases hjson

theorem checksMapping_none {env : Env} {data : PipelineData}
    (h : data.mappingJson = none) : data.ChecksMapping env := by
  intro json hjson
  rw [h] at hjson
  cases hjson

theorem checksConfig_update {dto : UpdateConnectorDto}
    (h : ConnectorsService.checkConfig dto.configJson = .ok ()) :
    (ConnectorsService.updateData dto).ChecksConfig := by
  intro json hjson
  obtain ⟨configJson, hconfig, rfl⟩ := Option.map_eq_some_iff.mp hjson
  rw [hconfig] at h
  exact ⟨configJson, rfl, h⟩

/-- The columns of an event that are written together fit each other. -/
structure WebhookEventData.Consistent (data : WebhookEventData) : Prop where
  received : data.status = .received ↔ data.processedAt = none
  failed : data.status = .failed ↔ data.errorMessage.isSome = true

theorem consistent_received :
    WebhookEventData.Consistent ⟨.received, none, none⟩ := by
  constructor <;> simp

theorem consistent_failed {message : String} {time : Time} :
    WebhookEventData.Consistent ⟨.failed, some message, some time⟩ := by
  constructor <;> simp

theorem consistent_ignored {time : Time} :
    WebhookEventData.Consistent ⟨.ignored, none, some time⟩ := by
  constructor <;> simp

theorem consistent_processed {time : Time} :
    WebhookEventData.Consistent ⟨.processed, none, some time⟩ := by
  constructor <;> simp

variable {env : Env} {P : ∀ {α : Type}, Body α → Prop} (quiet : Quiet P)

section Shared

include quiet

theorem log_rule {action entityType entityId : String} {metadata : Record}
    {actor : AuditActor} :
    P (AuditService.log action entityType entityId metadata actor) :=
  quiet.op _ rfl

theorem orNotFound_rule {α : Type} {message : String} {found : Option α} :
    P (orNotFound message found) := by
  cases found with
  | none => exact quiet.throw _
  | some value => exact quiet.ret value

theorem currentTime_rule : P currentTime := quiet.op _ rfl

theorem getById_rule {id : Id} :
    P (PipelinesService.getById id) :=
  quiet.await rfl fun _ => orNotFound_rule quiet

theorem findOne_rule {id : Id} {user : AuthenticatedUser} :
    P (PipelinesService.findOne id user) := by
  refine quiet.bind (getById_rule quiet) fun pipeline => ?_
  exact quiet.bind (quiet.ofExcept _) fun _ => quiet.ret _

theorem connector_getById_rule {id : Id} :
    P (ConnectorsService.getById id) :=
  quiet.await rfl fun _ => orNotFound_rule quiet

theorem enqueueJob_rule {payload : JobPayload} {jobId : Id}
    (hadd : P (await (.queueAdd jobId payload env.defaultAttempts))) :
    P (JobsService.enqueueJob env payload jobId) := by
  simp only [JobsService.enqueueJob]
  split
  · exact quiet.throw _
  · split
    · exact quiet.ret _
    · exact hadd

end Shared

/-! ## Sync runs -/

section SyncRuns

include quiet

theorem hasActiveRun_rule {pipelineId : Id}
    (hcount : P (await (.syncRunCountActive pipelineId))) :
    P (SyncRunsService.hasActiveRun pipelineId) :=
  quiet.bind hcount fun _ => quiet.ret _

theorem persistRecord_rule {syncRunId pipelineId : Id} {actor : AuditActor}
    {state : SyncRunsService.LoopState} {record : SyncRunMockRecordPayload}
    {normalized : Record}
    (hstore : ∀ data, data.sourceType = "MANUAL" →
      P (await (.syncedRecordCreate data))) :
    P (SyncRunsService.persistRecord env syncRunId pipelineId actor state record
      normalized) := by
  refine quiet.bind (quiet.attempt (hstore _ rfl)) ?_
  · rintro (error | row)
    · exact quiet.ret _
    · refine quiet.bind (quiet.attempt ?_) ?_
      · exact quiet.bind (log_rule quiet) fun _ => log_rule quiet
      · rintro (error | done) <;> exact quiet.ret _

theorem processRecord_rule {syncRunId pipelineId : Id}
    {compiledMapping : List NormalizedMappingField} {actor : AuditActor}
    {state : SyncRunsService.LoopState} {record : SyncRunMockRecordPayload}
    (hstore : ∀ data, data.sourceType = "MANUAL" →
      P (await (.syncedRecordCreate data))) :
    P (SyncRunsService.processRecord env syncRunId pipelineId compiledMapping
      actor state record) := by
  refine quiet.await rfl fun transformed => ?_
  split
  · exact quiet.bind (log_rule quiet) fun _ => quiet.ret _
  · exact persistRecord_rule quiet hstore

theorem updateCursor_rule {syncRunId : Id} {pipeline : SyncPipeline}
    {state : SyncRunsService.LoopState} {actor : AuditActor}
    (hpipeline : ∀ id data, PipelineData.OfRun data →
      P (await (.pipelineUpdate id data))) :
    P (SyncRunsService.updateCursor env syncRunId pipeline state actor) := by
  simp only [SyncRunsService.updateCursor]
  split
  · exact quiet.ret _
  · split
    · split
      · refine quiet.bind (hpipeline _ _ ofRun_cursorJson) fun _ => ?_
        exact quiet.bind (log_rule quiet) fun _ => quiet.ret _
      · exact quiet.ret _
    · exact quiet.bind (log_rule quiet) fun _ => quiet.ret _

theorem processRunRecords_rule {syncRunId : Id} {pipeline : SyncPipeline}
    {mockRecords : List SyncRunMockRecordPayload} {ignoreCursor : Bool}
    {actor : AuditActor}
    (hpipeline : ∀ id data, PipelineData.OfRun data →
      P (await (.pipelineUpdate id data)))
    (hstore : ∀ data, data.sourceType = "MANUAL" →
      P (await (.syncedRecordCreate data))) :
    P (SyncRunsService.processRunRecords env syncRunId pipeline mockRecords
      ignoreCursor actor) := by
  refine quiet.bind (quiet.ofExcept _) fun compiledMapping => ?_
  refine quiet.bind (quiet.foldlM (fun _ _ _ =>
    processRecord_rule quiet hstore) {}) fun state => ?_
  exact quiet.bind (updateCursor_rule quiet hpipeline) fun _ => quiet.ret _

variable (hpipeline : ∀ id data, PipelineData.OfRun data →
    P (await (.pipelineUpdate id data)))
  (hupdate : ∀ id data, P (await (.syncRunUpdate id data)))
  (hstore : ∀ data, data.sourceType = "MANUAL" →
    P (await (.syncedRecordCreate data)))
  (hqueueJob : ∀ data, data.status = .queued →
    P (await (.backgroundJobCreate data)))
  (hjob : ∀ id data, P (await (.backgroundJobUpdate id data)))
  (hadd : ∀ jobId payload,
    P (await (.queueAdd jobId payload env.defaultAttempts)))

include hpipeline hupdate hstore in
theorem executeSyncRunNow_rule {pipeline : SyncPipeline}
    {options : CreateRunOptions}
    (hcreate : ∀ data, data.pipelineId = pipeline.id →
      data.triggerType = options.triggerType →
      P (await (.syncRunCreate data))) :
    P (SyncRunsService.executeSyncRunNow env pipeline options) := by
  refine quiet.bind (currentTime_rule quiet) fun startedAt => ?_
  refine quiet.bind (hcreate _ rfl rfl) fun initialRun => ?_
  refine quiet.bind (log_rule quiet) fun _ => ?_
  refine quiet.bind (processRunRecords_rule quiet hpipeline hstore) fun _ => ?_
  refine quiet.bind (currentTime_rule quiet) fun finishedAt => ?_
  refine quiet.bind (hupdate _ _) fun completedRun => ?_
  refine quiet.bind (hpipeline _ _ ofRun_lastRunAt) fun _ => ?_
  exact quiet.bind (log_rule quiet) fun _ =>
    quiet.bind (log_rule quiet) fun _ => quiet.ret _

include hqueueJob hadd in
theorem queueSyncRun_rule {pipeline : SyncPipeline}
    {options : CreateRunOptions}
    (hcreate : P (await (.syncRunCreate {
      pipelineId := pipeline.id
      status := .queued
      triggerType := options.triggerType }))) :
    P (SyncRunsService.queueSyncRun env pipeline options) := by
  refine quiet.bind hcreate fun syncRun => ?_
  refine quiet.bind (hqueueJob _ rfl) fun backgroundJob => ?_
  refine quiet.bind (enqueueJob_rule quiet (hadd _ _)) fun _ => ?_
  exact quiet.bind (log_rule quiet) fun _ =>
    quiet.bind (log_rule quiet) fun _ => quiet.ret _

include hpipeline hupdate hstore hqueueJob hadd in
theorem createRunFromPipeline_rule {pipeline : SyncPipeline}
    {options : CreateRunOptions}
    (hcreate : ∀ data, data.pipelineId = pipeline.id →
      data.triggerType = options.triggerType →
      P (await (.syncRunCreate data))) :
    P (SyncRunsService.createRunFromPipeline env pipeline options) := by
  simp only [SyncRunsService.createRunFromPipeline]
  split
  · exact queueSyncRun_rule quiet hqueueJob hadd (hcreate _ rfl rfl)
  · exact executeSyncRunNow_rule quiet hpipeline hupdate hstore hcreate

theorem createForPipeline_rule {pipelineId : Id} {dto : CreateSyncRunDto}
    {user : AuthenticatedUser}
    (hrun : ∀ pipeline options, options.triggerType = .manual →
      P (SyncRunsService.createRunFromPipeline env pipeline options)) :
    P (SyncRunsService.createForPipeline env pipelineId dto user) := by
  refine quiet.bind (findOne_rule quiet) fun pipeline => ?_
  exact quiet.bind (log_rule quiet) fun _ => hrun _ _ rfl

theorem createScheduledForPipeline_rule {pipelineId : Id} {actor : AuditActor}
    (hrun : ∀ pipeline options, options.triggerType = .scheduled →
      P (SyncRunsService.createRunFromPipeline env pipeline options)) :
    P (SyncRunsService.createScheduledForPipeline env pipelineId actor) :=
  quiet.bind (getById_rule quiet) fun _ => hrun _ _ rfl

include hpipeline hupdate hstore hjob in
theorem runQueuedRecords_rule {payload : ExecuteSyncRunJobPayload}
    {attempts : Nat} {backgroundJobId syncRunId : Id}
    {pipeline : SyncPipeline} {startedAt : Time} {actor : AuditActor} :
    P (SyncRunsService.runQueuedRecords env payload attempts backgroundJobId
      syncRunId pipeline startedAt actor) := by
  refine quiet.bind (processRunRecords_rule quiet hpipeline hstore) fun _ => ?_
  refine quiet.bind (currentTime_rule quiet) fun finishedAt => ?_
  refine quiet.bind (hupdate _ _) fun _ => ?_
  refine quiet.bind (hpipeline _ _ ofRun_lastRunAt) fun _ => ?_
  refine quiet.bind (hjob _ _) fun _ => ?_
  exact quiet.bind (log_rule quiet) fun _ => log_rule quiet

include hupdate hjob in
theorem failQueuedRun_rule {payload : ExecuteSyncRunJobPayload}
    {attempts : Nat} {backgroundJobId syncRunId : Id}
    {pipeline : SyncPipeline} {startedAt : Time} {actor : AuditActor}
    {failure : Failure}
    (hlastRun : ∀ id time,
      P (await (.pipelineUpdate id { lastRunAt := some time }))) :
    P (SyncRunsService.failQueuedRun payload attempts backgroundJobId syncRunId
      pipeline startedAt actor failure) := by
  refine quiet.bind (currentTime_rule quiet) fun finishedAt => ?_
  refine quiet.bind (hupdate _ _) fun _ => ?_
  refine quiet.bind (hlastRun _ _) fun _ => ?_
  refine quiet.bind (hjob _ _) fun _ => ?_
  exact quiet.bind (log_rule quiet) fun _ =>
    quiet.bind (log_rule quiet) fun _ => quiet.throw _

include hpipeline hupdate hstore hjob in
theorem processQueuedSyncRun_rule {payload : ExecuteSyncRunJobPayload}
    {attempts : Nat} :
    P (SyncRunsService.processQueuedSyncRun env payload attempts) := by
  refine quiet.await rfl fun _ => quiet.bind (orNotFound_rule quiet) fun _ => ?_
  refine quiet.await rfl fun _ => quiet.bind (orNotFound_rule quiet) fun _ => ?_
  refine quiet.bind (getById_rule quiet) fun pipeline => ?_
  refine quiet.bind (currentTime_rule quiet) fun startedAt => ?_
  refine quiet.bind (hjob _ _) fun _ => ?_
  refine quiet.bind (hupdate _ _) fun _ => ?_
  refine quiet.bind (log_rule quiet) fun _ => ?_
  refine quiet.bind (log_rule quiet) fun _ => ?_
  exact quiet.tryCatch
    (runQueuedRecords_rule quiet hpipeline hupdate hstore hjob)
    fun _ => failQueuedRun_rule quiet hupdate hjob
      fun _ _ => hpipeline _ _ ofRun_lastRunAt

end SyncRuns

/-! ## Webhooks -/

section Webhooks

variable (hlastRun : ∀ id time,
    P (await (.pipelineUpdate id { lastRunAt := some time })))
  (hupdate : ∀ id data, P (await (.syncRunUpdate id data)))
  (hstore : ∀ data, data.sourceType = "WEBHOOK" →
    P (await (.syncedRecordCreate data)))
  (hcreate : ∀ data, data.triggerType = .webhook →
    P (await (.syncRunCreate data)))
  (hprocess : ∀ event actor totals pipeline,
    P (WebhooksService.processPipeline env event actor totals pipeline))
  (hnow : ∀ eventId actor,
    P (WebhooksService.processWebhookEventNow env eventId actor))
  (hinline : env.queueMode ≠ .async → ∀ eventId actor,
    P (WebhooksService.processWebhookEventNow env eventId actor))
  (hevent : ∀ id data, data.Consistent →
    P (await (.webhookEventUpdate id data)))
  (hqueueJob : ∀ data, data.status = .queued →
    P (await (.backgroundJobCreate data)))
  (hjob : ∀ id data, P (await (.backgroundJobUpdate id data)))
  (hadd : ∀ jobId event, P (await (.queueAdd jobId
    (.processWebhookEvent event) env.defaultAttempts)))

include quiet

section Processing

include hlastRun hupdate

theorem failWebhookRun_rule {eventId pipelineId syncRunId : Id}
    {externalId message : String} {errorCount : Nat} {actor : AuditActor} :
    P (WebhooksService.failWebhookRun eventId pipelineId syncRunId externalId
      message errorCount actor) := by
  refine quiet.bind (currentTime_rule quiet) fun finishedAt => ?_
  refine quiet.bind (hupdate _ _) fun _ => ?_
  refine quiet.bind (currentTime_rule quiet) fun lastRunAt => ?_
  refine quiet.bind (hlastRun _ _) fun _ => ?_
  exact quiet.bind (log_rule quiet) fun _ =>
    quiet.bind (log_rule quiet) fun _ => quiet.ret _

include hstore in
theorem storeWebhookRecord_rule {eventId pipelineId syncRunId : Id}
    {externalId : String} {payload normalized : Record} {actor : AuditActor} :
    P (WebhooksService.storeWebhookRecord eventId pipelineId syncRunId externalId
      payload normalized actor) := by
  refine quiet.bind (hstore _ rfl) fun syncedRecord => ?_
  refine quiet.bind (currentTime_rule quiet) fun finishedAt => ?_
  refine quiet.bind (hupdate _ _) fun _ => ?_
  refine quiet.bind (currentTime_rule quiet) fun lastRunAt => ?_
  refine quiet.bind (hlastRun _ _) fun _ => ?_
  exact quiet.bind (log_rule quiet) fun _ =>
    quiet.bind (log_rule quiet) fun _ =>
      quiet.bind (log_rule quiet) fun _ => quiet.ret _

include hstore in
theorem processWebhookForPipeline_rule {eventId pipelineId : Id}
    {mappingJson : Json} {payload : Record} {externalId : String}
    {syncRunId : Id} {actor : AuditActor} :
    P (WebhooksService.processWebhookForPipeline env eventId pipelineId
      mappingJson payload externalId syncRunId actor) := by
  simp only [WebhooksService.processWebhookForPipeline]
  split
  · exact failWebhookRun_rule quiet hlastRun hupdate
  · refine quiet.await rfl fun transformed => ?_
    split
    · exact failWebhookRun_rule quiet hlastRun hupdate
    · exact storeWebhookRecord_rule quiet hlastRun hupdate hstore

include hstore hcreate in
theorem processPipeline_rule {event : WebhookEvent} {actor : AuditActor}
    {totals : WebhooksService.Totals} {pipeline : SyncPipeline} :
    P (WebhooksService.processPipeline env event actor totals pipeline) := by
  refine quiet.bind (currentTime_rule quiet) fun startedAt => ?_
  refine quiet.bind (hcreate _ rfl) fun syncRun => ?_
  refine quiet.bind (log_rule quiet) fun _ => ?_
  exact quiet.bind (processWebhookForPipeline_rule quiet hlastRun hupdate hstore)
    fun _ => quiet.ret _

end Processing

include hevent in
theorem finishEvent_rule {eventId : Id} {status : WebhookEventStatus}
    {errorMessage : Option String}
    (hdata : ∀ time, WebhookEventData.Consistent
      ⟨status, errorMessage, some time⟩) :
    P (WebhooksService.finishEvent eventId status errorMessage) := by
  refine quiet.bind (currentTime_rule quiet) fun processedAt => ?_
  exact hevent _ _ (hdata processedAt)

include hprocess hevent in
theorem processWebhookEventNow_rule {eventId : Id} {actor : AuditActor} :
    P (WebhooksService.processWebhookEventNow env eventId actor) := by
  refine quiet.await rfl fun _ => quiet.bind (orNotFound_rule quiet) fun event => ?_
  refine quiet.bind ?_ fun connector => ?_
  · simp only [WebhooksService.findEventConnector]
    split
    · exact quiet.op _ rfl
    · exact quiet.ret _
  · cases connector with
    | none =>
        refine quiet.bind (finishEvent_rule quiet hevent
          fun _ => consistent_failed) fun _ => ?_
        exact quiet.bind (log_rule quiet) fun _ => quiet.ret _
    | some connector =>
        refine quiet.await rfl fun pipelines => ?_
        split
        · refine quiet.bind (finishEvent_rule quiet hevent
            fun _ => consistent_ignored) fun _ => ?_
          exact quiet.bind (log_rule quiet) fun _ => quiet.ret _
        · refine quiet.bind (quiet.foldlM (fun _ _ _ =>
            hprocess _ _ _ _) {}) fun totals => ?_
          refine quiet.bind (finishEvent_rule quiet hevent
            fun _ => consistent_processed) fun _ => ?_
          exact quiet.bind (log_rule quiet) fun _ => quiet.ret _

include hnow in
theorem processInline_rule {eventId : Id} {actor : AuditActor} :
    P (WebhooksService.processInline env eventId actor) :=
  quiet.bind (hnow _ _) fun _ => quiet.await rfl fun _ => quiet.ret _

include hqueueJob hadd in
theorem queueProcessing_rule {eventId connectorId : Id}
    {status : WebhookEventStatus} {metadata : Record}
    {action message : String} {actor : AuditActor} :
    P (WebhooksService.queueProcessing env eventId connectorId status metadata
      action message actor) := by
  refine quiet.bind (hqueueJob _ rfl) fun backgroundJob => ?_
  refine quiet.bind (enqueueJob_rule quiet (hadd _ _)) fun _ => ?_
  exact quiet.bind (log_rule quiet) fun _ =>
    quiet.bind (log_rule quiet) fun _ => quiet.ret _

include hinline hqueueJob hadd in
theorem handleReceived_rule {params : ReceiveEventParams}
    {event : WebhookEvent} :
    P (WebhooksService.handleReceived env params event) := by
  refine quiet.bind (log_rule quiet) fun _ => ?_
  split
  · exact queueProcessing_rule quiet hqueueJob hadd
  · rename_i hsync
    refine processInline_rule quiet (hinline ?_)
    simpa [JobsService.isAsyncMode] using hsync

include hinline hqueueJob hadd in
theorem receiveEvent_rule {params : ReceiveEventParams}
    (hfind : ∀ idempotencyKey,
      WebhooksService.getIdempotencyKey params.headers = some idempotencyKey →
      P (await (.webhookEventFindFirst params.connectorId idempotencyKey)))
    (hcreate : ∀ connector, P (await (.webhookEventCreate
      (WebhooksService.receivedEvent params connector)))) :
    P (WebhooksService.receiveEvent env params) := by
  refine quiet.bind (quiet.ofExcept _) fun _ => quiet.bind ?_ fun found => ?_
  · cases hkey : WebhooksService.getIdempotencyKey params.headers with
    | none => exact quiet.ret _
    | some idempotencyKey => exact hfind idempotencyKey hkey
  · cases found with
    | some existing =>
        exact quiet.bind (log_rule quiet) fun _ => quiet.ret _
    | none =>
        refine quiet.await rfl fun connector => ?_
        refine quiet.bind (hcreate connector) fun event => ?_
        exact handleReceived_rule quiet hinline hqueueJob hadd

theorem getAccessibleEvent_rule {id : Id} {user : AuthenticatedUser} :
    P (WebhooksService.getAccessibleEvent id user) := by
  refine quiet.await rfl fun _ => quiet.bind (orNotFound_rule quiet) fun found => ?_
  dsimp only
  split
  · exact quiet.throw _
  · exact quiet.ret _

include hinline hevent hqueueJob hadd in
theorem queueOrProcessEvent_rule {eventId : Id} {user : AuthenticatedUser}
    {isRetry : Bool} :
    P (WebhooksService.queueOrProcessEvent env eventId user isRetry) := by
  refine quiet.bind (hevent _ _ consistent_received) fun _ => ?_
  split
  · refine quiet.await rfl fun _ => quiet.bind (orNotFound_rule quiet) fun _ => ?_
    exact queueProcessing_rule quiet hqueueJob hadd
  · rename_i hsync
    refine processInline_rule quiet (hinline ?_)
    simpa [JobsService.isAsyncMode] using hsync

include hinline hevent hqueueJob hadd in
theorem retryEvent_rule {id : Id} {user : AuthenticatedUser} :
    P (WebhooksService.retryEvent env id user) := by
  refine quiet.bind (getAccessibleEvent_rule quiet) fun event => ?_
  split
  · exact quiet.throw _
  · exact queueOrProcessEvent_rule quiet hinline hevent hqueueJob hadd

include hinline hevent hqueueJob hadd in
theorem processEvent_rule {id : Id} {user : AuthenticatedUser} :
    P (WebhooksService.processEvent env id user) := by
  refine quiet.bind (getAccessibleEvent_rule quiet) fun event => ?_
  split
  · exact quiet.throw _
  · exact queueOrProcessEvent_rule quiet hinline hevent hqueueJob hadd

include hevent hjob in
theorem failQueuedEvent_rule {attempts : Nat} {backgroundJobId : Id}
    {webhookEvent : WebhookEvent} {startedAt : Time} {actor : AuditActor}
    {failure : Failure} :
    P (WebhooksService.failQueuedEvent attempts backgroundJobId webhookEvent
      startedAt actor failure) := by
  refine quiet.bind (currentTime_rule quiet) fun finishedAt => ?_
  refine quiet.bind (hevent _ _ consistent_failed) fun _ => ?_
  refine quiet.bind (hjob _ _) fun _ => ?_
  exact quiet.bind (log_rule quiet) fun _ =>
    quiet.bind (log_rule quiet) fun _ => quiet.throw _

include hnow hevent hjob in
theorem processQueuedWebhookEvent_rule
    {payload : ProcessWebhookEventJobPayload} {attempts : Nat} :
    P (WebhooksService.processQueuedWebhookEvent env payload attempts) := by
  refine quiet.await rfl fun _ => quiet.bind (orNotFound_rule quiet) fun _ => ?_
  refine quiet.await rfl fun _ => quiet.bind (orNotFound_rule quiet) fun _ => ?_
  refine quiet.bind (currentTime_rule quiet) fun startedAt => ?_
  refine quiet.bind (hjob _ _) fun _ => ?_
  refine quiet.bind (log_rule quiet) fun _ => ?_
  refine quiet.bind (log_rule quiet) fun _ => ?_
  refine quiet.tryCatch ?_ fun _ => failQueuedEvent_rule quiet hevent hjob
  refine quiet.bind (hnow _ _) fun summary => ?_
  refine quiet.bind (currentTime_rule quiet) fun finishedAt => ?_
  exact quiet.bind (hjob _ _) fun _ => log_rule quiet

end Webhooks

def Op.processesFor (pipelineId : Id) : Op → Prop
  | .now => True
  | .transform _ _ => True
  | .auditLogCreate _ => True
  | .syncRunCreate data =>
      data.pipelineId = pipelineId ∧ data.triggerType = .webhook
  | .syncRunUpdate _ _ => True
  | .syncedRecordCreate data =>
      data.pipelineId = pipelineId ∧ data.sourceType = "WEBHOOK"
  | .pipelineUpdate id data =>
      id = pipelineId ∧ ∃ time, data = { lastRunAt := some time }
  | _ => False

theorem processPipeline_uses {event : WebhookEvent} {actor : AuditActor}
    {totals : WebhooksService.Totals} {pipeline : SyncPipeline} :
    (WebhooksService.processPipeline env event actor totals pipeline).Uses
      (Op.processesFor pipeline.id) := by
  have hlog : ∀ {action entityType entityId metadata actor},
      (AuditService.log action entityType entityId metadata actor).Uses
        (Op.processesFor pipeline.id) := (uses_await _).mpr trivial
  have hnow : currentTime.Uses (Op.processesFor pipeline.id) :=
    (uses_await _).mpr trivial
  have hfail : ∀ eventId syncRunId externalId message errorCount actor,
      (WebhooksService.failWebhookRun eventId pipeline.id syncRunId externalId
        message errorCount actor).Uses (Op.processesFor pipeline.id) := by
    intro eventId syncRunId externalId message errorCount actor
    refine hnow.bind fun finishedAt => Uses.await trivial fun _ => ?_
    refine hnow.bind fun lastRunAt => Uses.await ⟨rfl, _, rfl⟩ fun _ => ?_
    exact hlog.bind fun _ => hlog.bind fun _ => trivial
  refine hnow.bind fun startedAt => Uses.await ⟨rfl, rfl⟩ fun syncRun => ?_
  refine hlog.bind fun _ => Uses.bind ?_ fun _ => trivial
  simp only [WebhooksService.processWebhookForPipeline]
  split
  · exact hfail _ _ _ _ _ _
  · refine Uses.await trivial fun transformed => ?_
    split
    · exact hfail _ _ _ _ _ _
    · refine Uses.await ⟨rfl, rfl⟩ fun syncedRecord => ?_
      refine hnow.bind fun finishedAt => Uses.await trivial fun _ => ?_
      refine hnow.bind fun lastRunAt => Uses.await ⟨rfl, _, rfl⟩ fun _ => ?_
      exact hlog.bind fun _ => hlog.bind fun _ => hlog.bind fun _ => trivial

/-! ## Connectors, pipelines and the scheduler -/

section Schedules

include quiet

theorem createConnector_rule {dto : CreateConnectorDto}
    {user : AuthenticatedUser}
    (hcreate : ∀ data, data.configJson = .obj dto.configJson →
      ConnectorsService.assertSafeConfig dto.configJson = .ok () →
      P (await (.connectorCreate data))) :
    P (ConnectorsService.create dto user) := by
  refine quiet.checked fun _ hsafe => ?_
  refine quiet.bind (hcreate _ rfl hsafe) fun _ => ?_
  exact quiet.bind (log_rule quiet) fun _ => quiet.ret _

theorem connector_findOne_rule {id : Id} {user : AuthenticatedUser} :
    P (ConnectorsService.findOne id user) := by
  refine quiet.bind (connector_getById_rule quiet) fun connector => ?_
  exact quiet.bind (quiet.ofExcept _) fun _ => quiet.ret _

theorem updateConnector_rule {id : Id} {dto : UpdateConnectorDto}
    {user : AuthenticatedUser}
    (hwrite : (ConnectorsService.updateData dto).ChecksConfig →
      P (await (.connectorUpdate id (ConnectorsService.updateData dto)))) :
    P (ConnectorsService.update id dto user) := by
  refine quiet.bind (connector_findOne_rule quiet) fun connector => ?_
  refine quiet.checked fun _ hsafe => ?_
  refine quiet.bind (hwrite (checksConfig_update hsafe)) fun updated => ?_
  split
  · split
    · exact quiet.bind (log_rule quiet) fun _ => quiet.ret _
    · exact quiet.ret _
  · exact quiet.ret _

theorem updateConnectorStatus_rule {id : Id} {status : ConnectorStatus}
    {user : AuthenticatedUser}
    (hwrite : P (await (.connectorUpdate id { status := some status }))) :
    P (ConnectorsService.updateStatus id status user) := by
  refine quiet.bind (connector_findOne_rule quiet) fun connector => ?_
  refine quiet.bind hwrite fun updated => ?_
  exact quiet.bind (log_rule quiet) fun _ => quiet.ret _

theorem createPipeline_rule {dto : CreatePipelineDto}
    {user : AuthenticatedUser}
    (hcreate : ∀ data, data.mappingJson = .obj dto.mappingJson →
      PipelinesService.assertValidMapping env dto.mappingJson = .ok () →
      P (await (.pipelineCreate data))) :
    P (PipelinesService.create env dto user) := by
  refine quiet.checked fun _ hvalid => ?_
  refine quiet.bind (connector_getById_rule quiet) fun connector => ?_
  refine quiet.bind (quiet.ofExcept _) fun _ => ?_
  refine quiet.bind (hcreate _ rfl hvalid) fun _ => ?_
  exact quiet.bind (log_rule quiet) fun _ => quiet.ret _

theorem checkConnector_rule {sourceConnectorId : Option Id}
    {user : AuthenticatedUser} :
    P (match sourceConnectorId with
      | some sourceConnectorId => do
          let connector ← ConnectorsService.getById sourceConnectorId
          Prog.ofExcept (PipelinesService.assertOwnConnector connector user)
      | none => pure () : Body Unit) := by
  cases sourceConnectorId with
  | none => exact quiet.ret _
  | some sourceConnectorId =>
      exact quiet.bind (connector_getById_rule quiet) fun _ => quiet.ofExcept _

theorem checkUpdate_rule {dto : UpdatePipelineDto} {user : AuthenticatedUser}
    {α : Type} {rest : Unit → Body α}
    (hrest : (PipelinesService.updateData dto).ChecksMapping env →
      P (rest ())) :
    P ((PipelinesService.checkUpdate env dto user).bind rest) := by
  simp only [PipelinesService.checkUpdate, bind_eq]
  cases hmapping : dto.mappingJson with
  | none =>
      refine quiet.bind (checkConnector_rule quiet) fun _ => hrest ?_
      intro json hjson
      simp [PipelinesService.updateData, hmapping] at hjson
  | some mappingJson =>
      simp only [Prog.bind_assoc]
      refine quiet.checked fun _ hvalid => ?_
      refine quiet.bind (checkConnector_rule quiet) fun _ => hrest ?_
      intro json hjson
      simp only [PipelinesService.updateData, hmapping, Option.map_some,
        Option.some.injEq] at hjson
      exact ⟨mappingJson, hjson.symm, hvalid⟩

theorem updatePipeline_rule {id : Id} {dto : UpdatePipelineDto}
    {user : AuthenticatedUser}
    (hwrite : (PipelinesService.updateData dto).ChecksMapping env →
      P (await (.pipelineUpdate id (PipelinesService.updateData dto)))) :
    P (PipelinesService.update env id dto user) := by
  refine quiet.bind (findOne_rule quiet) fun existing => ?_
  refine checkUpdate_rule quiet fun hvalid => ?_
  refine quiet.bind (hwrite hvalid) fun updated => ?_
  split
  · split
    · exact quiet.bind (log_rule quiet) fun _ => quiet.ret _
    · exact quiet.ret _
  · exact quiet.ret _

theorem updateStatus_rule {id : Id} {status : PipelineStatus}
    {user : AuthenticatedUser}
    (hwrite : P (await (.pipelineUpdate id { status := some status }))) :
    P (PipelinesService.updateStatus id status user) := by
  refine quiet.bind (findOne_rule quiet) fun pipeline => ?_
  refine quiet.bind hwrite fun updated => ?_
  exact quiet.bind (log_rule quiet) fun _ => quiet.ret _

theorem updatePipelineSchedule_rule {pipelineId : Id}
    {dto : UpdatePipelineScheduleDto} {user : AuthenticatedUser}
    (hwrite : ∀ id schedule pipeline nextRunAt, P (await (.pipelineUpdate id
      (SchedulerService.scheduleData schedule pipeline nextRunAt)))) :
    P (SchedulerService.updatePipelineSchedule env pipelineId dto user) := by
  refine quiet.bind (findOne_rule quiet) fun pipeline => ?_
  refine quiet.bind (quiet.ofExcept _) fun _ => ?_
  refine quiet.bind (currentTime_rule quiet) fun baseTime => ?_
  refine quiet.bind (quiet.ofExcept _) fun nextRunAt => ?_
  refine quiet.bind (hwrite _ _ _ _) fun updated => ?_
  refine quiet.bind (log_rule quiet) fun _ => ?_
  split
  · exact quiet.bind (log_rule quiet) fun _ => quiet.ret _
  · exact quiet.ret _

variable (hscheduled : ∀ pipelineId actor,
    P (SyncRunsService.createScheduledForPipeline env pipelineId actor))
  (hcount : ∀ pipelineId, P (await (.syncRunCountActive pipelineId)))

include hscheduled hcount

theorem triggerPipelineSchedule_rule {pipelineId : Id}
    {user : AuthenticatedUser} :
    P (SchedulerService.triggerPipelineSchedule env pipelineId user) := by
  refine quiet.bind (findOne_rule quiet) fun pipeline => ?_
  refine quiet.bind (quiet.ofExcept _) fun _ => ?_
  refine quiet.bind (hasActiveRun_rule quiet (hcount _)) fun hasActiveRun => ?_
  split
  · exact quiet.bind (log_rule quiet) fun _ => quiet.throw _
  · refine quiet.bind (hscheduled _ _) fun run => ?_
    exact quiet.bind (log_rule quiet) fun _ => quiet.ret _

theorem pollPipeline_rule {now : Time} {summary : PollSummary}
    {pipeline : SyncPipeline}
    (hnext : ∀ id nextRunAt,
      P (await (.pipelineUpdate id { nextRunAt := some nextRunAt }))) :
    P (SchedulerService.pollPipeline env now summary pipeline) := by
  simp only [SchedulerService.pollPipeline]
  split
  · exact quiet.bind (log_rule quiet) fun _ => quiet.ret _
  · refine quiet.bind (hasActiveRun_rule quiet (hcount _)) fun hasActiveRun => ?_
    split
    · exact quiet.bind (log_rule quiet) fun _ => quiet.ret _
    · refine quiet.bind ?_ fun _ => quiet.ret _
      refine quiet.bind (hscheduled _ _) fun run => ?_
      refine quiet.bind (quiet.ofExcept _) fun nextRunAt => ?_
      exact quiet.bind (hnext _ _) fun _ => log_rule quiet

theorem pollTick_rule {startedAt : Time}
    (hnext : ∀ id nextRunAt,
      P (await (.pipelineUpdate id { nextRunAt := some nextRunAt }))) :
    P (SchedulerService.pollTick env startedAt) := by
  refine quiet.bind (log_rule quiet) fun _ => ?_
  refine quiet.bind ?_ fun summary =>
    quiet.bind (currentTime_rule quiet) fun _ => log_rule quiet
  refine quiet.bind (currentTime_rule quiet) fun now => ?_
  refine quiet.await rfl fun duePipelines => ?_
  exact quiet.foldlM (fun _ _ _ =>
    pollPipeline_rule quiet hscheduled hcount hnext) _

theorem runPollingCycle_rule {worker : Id}
    (hnext : ∀ id nextRunAt,
      P (await (.pipelineUpdate id { nextRunAt := some nextRunAt })))
    (henter : ∀ ttl, P (await (.pollEnter worker ttl)))
    (hleave : P (await (.pollLeave worker))) :
    P (SchedulerService.runPollingCycle env worker) := by
  simp only [SchedulerService.runPollingCycle]
  split
  · exact quiet.ret _
  · refine quiet.bind (henter _) fun entered => ?_
    split
    · exact quiet.ret _
    · refine quiet.bind (currentTime_rule quiet) fun startedAt => ?_
      refine quiet.bind (quiet.attempt (quiet.tryCatch ?_ fun _ => ?_)) ?_
      · exact pollTick_rule quiet hscheduled hcount hnext
      · exact quiet.bind (currentTime_rule quiet) fun _ => log_rule quiet
      · exact fun outcome => quiet.bind hleave fun _ => quiet.ofExcept outcome

end Schedules

/-! ## Calls -/

include quiet in
theorem deliverJob_rule {jobId : Id} {token : Nat} {payload : JobPayload}
    {attempts : Nat}
    (hqueued : ∀ run, payload = .executeSyncRun run →
      P (SyncRunsService.processQueuedSyncRun env run attempts))
    (hwebhook : ∀ event, payload = .processWebhookEvent event →
      P (WebhooksService.processQueuedWebhookEvent env event attempts))
    (hcompleted : P (await (.moveToCompleted jobId token)))
    (hfailed : P (await (.moveToFailed jobId token))) :
    P (deliverJob env jobId token payload attempts) := by
  refine quiet.bind (quiet.attempt ?_) fun outcome => ?_
  · cases payload with
    | executeSyncRun payload => exact hqueued payload rfl
    | processWebhookEvent payload => exact hwebhook payload rfl
  · split
    · exact hcompleted
    · exact hfailed

def Call.startsScheduled : Call → Bool
  | .triggerPipelineSchedule _ _ => true
  | .runPollingCycle _ => true
  | _ => false

def Call.processesEvents : Call → Bool
  | .receiveEvent _ => true
  | .retryEvent _ _ => true
  | .processEvent _ _ => true
  | .processJob _ _ (.processWebhookEvent _) _ => true
  | _ => false

/-- What a call writes to pipelines, apart from what its runs write. -/
def Call.edits : Call → Id → PipelineData → Prop
  | .updatePipeline id dto _, written, data =>
      written = id ∧ data = PipelinesService.updateData dto
  | .updateStatus id status _, written, data =>
      written = id ∧ data = { status := some status }
  | .updatePipelineSchedule _ _ _, _, data =>
      ∃ schedule pipeline nextRunAt,
        data = SchedulerService.scheduleData schedule pipeline nextRunAt
  | .runPollingCycle _, _, data =>
      ∃ nextRunAt, data = { nextRunAt := some nextRunAt }
  | _, _, _ => False

/-- The operations of a call outside of the runs that it starts or executes;
some are attempted by some calls only, and only in some form. -/
def Call.mayAttemptOutside (env : Env) (call : Call) : Op → Prop
  | .webhookEventFindFirst sourceConnectorRef idempotencyKey =>
      ∃ params, call = .receiveEvent params ∧
        sourceConnectorRef = params.connectorId ∧
        WebhooksService.getIdempotencyKey params.headers = some idempotencyKey
  | .webhookEventCreate data =>
      ∃ params connector, call = .receiveEvent params ∧
        data = WebhooksService.receivedEvent params connector
  | .webhookEventUpdate _ data =>
      call.processesEvents = true ∧ data.Consistent
  | .syncRunCountActive _ => call.startsScheduled = true
  | .connectorCreate data => ∃ configJson, data.configJson = .obj configJson ∧
      ConnectorsService.assertSafeConfig configJson = .ok ()
  | .connectorUpdate _ data => data.ChecksConfig
  | .pipelineCreate data => ∃ dto user, call = .createPipeline dto user ∧
      data.mappingJson = .obj dto.mappingJson ∧
      PipelinesService.assertValidMapping env dto.mappingJson = .ok ()
  | .pipelineUpdate id data => call.edits id data ∧ data.ChecksMapping env
  | .backgroundJobCreate data => data.status = .queued
  | .backgroundJobUpdate _ _ => call.isClient = false
  | .queueAdd _ payload attempts => attempts = env.defaultAttempts ∧
      ∃ event, payload = .processWebhookEvent event
  | .moveToCompleted jobId token =>
      ∃ payload attempts, call = .processJob jobId token payload attempts
  | .moveToFailed jobId token =>
      ∃ payload attempts, call = .processJob jobId token payload attempts
  | .pollEnter worker _ => call = .runPollingCycle worker
  | .pollLeave worker => call = .runPollingCycle worker
  | .syncRunCreate _ => False
  | .syncRunUpdate _ _ => False
  | .syncedRecordCreate _ => False
  | _ => True

theorem mayAttemptOutside_quiet {call : Call} {op : Op}
    (h : op.isQuiet = true) : call.mayAttemptOutside env op := by
  cases op with
  | webhookEventFindFirst _ _ | webhookEventCreate _ | webhookEventUpdate _ _
  | syncRunCountActive _ | connectorCreate _ | connectorUpdate _ _
  | pipelineCreate _ | pipelineUpdate _ _
  | backgroundJobCreate _ | backgroundJobUpdate _ _
  | queueAdd _ _ _ | moveToCompleted _ _ | moveToFailed _ _
  | pollEnter _ _ | pollLeave _
  | syncRunCreate _ | syncRunUpdate _ _ | syncedRecordCreate _ => cases h
  | _ => trivial

/-- A call is made of its own operations, of the two ways to start a run, of the
runs it executes and of the processing of events. -/
theorem body_rule_of_parts (call : Call) (hP : Compositional P)
    (hops : ∀ op, call.mayAttemptOutside env op → P (await op))
    (hmanual : ∀ pipelineId dto user,
      call = .createForPipeline pipelineId dto user →
      P (SyncRunsService.createForPipeline env pipelineId dto user))
    (hscheduled : call.startsScheduled = true → ∀ pipelineId actor,
      P (SyncRunsService.createScheduledForPipeline env pipelineId actor))
    (hqueued : ∀ jobId token run attempts,
      call = .processJob jobId token (.executeSyncRun run) attempts →
      P (SyncRunsService.processQueuedSyncRun env run attempts))
    (hnow : call.processesEvents = true → ∀ eventId actor,
      P (WebhooksService.processWebhookEventNow env eventId actor)) :
    P (call.body env) := by
  have quiet : Quiet P := ⟨hP, fun op hop => hops op (mayAttemptOutside_quiet hop)⟩
  have hevent : call.processesEvents = true →
      ∀ id data, data.Consistent → P (await (.webhookEventUpdate id data)) :=
    fun hprocesses id data hdata => hops _ ⟨hprocesses, hdata⟩
  have hqueueJob : ∀ data, data.status = .queued →
      P (await (.backgroundJobCreate data)) := fun _ hdata => hops _ hdata
  have hadd : ∀ jobId event, P (await (.queueAdd jobId
      (.processWebhookEvent event) env.defaultAttempts)) :=
    fun _ event => hops _ ⟨rfl, event, rfl⟩
  cases call with
  | receiveEvent params =>
      refine quiet.bind ?_ fun _ => quiet.ret _
      exact receiveEvent_rule quiet (fun _ => hnow rfl) hqueueJob hadd
        (fun _ hkey => hops _ ⟨params, rfl, rfl, hkey⟩)
        fun connector => hops _ ⟨params, connector, rfl, rfl⟩
  | retryEvent id user =>
      exact quiet.bind (retryEvent_rule quiet (fun _ => hnow rfl) (hevent rfl)
        hqueueJob hadd) fun _ => quiet.ret _
  | processEvent id user =>
      exact quiet.bind (processEvent_rule quiet (fun _ => hnow rfl) (hevent rfl)
        hqueueJob hadd) fun _ => quiet.ret _
  | createForPipeline pipelineId dto user =>
      exact quiet.bind (hmanual pipelineId dto user rfl) fun _ => quiet.ret _
  | triggerPipelineSchedule pipelineId user =>
      refine quiet.bind ?_ fun _ => quiet.ret _
      exact triggerPipelineSchedule_rule quiet (hscheduled rfl)
        fun _ => hops _ rfl
  | runPollingCycle worker =>
      refine quiet.bind ?_ fun _ => quiet.ret _
      exact runPollingCycle_rule quiet (hscheduled rfl) (fun _ => hops _ rfl)
        (fun _ nextRunAt => hops _ ⟨⟨nextRunAt, rfl⟩, checksMapping_none rfl⟩)
        (fun _ => hops _ rfl) (hops _ rfl)
  | createConnector dto user =>
      refine quiet.bind ?_ fun _ => quiet.ret _
      exact createConnector_rule quiet fun _ hconfig hsafe =>
        hops _ ⟨dto.configJson, hconfig, hsafe⟩
  | updateConnector id dto user =>
      refine quiet.bind ?_ fun _ => quiet.ret _
      exact updateConnector_rule quiet fun hsafe => hops _ hsafe
  | updateConnectorStatus id status user =>
      refine quiet.bind ?_ fun _ => quiet.ret _
      exact updateConnectorStatus_rule quiet (hops _ checksConfig_status)
  | createPipeline dto user =>
      refine quiet.bind ?_ fun _ => quiet.ret _
      exact createPipeline_rule quiet fun _ hmapping hvalid =>
        hops _ ⟨dto, user, rfl, hmapping, hvalid⟩
  | updatePipeline id dto user =>
      refine quiet.bind ?_ fun _ => quiet.ret _
      exact updatePipeline_rule quiet fun hvalid =>
        hops _ ⟨⟨rfl, rfl⟩, hvalid⟩
  | updateStatus id status user =>
      refine quiet.bind ?_ fun _ => quiet.ret _
      exact updateStatus_rule quiet
        (hops _ ⟨⟨rfl, rfl⟩, checksMapping_none rfl⟩)
  | updatePipelineSchedule pipelineId dto user =>
      refine quiet.bind ?_ fun _ => quiet.ret _
      exact updatePipelineSchedule_rule quiet
        fun _ schedule pipeline nextRunAt =>
          hops _ ⟨⟨schedule, pipeline, nextRunAt, rfl⟩, checksMapping_none rfl⟩
  | processJob jobId token payload attempts =>
      refine quiet.bind ?_ fun _ => quiet.ret _
      refine deliverJob_rule quiet ?_ ?_ (hops _ ⟨payload, attempts, rfl⟩)
        (hops _ ⟨payload, attempts, rfl⟩)
      · rintro run rfl
        exact hqueued jobId token run attempts rfl
      · rintro event rfl
        exact processQueuedWebhookEvent_rule quiet (hnow rfl) (hevent rfl)
          fun _ _ => hops _ rfl

theorem body_rule_of_starts (call : Call) (hP : Compositional P)
    (hops : ∀ op, call.mayAttemptOutside env op → P (await op))
    (hmanual : ∀ pipelineId dto user,
      P (SyncRunsService.createForPipeline env pipelineId dto user))
    (hscheduled : call.startsScheduled = true → ∀ pipelineId actor,
      P (SyncRunsService.createScheduledForPipeline env pipelineId actor))
    (hqueued : ∀ jobId token run attempts,
      call = .processJob jobId token (.executeSyncRun run) attempts →
      P (SyncRunsService.processQueuedSyncRun env run attempts))
    (hnow : call.processesEvents = true → ∀ eventId actor,
      P (WebhooksService.processWebhookEventNow env eventId actor)) :
    P (call.body env) :=
  body_rule_of_parts call hP hops
    (fun pipelineId dto user _ => hmanual pipelineId dto user) hscheduled
    hqueued hnow

theorem body_rule (call : Call) (hP : Compositional P)
    (hops : ∀ op, call.mayAttemptOutside env op → P (await op))
    (hrun : ∀ pipeline options, options.triggerType ≠ .webhook →
      (options.triggerType = .scheduled → call.startsScheduled = true) →
      P (SyncRunsService.createRunFromPipeline env pipeline options))
    (hqueued : ∀ jobId token run attempts,
      call = .processJob jobId token (.executeSyncRun run) attempts →
      P (SyncRunsService.processQueuedSyncRun env run attempts))
    (hnow : call.processesEvents = true → ∀ eventId actor,
      P (WebhooksService.processWebhookEventNow env eventId actor)) :
    P (call.body env) := by
  have quiet : Quiet P := ⟨hP, fun op hop => hops op (mayAttemptOutside_quiet hop)⟩
  refine body_rule_of_starts call hP hops (fun pipelineId dto user => ?_)
    (fun hstarts pipelineId actor => ?_) hqueued hnow
  · refine createForPipeline_rule quiet fun pipeline options htype => ?_
    refine hrun pipeline options ?_ ?_
    · simp [htype]
    · simp [htype]
  · refine createScheduledForPipeline_rule quiet
      fun pipeline options htype => ?_
    refine hrun pipeline options ?_ fun _ => hstarts
    simp [htype]

/-- The operations of runs: what they write is not checked beforehand. -/
def Op.ofRun : Op → Prop
  | .pipelineUpdate _ data => data.OfRun
  | .syncRunCreate _ => True
  | .syncRunUpdate _ _ => True
  | .syncedRecordCreate _ => True
  | .backgroundJobCreate _ => True
  | .backgroundJobUpdate _ _ => True
  | .queueAdd _ _ _ => True
  | _ => False

theorem body_uses_of {call : Call} {allowed : Op → Prop}
    (houtside : ∀ op, call.mayAttemptOutside env op → allowed op)
    (hrun : ∀ op : Op, op.ofRun → allowed op) :
    (call.body env).Uses allowed := by
  have quiet : AllowsQuiet allowed := allowsQuiet fun op hop =>
    houtside op (mayAttemptOutside_quiet hop)
  have hop : ∀ op : Op, op.ofRun → (await op).Uses allowed :=
    fun op hof => (uses_await op).mpr (hrun op hof)
  refine body_rule call quiet.toCompositional
    (fun op hout => (uses_await op).mpr (houtside op hout)) ?_ ?_ ?_
  · exact fun _ _ _ _ => createRunFromPipeline_rule quiet
      (fun _ _ hdata => hop _ hdata) (fun _ _ => hop _ trivial)
      (fun _ _ => hop _ trivial) (fun _ _ => hop _ trivial)
      (fun _ _ => hop _ trivial) fun _ _ _ => hop _ trivial
  · exact fun _ _ _ _ _ => processQueuedSyncRun_rule quiet
      (fun _ _ hdata => hop _ hdata) (fun _ _ => hop _ trivial)
      (fun _ _ => hop _ trivial) fun _ _ => hop _ trivial
  · intro hprocesses eventId actor
    refine processWebhookEventNow_rule quiet (fun _ _ _ _ => ?_)
      fun _ _ hdata => (uses_await _).mpr (houtside _ ⟨hprocesses, hdata⟩)
    exact processPipeline_rule quiet (fun _ _ => hop _ ofRun_lastRunAt)
      (fun _ _ => hop _ trivial) (fun _ _ => hop _ trivial)
      fun _ _ => hop _ trivial

/-! ## The footprint of a call -/

def Call.mayAttempt (env : Env) (call : Call) : Op → Prop
  | .webhookEventFindFirst _ _ => ∃ params, call = .receiveEvent params
  | .webhookEventCreate _ => ∃ params, call = .receiveEvent params
  | .syncRunCountActive _ => call.startsScheduled = true
  | .webhookEventUpdate _ _ => call.processesEvents = true
  | .syncRunCreate data =>
      (data.triggerType = .scheduled → call.startsScheduled = true) ∧
        (data.triggerType = .webhook → call.processesEvents = true)
  | .syncedRecordCreate data =>
      data.sourceType = "WEBHOOK" → call.processesEvents = true
  | .pipelineCreate _ => ∃ dto user, call = .createPipeline dto user
  | .pipelineUpdate id data => PipelineData.OfRun data ∨ call.edits id data
  | .queueAdd _ _ attempts => attempts = env.defaultAttempts
  | .moveToCompleted jobId token =>
      ∃ payload attempts, call = .processJob jobId token payload attempts
  | .moveToFailed jobId token =>
      ∃ payload attempts, call = .processJob jobId token payload attempts
  | _ => True

theorem mayAttempt_of_outside {call : Call} {op : Op}
    (h : call.mayAttemptOutside env op) : call.mayAttempt env op := by
  cases op with
  | webhookEventFindFirst _ _ =>
      obtain ⟨params, hcall, -⟩ := h
      exact ⟨params, hcall⟩
  | webhookEventCreate _ =>
      obtain ⟨params, -, hcall, -⟩ := h
      exact ⟨params, hcall⟩
  | syncRunCreate _ | syncedRecordCreate _ => cases h
  | pipelineCreate _ =>
      obtain ⟨dto, user, hcall, -⟩ := h
      exact ⟨dto, user, hcall⟩
  | pipelineUpdate _ _ => exact .inr h.1
  | queueAdd _ _ _ | webhookEventUpdate _ _ => exact h.1
  | syncRunCountActive _ | moveToCompleted _ _ | moveToFailed _ _ => exact h
  | _ => trivial

theorem mayAttempt_quiet {call : Call} : AllowsQuiet (call.mayAttempt env) :=
  allowsQuiet fun _ hop => mayAttempt_of_outside (mayAttemptOutside_quiet hop)

theorem body_uses (call : Call) :
    (call.body env).Uses (call.mayAttempt env) := by
  have quiet : AllowsQuiet (call.mayAttempt env) := mayAttempt_quiet
  have hop : ∀ {op : Op}, call.mayAttempt env op →
      (await op).Uses (call.mayAttempt env) := (uses_await _).mpr
  have hpipeline : ∀ id data, PipelineData.OfRun data →
      (await (.pipelineUpdate id data)).Uses (call.mayAttempt env) :=
    fun _ _ hdata => hop (.inl hdata)
  have hupdate : ∀ id data,
      (await (.syncRunUpdate id data)).Uses (call.mayAttempt env) :=
    fun _ _ => hop trivial
  have hmanual : ∀ data : NewSyncedRecord, data.sourceType = "MANUAL" →
      (await (.syncedRecordCreate data)).Uses (call.mayAttempt env) := by
    refine fun data hdata => hop fun hwebhook => ?_
    rw [hdata] at hwebhook
    exact absurd hwebhook (by decide)
  refine body_rule call quiet.toCompositional
    (fun _ houtside => hop (mayAttempt_of_outside houtside)) ?_ ?_ ?_
  · intro pipeline options hother hscheduled
    refine createRunFromPipeline_rule quiet hpipeline hupdate hmanual
      (fun _ _ => hop trivial) (fun _ _ => hop rfl) fun data _ hdata =>
        hop ⟨fun htype => ?_, fun htype => ?_⟩
    · exact hscheduled (hdata.symm.trans htype)
    · exact absurd (hdata.symm.trans htype) hother
  · exact fun _ _ _ _ _ =>
      processQueuedSyncRun_rule quiet hpipeline hupdate hmanual
        fun _ _ => hop trivial
  · intro hprocesses eventId actor
    refine processWebhookEventNow_rule quiet (fun event actor totals pipeline => ?_)
      fun _ _ _ => hop hprocesses
    refine processPipeline_rule quiet
      (fun _ _ => hpipeline _ _ ofRun_lastRunAt) hupdate
      (fun _ _ => hop fun _ => hprocesses)
      fun data hdata => hop ⟨fun htype => ?_, fun _ => hprocesses⟩
    rw [hdata] at htype
    cases htype

end SyncBridge
