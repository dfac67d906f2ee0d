import SyncBridge.Integrity.Facts

/-!
# Every call knows what it refers to

The services, from the processing of one record up to the calls.  Each function
is given the rows that its arguments name.
-/

namespace SyncBridge

open SyncBridge.Foundation SyncBridge.Foundation.Prog
open SyncBridge.Foundation.Knowledge

variable {env : Env} {call : Call} {known : Set Fact}

abbrev Refers (call : Call) (known : Set Fact) {α : Type} (body : Body α) :
    Prop :=
  references.Safe call known body

theorem refers_pass {α : Type} {op : Op} {rest : op.Res → Body α}
    (hneeds : op.Refers known)
    (hrest : ∀ value, Refers call known (rest value)) :
    Refers call known ((Prog.await op).bind rest) :=
  informed_await_bind hneeds fun value _ =>
    (hrest value).mono Set.subset_union_left

theorem refers_await {op : Op} (hneeds : op.Refers known) :
    Refers call known (await op) := (informed_await hneeds).safe

theorem log_refers (fact : Fact) (hfact : fact ∈ known) {action : String}
    {metadata : Record} {actor : AuditActor} :
    Refers call known (AuditService.log action fact.entity.1
      (idString fact.entity.2) metadata actor) :=
  refers_await (.inr ⟨fact, hfact, rfl, rfl⟩)

theorem refers_log {α : Type} (fact : Fact) {rest : Unit → Body α}
    {action : String} {metadata : Record} {actor : AuditActor}
    (hfact : fact ∈ known) (hrest : Refers call known (rest ())) :
    Refers call known ((AuditService.log action fact.entity.1
      (idString fact.entity.2) metadata actor).bind rest) :=
  (log_refers fact hfact).seq fun _ => hrest

theorem refers_pipelineUpdate {id : Id} {data : PipelineData}
    (h : data.sourceConnectorId = none) :
    (Op.pipelineUpdate id data).Refers known := by
  intro sourceConnectorId hgiven
  rw [h] at hgiven
  cases hgiven

theorem refers_found {α β : Type} {message : String} {found : Option α}
    {rest : α → Body β}
    (hrest : ∀ row, found = some row → Refers call known (rest row)) :
    Refers call known ((orNotFound message found).bind rest) := by
  cases found with
  | none => exact informed_throw _
  | some row => exact hrest row rfl

theorem pipeline_getById_refers {α : Type} {id : Id}
    {rest : SyncPipeline → Body α}
    (hrest : ∀ row : SyncPipeline, row.id = id →
      Refers call (known ∪ {.pipeline id}) (rest row)) :
    Refers call known ((PipelinesService.getById id).bind rest) := by
  refine informed_getById (K := references) (fun _ _ h => h) trivial
    fun row hid => ?_
  have hnext := hrest row hid
  rw [← hid] at hnext
  exact hnext

theorem pipeline_findOne_refers {α : Type} {id : Id} {user : AuthenticatedUser}
    {rest : SyncPipeline → Body α}
    (hrest : ∀ row : SyncPipeline, row.id = id →
      Refers call (known ∪ {.pipeline id}) (rest row)) :
    Refers call known ((PipelinesService.findOne id user).bind rest) := by
  simp only [PipelinesService.findOne, bind_eq, bind_assoc, pure_eq, ret_bind]
  refine pipeline_getById_refers fun row hid => ?_
  exact informed_ofExcept_bind fun _ _ => hrest row hid

theorem connector_getById_informed {α : Type} {learned : α → Set Fact}
    {id : Id} {rest : Connector → Body α}
    (hrest : ∀ row : Connector, row.id = id →
      references.Informed call (known ∪ {.connector id}) learned (rest row)) :
    references.Informed call known learned
      ((ConnectorsService.getById id).bind rest) := by
  refine informed_connector_getById (K := references) (fun _ _ h => h) trivial
    fun row hid => ?_
  have hnext := hrest row hid
  rw [← hid] at hnext
  exact hnext

theorem enqueueJob_refers {payload : JobPayload} {jobId : Id}
    (hid : payload.backgroundJobId = jobId) (hsuits : payload.Suits)
    (hrefs : payload.refs ⊆ known) :
    Refers call known (JobsService.enqueueJob env payload jobId) := by
  simp only [JobsService.enqueueJob]
  split
  · exact informed_throw _
  · split
    · exact safe_ret _
    · exact refers_await ⟨hid, hsuits, hrefs⟩

/-! ## Sync runs -/

section SyncRuns

variable {syncRunId pipelineId : Id} {triggerType : SyncRunTriggerType}
  {actor : AuditActor} {pipeline : SyncPipeline}

theorem persistRecord_refers {state : SyncRunsService.LoopState}
    {record : SyncRunMockRecordPayload} {normalized : Record}
    (hrun : .syncRun syncRunId pipelineId .manual ∈ known) :
    Refers call known (SyncRunsService.persistRecord env syncRunId pipelineId
      actor state record normalized) := by
  simp only [SyncRunsService.persistRecord, bind_eq]
  refine Informed.bind (Informed.attempt (informed_await
    (K := references) ⟨.manual, hrun, rfl⟩)) fun outcome => ?_
  cases outcome with
  | error failure => exact safe_ret _
  | ok syncedRecord =>
      refine Informed.seq (Informed.attempt
        (refers_log (.syncRun syncRunId pipelineId .manual) (.inl hrun) ?_))
        fun outcome => ?_
      · exact log_refers (.syncedRecord syncedRecord.id) (.inr rfl)
      · cases outcome with
        | error failure => exact safe_ret _
        | ok done => exact safe_ret _

theorem processRecord_refers {fields : List NormalizedMappingField}
    {state : SyncRunsService.LoopState} {record : SyncRunMockRecordPayload}
    (hrun : .syncRun syncRunId pipelineId .manual ∈ known) :
    Refers call known (SyncRunsService.processRecord env syncRunId pipelineId
      fields actor state record) := by
  simp only [SyncRunsService.processRecord, bind_eq]
  refine refers_pass trivial fun transformed => ?_
  split
  · exact refers_log (.syncRun syncRunId pipelineId .manual) hrun (safe_ret _)
  · exact persistRecord_refers hrun

theorem updateCursor_refers {state : SyncRunsService.LoopState}
    (hpipeline : .pipeline pipeline.id ∈ known) :
    Refers call known
      (SyncRunsService.updateCursor env syncRunId pipeline state actor) := by
  simp only [SyncRunsService.updateCursor]
  split
  · exact safe_ret _
  · split
    · split
      · refine refers_pass (refers_pipelineUpdate rfl) fun _ => ?_
        exact refers_log (.pipeline pipeline.id) hpipeline (safe_ret _)
      · exact safe_ret _
    · exact refers_log (.pipeline pipeline.id) hpipeline (safe_ret _)

/-- Records are stored for manual runs only. -/
theorem processRunRecords_refers {mockRecords : List SyncRunMockRecordPayload}
    {ignoreCursor : Bool}
    (hrun : .syncRun syncRunId pipeline.id triggerType ∈ known)
    (hpipeline : .pipeline pipeline.id ∈ known)
    (hmanual : mockRecords = [] ∨ triggerType = .manual) :
    Refers call known (SyncRunsService.processRunRecords env syncRunId pipeline
      mockRecords ignoreCursor actor) := by
  simp only [SyncRunsService.processRunRecords, bind_eq]
  refine informed_ofExcept_bind fun fields _ => ?_
  refine Informed.seq (safe_foldlM (fun state record hrecord => ?_) _)
    fun state => ?_
  · have hgiven : record ∈ mockRecords := by
      simp only [SyncRunsService.eligibleRecords] at hrecord
      split at hrecord
      · exact List.mem_of_mem_filter hrecord
      · exact hrecord
    rcases hmanual with rfl | rfl
    · cases hgiven
    · exact processRecord_refers hrun
  · exact (updateCursor_refers hpipeline).seq fun _ => safe_ret _

/-- Runs with records are manual, and webhook events start their own runs. -/
structure CreateRunOptions.Suits (options : CreateRunOptions) : Prop where
  notWebhook : options.triggerType ≠ .webhook
  scheduled : options.triggerType = .scheduled → options.mockRecords = []

theorem CreateRunOptions.Suits.manual {options : CreateRunOptions}
    (h : options.Suits) :
    options.mockRecords = [] ∨ options.triggerType = .manual := by
  cases htype : options.triggerType with
  | manual => exact .inr rfl
  | webhook => exact absurd htype h.notWebhook
  | scheduled => exact .inl (h.scheduled htype)

theorem executeSyncRunNow_refers {options : CreateRunOptions}
    (hpipeline : .pipeline pipeline.id ∈ known) (hsuits : options.Suits) :
    Refers call known
      (SyncRunsService.executeSyncRunNow env pipeline options) := by
  simp only [SyncRunsService.executeSyncRunNow, bind_eq]
  refine refers_pass trivial fun startedAt => ?_
  refine informed_await_bind hpipeline fun initialRun _ => ?_
  refine refers_log (.syncRun initialRun.id pipeline.id options.triggerType)
    (.inr rfl) ?_
  refine Informed.seq (processRunRecords_refers (.inr rfl) (.inl hpipeline)
    hsuits.manual) fun summary => ?_
  refine refers_pass trivial fun finishedAt => ?_
  refine informed_await_bind trivial fun completedRun _ => ?_
  refine refers_pass (refers_pipelineUpdate rfl) fun _ => ?_
  let updated : Fact := .syncRun completedRun.id completedRun.pipelineId
    completedRun.triggerType
  exact refers_log updated (.inr rfl) (refers_log updated (.inr rfl) (safe_ret _))

theorem queueSyncRun_refers {options : CreateRunOptions}
    (hpipeline : .pipeline pipeline.id ∈ known) (hsuits : options.Suits) :
    Refers call known (SyncRunsService.queueSyncRun env pipeline options) := by
  simp only [SyncRunsService.queueSyncRun, bind_eq]
  refine informed_await_bind hpipeline fun syncRun _ => ?_
  refine informed_await_bind ⟨rfl, pipeline.id, options.triggerType, .inr rfl⟩
    fun backgroundJob _ => ?_
  refine Informed.seq (enqueueJob_refers rfl ?_ ?_) fun _ => ?_
  · refine ⟨hsuits.notWebhook, fun htype => ?_⟩
    simp [SyncRunsService.queuedPayload, hsuits.scheduled htype]
  · rintro fact (rfl | rfl | rfl)
    · exact .inr rfl
    · exact .inl (.inr rfl)
    · exact .inl (.inl hpipeline)
  · refine refers_log (.syncRun syncRun.id pipeline.id options.triggerType)
      (.inl (.inr rfl)) ?_
    exact refers_log (.backgroundJob backgroundJob.id .syncRun syncRun.id)
      (.inr rfl) (safe_ret _)

theorem createRunFromPipeline_refers {options : CreateRunOptions}
    (hpipeline : .pipeline pipeline.id ∈ known) (hsuits : options.Suits) :
    Refers call known
      (SyncRunsService.createRunFromPipeline env pipeline options) := by
  simp only [SyncRunsService.createRunFromPipeline]
  split
  · exact queueSyncRun_refers hpipeline hsuits
  · exact executeSyncRunNow_refers hpipeline hsuits

theorem createForPipeline_refers {id : Id} {dto : CreateSyncRunDto}
    {user : AuthenticatedUser} :
    Refers call known
      (SyncRunsService.createForPipeline env id dto user) := by
  simp only [SyncRunsService.createForPipeline, bind_eq]
  refine pipeline_findOne_refers fun row hid => ?_
  subst hid
  refine refers_log (.pipeline row.id) (.inr rfl) ?_
  exact createRunFromPipeline_refers (.inr rfl) ⟨nofun, nofun⟩

theorem createScheduledForPipeline_refers {id : Id} :
    Refers call known
      (SyncRunsService.createScheduledForPipeline env id actor) := by
  simp only [SyncRunsService.createScheduledForPipeline, bind_eq]
  refine pipeline_getById_refers fun row hid => ?_
  subst hid
  exact createRunFromPipeline_refers (.inr rfl) ⟨nofun, fun _ => rfl⟩

theorem processQueuedSyncRun_refers {payload : ExecuteSyncRunJobPayload}
    {attempts : Nat}
    (hrefs : (JobPayload.executeSyncRun payload).refs ⊆ known)
    (hsuits : (JobPayload.executeSyncRun payload).Suits) :
    Refers call known
      (SyncRunsService.processQueuedSyncRun env payload attempts) := by
  have hmanual : payload.mockRecords = [] ∨ payload.triggerType = .manual := by
    cases htype : payload.triggerType with
    | manual => exact .inr rfl
    | webhook => exact absurd htype hsuits.1
    | scheduled => exact .inl (hsuits.2 htype)
  simp only [SyncRunsService.processQueuedSyncRun, bind_eq]
  refine informed_await_bind trivial fun found hfound => ?_
  refine refers_found fun backgroundJob hbackgroundJob => ?_
  subst hbackgroundJob
  have hjobId : backgroundJob.id = payload.backgroundJobId := hfound
  refine informed_await_bind trivial fun found hfound => ?_
  refine refers_found fun syncRun hsyncRun => ?_
  subst hsyncRun
  have hrunId : syncRun.id = payload.syncRunId := hfound
  refine Informed.mono ?_
    ((Set.subset_union_left.trans Set.subset_union_left) : known ⊆ _)
  refine pipeline_getById_refers fun pipeline hpipelineId => ?_
  refine Informed.mono ?_ (Set.subset_union_left : known ⊆ _)
  have hjob : .backgroundJob backgroundJob.id .syncRun syncRun.id ∈ known :=
    hrefs (by rw [hjobId, hrunId]; exact .inl rfl)
  have hrun : .syncRun syncRun.id pipeline.id payload.triggerType ∈ known :=
    hrefs (by rw [hrunId, hpipelineId]; exact .inr (.inl rfl))
  have hpipeline : .pipeline pipeline.id ∈ known :=
    hrefs (by rw [hpipelineId]; exact .inr (.inr rfl))
  refine refers_pass trivial fun startedAt => ?_
  refine refers_pass trivial fun _ => ?_
  refine refers_pass trivial fun _ => ?_
  refine refers_log _ hjob (refers_log _ hrun ?_)
  refine Informed.tryCatch ?_ fun failure => ?_
  · simp only [SyncRunsService.runQueuedRecords, bind_eq]
    refine Informed.seq (processRunRecords_refers hrun hpipeline hmanual)
      fun summary => ?_
    refine refers_pass trivial fun finishedAt => ?_
    refine refers_pass trivial fun _ => ?_
    refine refers_pass (refers_pipelineUpdate rfl) fun _ => ?_
    refine refers_pass trivial fun _ => ?_
    exact refers_log _ hjob (log_refers _ hrun)
  · simp only [SyncRunsService.failQueuedRun, bind_eq]
    refine refers_pass trivial fun finishedAt => ?_
    refine refers_pass trivial fun _ => ?_
    refine refers_pass (refers_pipelineUpdate rfl) fun _ => ?_
    refine refers_pass trivial fun _ => ?_
    exact refers_log _ hjob (refers_log _ hrun (informed_throw _))

end SyncRuns

/-! ## Webhook events -/

section Webhooks

variable {eventId pipelineId syncRunId connectorId : Id} {actor : AuditActor}

theorem failWebhookRun_refers {externalId message : String} {errorCount : Nat}
    (hrun : .syncRun syncRunId pipelineId .webhook ∈ known) :
    Refers call known (WebhooksService.failWebhookRun eventId pipelineId
      syncRunId externalId message errorCount actor) := by
  simp only [WebhooksService.failWebhookRun, bind_eq]
  refine refers_pass trivial fun finishedAt => ?_
  refine refers_pass trivial fun _ => ?_
  refine refers_pass trivial fun lastRunAt => ?_
  refine refers_pass (refers_pipelineUpdate rfl) fun _ => ?_
  exact refers_log _ hrun (refers_log _ hrun (safe_ret _))

theorem storeWebhookRecord_refers {externalId : String}
    {payload normalized : Record}
    (hrun : .syncRun syncRunId pipelineId .webhook ∈ known) :
    Refers call known (WebhooksService.storeWebhookRecord eventId pipelineId
      syncRunId externalId payload normalized actor) := by
  simp only [WebhooksService.storeWebhookRecord, bind_eq]
  refine informed_await_bind ⟨.webhook, hrun, rfl⟩ fun syncedRecord _ => ?_
  have hrun' := @Set.mem_union_left _ _ known
    (references.shows call (.syncedRecordCreate _) syncedRecord) hrun
  refine refers_pass trivial fun finishedAt => ?_
  refine refers_pass trivial fun _ => ?_
  refine refers_pass trivial fun lastRunAt => ?_
  refine refers_pass (refers_pipelineUpdate rfl) fun _ => ?_
  refine refers_log _ hrun' (refers_log _ hrun' ?_)
  exact refers_log (.syncedRecord syncedRecord.id) (.inr rfl) (safe_ret _)

theorem processWebhookForPipeline_refers {mappingJson : Json}
    {payload : Record} {externalId : String}
    (hrun : .syncRun syncRunId pipelineId .webhook ∈ known) :
    Refers call known (WebhooksService.processWebhookForPipeline env eventId
      pipelineId mappingJson payload externalId syncRunId actor) := by
  simp only [WebhooksService.processWebhookForPipeline]
  split
  · exact failWebhookRun_refers hrun
  · refine refers_pass trivial fun transformed => ?_
    split
    · exact failWebhookRun_refers hrun
    · exact storeWebhookRecord_refers hrun

theorem processPipeline_refers {event : WebhookEvent}
    {totals : WebhooksService.Totals} {pipeline : SyncPipeline}
    (hpipeline : .pipeline pipeline.id ∈ known) :
    Refers call known
      (WebhooksService.processPipeline env event actor totals pipeline) := by
  simp only [WebhooksService.processPipeline, bind_eq]
  refine refers_pass trivial fun startedAt => ?_
  refine informed_await_bind hpipeline fun syncRun _ => ?_
  refine refers_log (.syncRun syncRun.id pipeline.id .webhook) (.inr rfl) ?_
  exact (processWebhookForPipeline_refers (.inr rfl)).seq fun _ => safe_ret _

theorem finishEvent_refers {status : WebhookEventStatus}
    {errorMessage : Option String} :
    Refers call known
      (WebhooksService.finishEvent eventId status errorMessage) := by
  simp only [WebhooksService.finishEvent, bind_eq]
  exact refers_pass trivial fun _ => refers_await trivial

theorem findEventConnector_refers {event : WebhookEvent} :
    Refers call known (WebhooksService.findEventConnector event) := by
  simp only [WebhooksService.findEventConnector]
  split
  · exact refers_await trivial
  · exact safe_ret _

theorem processWebhookEventNow_refers :
    Refers call known
      (WebhooksService.processWebhookEventNow env eventId actor) := by
  simp only [WebhooksService.processWebhookEventNow, bind_eq]
  refine informed_await_bind trivial fun found _ => ?_
  refine refers_found fun event hevent => ?_
  subst hevent
  refine findEventConnector_refers.seq fun connector => ?_
  cases connector with
  | none =>
      simp only [WebhooksService.failWithoutConnector, bind_eq]
      refine finishEvent_refers.seq fun updated => ?_
      exact refers_log (.webhookEvent event.id) (.inr rfl) (safe_ret _)
  | some connector =>
      refine informed_await_bind trivial fun pipelines _ => ?_
      have hevent : .webhookEvent event.id ∈ known ∪
          references.shows call (.webhookEventFindUnique eventId)
            (some event) ∪
          references.shows call (.pipelineFindActive connector.id)
            pipelines := .inl (.inr rfl)
      split
      · simp only [WebhooksService.ignoreWithoutPipelines, bind_eq]
        refine finishEvent_refers.seq fun _ => ?_
        exact refers_log _ hevent (safe_ret _)
      · simp only [WebhooksService.processForPipelines, bind_eq]
        refine Informed.seq (safe_foldlM (fun totals pipeline hpipeline =>
          processPipeline_refers (.inr ⟨pipeline, hpipeline, rfl⟩)) _)
          fun totals => ?_
        refine finishEvent_refers.seq fun _ => ?_
        exact refers_log _ hevent (safe_ret _)

theorem processInline_refers :
    Refers call known (WebhooksService.processInline env eventId actor) := by
  simp only [WebhooksService.processInline, bind_eq]
  refine processWebhookEventNow_refers.seq fun summary => ?_
  exact refers_pass trivial fun _ => safe_ret _

theorem queueProcessing_refers {status : WebhookEventStatus} {metadata : Record}
    {action message : String} (hevent : .webhookEvent eventId ∈ known) :
    Refers call known (WebhooksService.queueProcessing env eventId connectorId
      status metadata action message actor) := by
  simp only [WebhooksService.queueProcessing, bind_eq]
  refine informed_await_bind ⟨rfl, hevent⟩ fun backgroundJob _ => ?_
  refine Informed.seq (enqueueJob_refers rfl trivial ?_) fun _ => ?_
  · rintro fact (rfl | rfl)
    · exact .inr rfl
    · exact .inl hevent
  · refine refers_log (.webhookEvent eventId) (.inl hevent) ?_
    exact refers_log (.backgroundJob backgroundJob.id .webhookProcessing eventId)
      (.inr rfl) (safe_ret _)

theorem handleReceived_refers {params : ReceiveEventParams}
    {event : WebhookEvent} (hevent : .webhookEvent event.id ∈ known) :
    Refers call known (WebhooksService.handleReceived env params event) := by
  simp only [WebhooksService.handleReceived, bind_eq]
  refine refers_log _ hevent ?_
  split
  · exact queueProcessing_refers hevent
  · exact processInline_refers

theorem receiveEvent_refers {params : ReceiveEventParams} :
    Refers call known (WebhooksService.receiveEvent env params) := by
  simp only [WebhooksService.receiveEvent, bind_eq]
  refine informed_ofExcept_bind fun _ _ => ?_
  cases hkey : WebhooksService.getIdempotencyKey params.headers with
  | none =>
      simp only [WebhooksService.findExistingEvent, pure_eq, ret_bind]
      refine informed_await_bind trivial fun connector hfound => ?_
      refine informed_await_bind ?_ fun event _ => ?_
      · intro connectorId hgiven
        obtain ⟨row, rfl, rfl⟩ := Option.map_eq_some_iff.mp hgiven
        exact ⟨hfound, .inr rfl⟩
      · exact handleReceived_refers (.inr rfl)
  | some idempotencyKey =>
      simp only [WebhooksService.findExistingEvent]
      refine informed_await_bind trivial fun existing _ => ?_
      cases existing with
      | some existing =>
          simp only [WebhooksService.ignoreDuplicate, bind_eq]
          exact refers_log (.webhookEvent existing.id) (.inr rfl) (safe_ret _)
      | none =>
          refine informed_await_bind trivial fun connector hfound => ?_
          refine informed_await_bind ?_ fun event _ => ?_
          · intro connectorId hgiven
            obtain ⟨row, rfl, rfl⟩ := Option.map_eq_some_iff.mp hgiven
            exact ⟨hfound, .inr rfl⟩
          · exact handleReceived_refers (.inr rfl)

theorem getAccessibleEvent_refers {α : Type} {id : Id}
    {user : AuthenticatedUser} {rest : WebhookEvent → Body α}
    (hrest : ∀ event : WebhookEvent,
      Refers call (known ∪ {.webhookEvent event.id}) (rest event)) :
    Refers call known ((WebhooksService.getAccessibleEvent id user).bind rest) := by
  simp only [WebhooksService.getAccessibleEvent, bind_eq, bind_assoc]
  refine informed_await_bind trivial fun found _ => ?_
  refine refers_found fun pair hpair => ?_
  subst hpair
  obtain ⟨event, connector⟩ := pair
  split
  · exact informed_throw _
  · exact hrest event

theorem queueOrProcessEvent_refers {user : AuthenticatedUser} {isRetry : Bool} :
    Refers call known
      (WebhooksService.queueOrProcessEvent env eventId user isRetry) := by
  simp only [WebhooksService.queueOrProcessEvent, bind_eq]
  refine refers_pass trivial fun _ => ?_
  split
  · refine informed_await_bind trivial fun found _ => ?_
    refine refers_found fun event hevent => ?_
    subst hevent
    exact queueProcessing_refers (.inr rfl)
  · exact processInline_refers

theorem retryEvent_refers {user : AuthenticatedUser} :
    Refers call known (WebhooksService.retryEvent env eventId user) := by
  simp only [WebhooksService.retryEvent, bind_eq]
  refine getAccessibleEvent_refers fun event => ?_
  split
  · exact informed_throw _
  · exact queueOrProcessEvent_refers

theorem processEvent_refers {user : AuthenticatedUser} :
    Refers call known (WebhooksService.processEvent env eventId user) := by
  simp only [WebhooksService.processEvent, bind_eq]
  refine getAccessibleEvent_refers fun event => ?_
  split
  · exact informed_throw _
  · exact queueOrProcessEvent_refers

theorem processQueuedWebhookEvent_refers
    {payload : ProcessWebhookEventJobPayload} {attempts : Nat}
    (hrefs : (JobPayload.processWebhookEvent payload).refs ⊆ known) :
    Refers call known
      (WebhooksService.processQueuedWebhookEvent env payload attempts) := by
  simp only [WebhooksService.processQueuedWebhookEvent, bind_eq]
  refine informed_await_bind trivial fun found hfound => ?_
  refine refers_found fun backgroundJob hbackgroundJob => ?_
  subst hbackgroundJob
  have hjobId : backgroundJob.id = payload.backgroundJobId := hfound
  refine informed_await_bind trivial fun found hfound => ?_
  refine refers_found fun event hrow => ?_
  subst hrow
  have heventId : event.id = payload.webhookEventId := hfound
  refine Informed.mono ?_
    ((Set.subset_union_left.trans Set.subset_union_left) : known ⊆ _)
  have hjob : .backgroundJob backgroundJob.id .webhookProcessing event.id ∈
      known := hrefs (by rw [hjobId, heventId]; exact .inl rfl)
  have hevent : .webhookEvent event.id ∈ known :=
    hrefs (by rw [heventId]; exact .inr rfl)
  refine refers_pass trivial fun startedAt => ?_
  refine refers_pass trivial fun _ => ?_
  refine refers_log _ hjob (refers_log _ hevent ?_)
  refine Informed.tryCatch ?_ fun failure => ?_
  · simp only [WebhooksService.runQueuedEvent, bind_eq]
    refine processWebhookEventNow_refers.seq fun summary => ?_
    refine refers_pass trivial fun finishedAt => ?_
    refine refers_pass trivial fun _ => ?_
    exact log_refers _ hjob
  · simp only [WebhooksService.failQueuedEvent, bind_eq]
    refine refers_pass trivial fun finishedAt => ?_
    refine refers_pass trivial fun _ => ?_
    refine refers_pass trivial fun _ => ?_
    exact refers_log _ hevent (refers_log _ hjob (informed_throw _))

end Webhooks

/-! ## Connectors and pipelines -/

section Configuration

variable {id : Id} {user : AuthenticatedUser}

theorem createConnector_refers {dto : CreateConnectorDto} :
    Refers call known (ConnectorsService.create dto user) := by
  simp only [ConnectorsService.create, bind_eq]
  refine informed_ofExcept_bind fun _ _ => ?_
  refine informed_await_bind trivial fun connector _ => ?_
  exact refers_log (.connector connector.id) (.inr rfl) (safe_ret _)

theorem connector_findOne_refers {α : Type} {rest : Connector → Body α}
    (hrest : ∀ row : Connector, row.id = id →
      Refers call (known ∪ {.connector id}) (rest row)) :
    Refers call known ((ConnectorsService.findOne id user).bind rest) := by
  simp only [ConnectorsService.findOne, bind_eq, bind_assoc, pure_eq, ret_bind]
  refine connector_getById_informed fun row hid => ?_
  exact informed_ofExcept_bind fun _ _ => hrest row hid

theorem updateConnector_refers {dto : UpdateConnectorDto} :
    Refers call known (ConnectorsService.update id dto user) := by
  simp only [ConnectorsService.update, bind_eq]
  refine connector_findOne_refers fun row hid => ?_
  subst hid
  refine informed_ofExcept_bind fun _ _ => ?_
  refine refers_pass trivial fun updated => ?_
  split
  · split
    · exact refers_log (.connector row.id) (.inr rfl) (safe_ret _)
    · exact safe_ret _
  · exact safe_ret _

theorem updateConnectorStatus_refers {status : ConnectorStatus} :
    Refers call known (ConnectorsService.updateStatus id status user) := by
  simp only [ConnectorsService.updateStatus, bind_eq]
  refine connector_findOne_refers fun row hid => ?_
  subst hid
  refine refers_pass trivial fun updated => ?_
  exact refers_log (.connector row.id) (.inr rfl) (safe_ret _)

theorem createPipeline_refers {dto : CreatePipelineDto} :
    Refers call known (PipelinesService.create env dto user) := by
  simp only [PipelinesService.create, bind_eq]
  refine informed_ofExcept_bind fun _ _ => ?_
  refine connector_getById_informed fun connector hid => ?_
  refine informed_ofExcept_bind fun _ _ => ?_
  refine informed_await_bind (.inr rfl) fun pipeline _ => ?_
  exact refers_log (.pipeline pipeline.id) (.inr rfl) (safe_ret _)

def repointed (sourceConnectorId : Option Id) : Set Fact :=
  {fact | ∃ id, sourceConnectorId = some id ∧ fact = .connector id}

theorem checkConnector_informed {sourceConnectorId : Option Id} :
    references.Informed call known (fun _ => repointed sourceConnectorId)
      (match sourceConnectorId with
        | some sourceConnectorId =>
            (ConnectorsService.getById sourceConnectorId).bind fun connector =>
              Prog.ofExcept (PipelinesService.assertOwnConnector connector user)
        | none => .ret ()) := by
  cases sourceConnectorId with
  | none =>
      refine informed_ret ?_
      rintro fact ⟨id, hid, rfl⟩
      cases hid
  | some sourceConnectorId =>
      refine connector_getById_informed fun connector _ => ?_
      refine informed_ofExcept fun _ _ => ?_
      rintro fact ⟨id, hid, rfl⟩
      obtain rfl := Option.some.inj hid
      exact .inr rfl

theorem checkUpdate_informed {dto : UpdatePipelineDto} :
    references.Informed call known (fun _ => repointed dto.sourceConnectorId)
      (PipelinesService.checkUpdate env dto user) := by
  simp only [PipelinesService.checkUpdate, bind_eq]
  split
  · exact informed_ofExcept_bind fun _ _ => checkConnector_informed
  · exact checkConnector_informed

theorem updatePipeline_refers {dto : UpdatePipelineDto} :
    Refers call known (PipelinesService.update env id dto user) := by
  simp only [PipelinesService.update, bind_eq]
  refine pipeline_findOne_refers fun row hid => ?_
  subst hid
  refine checkUpdate_informed.bind fun _ => ?_
  refine refers_pass ?_ fun updated => ?_
  · exact fun sourceConnectorId hgiven =>
      .inr ⟨sourceConnectorId, hgiven, rfl⟩
  · split
    · split
      · exact refers_log (.pipeline row.id) (.inl (.inr rfl)) (safe_ret _)
      · exact safe_ret _
    · exact safe_ret _

theorem updateStatus_refers {status : PipelineStatus} :
    Refers call known (PipelinesService.updateStatus id status user) := by
  simp only [PipelinesService.updateStatus, bind_eq]
  refine pipeline_findOne_refers fun row hid => ?_
  subst hid
  refine refers_pass (refers_pipelineUpdate rfl) fun updated => ?_
  exact refers_log (.pipeline row.id) (.inr rfl) (safe_ret _)

/-! ### Schedules -/

theorem updatePipelineSchedule_refers {dto : UpdatePipelineScheduleDto} :
    Refers call known
      (SchedulerService.updatePipelineSchedule env id dto user) := by
  simp only [SchedulerService.updatePipelineSchedule, bind_eq]
  refine pipeline_findOne_refers fun row hid => ?_
  subst hid
  refine informed_ofExcept_bind fun _ _ => ?_
  refine refers_pass trivial fun baseTime => ?_
  refine informed_ofExcept_bind fun nextRunAt _ => ?_
  refine refers_pass (refers_pipelineUpdate rfl) fun updated => ?_
  refine refers_log (.pipeline row.id) (.inr rfl) ?_
  split
  · exact refers_log (.pipeline row.id) (.inr rfl) (safe_ret _)
  · exact safe_ret _

theorem hasActiveRun_refers : Refers call known
    (SyncRunsService.hasActiveRun id) :=
  refers_pass trivial fun _ => safe_ret _

theorem triggerPipelineSchedule_refers :
    Refers call known
      (SchedulerService.triggerPipelineSchedule env id user) := by
  simp only [SchedulerService.triggerPipelineSchedule, bind_eq]
  refine pipeline_findOne_refers fun row hid => ?_
  subst hid
  refine informed_ofExcept_bind fun _ _ => ?_
  refine hasActiveRun_refers.seq fun hasActiveRun => ?_
  split
  · exact refers_log (.pipeline row.id) (.inr rfl) (informed_throw _)
  · refine createScheduledForPipeline_refers.seq fun run => ?_
    exact refers_log (.pipeline row.id) (.inr rfl) (safe_ret _)

theorem pollPipeline_refers {now : Time} {summary : PollSummary}
    {pipeline : SyncPipeline} (hpipeline : .pipeline pipeline.id ∈ known) :
    Refers call known
      (SchedulerService.pollPipeline env now summary pipeline) := by
  simp only [SchedulerService.pollPipeline, bind_eq]
  split
  · exact refers_log (.pipeline pipeline.id) hpipeline (safe_ret _)
  · refine hasActiveRun_refers.seq fun hasActiveRun => ?_
    split
    · exact refers_log (.pipeline pipeline.id) hpipeline (safe_ret _)
    · refine Informed.seq (?_ : Refers call known _) fun _ => safe_ret _
      simp only [SchedulerService.enqueueDue, bind_eq]
      refine createScheduledForPipeline_refers.seq fun run => ?_
      refine informed_ofExcept_bind fun nextRunAt _ => ?_
      refine refers_pass (refers_pipelineUpdate rfl) fun _ => ?_
      exact log_refers (.pipeline pipeline.id) hpipeline

theorem log_scheduler_refers {action : String} {metadata : Record}
    {actor : AuditActor} :
    Refers call known
      (AuditService.log action "scheduler" "default" metadata actor) :=
  refers_await (.inl ⟨rfl, rfl⟩)

theorem pollTick_refers {startedAt : Time} :
    Refers call known (SchedulerService.pollTick env startedAt) := by
  simp only [SchedulerService.pollTick, SchedulerService.enqueueDuePipelines,
    bind_eq, bind_assoc]
  refine log_scheduler_refers.seq fun _ => ?_
  refine refers_pass trivial fun now => ?_
  refine informed_await_bind trivial fun duePipelines _ => ?_
  refine Informed.seq (safe_foldlM (fun summary pipeline hpipeline =>
    pollPipeline_refers (.inr ⟨pipeline, hpipeline, rfl⟩)) _) fun summary => ?_
  exact refers_pass trivial fun finishedAt => log_scheduler_refers

theorem runPollingCycle_refers {worker : Id} :
    Refers call known (SchedulerService.runPollingCycle env worker) := by
  simp only [SchedulerService.runPollingCycle, bind_eq]
  split
  · exact safe_ret _
  · refine refers_pass trivial fun entered => ?_
    split
    · exact safe_ret _
    · refine refers_pass trivial fun startedAt => ?_
      refine Informed.seq (Informed.attempt (pollTick_refers.tryCatch
        fun failure => ?_)) fun outcome => ?_
      · exact refers_pass trivial fun finishedAt => log_scheduler_refers
      · exact refers_pass trivial fun _ => safe_ofExcept _

end Configuration

/-! ## Calls -/

theorem deliverJob_refers {jobId : Id} {token : Nat} {payload : JobPayload}
    {attempts : Nat} (hrefs : payload.refs ⊆ known) (hsuits : payload.Suits) :
    Refers call known (deliverJob env jobId token payload attempts) := by
  simp only [deliverJob, bind_eq]
  refine Informed.seq (Informed.attempt (?_ : Refers call known _))
    fun outcome => ?_
  · cases payload with
    | executeSyncRun payload => exact processQueuedSyncRun_refers hrefs hsuits
    | processWebhookEvent payload => exact processQueuedWebhookEvent_refers hrefs
  · cases outcome with
    | ok done => exact @refers_await call known (.moveToCompleted jobId token) trivial
    | error failure =>
        exact @refers_await call known (.moveToFailed jobId token) trivial

theorem body_refers (h : call.Suits) :
    Refers call call.given (call.body env) := by
  cases call with
  | receiveEvent params => exact receiveEvent_refers.seq fun _ => safe_ret _
  | retryEvent id user => exact retryEvent_refers.seq fun _ => safe_ret _
  | processEvent id user => exact processEvent_refers.seq fun _ => safe_ret _
  | createForPipeline pipelineId dto user =>
      exact createForPipeline_refers.seq fun _ => safe_ret _
  | triggerPipelineSchedule pipelineId user =>
      exact triggerPipelineSchedule_refers.seq fun _ => safe_ret _
  | runPollingCycle worker =>
      exact runPollingCycle_refers.seq fun _ => safe_ret _
  | createConnector dto user =>
      exact createConnector_refers.seq fun _ => safe_ret _
  | updateConnector id dto user =>
      exact updateConnector_refers.seq fun _ => safe_ret _
  | updateConnectorStatus id status user =>
      exact updateConnectorStatus_refers.seq fun _ => safe_ret _
  | createPipeline dto user => exact createPipeline_refers.seq fun _ => safe_ret _
  | updatePipeline id dto user =>
      exact updatePipeline_refers.seq fun _ => safe_ret _
  | updateStatus id status user =>
      exact updateStatus_refers.seq fun _ => safe_ret _
  | updatePipelineSchedule pipelineId dto user =>
      exact updatePipelineSchedule_refers.seq fun _ => safe_ret _
  | processJob jobId token payload attempts =>
      exact (deliverJob_refers subset_rfl h).seq fun _ => safe_ret _

end SyncBridge
