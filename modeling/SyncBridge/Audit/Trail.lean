import SyncBridge.Integrity.Facts

/-!
# The trail of a call

Whoever has an answer has left its entries in the audit log, and a delivery
leaves those of its job before the job is completed.  What the log says is known
to a call from the entries that it has made itself, not from those of others.
-/

namespace SyncBridge

open SyncBridge.Foundation SyncBridge.Foundation.Prog
open SyncBridge.Foundation.Knowledge

/-! ## Mentions -/

/-- What an entry says: one of some actions, on what and by whom. -/
structure Mention where
  actions : List String
  entityType : String
  entityId : String
  actorId : Option Id

structure NewAuditLog.Makes (data : NewAuditLog) (mention : Mention) :
    Prop where
  action : data.action ∈ mention.actions
  entityType : data.entityType = mention.entityType
  entityId : data.entityId = mention.entityId
  actorId : data.actorId = mention.actorId

namespace Mention

variable (actor : AuditActor)

def act (action entityType : String) (entityId : Id) : Mention :=
  ⟨[action], entityType, idString entityId, actor.map AuthenticatedUser.sub⟩

def runEnded (syncRunId : Id) : Mention :=
  ⟨["sync_run_completed", "sync_run_failed"], "sync_run", idString syncRunId,
    actor.map AuthenticatedUser.sub⟩

def eventHandled (eventId : Id) : Mention :=
  ⟨["webhook_event_processed", "webhook_event_ignored",
      "webhook_event_processing_failed"], "webhook_event", idString eventId,
    actor.map AuthenticatedUser.sub⟩

end Mention

def RunAnswer.mentions (actor : AuditActor) : RunAnswer → Set Mention
  | .queued jobId syncRunId _ =>
      {.act actor "sync_run_queued" "sync_run" syncRunId,
       .act actor "background_job_queued" "background_job" jobId}
  | .completed run =>
      {.act actor "sync_run_started" "sync_run" run.id,
       .act actor (if run.status = .success then "sync_run_completed"
         else "sync_run_failed") "sync_run" run.id,
       .act actor "sync_run_created" "sync_run" run.id}

def WebhookAnswer.mentions (actor : AuditActor) (queued : String)
    (answer : WebhookAnswer) : Set Mention :=
  match answer.jobId with
  | some jobId =>
      {.act actor queued "webhook_event" answer.eventId,
       .act actor "background_job_queued" "background_job" jobId}
  | none => {.eventHandled actor answer.eventId}

def ReceiveEventParams.mentions (params : ReceiveEventParams)
    (answer : WebhookAnswer) : Set Mention :=
  if answer.duplicate then
    {.act params.actor "webhook_event_duplicate_ignored" "webhook_event"
      answer.eventId}
  else insert
    (.act params.actor "webhook_event_received" "webhook_event"
      answer.eventId)
    (answer.mentions params.actor "webhook_event_processing_queued")

/-- What an answered call has left in the log.  The polling cycles answer
nothing, and an update leaves an entry only if it changes the status. -/
def Call.mentions : Call → Answer → Set Mention
  | .receiveEvent params, .webhook answer => params.mentions answer
  | .retryEvent _ user, .webhook answer =>
      answer.mentions (some user) "webhook_event_retry_queued"
  | .processEvent _ user, .webhook answer =>
      answer.mentions (some user) "webhook_event_processing_queued"
  | .createForPipeline pipelineId _ user, .run answer => insert
      (.act (some user) "manual_sync_triggered" "pipeline" pipelineId)
      (answer.mentions (some user))
  | .triggerPipelineSchedule pipelineId user, .run answer => insert
      (.act (some user) "scheduled_sync_enqueued" "pipeline" pipelineId)
      (answer.mentions (some user))
  | .createConnector _ user, .connector row =>
      {.act (some user) "connector_created" "connector" row.id}
  | .updateConnectorStatus id _ user, .connector _ =>
      {.act (some user) "connector_status_updated" "connector" id}
  | .createPipeline _ user, .pipeline row =>
      {.act (some user) "pipeline_created" "pipeline" row.id}
  | .updateStatus id _ user, .pipeline _ =>
      {.act (some user) "pipeline_status_updated" "pipeline" id}
  | .updatePipelineSchedule pipelineId _ user, .schedule _ =>
      {.act (some user) "pipeline_schedule_updated" "pipeline" pipelineId}
  | _, _ => ∅

/-- What the deliveries of a job have left in the log when it is completed. -/
def JobPayload.mentions : JobPayload → Set Mention
  | .executeSyncRun payload =>
      let actor := some ⟨payload.requestedByUserId, payload.requestedByRole⟩
      {.act actor "background_job_started" "background_job"
         payload.backgroundJobId,
       .act actor "sync_run_started" "sync_run" payload.syncRunId,
       .act actor "background_job_completed" "background_job"
         payload.backgroundJobId,
       .runEnded actor payload.syncRunId}
  | .processWebhookEvent payload =>
      let actor := WebhooksService.actorFromPayload payload
      {.act actor "background_job_started" "background_job"
         payload.backgroundJobId,
       .act actor "webhook_event_processing_started" "webhook_event"
         payload.webhookEventId,
       .eventHandled actor payload.webhookEventId,
       .act actor "background_job_completed" "background_job"
         payload.backgroundJobId}

/-! ## What a call knows of the log -/

/-- A job is completed by a delivery that has left what there is to be left. -/
def Op.Audited (call : Call) : Op → Set Mention → Prop
  | .moveToCompleted _ _, known => ∀ jobId token payload attempts,
      call = .processJob jobId token payload attempts →
      payload.mentions ⊆ known
  | _, _ => True

def Op.repeats : (op : Op) → op.Res → Prop
  | .syncRunUpdate id data, row => row.id = id ∧ row.status = data.status
  | op, value => op.answers value

def trail : Knowledge Op.Res Call Mention where
  given _ := ∅
  shows _
    | .auditLogCreate data, _ => {mention | data.Makes mention}
    | _, _ => ∅
  needs := Op.Audited
  facts := Op.repeats
  needs_mono {call op known seen} hsubset h := by
    cases op with
    | moveToCompleted jobId token =>
        exact fun jobId token payload attempts hcall =>
          (h jobId token payload attempts hcall).trans hsubset
    | _ => trivial

section Rules

variable {call : Call} {known : Set Mention} {α : Type} {learned : α → Set Mention}

theorem leaves_await {op : Op} (h : op.Audited call known) :
    trail.Safe call known (await op) := (informed_await (K := trail) h).safe

theorem quiet_enters (call : Call) (known : Set Mention) :
    Quiet fun {_} (body : Body _) => trail.Safe call known body where
  toCompositional := compositional_safe trail call known
  op op hop := by
    refine leaves_await ?_
    cases op <;> trivial

theorem leaves_pass {op : Op} {rest : op.Res → Body α}
    (h : op.Audited call known)
    (hrest : ∀ value, op.repeats value →
      trail.Informed call known learned (rest value)) :
    trail.Informed call known learned ((Prog.await op).bind rest) :=
  informed_await_bind (K := trail) h fun value hvalue =>
    (hrest value hvalue).mono Set.subset_union_left

theorem leaves_found {β : Type} {message : String} {found : Option β}
    {rest : β → Body α}
    (hrest : ∀ row, found = some row →
      trail.Informed call known learned (rest row)) :
    trail.Informed call known learned ((orNotFound message found).bind rest) := by
  cases found with
  | none => exact informed_throw _
  | some row => exact hrest row rfl

theorem leaves_log (mention : Mention) {rest : Unit → Body α}
    {action entityType entityId : String} {metadata : Record}
    {actor : AuditActor}
    (hmakes : NewAuditLog.Makes ⟨action, entityType, entityId, .obj metadata,
      actor.map AuthenticatedUser.sub⟩ mention)
    (hrest : trail.Informed call (insert mention known) learned (rest ())) :
    trail.Informed call known learned
      ((AuditService.log action entityType entityId metadata actor).bind rest) := by
  refine informed_await_bind (K := trail) trivial fun _ _ => hrest.mono ?_
  exact Set.insert_subset (.inr hmakes) Set.subset_union_left

theorem leaves_last (mention : Mention) {action entityType entityId : String}
    {metadata : Record} {actor : AuditActor}
    (hmakes : NewAuditLog.Makes ⟨action, entityType, entityId, .obj metadata,
      actor.map AuthenticatedUser.sub⟩ mention) :
    trail.Informed call known (fun _ => {mention})
      (AuditService.log action entityType entityId metadata actor) := by
  have hlog : trail.Informed call known
      (trail.shows call (.auditLogCreate ⟨action, entityType, entityId,
        .obj metadata, actor.map AuthenticatedUser.sub⟩))
      (AuditService.log action entityType entityId metadata actor) :=
    informed_await trivial
  exact hlog.weaken subset_rfl fun _ => Set.singleton_subset_iff.mpr hmakes

theorem makes_act {action entityType : String} {entityId : Id}
    {metadata : Record} {actor : AuditActor} :
    NewAuditLog.Makes ⟨action, entityType, idString entityId, .obj metadata,
      actor.map AuthenticatedUser.sub⟩
        (.act actor action entityType entityId) :=
  ⟨List.mem_singleton_self _, rfl, rfl, rfl⟩

end Rules

/-! ## Sync runs -/

section SyncRuns

variable {env : Env} {call : Call} {known : Set Mention} {actor : AuditActor}
  {pipeline : SyncPipeline} {options : CreateRunOptions}

theorem findOne_enters {α : Type} {learned : α → Set Mention} {id : Id}
    {user : AuthenticatedUser} {rest : SyncPipeline → Body α}
    (hrest : ∀ row : SyncPipeline, row.id = id →
      trail.Informed call known learned (rest row)) :
    trail.Informed call known learned
      ((PipelinesService.findOne id user).bind rest) := by
  simp only [PipelinesService.findOne, bind_eq, bind_assoc, pure_eq, ret_bind]
  refine informed_getById (K := trail) (fun op value hvalue => ?_) trivial
    fun row hid => ?_
  · cases op <;> trivial
  · exact informed_ofExcept_bind fun _ _ =>
      (hrest row hid).mono Set.subset_union_left

theorem processRunRecords_enters {syncRunId : Id}
    {mockRecords : List SyncRunMockRecordPayload} {ignoreCursor : Bool} :
    trail.Safe call known (SyncRunsService.processRunRecords env syncRunId
      pipeline mockRecords ignoreCursor actor) :=
  processRunRecords_rule (quiet_enters call known)
    (fun _ _ _ => leaves_await trivial) fun _ _ => leaves_await trivial

theorem executeSyncRunNow_enters :
    trail.Informed call known (RunAnswer.mentions options.actor)
      (SyncRunsService.executeSyncRunNow env pipeline options) := by
  simp only [SyncRunsService.executeSyncRunNow, bind_eq]
  refine leaves_pass trivial fun startedAt _ => ?_
  refine leaves_pass trivial fun initialRun _ => ?_
  refine leaves_log _ makes_act ?_
  refine processRunRecords_enters.seq fun summary => ?_
  refine leaves_pass trivial fun finishedAt _ => ?_
  refine leaves_pass trivial fun completedRun hrun => ?_
  refine leaves_pass trivial fun _ _ => ?_
  refine leaves_log _ makes_act (leaves_log _ makes_act (informed_ret ?_))
  have hid : completedRun.id = initialRun.id := hrun.1
  have hstatus : completedRun.status =
      SyncRunsService.RunProcessingSummary.finalRunStatus summary := hrun.2
  simp [RunAnswer.mentions, SyncRunsService.finalRunAction, hid, hstatus,
    Set.insert_subset_iff]

theorem queueSyncRun_enters :
    trail.Informed call known (RunAnswer.mentions options.actor)
      (SyncRunsService.queueSyncRun env pipeline options) := by
  simp only [SyncRunsService.queueSyncRun, bind_eq]
  refine leaves_pass trivial fun syncRun _ => ?_
  refine leaves_pass trivial fun backgroundJob _ => ?_
  refine Informed.seq (enqueueJob_rule (quiet_enters call known)
    (leaves_await trivial)) fun _ => ?_
  refine leaves_log _ makes_act (leaves_log _ makes_act (informed_ret ?_))
  simp [RunAnswer.mentions, Set.insert_subset_iff]

theorem createRunFromPipeline_enters :
    trail.Informed call known (RunAnswer.mentions options.actor)
      (SyncRunsService.createRunFromPipeline env pipeline options) := by
  simp only [SyncRunsService.createRunFromPipeline]
  split
  · exact queueSyncRun_enters
  · exact executeSyncRunNow_enters

theorem createForPipeline_enters {id : Id} {dto : CreateSyncRunDto}
    {user : AuthenticatedUser} :
    trail.Informed call known
      (fun answer => insert
        (.act (some user) "manual_sync_triggered" "pipeline" id)
        (answer.mentions (some user)))
      (SyncRunsService.createForPipeline env id dto user) := by
  simp only [SyncRunsService.createForPipeline, bind_eq]
  refine findOne_enters fun row hid => ?_
  subst hid
  refine leaves_log _ makes_act ?_
  exact createRunFromPipeline_enters.keep.weaken subset_rfl fun _ =>
    Set.insert_subset (.inl (.inl rfl)) Set.subset_union_right

theorem createScheduledForPipeline_enters {id : Id} :
    trail.Informed call known (RunAnswer.mentions actor)
      (SyncRunsService.createScheduledForPipeline env id actor) := by
  simp only [SyncRunsService.createScheduledForPipeline, bind_eq]
  exact Informed.seq (getById_rule (quiet_enters call known)) fun row =>
    @createRunFromPipeline_enters env call known row
      ⟨[], false, .scheduled, actor⟩

theorem triggerPipelineSchedule_enters {id : Id} {user : AuthenticatedUser} :
    trail.Informed call known
      (fun answer => insert
        (.act (some user) "scheduled_sync_enqueued" "pipeline" id)
        (answer.mentions (some user)))
      (SchedulerService.triggerPipelineSchedule env id user) := by
  simp only [SchedulerService.triggerPipelineSchedule, bind_eq]
  refine findOne_enters fun row hid => ?_
  subst hid
  have quiet := quiet_enters call known
  refine informed_ofExcept_bind fun _ _ => ?_
  refine Informed.seq (hasActiveRun_rule quiet (leaves_await trivial))
    fun hasActiveRun => ?_
  split
  · exact Informed.seq (log_rule quiet) fun _ => informed_throw _
  · refine createScheduledForPipeline_enters.bind fun run => ?_
    refine leaves_log _ makes_act (informed_ret ?_)
    exact Set.insert_subset_insert Set.subset_union_right

theorem runQueuedRecords_enters {payload : ExecuteSyncRunJobPayload}
    {attempts : Nat} {backgroundJobId syncRunId : Id} {startedAt : Time} :
    trail.Informed call known
      (fun _ => {.act actor "background_job_completed" "background_job"
          backgroundJobId, .runEnded actor syncRunId})
      (SyncRunsService.runQueuedRecords env payload attempts backgroundJobId
        syncRunId pipeline startedAt actor) := by
  simp only [SyncRunsService.runQueuedRecords, bind_eq]
  refine processRunRecords_enters.seq fun summary => ?_
  refine leaves_pass trivial fun finishedAt _ => ?_
  refine leaves_pass trivial fun _ _ => ?_
  refine leaves_pass trivial fun _ _ => ?_
  refine leaves_pass trivial fun _ _ => ?_
  refine leaves_log _ makes_act ?_
  refine (leaves_last (.runEnded actor syncRunId) ⟨?_, rfl, rfl, rfl⟩).keep.weaken
    subset_rfl fun _ => Set.insert_subset (.inl (.inl rfl)) Set.subset_union_right
  simp only [SyncRunsService.finalRunAction]
  split
  · exact List.mem_cons_self
  · exact List.mem_cons_of_mem _ List.mem_cons_self

theorem processQueuedSyncRun_enters {payload : ExecuteSyncRunJobPayload}
    {attempts : Nat} :
    trail.Informed call known
      (fun _ => (JobPayload.executeSyncRun payload).mentions)
      (SyncRunsService.processQueuedSyncRun env payload attempts) := by
  simp only [SyncRunsService.processQueuedSyncRun, bind_eq]
  refine leaves_pass trivial fun found hfound => leaves_found fun backgroundJob
    hjob => ?_
  subst hjob
  have hjobId : backgroundJob.id = payload.backgroundJobId := hfound
  refine leaves_pass trivial fun found hfound => leaves_found fun syncRun
    hrun => ?_
  subst hrun
  have hrunId : syncRun.id = payload.syncRunId := hfound
  refine Informed.seq (getById_rule (quiet_enters call known)) fun pipeline => ?_
  refine leaves_pass trivial fun startedAt _ => ?_
  refine leaves_pass trivial fun _ _ => ?_
  refine leaves_pass trivial fun _ _ => ?_
  refine leaves_log _ makes_act (leaves_log _ makes_act ?_)
  refine Informed.tryCatch (runQueuedRecords_enters.keep.weaken subset_rfl
    fun _ => ?_) fun failure => ?_
  · rw [hjobId, hrunId]
    simp [JobPayload.mentions, Set.insert_subset_iff]
  · simp only [SyncRunsService.failQueuedRun, bind_eq]
    refine leaves_pass trivial fun finishedAt _ => ?_
    refine leaves_pass trivial fun _ _ => ?_
    refine leaves_pass trivial fun _ _ => ?_
    refine leaves_pass trivial fun _ _ => ?_
    exact leaves_log _ makes_act (leaves_log _ makes_act (informed_throw _))

end SyncRuns

/-! ## Webhook events -/

section Webhooks

variable {env : Env} {call : Call} {known : Set Mention} {actor : AuditActor}
  {eventId connectorId : Id} {user : AuthenticatedUser}

theorem processPipeline_enters {event : WebhookEvent}
    {totals : WebhooksService.Totals} {pipeline : SyncPipeline} :
    trail.Safe call known
      (WebhooksService.processPipeline env event actor totals pipeline) :=
  processPipeline_rule (quiet_enters call known)
    (fun _ _ => leaves_await trivial) (fun _ _ => leaves_await trivial)
    (fun _ _ => leaves_await trivial) fun _ _ => leaves_await trivial

theorem finishEvent_enters {α : Type} {status : WebhookEventStatus}
    {errorMessage : Option String} {action : String}
    {metadata : WebhookEvent → Record} {answer : WebhookEvent → α}
    (haction : action ∈ (Mention.eventHandled actor eventId).actions) :
    trail.Informed call known (fun _ => {.eventHandled actor eventId})
      ((WebhooksService.finishEvent eventId status errorMessage).bind
        fun updated => (AuditService.log action "webhook_event"
          (idString eventId) (metadata updated) actor).bind
            fun _ => .ret (answer updated)) := by
  simp only [WebhooksService.finishEvent, bind_eq, bind_assoc]
  refine leaves_pass trivial fun processedAt _ => ?_
  refine leaves_pass trivial fun updated _ => ?_
  refine leaves_log (.eventHandled actor eventId) ⟨haction, rfl, rfl, rfl⟩ ?_
  exact informed_ret (Set.singleton_subset_iff.mpr (.inl rfl))

theorem processWebhookEventNow_enters :
    trail.Informed call known (fun _ => {.eventHandled actor eventId})
      (WebhooksService.processWebhookEventNow env eventId actor) := by
  have quiet := quiet_enters call known
  simp only [WebhooksService.processWebhookEventNow, bind_eq]
  refine leaves_pass trivial fun found hfound => leaves_found fun event
    hevent => ?_
  subst hevent
  have hid : event.id = eventId := hfound
  subst hid
  refine Informed.seq (?_ : trail.Safe call known _) fun connector => ?_
  · simp only [WebhooksService.findEventConnector]
    split
    · exact leaves_await trivial
    · exact safe_ret _
  · cases connector with
    | none => exact finishEvent_enters (by simp [Mention.eventHandled])
    | some connector =>
        refine leaves_pass trivial fun pipelines _ => ?_
        split
        · exact finishEvent_enters (by simp [Mention.eventHandled])
        · simp only [WebhooksService.processForPipelines, bind_eq]
          refine Informed.seq (safe_foldlM (fun _ _ _ =>
            processPipeline_enters) _) fun totals => ?_
          exact finishEvent_enters (by simp [Mention.eventHandled])

theorem processInline_enters {learned : WebhookAnswer → Set Mention}
    (hlearned : ∀ status message, learned ⟨eventId, status, false, none, message⟩ ⊆
      insert (.eventHandled actor eventId) known) :
    trail.Informed call known learned
      (WebhooksService.processInline env eventId actor) := by
  simp only [WebhooksService.processInline, bind_eq]
  refine processWebhookEventNow_enters.bind fun summary => ?_
  refine leaves_pass trivial fun updated _ => informed_ret ?_
  rw [Set.union_comm]
  exact hlearned _ _

theorem queueProcessing_enters {status : WebhookEventStatus} {metadata : Record}
    {action message : String} {learned : WebhookAnswer → Set Mention}
    (hlearned : ∀ jobId,
      learned ⟨eventId, status, false, some jobId, message⟩ ⊆
        insert (.act actor "background_job_queued" "background_job" jobId)
          (insert (.act actor action "webhook_event" eventId) known)) :
    trail.Informed call known learned
      (WebhooksService.queueProcessing env eventId connectorId status metadata
        action message actor) := by
  simp only [WebhooksService.queueProcessing, bind_eq]
  refine leaves_pass trivial fun backgroundJob _ => ?_
  refine Informed.seq (enqueueJob_rule (quiet_enters call known)
    (leaves_await trivial)) fun _ => ?_
  exact leaves_log _ makes_act (leaves_log _ makes_act
    (informed_ret (hlearned _)))

theorem handleReceived_enters {params : ReceiveEventParams}
    {event : WebhookEvent} :
    trail.Informed call known params.mentions
      (WebhooksService.handleReceived env params event) := by
  simp only [WebhooksService.handleReceived, bind_eq]
  refine leaves_log _ makes_act ?_
  split
  · refine queueProcessing_enters fun jobId => ?_
    simp [ReceiveEventParams.mentions, WebhookAnswer.mentions,
      Set.insert_subset_iff]
  · refine processInline_enters fun status message => ?_
    simp [ReceiveEventParams.mentions, WebhookAnswer.mentions,
      Set.insert_subset_iff]

theorem receiveEvent_enters {params : ReceiveEventParams} :
    trail.Informed call known params.mentions
      (WebhooksService.receiveEvent env params) := by
  have hreceived : trail.Informed call known params.mentions
      ((await (.connectorFindUnique params.connectorId)).bind fun connector =>
        (await (.webhookEventCreate
          (WebhooksService.receivedEvent params connector))).bind fun event =>
            WebhooksService.handleReceived env params event) :=
    leaves_pass trivial fun _ _ => leaves_pass trivial fun _ _ =>
      handleReceived_enters
  simp only [WebhooksService.receiveEvent, bind_eq]
  refine informed_ofExcept_bind fun _ _ => ?_
  cases hkey : WebhooksService.getIdempotencyKey params.headers with
  | none =>
      simp only [WebhooksService.findExistingEvent, pure_eq, ret_bind]
      exact hreceived
  | some idempotencyKey =>
      simp only [WebhooksService.findExistingEvent]
      refine leaves_pass trivial fun existing _ => ?_
      cases existing with
      | none => exact hreceived
      | some existing =>
          simp only [WebhooksService.ignoreDuplicate, bind_eq]
          refine leaves_log _ makes_act (informed_ret ?_)
          simp [ReceiveEventParams.mentions]

theorem queueOrProcessEvent_enters {isRetry : Bool} {queued : String}
    (hqueued : queued = if isRetry then "webhook_event_retry_queued"
      else "webhook_event_processing_queued") :
    trail.Informed call known (WebhookAnswer.mentions (some user) queued)
      (WebhooksService.queueOrProcessEvent env eventId user isRetry) := by
  subst hqueued
  simp only [WebhooksService.queueOrProcessEvent, bind_eq]
  refine leaves_pass trivial fun _ _ => ?_
  by_cases hmode : JobsService.isAsyncMode env = true
  · rw [if_pos hmode]
    refine leaves_pass trivial fun found _ => leaves_found fun event _ => ?_
    refine queueProcessing_enters fun jobId => ?_
    simp [WebhookAnswer.mentions, Set.insert_subset_iff]
  · rw [if_neg hmode]
    refine processInline_enters fun status message => ?_
    simp [WebhookAnswer.mentions]

theorem retryEvent_enters :
    trail.Informed call known
      (WebhookAnswer.mentions (some user) "webhook_event_retry_queued")
      (WebhooksService.retryEvent env eventId user) := by
  simp only [WebhooksService.retryEvent, bind_eq]
  refine Informed.seq (getAccessibleEvent_rule (quiet_enters call known))
    fun event => ?_
  split
  · exact informed_throw _
  · exact queueOrProcessEvent_enters rfl

theorem processEvent_enters :
    trail.Informed call known
      (WebhookAnswer.mentions (some user) "webhook_event_processing_queued")
      (WebhooksService.processEvent env eventId user) := by
  simp only [WebhooksService.processEvent, bind_eq]
  refine Informed.seq (getAccessibleEvent_rule (quiet_enters call known))
    fun event => ?_
  split
  · exact informed_throw _
  · exact queueOrProcessEvent_enters rfl

theorem processQueuedWebhookEvent_enters
    {payload : ProcessWebhookEventJobPayload} {attempts : Nat} :
    trail.Informed call known
      (fun _ => (JobPayload.processWebhookEvent payload).mentions)
      (WebhooksService.processQueuedWebhookEvent env payload attempts) := by
  simp only [WebhooksService.processQueuedWebhookEvent, bind_eq]
  refine leaves_pass trivial fun found hfound => leaves_found fun backgroundJob
    hjob => ?_
  subst hjob
  have hjobId : backgroundJob.id = payload.backgroundJobId := hfound
  refine leaves_pass trivial fun found hfound => leaves_found fun event
    hevent => ?_
  subst hevent
  have heventId : event.id = payload.webhookEventId := hfound
  refine leaves_pass trivial fun startedAt _ => ?_
  refine leaves_pass trivial fun _ _ => ?_
  refine leaves_log _ makes_act (leaves_log _ makes_act ?_)
  refine Informed.tryCatch ?_ fun failure => ?_
  · simp only [WebhooksService.runQueuedEvent, bind_eq]
    refine processWebhookEventNow_enters.bind fun summary => ?_
    refine leaves_pass trivial fun finishedAt _ => ?_
    refine leaves_pass trivial fun _ _ => ?_
    refine (leaves_last _ makes_act).keep.weaken subset_rfl fun _ => ?_
    rw [hjobId, heventId]
    simp [JobPayload.mentions, Set.insert_subset_iff]
  · simp only [WebhooksService.failQueuedEvent, bind_eq]
    refine leaves_pass trivial fun finishedAt _ => ?_
    refine leaves_pass trivial fun _ _ => ?_
    refine leaves_pass trivial fun _ _ => ?_
    refine Informed.seq (log_rule (quiet_enters call _)) fun _ => ?_
    exact leaves_log _ makes_act (informed_throw _)

end Webhooks

/-! ## Calls -/

section Calls

variable {env : Env} {call : Call} {known : Set Mention}

theorem connector_findOne_enters {α : Type} {learned : α → Set Mention} {id : Id}
    {user : AuthenticatedUser} {rest : Connector → Body α}
    (hrest : ∀ row : Connector, row.id = id →
      trail.Informed call known learned (rest row)) :
    trail.Informed call known learned
      ((ConnectorsService.findOne id user).bind rest) := by
  simp only [ConnectorsService.findOne, bind_eq, bind_assoc, pure_eq, ret_bind]
  refine informed_connector_getById (K := trail) (fun op value hvalue => ?_)
    trivial fun row hid => ?_
  · cases op <;> trivial
  · exact informed_ofExcept_bind fun _ _ =>
      (hrest row hid).mono Set.subset_union_left

theorem leaves_answer {α : Type} {body : Body α} {answer : α → Answer}
    (learned : α → Set Mention) (h : trail.Informed call known learned body)
    (hanswer : ∀ value, call.mentions (answer value) = learned value) :
    trail.Informed call known call.mentions
      (body.bind fun value => .ret (answer value)) := by
  refine h.bind fun value => informed_ret ?_
  rw [hanswer]
  exact Set.subset_union_right

theorem leaves_nothing {α : Type} {body : Body α} {answer : α → Answer}
    (h : trail.Safe call known body)
    (hanswer : ∀ value, call.mentions (answer value) = ∅) :
    trail.Informed call known call.mentions
      (body.bind fun value => .ret (answer value)) :=
  leaves_answer _ h hanswer

theorem body_enters (call : Call) :
    trail.Informed call ∅ call.mentions (call.body env) := by
  have quiet := quiet_enters call ∅
  cases call with
  | receiveEvent params => exact leaves_answer _ receiveEvent_enters fun _ => rfl
  | retryEvent id user => exact leaves_answer _ retryEvent_enters fun _ => rfl
  | processEvent id user => exact leaves_answer _ processEvent_enters fun _ => rfl
  | createForPipeline pipelineId dto user =>
      exact leaves_answer _ createForPipeline_enters fun _ => rfl
  | triggerPipelineSchedule pipelineId user =>
      exact leaves_answer _ triggerPipelineSchedule_enters fun _ => rfl
  | runPollingCycle worker =>
      refine leaves_nothing (runPollingCycle_rule quiet
        (fun _ _ => createScheduledForPipeline_enters.safe)
        (fun _ => leaves_await trivial) (fun _ _ => leaves_await trivial)
        (fun _ => leaves_await trivial) (leaves_await trivial)) fun _ => rfl
  | createConnector dto user =>
      refine leaves_answer (fun row =>
        {.act (some user) "connector_created" "connector" row.id}) ?_ fun _ => rfl
      simp only [ConnectorsService.create, bind_eq]
      refine informed_ofExcept_bind fun _ _ => ?_
      refine leaves_pass trivial fun connector _ => ?_
      exact leaves_log _ makes_act (informed_ret (by simp))
  | updateConnector id dto user =>
      exact leaves_nothing (updateConnector_rule quiet
        fun _ => leaves_await trivial) fun _ => rfl
  | updateConnectorStatus id status user =>
      refine leaves_answer (fun _ =>
        {.act (some user) "connector_status_updated" "connector" id}) ?_
        fun _ => rfl
      simp only [ConnectorsService.updateStatus, bind_eq]
      refine connector_findOne_enters fun row hid => ?_
      subst hid
      refine leaves_pass trivial fun updated _ => ?_
      exact leaves_log _ makes_act (informed_ret (by simp))
  | createPipeline dto user =>
      refine leaves_answer (fun row =>
        {.act (some user) "pipeline_created" "pipeline" row.id}) ?_ fun _ => rfl
      simp only [PipelinesService.create, bind_eq]
      refine informed_ofExcept_bind fun _ _ => ?_
      refine Informed.seq (connector_getById_rule quiet) fun connector => ?_
      refine informed_ofExcept_bind fun _ _ => ?_
      refine leaves_pass trivial fun pipeline _ => ?_
      exact leaves_log _ makes_act (informed_ret (by simp))
  | updatePipeline id dto user =>
      exact leaves_nothing (updatePipeline_rule quiet
        fun _ => leaves_await trivial) fun _ => rfl
  | updateStatus id status user =>
      refine leaves_answer (fun _ =>
        {.act (some user) "pipeline_status_updated" "pipeline" id}) ?_
        fun _ => rfl
      simp only [PipelinesService.updateStatus, bind_eq]
      refine findOne_enters fun row hid => ?_
      subst hid
      refine leaves_pass trivial fun updated _ => ?_
      exact leaves_log _ makes_act (informed_ret (by simp))
  | updatePipelineSchedule pipelineId dto user =>
      refine leaves_answer (fun _ => {.act (some user)
        "pipeline_schedule_updated" "pipeline" pipelineId}) ?_ fun _ => rfl
      simp only [SchedulerService.updatePipelineSchedule, bind_eq]
      refine findOne_enters fun row hid => ?_
      subst hid
      refine informed_ofExcept_bind fun _ _ => ?_
      refine leaves_pass trivial fun baseTime _ => ?_
      refine informed_ofExcept_bind fun nextRunAt _ => ?_
      refine leaves_pass trivial fun updated _ => ?_
      refine leaves_log _ makes_act ?_
      split
      · exact Informed.seq (log_rule (quiet_enters _ _)) fun _ =>
          informed_ret (by simp)
      · exact informed_ret (by simp)
  | processJob jobId token payload attempts =>
      refine leaves_nothing ?_ fun _ => rfl
      have hprocess : trail.Informed (.processJob jobId token payload attempts)
          ∅ (fun _ => payload.mentions) (processJob env attempts payload) := by
        cases payload with
        | executeSyncRun payload => exact processQueuedSyncRun_enters
        | processWebhookEvent payload => exact processQueuedWebhookEvent_enters
      simp only [deliverJob, bind_eq]
      refine hprocess.attempt.bind fun outcome => ?_
      cases outcome with
      | error failure => exact @leaves_await _ _ (.moveToFailed jobId token) trivial
      | ok done =>
          refine @leaves_await _ _ (.moveToCompleted jobId token) ?_
          rintro _ _ _ _ ⟨⟩
          exact Set.subset_union_right

end Calls

end SyncBridge
