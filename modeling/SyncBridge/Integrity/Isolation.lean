import SyncBridge.Integrity.References

/-!
# Whose rows are changed

A call changes the runs, events and jobs that it has created itself and those
that it is called for, and it hands on no others to the queue.  While the calls
in charge of such a row do nothing, the others leave it as it is, with its
records, whatever they do to their own rows.
-/

namespace SyncBridge

open SyncBridge.Foundation SyncBridge.Foundation.Prog
open SyncBridge.Foundation.Knowledge

/-- A row that calls are in charge of.  The records of a run belong to it. -/
inductive Charge where
  | syncRun (id : Id)
  | webhookEvent (id : Id)
  | backgroundJob (id : Id)
  deriving DecidableEq

def Charge.id : Charge → Id
  | .syncRun id => id
  | .webhookEvent id => id
  | .backgroundJob id => id

def JobPayload.charges : JobPayload → List Charge
  | .executeSyncRun payload =>
      [.syncRun payload.syncRunId, .backgroundJob payload.backgroundJobId]
  | .processWebhookEvent payload =>
      [.webhookEvent payload.webhookEventId,
       .backgroundJob payload.backgroundJobId]

def Call.charges : Call → List Charge
  | .retryEvent id _ => [.webhookEvent id]
  | .processEvent id _ => [.webhookEvent id]
  | .processJob _ _ payload _ => payload.charges
  | _ => []

def Op.creates : (op : Op) → op.Res → List Charge
  | .syncRunCreate _, row => [.syncRun row.id]
  | .webhookEventCreate _, row => [.webhookEvent row.id]
  | .backgroundJobCreate _, row => [.backgroundJob row.id]
  | _, _ => []

/-- The rows that an operation changes or hands on to the queue. -/
def Op.worksOn : Op → List Charge
  | .syncRunUpdate id _ => [.syncRun id]
  | .syncedRecordCreate data => [.syncRun data.syncRunId]
  | .webhookEventUpdate id _ => [.webhookEvent id]
  | .backgroundJobUpdate id _ => [.backgroundJob id]
  | .queueAdd _ payload _ => payload.charges
  | _ => []

def charging : Knowledge Op.Res Call Charge where
  given call := {charge | charge ∈ call.charges}
  shows _ op value := {charge | charge ∈ op.creates value}
  needs _ op known := ∀ charge ∈ op.worksOn, charge ∈ known
  facts := Op.answers
  needs_mono hsubset h := fun charge hcharge => hsubset (h charge hcharge)

/-! ## What is done with a row -/

section WithinCharges

variable {env : Env} {charges : Set Charge} {actor : AuditActor}
  {syncRunId pipelineId eventId : Id}

abbrev WithinCharges (charges : Set Charge) {α : Type} (body : Body α) : Prop :=
  body.Uses fun op => ∀ charge ∈ op.worksOn, charge ∈ charges

theorem worksOn_of_quiet {op : Op} (h : op.isQuiet = true) :
    op.worksOn = [] := by
  cases op <;> first | rfl | cases h

theorem quiet_worksWithin (charges : Set Charge) :
    AllowsQuiet fun op => ∀ charge ∈ op.worksOn, charge ∈ charges :=
  allowsQuiet fun op hop => by simp [worksOn_of_quiet hop]

theorem worksWithin_await {α : Type} {op : Op} {rest : op.Res → Body α}
    (hop : ∀ charge ∈ op.worksOn, charge ∈ charges)
    (hrest : ∀ value, WithinCharges charges (rest value)) :
    WithinCharges charges ((Prog.await op).bind rest) := Uses.await hop hrest

theorem worksOn_one {op : Op} {charge : Charge} (h : op.worksOn = [charge])
    (hcharge : charge ∈ charges) : ∀ other ∈ op.worksOn, other ∈ charges := by
  intro other hother
  rw [h] at hother
  exact List.mem_singleton.mp hother ▸ hcharge

theorem worksOn_none {op : Op} (h : op.worksOn = []) :
    ∀ other ∈ op.worksOn, other ∈ charges := by
  simp [h]

theorem processRecord_worksWithin {fields : List NormalizedMappingField}
    {state : SyncRunsService.LoopState} {record : SyncRunMockRecordPayload}
    (hrun : .syncRun syncRunId ∈ charges) :
    WithinCharges charges (SyncRunsService.processRecord env syncRunId pipelineId
      fields actor state record) := by
  have quiet := quiet_worksWithin charges
  refine quiet.await rfl fun transformed => ?_
  split
  · exact quiet.bind (log_rule quiet) fun _ => quiet.ret _
  · refine Uses.bind (Uses.attempt ((uses_await _).mpr
      (worksOn_one rfl hrun))) ?_
    rintro (error | row)
    · exact quiet.ret _
    · refine quiet.bind (quiet.attempt ?_) ?_
      · exact quiet.bind (log_rule quiet) fun _ => log_rule quiet
      · rintro (error | done) <;> exact quiet.ret _

theorem processRunRecords_worksWithin {pipeline : SyncPipeline}
    {mockRecords : List SyncRunMockRecordPayload} {ignoreCursor : Bool}
    (hrun : .syncRun syncRunId ∈ charges) :
    WithinCharges charges (SyncRunsService.processRunRecords env syncRunId pipeline
      mockRecords ignoreCursor actor) := by
  have quiet := quiet_worksWithin charges
  refine quiet.bind (quiet.ofExcept _) fun compiledMapping => ?_
  refine quiet.bind (quiet.foldlM (fun _ _ _ =>
    processRecord_worksWithin hrun) {}) fun state => ?_
  refine quiet.bind (updateCursor_rule quiet fun _ _ _ => ?_)
    fun _ => quiet.ret _
  exact (uses_await _).mpr (worksOn_none rfl)

theorem queuedRecords_worksWithin {payload : ExecuteSyncRunJobPayload}
    {attempts : Nat} {backgroundJobId : Id} {pipeline : SyncPipeline}
    {startedAt : Time} (hrun : .syncRun syncRunId ∈ charges)
    (hjob : .backgroundJob backgroundJobId ∈ charges) :
    WithinCharges charges (Prog.tryCatch
      (SyncRunsService.runQueuedRecords env payload attempts backgroundJobId
        syncRunId pipeline startedAt actor)
      (SyncRunsService.failQueuedRun payload attempts backgroundJobId syncRunId
        pipeline startedAt actor)) := by
  have quiet := quiet_worksWithin charges
  refine Uses.tryCatch ?_ fun failure => ?_
  · refine (processRunRecords_worksWithin hrun).bind fun summary => ?_
    refine quiet.bind (currentTime_rule quiet) fun finishedAt => ?_
    refine worksWithin_await (worksOn_one rfl hrun) fun _ => ?_
    refine worksWithin_await (worksOn_none rfl) fun _ => ?_
    refine worksWithin_await (worksOn_one rfl hjob) fun _ => ?_
    exact quiet.bind (log_rule quiet) fun _ => log_rule quiet
  · refine quiet.bind (currentTime_rule quiet) fun finishedAt => ?_
    refine worksWithin_await (worksOn_one rfl hrun) fun _ => ?_
    refine worksWithin_await (worksOn_none rfl) fun _ => ?_
    refine worksWithin_await (worksOn_one rfl hjob) fun _ => ?_
    exact quiet.bind (log_rule quiet) fun _ =>
      quiet.bind (log_rule quiet) fun _ => quiet.throw _

theorem processWebhookForPipeline_worksWithin {mappingJson : Json}
    {payload : Record} {externalId : String}
    (hrun : .syncRun syncRunId ∈ charges) :
    WithinCharges charges (WebhooksService.processWebhookForPipeline env eventId
      pipelineId mappingJson payload externalId syncRunId actor) := by
  have quiet := quiet_worksWithin charges
  have hfail : ∀ message errorCount, WithinCharges charges
      (WebhooksService.failWebhookRun eventId pipelineId syncRunId externalId
        message errorCount actor) := by
    intro message errorCount
    refine quiet.bind (currentTime_rule quiet) fun finishedAt => ?_
    refine worksWithin_await (worksOn_one rfl hrun) fun _ => ?_
    refine quiet.bind (currentTime_rule quiet) fun lastRunAt => ?_
    refine worksWithin_await (worksOn_none rfl) fun _ => ?_
    exact quiet.bind (log_rule quiet) fun _ =>
      quiet.bind (log_rule quiet) fun _ => quiet.ret _
  simp only [WebhooksService.processWebhookForPipeline]
  split
  · exact hfail _ _
  · refine quiet.await rfl fun transformed => ?_
    split
    · exact hfail _ _
    · refine worksWithin_await (worksOn_one rfl hrun) fun syncedRecord => ?_
      refine quiet.bind (currentTime_rule quiet) fun finishedAt => ?_
      refine worksWithin_await (worksOn_one rfl hrun) fun _ => ?_
      refine quiet.bind (currentTime_rule quiet) fun lastRunAt => ?_
      refine worksWithin_await (worksOn_none rfl) fun _ => ?_
      exact quiet.bind (log_rule quiet) fun _ =>
        quiet.bind (log_rule quiet) fun _ =>
          quiet.bind (log_rule quiet) fun _ => quiet.ret _

theorem finishEvent_worksWithin {status : WebhookEventStatus}
    {errorMessage : Option String} (hevent : .webhookEvent eventId ∈ charges) :
    WithinCharges charges
      (WebhooksService.finishEvent eventId status errorMessage) := by
  refine (quiet_worksWithin charges).await rfl fun processedAt => ?_
  exact (uses_await _).mpr (worksOn_one rfl hevent)

end WithinCharges

/-! ## What calls are in charge of -/

section Bodies

variable {env : Env} {call : Call} {known : Set Charge} {actor : AuditActor}

abbrev Charged (call : Call) (known : Set Charge) {α : Type} (body : Body α) :
    Prop :=
  charging.Safe call known body

theorem charged_of_worksWithin {α : Type} {body : Body α}
    (h : WithinCharges known body) : Charged call known body :=
  safe_of_uses (K := charging) h

theorem quiet_charged (call : Call) (known : Set Charge) :
    Quiet fun {_} (body : Body _) => Charged call known body where
  toCompositional := compositional_safe charging call known
  op op hop := charged_of_worksWithin ((quiet_worksWithin known).op op hop)

theorem charged_pass {α : Type} {op : Op} {rest : op.Res → Body α}
    (hop : ∀ charge ∈ op.worksOn, charge ∈ known)
    (hrest : ∀ value, Charged call known (rest value)) :
    Charged call known ((Prog.await op).bind rest) :=
  informed_await_bind (K := charging) hop fun value _ =>
    (hrest value).mono Set.subset_union_left

theorem charged_await {op : Op} (hop : ∀ charge ∈ op.worksOn, charge ∈ known) :
    Charged call known (await op) := charged_of_worksWithin ((uses_await op).mpr hop)

theorem charged_create {α : Type} {op : Op} {rest : op.Res → Body α}
    (hop : op.worksOn = [])
    (hrest : ∀ value, Charged call
      (known ∪ {charge | charge ∈ op.creates value}) (rest value)) :
    Charged call known ((Prog.await op).bind rest) :=
  informed_await_bind (K := charging) (worksOn_none hop) fun value _ =>
    hrest value

theorem charged_lookup {α : Type} {op : Op} {rest : op.Res → Body α}
    (hop : ∀ charge ∈ op.worksOn, charge ∈ known)
    (hrest : ∀ value, op.answers value → Charged call known (rest value)) :
    Charged call known ((Prog.await op).bind rest) :=
  informed_await_bind (K := charging) hop fun value hvalue =>
    (hrest value hvalue).mono Set.subset_union_left

theorem charged_found {α β : Type} {message : String} {found : Option α}
    {rest : α → Body β}
    (hrest : ∀ row, found = some row → Charged call known (rest row)) :
    Charged call known ((orNotFound message found).bind rest) := by
  cases found with
  | none => exact informed_throw _
  | some row => exact hrest row rfl

theorem enqueueJob_charged {payload : JobPayload} {jobId : Id}
    (hpayload : ∀ charge ∈ payload.charges, charge ∈ known) :
    Charged call known (JobsService.enqueueJob env payload jobId) :=
  enqueueJob_rule (quiet_charged call known) (charged_await hpayload)

/-! ### Sync runs -/

theorem createRunFromPipeline_charged {pipeline : SyncPipeline}
    {options : CreateRunOptions} :
    Charged call known
      (SyncRunsService.createRunFromPipeline env pipeline options) := by
  have quiet := @quiet_charged call
  simp only [SyncRunsService.createRunFromPipeline]
  split
  · simp only [SyncRunsService.queueSyncRun, bind_eq]
    refine charged_create rfl fun syncRun => ?_
    refine charged_create rfl fun backgroundJob => ?_
    refine (enqueueJob_charged ?_).seq fun _ => ?_
    · intro charge hcharge
      rcases List.mem_cons.mp hcharge with rfl | hjob
      · exact .inl (.inr (List.mem_singleton.mpr rfl))
      · exact .inr hjob
    · exact (log_rule (quiet _)).seq fun _ =>
        (log_rule (quiet _)).seq fun _ => safe_ret _
  · simp only [SyncRunsService.executeSyncRunNow, bind_eq]
    refine charged_pass (worksOn_none rfl) fun startedAt => ?_
    refine charged_create rfl fun initialRun => ?_
    have hrun : Charge.syncRun initialRun.id ∈ known ∪
        {charge | charge ∈ [Charge.syncRun initialRun.id]} :=
      .inr (List.mem_singleton.mpr rfl)
    refine (log_rule (quiet _)).seq fun _ => ?_
    refine Informed.seq (charged_of_worksWithin (processRunRecords_worksWithin hrun))
      fun summary => ?_
    refine charged_pass (worksOn_none rfl) fun finishedAt => ?_
    refine charged_pass (worksOn_one rfl hrun) fun completedRun => ?_
    refine charged_pass (worksOn_none rfl) fun _ => ?_
    exact (log_rule (quiet _)).seq fun _ =>
      (log_rule (quiet _)).seq fun _ => safe_ret _

theorem createScheduledForPipeline_charged {pipelineId : Id} :
    Charged call known
      (SyncRunsService.createScheduledForPipeline env pipelineId actor) :=
  createScheduledForPipeline_rule (quiet_charged call known)
    fun _ _ _ => createRunFromPipeline_charged

theorem processQueuedSyncRun_charged {payload : ExecuteSyncRunJobPayload}
    {attempts : Nat}
    (hcharges : ∀ charge ∈ (JobPayload.executeSyncRun payload).charges,
      charge ∈ known) :
    Charged call known
      (SyncRunsService.processQueuedSyncRun env payload attempts) := by
  have quiet := quiet_charged call known
  simp only [SyncRunsService.processQueuedSyncRun, bind_eq]
  refine charged_lookup (worksOn_none rfl) fun found hid => ?_
  refine charged_found fun backgroundJob hfound => ?_
  subst hfound
  have hjob : .backgroundJob backgroundJob.id ∈ known :=
    hcharges _ (by simp [JobPayload.charges, show backgroundJob.id = _ from hid])
  refine charged_lookup (worksOn_none rfl) fun found hid => ?_
  refine charged_found fun syncRun hfound => ?_
  subst hfound
  have hrun : .syncRun syncRun.id ∈ known :=
    hcharges _ (by simp [JobPayload.charges, show syncRun.id = _ from hid])
  refine (getById_rule quiet).seq fun pipeline => ?_
  refine charged_pass (worksOn_none rfl) fun startedAt => ?_
  refine charged_pass (worksOn_one rfl hjob) fun _ => ?_
  refine charged_pass (worksOn_one rfl hrun) fun _ => ?_
  refine (log_rule quiet).seq fun _ => (log_rule quiet).seq fun _ => ?_
  exact charged_of_worksWithin (queuedRecords_worksWithin hrun hjob)

/-! ### Webhook events -/

section Webhooks

variable {eventId connectorId : Id}

theorem processPipeline_charged {event : WebhookEvent}
    {totals : WebhooksService.Totals} {pipeline : SyncPipeline} :
    Charged call known
      (WebhooksService.processPipeline env event actor totals pipeline) := by
  simp only [WebhooksService.processPipeline, bind_eq]
  refine charged_pass (worksOn_none rfl) fun startedAt => ?_
  refine charged_create rfl fun syncRun => ?_
  refine (log_rule (quiet_charged call _)).seq fun _ => ?_
  exact Informed.seq (charged_of_worksWithin (processWebhookForPipeline_worksWithin
    (.inr (List.mem_singleton.mpr rfl)))) fun _ => safe_ret _

theorem processWebhookEventNow_charged (h : .webhookEvent eventId ∈ known) :
    Charged call known
      (WebhooksService.processWebhookEventNow env eventId actor) := by
  have quiet := quiet_charged call known
  simp only [WebhooksService.processWebhookEventNow, bind_eq]
  refine charged_lookup (worksOn_none rfl) fun found hid => ?_
  refine charged_found fun event hfound => ?_
  subst hfound
  obtain rfl : event.id = eventId := hid
  have hfinish : ∀ status errorMessage, Charged call known
      (WebhooksService.finishEvent event.id status errorMessage) :=
    fun _ _ => charged_of_worksWithin (finishEvent_worksWithin h)
  refine Informed.seq (?_ : Charged call known _) fun connector => ?_
  · simp only [WebhooksService.findEventConnector]
    split
    · exact quiet.op _ rfl
    · exact safe_ret _
  · cases connector with
    | none =>
        exact (hfinish _ _).seq fun _ => (log_rule quiet).seq fun _ => safe_ret _
    | some connector =>
        refine charged_pass (worksOn_none rfl) fun pipelines => ?_
        split
        · exact (hfinish _ _).seq fun _ =>
            (log_rule quiet).seq fun _ => safe_ret _
        · refine Informed.seq (safe_foldlM (fun _ _ _ =>
            processPipeline_charged) {}) fun totals => ?_
          exact (hfinish _ _).seq fun _ =>
            (log_rule quiet).seq fun _ => safe_ret _

theorem processInline_charged (h : .webhookEvent eventId ∈ known) :
    Charged call known (WebhooksService.processInline env eventId actor) := by
  simp only [WebhooksService.processInline, bind_eq]
  refine (processWebhookEventNow_charged h).seq fun summary => ?_
  exact charged_pass (worksOn_none rfl) fun _ => safe_ret _

theorem queueProcessing_charged {status : WebhookEventStatus}
    {metadata : Record} {action message : String}
    (h : .webhookEvent eventId ∈ known) :
    Charged call known (WebhooksService.queueProcessing env eventId connectorId
      status metadata action message actor) := by
  have quiet := @quiet_charged call
  simp only [WebhooksService.queueProcessing, bind_eq]
  refine charged_create rfl fun backgroundJob => ?_
  refine (enqueueJob_charged ?_).seq fun _ => ?_
  · intro charge hcharge
    rcases List.mem_cons.mp hcharge with rfl | hjob
    · exact .inl h
    · exact .inr hjob
  · exact (log_rule (quiet _)).seq fun _ =>
      (log_rule (quiet _)).seq fun _ => safe_ret _

theorem receiveEvent_charged {params : ReceiveEventParams} :
    Charged call known (WebhooksService.receiveEvent env params) := by
  simp only [WebhooksService.receiveEvent, bind_eq]
  refine informed_ofExcept_bind fun _ _ => ?_
  refine Informed.seq (?_ : Charged call known _) fun found => ?_
  · cases WebhooksService.getIdempotencyKey params.headers with
    | none => exact safe_ret _
    | some idempotencyKey => exact charged_await (worksOn_none rfl)
  · cases found with
    | some existing =>
        exact (log_rule (quiet_charged call known)).seq fun _ => safe_ret _
    | none =>
        refine charged_pass (worksOn_none rfl) fun connector => ?_
        refine charged_create rfl fun event => ?_
        have hevent : Charge.webhookEvent event.id ∈ known ∪
            {charge | charge ∈ [Charge.webhookEvent event.id]} :=
          .inr (List.mem_singleton.mpr rfl)
        simp only [WebhooksService.handleReceived, bind_eq]
        refine (log_rule (quiet_charged call _)).seq fun _ => ?_
        split
        · exact queueProcessing_charged hevent
        · exact processInline_charged hevent

theorem getAccessibleEvent_charged {α : Type} {user : AuthenticatedUser}
    {rest : WebhookEvent → Body α}
    (hrest : ∀ event : WebhookEvent, event.id = eventId →
      Charged call known (rest event)) :
    Charged call known
      ((WebhooksService.getAccessibleEvent eventId user).bind rest) := by
  simp only [WebhooksService.getAccessibleEvent, bind_eq, bind_assoc]
  refine charged_lookup (worksOn_none rfl) fun found hid => ?_
  refine charged_found fun pair hfound => ?_
  subst hfound
  obtain ⟨event, connector⟩ := pair
  split
  · exact informed_throw _
  · exact hrest event hid

theorem queueOrProcessEvent_charged {user : AuthenticatedUser} {isRetry : Bool}
    (h : .webhookEvent eventId ∈ known) :
    Charged call known
      (WebhooksService.queueOrProcessEvent env eventId user isRetry) := by
  simp only [WebhooksService.queueOrProcessEvent, bind_eq]
  refine charged_pass (worksOn_one rfl h) fun _ => ?_
  split
  · refine charged_lookup (worksOn_none rfl) fun found hid => ?_
    refine charged_found fun event hfound => ?_
    subst hfound
    obtain rfl : event.id = eventId := hid
    exact queueProcessing_charged h
  · exact processInline_charged h

theorem retryEvent_charged {user : AuthenticatedUser}
    (h : .webhookEvent eventId ∈ known) :
    Charged call known (WebhooksService.retryEvent env eventId user) := by
  refine getAccessibleEvent_charged fun event hid => ?_
  split
  · exact informed_throw _
  · exact queueOrProcessEvent_charged (hid ▸ h)

theorem processEvent_charged {user : AuthenticatedUser}
    (h : .webhookEvent eventId ∈ known) :
    Charged call known (WebhooksService.processEvent env eventId user) := by
  refine getAccessibleEvent_charged fun event hid => ?_
  split
  · exact informed_throw _
  · exact queueOrProcessEvent_charged (hid ▸ h)

theorem processQueuedWebhookEvent_charged
    {payload : ProcessWebhookEventJobPayload} {attempts : Nat}
    (hcharges : ∀ charge ∈ (JobPayload.processWebhookEvent payload).charges,
      charge ∈ known) :
    Charged call known
      (WebhooksService.processQueuedWebhookEvent env payload attempts) := by
  have quiet := quiet_charged call known
  simp only [WebhooksService.processQueuedWebhookEvent, bind_eq]
  refine charged_lookup (worksOn_none rfl) fun found hid => ?_
  refine charged_found fun backgroundJob hfound => ?_
  subst hfound
  have hjob : .backgroundJob backgroundJob.id ∈ known :=
    hcharges _ (by simp [JobPayload.charges, show backgroundJob.id = _ from hid])
  refine charged_lookup (worksOn_none rfl) fun found hid => ?_
  refine charged_found fun event hfound => ?_
  subst hfound
  have hevent : .webhookEvent event.id ∈ known :=
    hcharges _ (by simp [JobPayload.charges, show event.id = _ from hid])
  refine charged_pass (worksOn_none rfl) fun startedAt => ?_
  refine charged_pass (worksOn_one rfl hjob) fun _ => ?_
  refine (log_rule quiet).seq fun _ => (log_rule quiet).seq fun _ => ?_
  refine Informed.tryCatch ?_ fun failure => ?_
  · simp only [WebhooksService.runQueuedEvent, bind_eq]
    refine (processWebhookEventNow_charged hevent).seq fun summary => ?_
    refine charged_pass (worksOn_none rfl) fun finishedAt => ?_
    exact charged_pass (worksOn_one rfl hjob) fun _ => log_rule quiet
  · simp only [WebhooksService.failQueuedEvent, bind_eq]
    refine charged_pass (worksOn_none rfl) fun finishedAt => ?_
    refine charged_pass (worksOn_one rfl hevent) fun _ => ?_
    refine charged_pass (worksOn_one rfl hjob) fun _ => ?_
    exact (log_rule quiet).seq fun _ =>
      (log_rule quiet).seq fun _ => informed_throw _

end Webhooks

/-! ### Calls -/

theorem body_charged (call : Call) :
    Charged call {charge | charge ∈ call.charges} (call.body env) := by
  have quiet := @quiet_charged call
  have hnone : ∀ {known : Set Charge} {op : Op}, op.worksOn = [] →
      Charged call known (await op) :=
    fun hop => charged_await (worksOn_none hop)
  cases call with
  | receiveEvent params => exact receiveEvent_charged.seq fun _ => safe_ret _
  | retryEvent id user =>
      exact (retryEvent_charged (List.mem_singleton.mpr rfl)).seq
        fun _ => safe_ret _
  | processEvent id user =>
      exact (processEvent_charged (List.mem_singleton.mpr rfl)).seq
        fun _ => safe_ret _
  | createForPipeline pipelineId dto user =>
      exact (createForPipeline_rule (quiet _) fun _ _ _ =>
        createRunFromPipeline_charged).seq fun _ => safe_ret _
  | triggerPipelineSchedule pipelineId user =>
      exact (triggerPipelineSchedule_rule (quiet _)
        (fun _ _ => createScheduledForPipeline_charged)
        fun _ => hnone rfl).seq fun _ => safe_ret _
  | runPollingCycle worker =>
      exact (runPollingCycle_rule (quiet _)
        (fun _ _ => createScheduledForPipeline_charged) (fun _ => hnone rfl)
        (fun _ _ => hnone rfl) (fun _ => hnone rfl) (hnone rfl)).seq
        fun _ => safe_ret _
  | createConnector dto user =>
      exact (createConnector_rule (quiet _) fun _ _ _ => hnone rfl).seq
        fun _ => safe_ret _
  | updateConnector id dto user =>
      exact (updateConnector_rule (quiet _) fun _ => hnone rfl).seq
        fun _ => safe_ret _
  | updateConnectorStatus id status user =>
      exact (updateConnectorStatus_rule (quiet _) (hnone rfl)).seq
        fun _ => safe_ret _
  | createPipeline dto user =>
      exact (createPipeline_rule (quiet _) fun _ _ _ => hnone rfl).seq
        fun _ => safe_ret _
  | updatePipeline id dto user =>
      exact (updatePipeline_rule (quiet _) fun _ => hnone rfl).seq
        fun _ => safe_ret _
  | updateStatus id status user =>
      exact (updateStatus_rule (quiet _) (hnone rfl)).seq fun _ => safe_ret _
  | updatePipelineSchedule pipelineId dto user =>
      exact (updatePipelineSchedule_rule (quiet _)
        fun _ _ _ _ => hnone rfl).seq fun _ => safe_ret _
  | processJob jobId token payload attempts =>
      refine Informed.seq (deliverJob_rule (quiet _) ?_ ?_ (hnone rfl)
        (hnone rfl)) fun _ => safe_ret _
      · rintro run rfl
        exact processQueuedSyncRun_charged fun _ hcharge => hcharge
      · rintro event rfl
        exact processQueuedWebhookEvent_charged fun _ hcharge => hcharge

end Bodies

/-! ## Runs of the platform -/

/-- The rows are the same, each with what belongs to it. -/
def Charge.Same (store later : Store) : Charge → Prop
  | .syncRun id =>
      later.syncRuns.filter (·.id = id) = store.syncRuns.filter (·.id = id) ∧
        later.syncedRecords.filter (·.syncRunId = id) =
          store.syncedRecords.filter (·.syncRunId = id)
  | .webhookEvent id => later.webhookEvents.filter (·.id = id) =
      store.webhookEvents.filter (·.id = id)
  | .backgroundJob id => later.backgroundJobs.filter (·.id = id) =
      store.backgroundJobs.filter (·.id = id)

/-- What a call is called for and what it has created so far. -/
def chargesOf (task : Task Op.Res Failure Answer Call) : List Charge :=
  task.call.charges ++ task.trace.flatMap fun entry => entry.1.creates entry.2

/-- The step is not one of a call in charge of the row. -/
def Charge.Spared (charge : Charge) (pool : Platform) : Step → Prop
  | .run index => ∀ task ∈ pool.tasks[index]?, charge ∉ chargesOf task
  | _ => True

instance {charge : Charge} {pool : Platform} (action : Step) :
    Decidable (charge.Spared pool action) :=
  match action with
  | .run index => inferInstanceAs
      (Decidable (∀ task ∈ pool.tasks[index]?, charge ∉ chargesOf task))
  | .start _ | .fail _ _ | .env _ => inferInstanceAs (Decidable True)

theorem mem_chargesOf {task : Task Op.Res Failure Answer Call}
    {charge : Charge} :
    charge ∈ chargesOf task ↔ charge ∈ charging.monitor.state task := by
  rw [chargesOf, List.mem_append, List.mem_flatMap]
  exact (mem_after (K := charging)).symm

section Steps

variable {charge : Charge} {store middle later : Store}

theorem Charge.Same.refl (charge : Charge) (store : Store) :
    charge.Same store store := by
  cases charge <;> first | exact ⟨rfl, rfl⟩ | rfl

theorem Charge.Same.trans (first : charge.Same store middle)
    (second : charge.Same middle later) : charge.Same store later := by
  cases charge with
  | syncRun id =>
      exact ⟨second.1.trans first.1, second.2.trans first.2⟩
  | webhookEvent id => exact Eq.trans second first
  | backgroundJob id => exact Eq.trans second first

/-- An operation leaves a row alone that it does not touch. -/
theorem same_of_effect {op : Op} (hid : charge.id < store.nextId)
    (h : charge ∉ op.worksOn) : charge.Same store (op.effect store) := by
  have hsame := Charge.Same.refl charge store
  have hfresh : store.nextId ≠ charge.id := ne_of_gt hid
  cases op with
  | syncRunCreate data =>
      cases charge with
      | syncRun id => exact ⟨Table.filter_append_of_ne hfresh, rfl⟩
      | webhookEvent id | backgroundJob id => exact hsame
  | syncRunUpdate id data =>
      cases charge with
      | syncRun id =>
          refine ⟨Table.filter_modify_of_ne (fun _ => rfl) ?_, rfl⟩
          rintro rfl
          exact h (List.mem_singleton.mpr rfl)
      | webhookEvent id | backgroundJob id => exact hsame
  | syncedRecordCreate data =>
      cases charge with
      | syncRun id =>
          refine ⟨rfl, Table.filter_append_of_ne ?_⟩
          rintro rfl
          exact h (List.mem_singleton.mpr rfl)
      | webhookEvent id | backgroundJob id => exact hsame
  | webhookEventCreate data =>
      cases charge with
      | webhookEvent id => exact Table.filter_append_of_ne hfresh
      | syncRun id | backgroundJob id => exact hsame
  | webhookEventUpdate id data =>
      cases charge with
      | webhookEvent id =>
          refine Table.filter_modify_of_ne (fun _ => rfl) ?_
          rintro rfl
          exact h (List.mem_singleton.mpr rfl)
      | syncRun id | backgroundJob id => exact hsame
  | backgroundJobCreate data =>
      cases charge with
      | backgroundJob id => exact Table.filter_append_of_ne hfresh
      | syncRun id | webhookEvent id => exact hsame
  | backgroundJobUpdate id data =>
      cases charge with
      | backgroundJob id =>
          refine Table.filter_modify_of_ne (fun _ => rfl) ?_
          rintro rfl
          exact h (List.mem_singleton.mpr rfl)
      | syncRun id | webhookEvent id => exact hsame
  | pollEnter worker lockTtlSeconds =>
      obtain ⟨pollLocks, heq⟩ := @effect_pollEnter store _ _
      rw [heq]
      cases charge <;> exact hsame
  | _ => cases charge <;> exact hsame

theorem same_of_event {event : Event} {token : Nat} {calls : List Call}
    {store' : Store} (h : event.apply store token = some (store', calls)) :
    charge.Same store store' := by
  obtain ⟨clock, jobs, rfl⟩ := Event.apply_store h
  have hsame := Charge.Same.refl charge store
  cases charge <;> exact hsame

end Steps

section Runs

variable {env : Env} {init : Store} {earlier later pool : Platform}
  {charge : Charge}

theorem charging_accepts (h : Reachable env init pool) :
    ∀ task ∈ pool.tasks, charging.monitor.Accepts task.call (fun _ _ => True)
      task.prog (charging.monitor.state task) :=
  accepts_of_safe (K := charging) (fun _ => body_charged _)
    (fun _ _ _ _ hexec => answers_of_exec hexec) rfl h

/-- A call changes no rows but those that it is in charge of. -/
theorem worksOn_of_done (h : Reachable env init pool) {pool' : Platform}
    {index : Nat} {task : Task Op.Res Failure Answer Call} {op : Op}
    {next : Except Failure op.Res → Body Answer} {value : op.Res}
    (hdone : (platform env).Done pool pool' index task op next value) :
    ∀ charge ∈ op.worksOn, charge ∈ chargesOf task := by
  intro charge hcharge
  have haccepts := charging_accepts h task (List.mem_of_getElem? hdone.at_index)
  rw [hdone.awaits] at haccepts
  exact mem_chargesOf.mpr (haccepts.1 charge hcharge)

/-- While the calls in charge of a row do nothing it stays as it is. -/
theorem rows_left_alone (h : Reachable env init earlier)
    (hid : charge.id < earlier.store.nextId)
    (hspared : (platform env).Reach charge.Spared earlier later) :
    charge.Same earlier.store later.store := by
  refine hspared.invariant
    (I := fun pool => charge.Same earlier.store pool.store)
    (.refl charge _) ?_ ?_ ?_ ?_
  · exact fun _ _ _ hbefore _ _ => hbefore
  · intro pool pool' index task op next value hreach hbefore hspares hdone
    have hnow : Reachable env init pool :=
      System.Reach.trans h (hreach.mono fun _ _ _ => trivial)
    have hknown : charge.id < pool.store.nextId :=
      lt_of_lt_of_le hid (continues_of_reach hreach).nextId
    rw [effect_of_done hdone]
    refine hbefore.trans (same_of_effect hknown fun hworksOn => ?_)
    exact hspares task hdone.at_index (worksOn_of_done hnow hdone _ hworksOn)
  · intro pool pool' index task op next error _ hbefore _ hraised
    rw [hraised.store]
    exact hbefore
  · intro pool pool' event calls _ hbefore _ hevent _
    exact hbefore.trans (same_of_event hevent)

end Runs

/-! ## A second run of the pipeline -/

def anotherDelivered : List Step :=
  [.start (.createForPipeline 3 ⟨some [Sample.contact], none, some true⟩
    Sample.operator)] ++ List.replicate 7 (.run 2) ++ [.env (.deliver 1)] ++
    List.replicate 21 (.run 3)

/-- The records of the first run are still its own one, those of the second are
in the same table. -/
theorem rows_left_alone_of_deliveries :
    ∃ earlier later, (platform (Sample.env .async)).run Sample.store.boot
        contactDelivered = some earlier ∧
      (platform (Sample.env .async)).runWhere (Charge.syncRun 11).Spared earlier
        anotherDelivered = some later ∧
      later.store.syncedRecords.map SyncedRecord.syncRunId = [11, 24] ∧
      (Charge.syncRun 11).Same earlier.store later.store := by
  have hruns : ((platform (Sample.env .async)).run Sample.store.boot
      contactDelivered).any (fun earlier =>
        11 < earlier.store.nextId &&
        ((platform (Sample.env .async)).runWhere (Charge.syncRun 11).Spared
          earlier anotherDelivered).any fun later =>
            later.store.syncedRecords.map SyncedRecord.syncRunId =
              [11, 24]) = true := by
    decide +kernel
  obtain ⟨earlier, hfirst, hchecked⟩ := (Option.any_eq_true _ _).mp hruns
  obtain ⟨hid, hmore⟩ := Bool.and_eq_true_iff.mp hchecked
  obtain ⟨later, hsecond, hrecords⟩ := (Option.any_eq_true _ _).mp hmore
  exact ⟨earlier, later, hfirst, hsecond, of_decide_eq_true hrecords,
    rows_left_alone (System.reach_of_run hfirst) (of_decide_eq_true hid)
      (System.reach_of_runWhere hsecond)⟩

end SyncBridge
