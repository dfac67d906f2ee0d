import SyncBridge.Intake.FanOut
import SyncBridge.Integrity.References
import SyncBridge.Transformations.Conformance

/-!
# Where records come from

A stored record is made from data that a client has submitted to its pipeline or
that came with a stored event, by a mapping that the pipeline had at the time.
In between there may be the queue, other calls and failed deliveries.
-/

namespace SyncBridge

open SyncBridge.Foundation SyncBridge.Foundation.Prog
open SyncBridge.Foundation.Knowledge

/-! ## What calls go by -/

inductive Origin where
  | mapping (pipelineId : Id) (mappingJson : Json)
  | event (externalId : String) (raw : Record)
  | output (raw : Record) (fields : List NormalizedMappingField)
      (normalized : Record)

def Op.reveals : (op : Op) → op.Res → Set Origin
  | .pipelineFindUnique _, some row => {.mapping row.id row.mappingJson}
  | .pipelineFindActive _, rows =>
      {origin | ∃ row ∈ rows, origin = .mapping row.id row.mappingJson}
  | .webhookEventFindUnique _, some row =>
      {.event row.externalId (ensureRecordObject row.payloadJson)}
  | .transform raw fields, result =>
      {origin | result.errors = [] ∧
        origin = .output raw fields result.normalized}
  | _, _ => ∅

/-- The record is one that a client has sent with the call. -/
def Call.Submits (call : Call) (pipelineId : Id) (externalId : Option String)
    (raw : Record) : Prop :=
  ∃ dto user, call = .createForPipeline pipelineId dto user ∧
    ∃ record ∈ (dto.mockRecords.or dto.sampleRecords).getD [],
      record.externalId = externalId ∧ ensureRecordObject record.raw = raw

def Call.Brings (call : Call) (pipelineId : Id) (externalId : Option String)
    (raw : Record) : Prop :=
  call.Submits pipelineId externalId raw ∨
    ∃ jobId token payload attempts,
      call = .processJob jobId token (.executeSyncRun payload) attempts ∧
        payload.pipelineId = pipelineId ∧ ∃ record ∈ payload.mockRecords,
          record.externalId = externalId ∧ ensureRecordObject record.raw = raw

structure NewSyncedRecord.Derived (env : Env) (call : Call)
    (data : NewSyncedRecord) (known : Set Origin) : Prop where
  transformed : ∃ mappingJson fields raw normalized,
    .mapping data.pipelineId mappingJson ∈ known ∧
      env.engine.compileMapping mappingJson = .ok fields ∧
      .output raw fields normalized ∈ known ∧
      data.rawJson = .obj raw ∧ data.normalizedJson = .obj normalized
  given : (data.sourceType = "MANUAL" ∧ ∃ raw, data.rawJson = .obj raw ∧
      call.Brings data.pipelineId data.externalId raw) ∨
    (data.sourceType = "WEBHOOK" ∧ ∃ externalId raw,
      data.externalId = some externalId ∧ data.rawJson = .obj raw ∧
        .event externalId raw ∈ known)

def Op.Derives (env : Env) (call : Call) : Op → Set Origin → Prop
  | .syncedRecordCreate data, known => data.Derived env call known
  | .queueAdd _ (.executeSyncRun payload) _, _ =>
      ∀ record ∈ payload.mockRecords, call.Submits payload.pipelineId
        record.externalId (ensureRecordObject record.raw)
  | _, _ => True

theorem derives_mono {env : Env} {call : Call} {op : Op}
    {known seen : Set Origin} (hsubset : known ⊆ seen)
    (h : op.Derives env call known) : op.Derives env call seen := by
  cases op with
  | syncedRecordCreate data =>
      obtain ⟨⟨mappingJson, fields, raw, normalized, hmapping, hfields, houtput,
        hdata⟩, hgiven⟩ := h
      refine ⟨⟨mappingJson, fields, raw, normalized, hsubset hmapping, hfields,
        hsubset houtput, hdata⟩, hgiven.imp_right ?_⟩
      rintro ⟨htype, externalId, raw, hid, hraw, hevent⟩
      exact ⟨htype, externalId, raw, hid, hraw, hsubset hevent⟩
  | queueAdd jobId payload attempts =>
      cases payload with
      | executeSyncRun payload => exact h
      | processWebhookEvent payload => trivial
  | _ => trivial

def lineage (env : Env) : Knowledge Op.Res Call Origin where
  given _ := ∅
  shows _ := Op.reveals
  needs := Op.Derives env
  facts := Op.answers
  needs_mono := derives_mono

/-! ## Every call derives its records -/

section Bodies

variable {env : Env} {call : Call} {known : Set Origin}

abbrev Derives (env : Env) (call : Call) (known : Set Origin) {α : Type}
    (body : Body α) : Prop :=
  (lineage env).Safe call known body

theorem derives_pass {α : Type} {op : Op} {rest : op.Res → Body α}
    (hneeds : op.Derives env call known)
    (hrest : ∀ value, Derives env call known (rest value)) :
    Derives env call known ((Prog.await op).bind rest) :=
  informed_await_bind (K := lineage env) hneeds fun value _ =>
    (hrest value).mono Set.subset_union_left

theorem derives_await {op : Op} (hneeds : op.Derives env call known) :
    Derives env call known (await op) :=
  (informed_await (K := lineage env) hneeds).safe

theorem quiet_derives (env : Env) (call : Call) (known : Set Origin) :
    Quiet fun {_} (body : Body _) => Derives env call known body where
  toCompositional := compositional_safe (lineage env) call known
  op op hop := by
    refine derives_await ?_
    cases op <;> trivial

theorem compileMapping_of_orThrow {mappingJson : Json}
    {fields : List NormalizedMappingField}
    (h : SyncRunsService.compileMappingOrThrow env mappingJson = .ok fields) :
    env.engine.compileMapping mappingJson = .ok fields := by
  simp only [SyncRunsService.compileMappingOrThrow] at h
  split at h
  · cases h
  · exact h

/-! ### Sync runs -/

section SyncRuns

variable {syncRunId : Id} {pipeline : SyncPipeline} {actor : AuditActor}

theorem processRecord_derives {mappingJson : Json}
    {fields : List NormalizedMappingField} {pipelineId : Id}
    {state : SyncRunsService.LoopState} {record : SyncRunMockRecordPayload}
    (hmapping : .mapping pipelineId mappingJson ∈ known)
    (hfields : env.engine.compileMapping mappingJson = .ok fields)
    (hgiven : call.Brings pipelineId record.externalId
      (ensureRecordObject record.raw)) :
    Derives env call known (SyncRunsService.processRecord env syncRunId
      pipelineId fields actor state record) := by
  simp only [SyncRunsService.processRecord, bind_eq]
  refine informed_await_bind (K := lineage env) trivial fun transformed _ => ?_
  split
  · exact (log_rule (quiet_derives env call _)).seq fun _ => safe_ret _
  · rename_i hclean
    have hnone : transformed.errors = [] :=
      List.eq_nil_of_length_eq_zero (by simpa using hclean)
    simp only [SyncRunsService.persistRecord, bind_eq]
    refine Informed.seq (Informed.attempt (derives_await ?_)).safe
      fun outcome => ?_
    · refine ⟨⟨mappingJson, fields, _, _, .inl hmapping, hfields,
        .inr ⟨hnone, rfl⟩, rfl, rfl⟩, .inl ⟨rfl, _, rfl, hgiven⟩⟩
    · cases outcome with
      | error failure => exact safe_ret _
      | ok syncedRecord =>
          have quiet := quiet_derives env call (known ∪ (lineage env).shows call
            (.transform (ensureRecordObject record.raw) fields) transformed)
          refine Informed.seq (quiet.attempt (quiet.bind (log_rule quiet)
            fun _ => log_rule quiet)) fun outcome => ?_
          cases outcome with
          | error failure => exact safe_ret _
          | ok done => exact safe_ret _

theorem processRunRecords_derives
    {mockRecords : List SyncRunMockRecordPayload} {ignoreCursor : Bool}
    (hmapping : .mapping pipeline.id pipeline.mappingJson ∈ known)
    (hgiven : ∀ record ∈ mockRecords, call.Brings pipeline.id
      record.externalId (ensureRecordObject record.raw)) :
    Derives env call known (SyncRunsService.processRunRecords env syncRunId
      pipeline mockRecords ignoreCursor actor) := by
  simp only [SyncRunsService.processRunRecords, bind_eq]
  refine informed_ofExcept_bind fun fields hfields => ?_
  refine Informed.seq (safe_foldlM (fun state record hrecord => ?_) _)
    fun state => ?_
  · have hmem : record ∈ mockRecords := by
      simp only [SyncRunsService.eligibleRecords] at hrecord
      split at hrecord
      · exact List.mem_of_mem_filter hrecord
      · exact hrecord
    exact processRecord_derives hmapping (compileMapping_of_orThrow hfields)
      (hgiven record hmem)
  · exact Informed.seq (updateCursor_rule (quiet_derives env call known)
      fun _ _ _ => derives_await trivial) fun _ => safe_ret _

theorem executeSyncRunNow_derives {options : CreateRunOptions}
    (hmapping : .mapping pipeline.id pipeline.mappingJson ∈ known)
    (hgiven : ∀ record ∈ options.mockRecords, call.Brings pipeline.id
      record.externalId (ensureRecordObject record.raw)) :
    Derives env call known
      (SyncRunsService.executeSyncRunNow env pipeline options) := by
  have quiet := quiet_derives env call known
  simp only [SyncRunsService.executeSyncRunNow, bind_eq]
  refine derives_pass trivial fun startedAt => ?_
  refine derives_pass trivial fun initialRun => ?_
  refine (log_rule quiet).seq fun _ => ?_
  refine (processRunRecords_derives hmapping hgiven).seq fun summary => ?_
  refine derives_pass trivial fun finishedAt => ?_
  refine derives_pass trivial fun completedRun => ?_
  refine derives_pass trivial fun _ => ?_
  exact (log_rule quiet).seq fun _ => (log_rule quiet).seq fun _ => safe_ret _

theorem queueSyncRun_derives {options : CreateRunOptions}
    (hgiven : ∀ record ∈ options.mockRecords, call.Submits pipeline.id
      record.externalId (ensureRecordObject record.raw)) :
    Derives env call known
      (SyncRunsService.queueSyncRun env pipeline options) := by
  have quiet := quiet_derives env call known
  simp only [SyncRunsService.queueSyncRun, bind_eq]
  refine derives_pass trivial fun syncRun => ?_
  refine derives_pass trivial fun backgroundJob => ?_
  refine Informed.seq (enqueueJob_rule quiet (derives_await ?_)) fun _ => ?_
  · intro record hmem
    obtain ⟨sent, hsent, rfl⟩ := List.mem_map.mp hmem
    exact hgiven sent hsent
  · exact (log_rule quiet).seq fun _ => (log_rule quiet).seq fun _ => safe_ret _

theorem createRunFromPipeline_derives {options : CreateRunOptions}
    (hmapping : .mapping pipeline.id pipeline.mappingJson ∈ known)
    (hgiven : ∀ record ∈ options.mockRecords, call.Submits pipeline.id
      record.externalId (ensureRecordObject record.raw)) :
    Derives env call known
      (SyncRunsService.createRunFromPipeline env pipeline options) := by
  simp only [SyncRunsService.createRunFromPipeline]
  split
  · exact queueSyncRun_derives hgiven
  · exact executeSyncRunNow_derives hmapping fun record hmem =>
      .inl (hgiven record hmem)

theorem getById_derives {α : Type} {id : Id} {rest : SyncPipeline → Body α}
    (hrest : ∀ row : SyncPipeline, row.id = id →
      Derives env call (known ∪ {.mapping row.id row.mappingJson}) (rest row)) :
    Derives env call known ((PipelinesService.getById id).bind rest) :=
  informed_getById (K := lineage env) (fun _ _ h => h) trivial hrest

theorem createForPipeline_derives {id : Id} {dto : CreateSyncRunDto}
    {user : AuthenticatedUser} :
    Derives env (.createForPipeline id dto user) known
      (SyncRunsService.createForPipeline env id dto user) := by
  simp only [SyncRunsService.createForPipeline, PipelinesService.findOne,
    bind_eq, bind_assoc, pure_eq, ret_bind]
  refine getById_derives fun row hid => ?_
  refine informed_ofExcept_bind fun _ _ => ?_
  refine (log_rule (quiet_derives env _ _)).seq fun _ => ?_
  refine createRunFromPipeline_derives (.inr rfl) fun record hmem => ?_
  rw [hid]
  exact ⟨dto, user, rfl, record, hmem, rfl, rfl⟩

theorem createScheduledForPipeline_derives {id : Id} :
    Derives env call known
      (SyncRunsService.createScheduledForPipeline env id actor) := by
  simp only [SyncRunsService.createScheduledForPipeline, bind_eq]
  refine getById_derives fun row _ => ?_
  exact createRunFromPipeline_derives (.inr rfl)
    fun _ hmem => absurd hmem List.not_mem_nil

theorem processQueuedSyncRun_derives {jobId : Id} {token attempts : Nat}
    {payload : ExecuteSyncRunJobPayload} :
    Derives env (.processJob jobId token (.executeSyncRun payload) attempts)
      known (SyncRunsService.processQueuedSyncRun env payload attempts) := by
  simp only [SyncRunsService.processQueuedSyncRun, bind_eq]
  refine derives_pass trivial fun found => ?_
  refine Informed.seq (orNotFound_rule (quiet_derives env _ _))
    fun backgroundJob => ?_
  refine derives_pass trivial fun found => ?_
  refine Informed.seq (orNotFound_rule (quiet_derives env _ _))
    fun syncRun => ?_
  refine getById_derives fun pipeline hid => ?_
  have quiet := quiet_derives env
    (.processJob jobId token (.executeSyncRun payload) attempts)
    (known ∪ {.mapping pipeline.id pipeline.mappingJson})
  refine derives_pass trivial fun startedAt => ?_
  refine derives_pass trivial fun _ => ?_
  refine derives_pass trivial fun _ => ?_
  refine (log_rule quiet).seq fun _ => (log_rule quiet).seq fun _ => ?_
  refine Informed.tryCatch ?_ fun failure => ?_
  · simp only [SyncRunsService.runQueuedRecords, bind_eq]
    refine (processRunRecords_derives (.inr rfl) fun record hmem => ?_).seq
      fun summary => ?_
    · rw [hid]
      exact .inr ⟨_, _, payload, _, rfl, rfl, record, hmem, rfl, rfl⟩
    · refine derives_pass trivial fun finishedAt => ?_
      refine derives_pass trivial fun _ => ?_
      refine derives_pass trivial fun _ => ?_
      refine derives_pass trivial fun _ => ?_
      exact (log_rule quiet).seq fun _ => log_rule quiet
  · exact failQueuedRun_rule quiet (fun _ _ => derives_await trivial)
      (fun _ _ => derives_await trivial) fun _ _ => derives_await trivial

end SyncRuns

/-! ### Webhook events -/

section Webhooks

variable {eventId pipelineId syncRunId : Id} {actor : AuditActor}

theorem processWebhookForPipeline_derives {mappingJson : Json}
    {payload : Record} {externalId : String}
    (hmapping : .mapping pipelineId mappingJson ∈ known)
    (hevent : .event externalId payload ∈ known) :
    Derives env call known (WebhooksService.processWebhookForPipeline env
      eventId pipelineId mappingJson payload externalId syncRunId actor) := by
  have hfail : ∀ {known : Set Origin} {message errorCount},
      Derives env call known (WebhooksService.failWebhookRun eventId pipelineId
        syncRunId externalId message errorCount actor) :=
    failWebhookRun_rule (quiet_derives env call _)
      (fun _ _ => derives_await trivial) fun _ _ => derives_await trivial
  simp only [WebhooksService.processWebhookForPipeline]
  split
  · exact hfail
  · rename_i fields hfields
    refine informed_await_bind (K := lineage env) trivial
      fun transformed _ => ?_
    split
    · exact hfail
    · rename_i hclean
      have hnone : transformed.errors = [] :=
        List.eq_nil_of_length_eq_zero (by simpa using hclean)
      have quiet := quiet_derives env call (known ∪ (lineage env).shows call
        (.transform payload fields) transformed)
      simp only [WebhooksService.storeWebhookRecord, bind_eq]
      refine derives_pass ?_ fun syncedRecord => ?_
      · exact ⟨⟨mappingJson, fields, _, _, .inl hmapping, hfields,
          .inr ⟨hnone, rfl⟩, rfl, rfl⟩,
          .inr ⟨rfl, externalId, payload, rfl, rfl, .inl hevent⟩⟩
      · refine derives_pass trivial fun finishedAt => ?_
        refine derives_pass trivial fun _ => ?_
        refine derives_pass trivial fun lastRunAt => ?_
        refine derives_pass trivial fun _ => ?_
        exact (log_rule quiet).seq fun _ => (log_rule quiet).seq fun _ =>
          (log_rule quiet).seq fun _ => safe_ret _

theorem processPipeline_derives {event : WebhookEvent}
    {totals : WebhooksService.Totals} {pipeline : SyncPipeline}
    (hmapping : .mapping pipeline.id pipeline.mappingJson ∈ known)
    (hevent : .event event.externalId (ensureRecordObject event.payloadJson) ∈
      known) :
    Derives env call known
      (WebhooksService.processPipeline env event actor totals pipeline) := by
  have quiet := quiet_derives env call known
  simp only [WebhooksService.processPipeline, bind_eq]
  refine derives_pass trivial fun startedAt => ?_
  refine derives_pass trivial fun syncRun => ?_
  refine (log_rule quiet).seq fun _ => ?_
  exact (processWebhookForPipeline_derives hmapping hevent).seq
    fun _ => safe_ret _

theorem processWebhookEventNow_derives :
    Derives env call known
      (WebhooksService.processWebhookEventNow env eventId actor) := by
  have hfinish : ∀ {known : Set Origin} {id status errorMessage},
      Derives env call known
        (WebhooksService.finishEvent id status errorMessage) :=
    derives_pass trivial fun _ => derives_await trivial
  simp only [WebhooksService.processWebhookEventNow, bind_eq]
  refine informed_await_bind (K := lineage env) trivial fun found _ => ?_
  cases found with
  | none => exact informed_throw _
  | some event =>
      simp only [orNotFound, ret_bind]
      refine Informed.seq (?_ : Derives env call _ _) fun connector => ?_
      · simp only [WebhooksService.findEventConnector]
        split
        · exact derives_await trivial
        · exact safe_ret _
      · cases connector with
        | none =>
            refine hfinish.seq fun _ => ?_
            exact (log_rule (quiet_derives env call _)).seq fun _ => safe_ret _
        | some connector =>
            refine informed_await_bind (K := lineage env) trivial
              fun pipelines _ => ?_
            split
            · refine hfinish.seq fun _ => ?_
              exact (log_rule (quiet_derives env call _)).seq
                fun _ => safe_ret _
            · refine Informed.seq (safe_foldlM (fun totals pipeline hmem =>
                processPipeline_derives (.inr ⟨pipeline, hmem, rfl⟩)
                  (.inl (.inr rfl))) _) fun totals => ?_
              refine hfinish.seq fun _ => ?_
              exact (log_rule (quiet_derives env call _)).seq
                fun _ => safe_ret _

end Webhooks

/-! ### Calls -/

theorem body_derives (call : Call) :
    Derives env call known (call.body env) := by
  refine body_rule_of_parts call
    (compositional_safe (lineage env) call known) (fun op hop => ?_) ?_
    (fun _ _ _ => createScheduledForPipeline_derives) ?_
    fun _ _ _ => processWebhookEventNow_derives
  · refine derives_await ?_
    cases op with
    | syncedRecordCreate data => exact hop.elim
    | queueAdd jobId payload attempts =>
        obtain ⟨-, event, rfl⟩ := hop
        trivial
    | _ => trivial
  · rintro pipelineId dto user rfl
    exact createForPipeline_derives
  · rintro jobId token run attempts rfl
    exact processQueuedSyncRun_derives

end Bodies

/-! ## Runs of the platform -/

def Origin.Shown (env : Env) (store : Store) : Origin → Prop
  | .mapping pipelineId mappingJson => ∃ pipeline ∈ store.pipelines,
      pipeline.id = pipelineId ∧ pipeline.mappingJson = mappingJson
  | .event externalId raw => ∃ event ∈ store.webhookEvents,
      event.externalId = externalId ∧
        ensureRecordObject event.payloadJson = raw
  | .output raw fields normalized => ∃ ambient,
      env.engine.transformRecordWithCompiledMapping ambient raw fields =
        .ok ⟨normalized, []⟩

theorem shown_of_reveals {env : Env} {op : Op} {store store' : Store}
    {value : op.Res} {origin : Origin}
    (hexec : exec env op store = .ok (value, store'))
    (hreveals : origin ∈ op.reveals value) : origin.Shown env store := by
  cases op with
  | pipelineFindUnique id =>
      have hfound := exec_pipelineFindUnique hexec
      cases value with
      | none => exact hreveals.elim
      | some row =>
          obtain rfl := hreveals
          exact ⟨row, Table.find_mem hfound.symm, rfl, rfl⟩
  | pipelineFindActive id =>
      obtain ⟨row, hrow, rfl⟩ := hreveals
      exact ⟨row, (exec_pipelineFindActive hexec hrow).1, rfl, rfl⟩
  | webhookEventFindUnique id =>
      have hfound := exec_webhookEventFindUnique hexec
      cases value with
      | none => exact hreveals.elim
      | some row =>
          obtain rfl := hreveals
          exact ⟨row, Table.find_mem hfound.symm, rfl, rfl⟩
  | transform raw fields =>
      obtain ⟨hclean, rfl⟩ := hreveals
      refine ⟨⟨store.clock, store.nextId⟩, ?_⟩
      simp only [exec] at hexec
      split at hexec
      · rename_i result hresult
        obtain rfl := congrArg Prod.fst (Except.ok.inj hexec)
        obtain ⟨normalized, errors⟩ := result
        obtain rfl : errors = [] := hclean
        exact hresult
      · cases hexec
  | _ => exact hreveals.elim

section Runs

variable {env : Env} {init : Store} {pool : Platform}
  {ok : Platform → Step → Prop}

theorem lineage_accepts (h : (platform env).Reach ok init.boot pool) :
    ∀ task ∈ pool.tasks, (lineage env).monitor.Accepts task.call
      (fun _ _ => True) task.prog ((lineage env).monitor.state task) :=
  accepts_of_safe (fun _ => body_derives _)
    (fun _ _ _ _ hexec => answers_of_exec hexec) rfl h

theorem lineage_guarded (h : (platform env).Reach ok init.boot pool) :
    ∀ task ∈ pool.tasks,
      (lineage env).monitor.Guarded task.call task.trace :=
  guarded_of_safe (fun _ => body_derives _)
    (fun _ _ _ _ hexec => answers_of_exec hexec) rfl h

def JobPayload.Submitted (calls : List Call) : JobPayload → Prop
  | .executeSyncRun payload => ∀ record ∈ payload.mockRecords,
      ∃ call ∈ calls, call.Submits payload.pipelineId record.externalId
        (ensureRecordObject record.raw)
  | .processWebhookEvent _ => True

theorem JobPayload.Submitted.mono {calls later : List Call}
    {payload : JobPayload} (hsubset : calls ⊆ later)
    (h : payload.Submitted calls) : payload.Submitted later := by
  cases payload with
  | executeSyncRun payload =>
      intro record hmem
      obtain ⟨call, hcall, hsubmits⟩ := h record hmem
      exact ⟨call, hsubset hcall, hsubmits⟩
  | processWebhookEvent payload => trivial

theorem PayloadsKnown.later {calls later : List Call}
    (h : PayloadsKnown (fun _ payload => payload.Submitted calls) pool)
    (hsubset : calls ⊆ later) :
    PayloadsKnown (fun _ payload => payload.Submitted later) pool :=
  ⟨fun job hjob => (h.jobs job hjob).mono hsubset,
    fun task htask jobId token payload attempts hcall =>
      (h.calls task htask jobId token payload attempts hcall).mono hsubset⟩

theorem submitted_of_reach (hjobs : init.jobs = [])
    (h : (platform env).Reach ok init.boot pool) :
    PayloadsKnown (fun _ payload => payload.Submitted pool.calls) pool := by
  refine h.invariant (I := fun pool =>
    PayloadsKnown (fun _ payload => payload.Submitted pool.calls) pool)
    ?_ ?_ ?_ ?_ ?_
  · refine ⟨fun job hjob => ?_, fun task htask => absurd htask List.not_mem_nil⟩
    rw [show init.boot.store.jobs = [] from hjobs] at hjob
    cases hjob
  · intro pool call _ hknown _ hstarts
    refine @PayloadsKnown.later _ pool.calls _
      ⟨hknown.jobs, fun task htask jobId token payload attempts hcall => ?_⟩ ?_
    · rcases List.mem_append.mp htask with hold | hnew
      · exact hknown.calls task hold jobId token payload attempts hcall
      · obtain rfl := List.mem_singleton.mp hnew
        obtain rfl : call = .processJob jobId token payload attempts := hcall
        cases hstarts
    · simp [Pool.calls]
  · intro pool pool' index task op next value hreach hknown _ hdone
    rw [hdone.calls]
    refine hknown.done (fun _ _ hkept => hkept) ?_ hdone
    rintro jobId payload attempts rfl
    have hmem := List.mem_of_getElem? hdone.at_index
    have haccepts := lineage_accepts hreach task hmem
    rw [hdone.awaits] at haccepts
    cases payload with
    | executeSyncRun payload =>
        exact fun record hrecord =>
          ⟨task.call, List.mem_map_of_mem hmem, haccepts.1 record hrecord⟩
    | processWebhookEvent payload => trivial
  · intro pool pool' index task op next error _ hknown _ hraised
    rw [hraised.calls]
    exact hknown.raised hraised
  · intro pool pool' event calls _ hknown _ henv htasks
    have hkept : PayloadsKnown
        (fun _ payload => payload.Submitted pool.calls) pool' :=
      hknown.event (fun _ hkept => hkept) henv htasks
    refine hkept.later ?_
    simp [Pool.calls, htasks]

def SyncedRecord.Transformed (env : Env) (ok : Platform → Step → Prop)
    (init pool : Platform) (row : SyncedRecord) : Prop :=
  ∃ before pipeline fields raw normalized ambient,
    (platform env).Reach ok init before ∧
      (platform env).Reach ok before pool ∧
      pipeline ∈ before.store.pipelines ∧ pipeline.id = row.pipelineId ∧
      env.engine.compileMapping pipeline.mappingJson = .ok fields ∧
      env.engine.transformRecordWithCompiledMapping ambient raw fields =
        .ok ⟨normalized, []⟩ ∧
      row.rawJson = .obj raw ∧ row.normalizedJson = .obj normalized

/-- What a record was made from and by what. -/
structure SyncedRecord.HasOrigin (env : Env) (ok : Platform → Step → Prop)
    (init pool : Platform) (row : SyncedRecord) : Prop where
  transformed : row.Transformed env ok init pool
  given : (row.sourceType = "MANUAL" ∧ ∃ raw, row.rawJson = .obj raw ∧
      ∃ call ∈ pool.calls, call.Submits row.pipelineId row.externalId raw) ∨
    (row.sourceType = "WEBHOOK" ∧ ∃ event ∈ pool.store.webhookEvents,
      row.externalId = some event.externalId ∧
        row.rawJson = .obj (ensureRecordObject event.payloadJson))

def SyncedRecord.StoredBy (row : SyncedRecord) (entry : Σ op : Op, op.Res) :
    Prop :=
  ∃ data, entry.1 = .syncedRecordCreate data ∧
    row.pipelineId = data.pipelineId ∧ row.externalId = data.externalId ∧
    row.sourceType = data.sourceType ∧ row.rawJson = data.rawJson ∧
    row.normalizedJson = data.normalizedJson

theorem storedBy_of_reach (hrecords : init.syncedRecords = [])
    (h : (platform env).Reach ok init.boot pool) :
    ∀ row ∈ pool.store.syncedRecords, ∃ task ∈ pool.tasks,
      ∃ entry ∈ task.trace, row.StoredBy entry := by
  refine h.rows_made (R := Store.syncedRecords) ?_ ?_ hrecords
  · intro op store value store' hexec row hrow
    rw [exec_effect hexec] at hrow
    rcases syncedRecords_of_effect hrow with hold | ⟨data, rfl, rfl⟩
    · exact .inr ⟨row, hold, fun _ hstored => hstored⟩
    · exact .inl ⟨data, rfl, rfl, rfl, rfl, rfl, rfl⟩
  · intro event store token store' calls happly
    obtain ⟨clock, jobs, rfl⟩ := Event.apply_store happly
    rfl

theorem shown_of_trace (h : (platform env).Reach ok init.boot pool)
    {task : Task Op.Res Failure Answer Call} (htask : task ∈ pool.tasks)
    {origin : Origin}
    (hknown : origin ∈ (lineage env).given task.call ∨ ∃ entry ∈ task.trace,
      origin ∈ (lineage env).shows task.call entry.1 entry.2) :
    ∃ before, (platform env).Reach ok init.boot before ∧
      (platform env).Reach ok before pool ∧ origin.Shown env before.store := by
  rcases hknown with hgiven | ⟨entry, hentry, hshown⟩
  · exact hgiven.elim
  · obtain ⟨before, store', hbefore, hlater, hexec⟩ :=
      h.performed rfl task htask entry hentry
    exact ⟨before, hbefore, hlater, shown_of_reveals hexec hshown⟩

/-- The row holds what a call has stored, which is derived from what it knew. -/
theorem derived_of_reach (hrecords : init.syncedRecords = [])
    (h : (platform env).Reach ok init.boot pool) :
    ∀ row ∈ pool.store.syncedRecords, ∃ task ∈ pool.tasks,
      ∃ (data : NewSyncedRecord) (known : Set Origin),
      row.pipelineId = data.pipelineId ∧ row.externalId = data.externalId ∧
      row.sourceType = data.sourceType ∧ row.rawJson = data.rawJson ∧
      row.normalizedJson = data.normalizedJson ∧
      data.Derived env task.call known ∧
      ∀ origin ∈ known, ∃ before, (platform env).Reach ok init.boot before ∧
        (platform env).Reach ok before pool ∧ origin.Shown env before.store := by
  intro row hrow
  obtain ⟨task, htask, entry, hentry, data, hop, hpipeline, hid, htype, hraw,
    hnormalized⟩ := storedBy_of_reach hrecords h row hrow
  obtain ⟨known, hneeds, hshown⟩ :=
    needs_of_guarded (lineage_guarded h task htask) hentry
  rw [hop] at hneeds
  exact ⟨task, htask, data, known, hpipeline, hid, htype, hraw, hnormalized,
    hneeds, fun origin horigin => shown_of_trace h htask (hshown _ horigin)⟩

theorem transformed_of_reach (hrecords : init.syncedRecords = [])
    (h : (platform env).Reach ok init.boot pool) :
    ∀ row ∈ pool.store.syncedRecords,
      row.Transformed env ok init.boot pool := by
  intro row hrow
  obtain ⟨task, -, data, known, hpipeline, -, -, hraw, hnormalized,
    ⟨⟨mappingJson, fields, raw, normalized, hmapping, hfields, houtput,
      hdataRaw, hdataNormalized⟩, -⟩, hshown⟩ :=
    derived_of_reach hrecords h row hrow
  obtain ⟨before, hbefore, hlater, pipeline, hmem, hpipelineId, rfl⟩ :=
    hshown _ hmapping
  obtain ⟨-, -, -, ambient, hresult⟩ := hshown _ houtput
  exact ⟨before, pipeline, fields, raw, normalized, ambient, hbefore, hlater,
    hmem, hpipelineId.trans hpipeline.symm, hfields, hresult,
    hraw.trans hdataRaw, hnormalized.trans hdataNormalized⟩

/-- Every stored record is the transform of what was given, by a mapping of its
pipeline. -/
theorem records_have_origins (hrecords : init.syncedRecords = [])
    (hjobs : init.jobs = []) (h : (platform env).Reach ok init.boot pool) :
    ∀ row ∈ pool.store.syncedRecords,
      row.HasOrigin env ok init.boot pool := by
  intro row hrow
  refine ⟨transformed_of_reach hrecords h row hrow, ?_⟩
  obtain ⟨task, htask, data, known, hpipeline, hid, htype, hraw, -,
    ⟨-, hgiven⟩, hshown⟩ := derived_of_reach hrecords h row hrow
  rcases hgiven with ⟨hmanual, sent, hsent, hbrings⟩ |
    ⟨hwebhook, externalId, sent, hexternal, hsent, hevent⟩
  · refine .inl ⟨htype.trans hmanual, sent, hraw.trans hsent, ?_⟩
    rw [hpipeline, hid]
    rcases hbrings with hsubmits | ⟨jobId, token, payload, attempts, hcall,
      hpayload, record, hrecord, hrecordId, hrecordRaw⟩
    · exact ⟨task.call, List.mem_map_of_mem htask, hsubmits⟩
    · have hsubmitted := (submitted_of_reach hjobs h).calls task htask jobId
        token _ attempts hcall record hrecord
      rw [hpayload, hrecordId, hrecordRaw] at hsubmitted
      exact hsubmitted
  · obtain ⟨before, -, hlater, event, hmem, rfl, rfl⟩ := hshown _ hevent
    obtain ⟨later, hlaterMem, hsame⟩ :=
      exists_of_prefix (continues_of_reach hlater).webhookEvents hmem
    simp only [WebhookEvent.identity, Prod.mk.injEq] at hsame
    obtain ⟨hsameId, -, -, hkey, -, hpayload, -⟩ := hsame
    refine .inr ⟨htype.trans hwebhook, later, hlaterMem, ?_, ?_⟩
    · rw [hid, hexternal, WebhookEvent.externalId, WebhookEvent.externalId,
        hkey, hsameId]
    · rw [hraw, hsent, hpayload]

structure SyncedRecord.Described (runtime : Runtime) (pipeline : SyncPipeline)
    (row : SyncedRecord) : Prop where
  pipelineId : pipeline.id = row.pipelineId
  conforms : ∃ fields normalized,
    TransformationEngineService.compileMapping runtime pipeline.mappingJson =
      .ok fields ∧
    row.normalizedJson = .obj normalized ∧
    (fields.Pairwise (fun first second =>
        Paths.Apart (Paths.splitPath first.outputPath)
          (Paths.splitPath second.outputPath)) →
      TransformationEngineService.OutputConforms runtime fields normalized)

/-- Every stored record is as a mapping of its pipeline describes it, where no
two output paths overlap. -/
theorem stored_records_conform {runtime : Runtime}
    (hengine : env.engine = TransformationEngineService.engine runtime)
    (hrecords : init.syncedRecords = [])
    (h : (platform env).Reach ok init.boot pool) :
    ∀ row ∈ pool.store.syncedRecords, ∃ before pipeline,
      (platform env).Reach ok init.boot before ∧
        (platform env).Reach ok before pool ∧
        pipeline ∈ before.store.pipelines ∧
        row.Described runtime pipeline := by
  intro row hrow
  obtain ⟨before, pipeline, fields, raw, normalized, ambient, hbefore, hlater,
    hmem, hid, hfields, hresult, -, hnormalized⟩ :=
    transformed_of_reach hrecords h row hrow
  rw [hengine] at hfields hresult
  refine ⟨before, pipeline, hbefore, hlater, hmem, hid, fields, normalized,
    hfields, hnormalized, fun hpaths => ?_⟩
  exact TransformationEngineService.conforms_of_transform
    (TransformationEngineService.runnable_of_compiles
      (TransformationEngineService.compileMapping_ok_iff.mp hfields))
    hpaths hresult rfl

end Runs

/-! ## A mapped contact -/

theorem records_have_origins_of_delivery :
    ∃ pool, (platform Sample.engineEnv).run
        (Sample.mappedStore Sample.nameMapping).boot contactDelivered =
          some pool ∧
      pool.store.syncedRecords.length = 1 ∧
      ∀ row ∈ pool.store.syncedRecords, row.HasOrigin Sample.engineEnv
        (fun _ _ => True) (Sample.mappedStore Sample.nameMapping).boot pool := by
  have hruns : ((platform Sample.engineEnv).run
      (Sample.mappedStore Sample.nameMapping).boot contactDelivered).any
        (fun pool => pool.store.syncedRecords.length = 1) = true := by
    decide +kernel
  obtain ⟨pool, hrun, hrows⟩ := (Option.any_eq_true _ _).mp hruns
  exact ⟨pool, hrun, of_decide_eq_true hrows,
    records_have_origins rfl rfl (System.reach_of_run hrun)⟩

theorem stored_records_conform_of_delivery :
    ∃ pool, (platform Sample.engineEnv).run
        (Sample.mappedStore Sample.nameMapping).boot contactDelivered =
          some pool ∧
      pool.store.syncedRecords.length = 1 ∧
      ∀ row ∈ pool.store.syncedRecords, ∃ before pipeline,
        (platform Sample.engineEnv).Reach (fun _ _ => True)
          (Sample.mappedStore Sample.nameMapping).boot before ∧
        (platform Sample.engineEnv).Reach (fun _ _ => True) before pool ∧
        pipeline ∈ before.store.pipelines ∧
        row.Described Sample.runtime pipeline := by
  have hruns : ((platform Sample.engineEnv).run
      (Sample.mappedStore Sample.nameMapping).boot contactDelivered).any
        (fun pool => pool.store.syncedRecords.length = 1) = true := by
    decide +kernel
  obtain ⟨pool, hrun, hrows⟩ := (Option.any_eq_true _ _).mp hruns
  exact ⟨pool, hrun, of_decide_eq_true hrows,
    stored_records_conform rfl rfl (System.reach_of_run hrun)⟩

end SyncBridge
