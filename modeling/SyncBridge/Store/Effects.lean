import SyncBridge.Foundation.Solo
import SyncBridge.Store

/-!
# What an operation changes

For each table the operations that write it, and what they write.  Every other
operation leaves the table alone.
-/

namespace SyncBridge

open SyncBridge.Foundation

variable {env : Env} {op : Op} {store store' : Store} {value : op.Res}

def QueueJob.settled (jobId : Id) (token : Nat) (settle : QueueJob → QueueJob)
    (job : QueueJob) : QueueJob :=
  if job.id = jobId ∧ job.state = .active token then settle job else job

theorem settleJob_eq_some {jobId : Id} {token : Nat}
    {settle : QueueJob → QueueJob}
    (h : store.settleJob jobId token settle = some store') :
    (∃ job ∈ store.jobs, job.id = jobId ∧ job.state = .active token) ∧
      store' = { store with
        jobs := store.jobs.map (QueueJob.settled jobId token settle) } := by
  simp only [Store.settleJob] at h
  split at h
  · cases h
  · rename_i job hfind
    refine ⟨⟨job, List.mem_of_find?_eq_some hfind, ?_⟩, ?_⟩
    · simpa using List.find?_some hfind
    · rw [← Option.some.inj h]
      simp [QueueJob.settled]

def Op.effect : Op → Store → Store
  | .connectorCreate data, store => (store.createConnector data).2
  | .connectorUpdate id data, store => { store with
      connectors := Table.modify Connector.id id data.apply store.connectors }
  | .pipelineCreate data, store => (store.createPipeline data).2
  | .pipelineUpdate id data, store => { store with
      pipelines := Table.modify SyncPipeline.id id data.apply store.pipelines }
  | .syncRunCreate data, store => (store.createSyncRun data).2
  | .syncRunUpdate id data, store => { store with
      syncRuns := Table.modify SyncRun.id id data.apply store.syncRuns }
  | .backgroundJobCreate data, store => (store.createBackgroundJob data).2
  | .backgroundJobUpdate id data, store => { store with
      backgroundJobs := Table.modify BackgroundJob.id id data.apply
        store.backgroundJobs }
  | .webhookEventCreate data, store => (store.createWebhookEvent data).2
  | .webhookEventUpdate id data, store => { store with
      webhookEvents := Table.modify WebhookEvent.id id data.apply
        store.webhookEvents }
  | .syncedRecordCreate data, store => (store.createSyncedRecord data).2
  | .auditLogCreate data, store => store.createAuditLog data
  | .queueAdd jobId payload attempts, store =>
      store.addJob jobId payload attempts
  | .moveToCompleted jobId token, store => { store with
      jobs := store.jobs.map
        (QueueJob.settled jobId token QueueJob.complete) }
  | .moveToFailed jobId token, store => { store with
      jobs := store.jobs.map
        (QueueJob.settled jobId token QueueJob.retryOrFail) }
  | .pollEnter worker lockTtlSeconds, store =>
      let lock := store.pollLocks worker
      if lock.pollInProgress || store.clock < lock.lockUntil then store
      else { store with
        pollLocks := fun other =>
          if other = worker then
            ⟨true, store.clock + (lockTtlSeconds : Time) * 1000⟩
          else store.pollLocks other }
  | .pollLeave worker, store => { store with
      pollLocks := fun other =>
        if other = worker then {} else store.pollLocks other }
  | _, store => store

theorem exec_effect (h : exec env op store = .ok (value, store')) :
    store' = op.effect store := by
  cases op with
  | moveToCompleted jobId token =>
      simp only [exec] at h
      split at h
      · cases h
      · rename_i hsettle
        cases h
        exact (settleJob_eq_some hsettle).2
  | moveToFailed jobId token =>
      simp only [exec] at h
      split at h
      · cases h
      · rename_i hsettle
        cases h
        exact (settleJob_eq_some hsettle).2
  | pollEnter worker lockTtlSeconds =>
      simp only [exec] at h
      simp only [Op.effect]
      split at h <;> cases h <;> simp_all
  | _ =>
      simp only [exec] at h
      try split at h
      all_goals first
        | cases h; rfl
        | cases h

/-! ## Tables that an operation leaves alone -/

def Op.writesConnectors : Op → Bool
  | .connectorCreate _ => true
  | .connectorUpdate _ _ => true
  | _ => false

def Op.writesPipelines : Op → Bool
  | .pipelineCreate _ => true
  | .pipelineUpdate _ _ => true
  | _ => false

def Op.writesSyncRuns : Op → Bool
  | .syncRunCreate _ => true
  | .syncRunUpdate _ _ => true
  | _ => false

def Op.writesWebhookEvents : Op → Bool
  | .webhookEventCreate _ => true
  | .webhookEventUpdate _ _ => true
  | _ => false

def Op.writesSyncedRecords : Op → Bool
  | .syncedRecordCreate _ => true
  | _ => false

def Op.writesJobs : Op → Bool
  | .queueAdd _ _ _ => true
  | .moveToCompleted _ _ => true
  | .moveToFailed _ _ => true
  | _ => false

/-- Of the store a polling cycle that starts changes the locks alone. -/
theorem effect_pollEnter {worker : Id} {lockTtlSeconds : Nat} :
    ∃ pollLocks, (Op.pollEnter worker lockTtlSeconds).effect store =
      { store with pollLocks := pollLocks } := by
  simp only [Op.effect]
  split
  · exact ⟨store.pollLocks, rfl⟩
  · exact ⟨_, rfl⟩

theorem effect_connectors (hop : op.writesConnectors = false) :
    (op.effect store).connectors = store.connectors := by
  cases op with
  | connectorCreate _ | connectorUpdate _ _ => cases hop
  | pollEnter _ _ =>
      obtain ⟨pollLocks, heq⟩ := @effect_pollEnter store _ _
      rw [heq]
  | _ => rfl

theorem effect_pipelines (hop : op.writesPipelines = false) :
    (op.effect store).pipelines = store.pipelines := by
  cases op with
  | pipelineCreate _ | pipelineUpdate _ _ => cases hop
  | pollEnter _ _ =>
      obtain ⟨pollLocks, heq⟩ := @effect_pollEnter store _ _
      rw [heq]
  | _ => rfl

theorem effect_syncRuns (hop : op.writesSyncRuns = false) :
    (op.effect store).syncRuns = store.syncRuns := by
  cases op with
  | syncRunCreate _ | syncRunUpdate _ _ => cases hop
  | pollEnter _ _ =>
      obtain ⟨pollLocks, heq⟩ := @effect_pollEnter store _ _
      rw [heq]
  | _ => rfl

theorem effect_webhookEvents (hop : op.writesWebhookEvents = false) :
    (op.effect store).webhookEvents = store.webhookEvents := by
  cases op with
  | webhookEventCreate _ | webhookEventUpdate _ _ => cases hop
  | pollEnter _ _ =>
      obtain ⟨pollLocks, heq⟩ := @effect_pollEnter store _ _
      rw [heq]
  | _ => rfl

theorem effect_syncedRecords (hop : op.writesSyncedRecords = false) :
    (op.effect store).syncedRecords = store.syncedRecords := by
  cases op with
  | syncedRecordCreate _ => cases hop
  | pollEnter _ _ =>
      obtain ⟨pollLocks, heq⟩ := @effect_pollEnter store _ _
      rw [heq]
  | _ => rfl

theorem effect_jobs (hop : op.writesJobs = false) :
    (op.effect store).jobs = store.jobs := by
  cases op with
  | queueAdd _ _ _ | moveToCompleted _ _ | moveToFailed _ _ => cases hop
  | pollEnter _ _ =>
      obtain ⟨pollLocks, heq⟩ := @effect_pollEnter store _ _
      rw [heq]
  | _ => rfl

theorem effect_clock : (op.effect store).clock = store.clock := by
  cases op with
  | pollEnter _ _ =>
      obtain ⟨pollLocks, heq⟩ := @effect_pollEnter store _ _
      rw [heq]
  | _ => rfl

theorem nextId_le_effect : store.nextId ≤ (op.effect store).nextId := by
  cases op with
  | pollEnter _ _ =>
      obtain ⟨pollLocks, heq⟩ := @effect_pollEnter store _ _
      rw [heq]
  | connectorCreate _ | pipelineCreate _ | syncRunCreate _
  | backgroundJobCreate _ | webhookEventCreate _ | syncedRecordCreate _ | auditLogCreate _ =>
      exact Nat.le_succ _
  | _ => exact Nat.le_refl _

theorem keyed_pipelines
    (h : Table.Keyed SyncPipeline.id store.nextId store.pipelines) :
    Table.Keyed SyncPipeline.id (op.effect store).nextId
      (op.effect store).pipelines := by
  cases hop : op.writesPipelines with
  | false =>
      rw [effect_pipelines hop]
      exact h.mono nextId_le_effect
  | true =>
      cases op with
      | pipelineCreate data => exact h.append rfl
      | pipelineUpdate id data => exact h.modify fun _ => rfl
      | _ => cases hop

/-! ## Where a row comes from -/

theorem connectors_of_effect {row : Connector} (h : row ∈ (op.effect store).connectors) :
    row ∈ store.connectors ∨
    (∃ data, op = .connectorCreate data ∧ row = (store.createConnector data).1) ∨
    ∃ data, ∃ old ∈ store.connectors,
      op = .connectorUpdate old.id data ∧ row = data.apply old := by
  cases hop : op.writesConnectors with
  | false =>
      rw [effect_connectors hop] at h
      exact .inl h
  | true =>
      cases op with
      | connectorCreate data =>
          rcases List.mem_append.mp h with hold | hnew
          · exact .inl hold
          · exact .inr (.inl ⟨data, rfl, List.mem_singleton.mp hnew⟩)
      | connectorUpdate id data =>
          rcases Table.mem_modify_cases h with hold | ⟨old, hold, rfl, hrow⟩
          · exact .inl hold
          · exact .inr (.inr ⟨data, old, hold, rfl, hrow⟩)
      | _ => cases hop

theorem pipelines_of_effect {row : SyncPipeline} (h : row ∈ (op.effect store).pipelines) :
    row ∈ store.pipelines ∨
    (∃ data, op = .pipelineCreate data ∧ row = (store.createPipeline data).1) ∨
    ∃ data, ∃ old ∈ store.pipelines,
      op = .pipelineUpdate old.id data ∧ row = data.apply old := by
  cases hop : op.writesPipelines with
  | false =>
      rw [effect_pipelines hop] at h
      exact .inl h
  | true =>
      cases op with
      | pipelineCreate data =>
          rcases List.mem_append.mp h with hold | hnew
          · exact .inl hold
          · exact .inr (.inl ⟨data, rfl, List.mem_singleton.mp hnew⟩)
      | pipelineUpdate id data =>
          rcases Table.mem_modify_cases h with hold | ⟨old, hold, rfl, hrow⟩
          · exact .inl hold
          · exact .inr (.inr ⟨data, old, hold, rfl, hrow⟩)
      | _ => cases hop

theorem syncRuns_of_effect {row : SyncRun} (h : row ∈ (op.effect store).syncRuns) :
    row ∈ store.syncRuns ∨
    (∃ data, op = .syncRunCreate data ∧ row = (store.createSyncRun data).1) ∨
    ∃ data, ∃ old ∈ store.syncRuns,
      op = .syncRunUpdate old.id data ∧ row = data.apply old := by
  cases hop : op.writesSyncRuns with
  | false =>
      rw [effect_syncRuns hop] at h
      exact .inl h
  | true =>
      cases op with
      | syncRunCreate data =>
          rcases List.mem_append.mp h with hold | hnew
          · exact .inl hold
          · exact .inr (.inl ⟨data, rfl, List.mem_singleton.mp hnew⟩)
      | syncRunUpdate id data =>
          rcases Table.mem_modify_cases h with hold | ⟨old, hold, rfl, hrow⟩
          · exact .inl hold
          · exact .inr (.inr ⟨data, old, hold, rfl, hrow⟩)
      | _ => cases hop

theorem webhookEvents_of_effect {row : WebhookEvent} (h : row ∈ (op.effect store).webhookEvents) :
    row ∈ store.webhookEvents ∨
    (∃ data, op = .webhookEventCreate data ∧ row = (store.createWebhookEvent data).1) ∨
    ∃ data, ∃ old ∈ store.webhookEvents,
      op = .webhookEventUpdate old.id data ∧ row = data.apply old := by
  cases hop : op.writesWebhookEvents with
  | false =>
      rw [effect_webhookEvents hop] at h
      exact .inl h
  | true =>
      cases op with
      | webhookEventCreate data =>
          rcases List.mem_append.mp h with hold | hnew
          · exact .inl hold
          · exact .inr (.inl ⟨data, rfl, List.mem_singleton.mp hnew⟩)
      | webhookEventUpdate id data =>
          rcases Table.mem_modify_cases h with hold | ⟨old, hold, rfl, hrow⟩
          · exact .inl hold
          · exact .inr (.inr ⟨data, old, hold, rfl, hrow⟩)
      | _ => cases hop

theorem syncedRecords_of_effect {row : SyncedRecord}
    (h : row ∈ (op.effect store).syncedRecords) :
    row ∈ store.syncedRecords ∨
    ∃ data, op = .syncedRecordCreate data ∧
      row = (store.createSyncedRecord data).1 := by
  cases hop : op.writesSyncedRecords with
  | false =>
      rw [effect_syncedRecords hop] at h
      exact .inl h
  | true =>
      cases op with
      | syncedRecordCreate data =>
          rcases List.mem_append.mp h with hold | hnew
          · exact .inl hold
          · exact .inr ⟨data, rfl, List.mem_singleton.mp hnew⟩
      | _ => cases hop

/-! ## Values -/

theorem exec_connectorFindUnique {id : Id} {found : Option Connector}
    (h : exec env (.connectorFindUnique id) store = .ok (found, store')) :
    found = Table.find Connector.id id store.connectors :=
  (congrArg Prod.fst (Except.ok.inj h)).symm

theorem exec_pipelineFindUnique {id : Id} {found : Option SyncPipeline}
    (h : exec env (.pipelineFindUnique id) store = .ok (found, store')) :
    found = Table.find SyncPipeline.id id store.pipelines :=
  (congrArg Prod.fst (Except.ok.inj h)).symm

theorem exec_syncRunFindUnique {id : Id} {found : Option SyncRun}
    (h : exec env (.syncRunFindUnique id) store = .ok (found, store')) :
    found = Table.find SyncRun.id id store.syncRuns :=
  (congrArg Prod.fst (Except.ok.inj h)).symm

theorem exec_webhookEventFindUnique {id : Id} {found : Option WebhookEvent}
    (h : exec env (.webhookEventFindUnique id) store = .ok (found, store')) :
    found = Table.find WebhookEvent.id id store.webhookEvents :=
  (congrArg Prod.fst (Except.ok.inj h)).symm

theorem exec_pipelineFindActive {sourceConnectorId : Id}
    {rows : List SyncPipeline} {row : SyncPipeline}
    (h : exec env (.pipelineFindActive sourceConnectorId) store =
      .ok (rows, store')) (hrow : row ∈ rows) :
    row ∈ store.pipelines ∧ row.sourceConnectorId = sourceConnectorId ∧
      row.status = .active := by
  obtain rfl := congrArg Prod.fst (Except.ok.inj h)
  obtain ⟨hmem, hactive⟩ :=
    List.mem_filter.mp ((List.mem_insertionSort _).mp hrow)
  simp only [Bool.and_eq_true, decide_eq_true_eq] at hactive
  exact ⟨hmem, hactive⟩

theorem exec_pipelineFindDue {now : Time} {rows : List SyncPipeline}
    {row : SyncPipeline}
    (h : exec env (.pipelineFindDue now) store = .ok (rows, store'))
    (hrow : row ∈ rows) : row ∈ store.pipelines ∧ row.isDue now = true := by
  obtain rfl := congrArg Prod.fst (Except.ok.inj h)
  exact List.mem_filter.mp ((List.mem_insertionSort _).mp hrow)

theorem of_isDue {now : Time} {row : SyncPipeline} (h : row.isDue now = true) :
    row.status = .active ∧ row.scheduleEnabled = true := by
  simp only [SyncPipeline.isDue, Bool.and_eq_true, decide_eq_true_eq] at h
  exact h.1.1

theorem exec_webhookEventCreate {data : NewWebhookEvent} {event : WebhookEvent}
    (h : exec env (.webhookEventCreate data) store = .ok (event, store')) :
    violatesUnique data store.webhookEvents = false ∧
      event = (store.createWebhookEvent data).1 := by
  simp only [exec] at h
  split at h
  · cases h
  · rename_i hunique
    exact ⟨by simpa using hunique,
      (congrArg Prod.fst (Except.ok.inj h)).symm⟩

theorem exec_webhookEventFindFirst {sourceConnectorRef : Id}
    {idempotencyKey : String} {found : Option WebhookEvent}
    (h : exec env (.webhookEventFindFirst sourceConnectorRef idempotencyKey)
      store = .ok (found, store')) :
    found = store.webhookEvents.find? fun row =>
      row.sourceConnectorRef = sourceConnectorRef &&
        row.idempotencyKey = some idempotencyKey :=
  (congrArg Prod.fst (Except.ok.inj h)).symm

theorem exec_moveToFailed {jobId : Id} {token : Nat} {settled : Unit}
    (h : exec env (.moveToFailed jobId token) store =
      .ok (settled, store')) :
    ∃ job ∈ store.jobs, job.id = jobId ∧ job.state = .active token := by
  simp only [exec] at h
  split at h
  · cases h
  · rename_i hsettle
    exact (settleJob_eq_some hsettle).1

/-! ## A body on its own -/

def machine (env : Env) : Machine Op.Res Failure Store := ⟨exec env, Op.fallible⟩

theorem machine_effect {op : Op} {value : op.Res} {store store' : Store}
    (h : (machine env).exec op store = .ok (value, store')) :
    store' = op.effect store := exec_effect h

end SyncBridge
