import SyncBridge.Sample

/-!
# The history of a store

Rows are added at the end of their tables and never removed, and the columns
that say what a row is about are written once.  Records and audit entries are
not changed at all.
-/

namespace SyncBridge

open SyncBridge.Foundation

/-! ## Columns that are written once -/

def Connector.identity (row : Connector) : Id × ConnectorType × Id × Time :=
  (row.id, row.type, row.ownerId, row.createdAt)

def SyncPipeline.identity (row : SyncPipeline) : Id × Id × Time :=
  (row.id, row.ownerId, row.createdAt)

def SyncRun.identity (row : SyncRun) : Id × Id × SyncRunTriggerType × Time :=
  (row.id, row.pipelineId, row.triggerType, row.createdAt)

def BackgroundJob.identity (row : BackgroundJob) :
    Id × BackgroundJobType × String × Id × Time :=
  (row.id, row.type, row.entityType, row.entityId, row.createdAt)

def WebhookEvent.identity (row : WebhookEvent) :
    Id × Id × Option Id × Option String × String × Json × Json × Time :=
  (row.id, row.sourceConnectorRef, row.connectorId, row.idempotencyKey,
    row.eventType, row.payloadJson, row.headersJson, row.receivedAt)

def QueueJob.identity (job : QueueJob) : Id × JobPayload × Nat :=
  (job.id, job.payload, job.attempts)

/-- The later store has all the rows of the earlier one, in the same order and
about the same things. -/
structure Store.Continues (store later : Store) : Prop where
  clock : store.clock ≤ later.clock
  nextId : store.nextId ≤ later.nextId
  connectors : store.connectors.map Connector.identity <+:
    later.connectors.map Connector.identity
  pipelines : store.pipelines.map SyncPipeline.identity <+:
    later.pipelines.map SyncPipeline.identity
  syncRuns : store.syncRuns.map SyncRun.identity <+:
    later.syncRuns.map SyncRun.identity
  backgroundJobs : store.backgroundJobs.map BackgroundJob.identity <+:
    later.backgroundJobs.map BackgroundJob.identity
  webhookEvents : store.webhookEvents.map WebhookEvent.identity <+:
    later.webhookEvents.map WebhookEvent.identity
  syncedRecords : store.syncedRecords <+: later.syncedRecords
  auditLogs : store.auditLogs <+: later.auditLogs
  jobs : store.jobs.map QueueJob.identity <+: later.jobs.map QueueJob.identity

namespace Store.Continues

variable {store middle later : Store}

theorem refl (store : Store) : store.Continues store := by
  constructor <;> first | exact le_refl _ | exact List.prefix_rfl

theorem trans (first : store.Continues middle)
    (second : middle.Continues later) : store.Continues later where
  clock := le_trans first.clock second.clock
  nextId := le_trans first.nextId second.nextId
  connectors := first.connectors.trans second.connectors
  pipelines := first.pipelines.trans second.pipelines
  syncRuns := first.syncRuns.trans second.syncRuns
  backgroundJobs := first.backgroundJobs.trans second.backgroundJobs
  webhookEvents := first.webhookEvents.trans second.webhookEvents
  syncedRecords := first.syncedRecords.trans second.syncedRecords
  auditLogs := first.auditLogs.trans second.auditLogs
  jobs := first.jobs.trans second.jobs

end Store.Continues

/-! ## Operations and events -/

section Steps

variable {op : Op} {store store' : Store}

theorem prefix_map_append {ρ β : Type} {f : ρ → β} {rows : List ρ} {row : ρ} :
    rows.map f <+: (rows ++ [row]).map f := by
  rw [List.map_append]
  exact List.prefix_append _ _

theorem prefix_map_modify {ρ β : Type} {f : ρ → β} {key : ρ → Id} {id : Id}
    {change : ρ → ρ} {rows : List ρ} (h : ∀ row, f (change row) = f row) :
    rows.map f <+: (Table.modify key id change rows).map f :=
  ⟨[], by rw [List.append_nil, Table.map_modify h]⟩

theorem prefix_map_settled {jobId : Id} {token : Nat}
    {settle : QueueJob → QueueJob} {jobs : List QueueJob}
    (h : ∀ job, (settle job).identity = job.identity) :
    jobs.map QueueJob.identity <+:
      (jobs.map (QueueJob.settled jobId token settle)).map
        QueueJob.identity := by
  have hsame : QueueJob.identity ∘ QueueJob.settled jobId token settle =
      QueueJob.identity := by
    funext job
    simp only [Function.comp_apply, QueueJob.settled]
    split
    · exact h job
    · rfl
  exact ⟨[], by rw [List.append_nil, List.map_map, hsame]⟩

theorem continues_effect : store.Continues (op.effect store) := by
  have hsame := Store.Continues.refl store
  cases op with
  | connectorCreate data =>
      exact { hsame with nextId := Nat.le_succ _, connectors := prefix_map_append }
  | connectorUpdate id data =>
      exact { hsame with connectors := prefix_map_modify fun _ => rfl }
  | pipelineCreate data =>
      exact { hsame with nextId := Nat.le_succ _, pipelines := prefix_map_append }
  | pipelineUpdate id data =>
      exact { hsame with pipelines := prefix_map_modify fun _ => rfl }
  | syncRunCreate data =>
      exact { hsame with nextId := Nat.le_succ _, syncRuns := prefix_map_append }
  | syncRunUpdate id data =>
      exact { hsame with syncRuns := prefix_map_modify fun _ => rfl }
  | backgroundJobCreate data =>
      exact { hsame with
        nextId := Nat.le_succ _, backgroundJobs := prefix_map_append }
  | backgroundJobUpdate id data =>
      exact { hsame with backgroundJobs := prefix_map_modify fun _ => rfl }
  | webhookEventCreate data =>
      exact { hsame with
        nextId := Nat.le_succ _, webhookEvents := prefix_map_append }
  | webhookEventUpdate id data =>
      exact { hsame with webhookEvents := prefix_map_modify fun _ => rfl }
  | syncedRecordCreate data =>
      exact { hsame with
        nextId := Nat.le_succ _, syncedRecords := List.prefix_append _ _ }
  | auditLogCreate data =>
      exact { hsame with
        nextId := Nat.le_succ _, auditLogs := List.prefix_append _ _ }
  | queueAdd jobId payload attempts =>
      exact { hsame with jobs := prefix_map_append }
  | moveToCompleted jobId token =>
      exact { hsame with jobs := prefix_map_settled fun _ => rfl }
  | moveToFailed jobId token =>
      exact { hsame with jobs := prefix_map_settled fun _ => rfl }
  | pollEnter worker lockTtlSeconds =>
      obtain ⟨pollLocks, heq⟩ := @effect_pollEnter store _ _
      rw [heq]
      exact { hsame with }
  | pollLeave worker => exact { hsame with }
  | _ => exact hsame

theorem continues_setJobState {position : Nat} {job : QueueJob}
    {state : QueueJobState} (hget : store.jobs[position]? = some job) :
    store.Continues (store.setJobState position job state) := by
  obtain ⟨hlt, rfl⟩ := List.getElem?_eq_some_iff.mp hget
  refine { Store.Continues.refl store with jobs := ?_ }
  have hsame : (store.jobs.set position { store.jobs[position] with
      state := state }).map QueueJob.identity =
        store.jobs.map QueueJob.identity := by
    rw [List.map_set]
    refine List.ext_getElem? fun other => ?_
    rw [List.getElem?_set]
    split
    · rename_i heq
      subst heq
      simp [hlt, QueueJob.identity]
    · rfl
  exact hsame ▸ List.prefix_rfl

theorem continues_event {event : Event} {token : Nat} {calls : List Call}
    (h : event.apply store token = some (store', calls)) :
    store.Continues store' := by
  rcases Event.apply_cases h with
    ⟨elapsed, rfl, -⟩ | ⟨position, job, hget, -, rfl, -⟩ |
    ⟨position, job, held, hget, -, rfl, -⟩
  · exact { Store.Continues.refl store with clock := Event.clock_le h }
  · exact continues_setJobState hget
  · exact continues_setJobState hget

end Steps

/-! ## Runs -/

theorem continues_of_reach {env : Env} {ok : Platform → Step → Prop}
    {init pool : Platform} (h : (platform env).Reach ok init pool) :
    init.store.Continues pool.store := by
  refine h.invariant (I := fun pool => init.store.Continues pool.store)
    (.refl _) ?_ ?_ ?_ ?_
  · exact fun _ _ _ hbefore _ _ => hbefore
  · intro pool pool' index task op next value _ hbefore _ hdone
    rw [effect_of_done hdone]
    exact hbefore.trans continues_effect
  · intro pool pool' index task op next error _ hbefore _ hraised
    rw [hraised.store]
    exact hbefore
  · intro pool pool' event calls _ hbefore _ hevent _
    exact hbefore.trans (continues_event hevent)

def contactDelivered : List Step :=
  [.start (.createForPipeline 3 ⟨some [Sample.contact], none, none⟩
    Sample.operator)] ++ List.replicate 7 (.run 0) ++ [.env (.deliver 0)] ++
    List.replicate 21 (.run 1)

end SyncBridge
