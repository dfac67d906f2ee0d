import SyncBridge.Deliveries
import SyncBridge.Integrity.Bodies
import SyncBridge.Runs.Redelivery

/-!
# The references of a store

Whatever calls, failures and deliveries there have been, every reference leads
to a row: the foreign keys of the schema as well as the references that no key
declares, those of records to a run of their own pipeline, of jobs to their
entity, of the queue to its jobs and of the audit log to what it is about.
-/

namespace SyncBridge

open SyncBridge.Foundation

/-! ## Identifiers -/

structure Store.Keys (store : Store) : Prop where
  connectors : Table.Keyed Connector.id store.nextId store.connectors
  pipelines : Table.Keyed SyncPipeline.id store.nextId store.pipelines
  syncRuns : Table.Keyed SyncRun.id store.nextId store.syncRuns
  backgroundJobs : Table.Keyed BackgroundJob.id store.nextId store.backgroundJobs
  webhookEvents : Table.Keyed WebhookEvent.id store.nextId store.webhookEvents
  syncedRecords : Table.Keyed SyncedRecord.id store.nextId store.syncedRecords
  auditLogs : Table.Keyed AuditLog.id store.nextId store.auditLogs

theorem Store.Keys.mono {store : Store} (h : store.Keys) {nextId : Id}
    (hle : store.nextId ≤ nextId) : { store with nextId := nextId }.Keys where
  connectors := h.connectors.mono hle
  pipelines := h.pipelines.mono hle
  syncRuns := h.syncRuns.mono hle
  backgroundJobs := h.backgroundJobs.mono hle
  webhookEvents := h.webhookEvents.mono hle
  syncedRecords := h.syncedRecords.mono hle
  auditLogs := h.auditLogs.mono hle

theorem keys_effect {op : Op} {store : Store} (h : store.Keys) :
    (op.effect store).Keys := by
  have hnext := h.mono (Nat.le_succ store.nextId)
  cases op with
  | connectorCreate data => exact { hnext with connectors := h.connectors.append rfl }
  | connectorUpdate id data =>
      exact { h with connectors := h.connectors.modify fun _ => rfl }
  | pipelineCreate data => exact { hnext with pipelines := h.pipelines.append rfl }
  | pipelineUpdate id data =>
      exact { h with pipelines := h.pipelines.modify fun _ => rfl }
  | syncRunCreate data => exact { hnext with syncRuns := h.syncRuns.append rfl }
  | syncRunUpdate id data =>
      exact { h with syncRuns := h.syncRuns.modify fun _ => rfl }
  | backgroundJobCreate data =>
      exact { hnext with backgroundJobs := h.backgroundJobs.append rfl }
  | backgroundJobUpdate id data =>
      exact { h with backgroundJobs := h.backgroundJobs.modify fun _ => rfl }
  | webhookEventCreate data =>
      exact { hnext with webhookEvents := h.webhookEvents.append rfl }
  | webhookEventUpdate id data =>
      exact { h with webhookEvents := h.webhookEvents.modify fun _ => rfl }
  | syncedRecordCreate data =>
      exact { hnext with syncedRecords := h.syncedRecords.append rfl }
  | auditLogCreate data => exact { hnext with auditLogs := h.auditLogs.append rfl }
  | pollEnter worker lockTtlSeconds =>
      obtain ⟨pollLocks, heq⟩ := @effect_pollEnter store _ _
      rw [heq]
      exact { h with }
  | _ => exact { h with }

/-! ## References -/

structure Store.Linked (store : Store) : Prop where
  keys : store.Keys
  pipelines : ∀ row ∈ store.pipelines,
    .connector row.sourceConnectorId ∈ store.facts
  syncRuns : ∀ row ∈ store.syncRuns, .pipeline row.pipelineId ∈ store.facts
  /-- A record is one of a run of its pipeline, manual or of a webhook. -/
  syncedRecords : ∀ row ∈ store.syncedRecords,
    ∃ triggerType : SyncRunTriggerType,
      .syncRun row.syncRunId row.pipelineId triggerType ∈ store.facts ∧
        triggerType.sourceType = some row.sourceType
  webhookEvents : ∀ row ∈ store.webhookEvents, ∀ connectorId,
    row.connectorId = some connectorId →
    connectorId = row.sourceConnectorRef ∧
      .connector connectorId ∈ store.facts
  backgroundJobs : ∀ row ∈ store.backgroundJobs,
    row.entityType = row.type.entityType ∧
      row.type.Concerns row.entityId store.facts
  jobs : ∀ job ∈ store.jobs, job.payload.backgroundJobId = job.id ∧
    job.payload.Suits ∧ job.payload.refs ⊆ store.facts
  auditLogs : ∀ row ∈ store.auditLogs,
    NamesEntity store.facts row.entityType row.entityId

theorem Store.Linked.intact {store : Store} (h : store.Linked) :
    store.Intact where
  connectorIds := h.keys.connectors.nodup
  pipelineIds := h.keys.pipelines.nodup
  syncRunIds := h.keys.syncRuns.nodup
  webhookEventIds := h.keys.webhookEvents.nodup
  backgroundJobIds := h.keys.backgroundJobs.nodup
  sourceConnector := h.pipelines
  pipeline := h.syncRuns
  connector row hrow id hid := (h.webhookEvents row hrow id hid).2
  entityType row hrow := (h.backgroundJobs row hrow).1

section Steps

variable {env : Env} {op : Op} {store store' : Store} {value : op.Res}

theorem backgroundJobs_of_effect {row : BackgroundJob}
    (h : row ∈ (op.effect store).backgroundJobs) :
    (∃ data, op = .backgroundJobCreate data ∧
      row = (store.createBackgroundJob data).1) ∨
    ∃ old ∈ store.backgroundJobs, old.identity = row.identity := by
  cases op with
  | backgroundJobCreate data =>
      rcases List.mem_append.mp h with hold | hnew
      · exact .inr ⟨row, hold, rfl⟩
      · exact .inl ⟨data, rfl, List.mem_singleton.mp hnew⟩
  | backgroundJobUpdate id data =>
      rcases Table.mem_modify_cases h with hold | ⟨old, hold, rfl, rfl⟩
      · exact .inr ⟨row, hold, rfl⟩
      · exact .inr ⟨old, hold, rfl⟩
  | pollEnter worker lockTtlSeconds =>
      obtain ⟨pollLocks, heq⟩ := @effect_pollEnter store _ _
      rw [heq] at h
      exact .inr ⟨row, h, rfl⟩
  | _ => exact .inr ⟨row, h, rfl⟩

theorem auditLogs_of_effect {row : AuditLog}
    (h : row ∈ (op.effect store).auditLogs) :
    row ∈ store.auditLogs ∨ ∃ data, op = .auditLogCreate data ∧
      row.entityType = data.entityType ∧ row.entityId = data.entityId := by
  cases op with
  | auditLogCreate data =>
      rcases List.mem_append.mp h with hold | hnew
      · exact .inl hold
      · obtain rfl := List.mem_singleton.mp hnew
        exact .inr ⟨data, rfl, rfl, rfl⟩
  | pollEnter worker lockTtlSeconds =>
      obtain ⟨pollLocks, heq⟩ := @effect_pollEnter store _ _
      rw [heq] at h
      exact .inl h
  | _ => exact .inl h

theorem settled_identity {jobId : Id} {token : Nat}
    {settle : QueueJob → QueueJob} {job : QueueJob}
    (hsettle : ∀ job, (settle job).identity = job.identity)
    (h : job ∈ store.jobs.map (QueueJob.settled jobId token settle)) :
    ∃ old ∈ store.jobs, old.identity = job.identity := by
  obtain ⟨old, hold, rfl⟩ := List.mem_map.mp h
  refine ⟨old, hold, ?_⟩
  rw [QueueJob.settled]
  split
  · exact (hsettle old).symm
  · rfl

theorem jobs_of_effect {job : QueueJob} (h : job ∈ (op.effect store).jobs) :
    (∃ jobId payload attempts, op = .queueAdd jobId payload attempts ∧
      job.id = jobId ∧ job.payload = payload) ∨
    ∃ old ∈ store.jobs, old.identity = job.identity := by
  cases op with
  | queueAdd jobId payload attempts =>
      rcases List.mem_append.mp h with hold | hnew
      · exact .inr ⟨job, hold, rfl⟩
      · obtain rfl := List.mem_singleton.mp hnew
        exact .inl ⟨jobId, payload, attempts, rfl, rfl, rfl⟩
  | moveToCompleted jobId token =>
      exact .inr (@settled_identity store jobId token QueueJob.complete job
        (fun _ => rfl) h)
  | moveToFailed jobId token =>
      exact .inr (@settled_identity store jobId token QueueJob.retryOrFail job
        (fun _ => rfl) h)
  | pollEnter worker lockTtlSeconds =>
      obtain ⟨pollLocks, heq⟩ := @effect_pollEnter store _ _
      rw [heq] at h
      exact .inr ⟨job, h, rfl⟩
  | _ => exact .inr ⟨job, h, rfl⟩

/-- An operation whose references are all there leaves all references there. -/
theorem linked_effect (h : store.Linked) (hrefers : op.Refers store.facts) :
    (op.effect store).Linked := by
  have hkept : store.facts ⊆ (op.effect store).facts := continues_effect.facts
  refine ⟨keys_effect h.keys, ?_, ?_, ?_, ?_, ?_, ?_, ?_⟩
  · intro row hrow
    rcases pipelines_of_effect hrow with hold | ⟨data, rfl, rfl⟩ |
      ⟨data, old, hold, rfl, rfl⟩
    · exact hkept (h.pipelines row hold)
    · exact hkept hrefers
    · refine hkept ?_
      show Fact.connector (data.sourceConnectorId.getD old.sourceConnectorId) ∈ _
      cases hgiven : data.sourceConnectorId with
      | none => exact h.pipelines old hold
      | some sourceConnectorId => exact hrefers sourceConnectorId hgiven
  · intro row hrow
    rcases syncRuns_of_effect hrow with hold | ⟨data, rfl, rfl⟩ |
      ⟨data, old, hold, rfl, rfl⟩
    · exact hkept (h.syncRuns row hold)
    · exact hkept hrefers
    · exact hkept (h.syncRuns old hold)
  · intro row hrow
    rcases syncedRecords_of_effect hrow with hold | ⟨data, rfl, rfl⟩
    · obtain ⟨triggerType, hrun, hsource⟩ := h.syncedRecords row hold
      exact ⟨triggerType, hkept hrun, hsource⟩
    · obtain ⟨triggerType, hrun, hsource⟩ := hrefers
      exact ⟨triggerType, hkept hrun, hsource⟩
  · intro row hrow connectorId hconnector
    rcases webhookEvents_of_effect hrow with hold | ⟨data, rfl, rfl⟩ |
      ⟨data, old, hold, rfl, rfl⟩
    · obtain ⟨hid, hknown⟩ := h.webhookEvents row hold connectorId hconnector
      exact ⟨hid, hkept hknown⟩
    · obtain ⟨hid, hknown⟩ := hrefers connectorId hconnector
      exact ⟨hid, hkept hknown⟩
    · obtain ⟨hid, hknown⟩ := h.webhookEvents old hold connectorId hconnector
      exact ⟨hid, hkept hknown⟩
  · intro row hrow
    rcases backgroundJobs_of_effect hrow with ⟨data, rfl, rfl⟩ |
      ⟨old, hold, hsame⟩
    · exact ⟨hrefers.1, hrefers.2.mono hkept⟩
    · simp only [BackgroundJob.identity, Prod.mk.injEq] at hsame
      obtain ⟨-, htype, hentityType, hentityId, -⟩ := hsame
      rw [← htype, ← hentityType, ← hentityId]
      exact ⟨(h.backgroundJobs old hold).1,
        (h.backgroundJobs old hold).2.mono hkept⟩
  · intro job hjob
    rcases jobs_of_effect hjob with ⟨jobId, payload, attempts, rfl, rfl, rfl⟩ |
      ⟨old, hold, hsame⟩
    · exact ⟨hrefers.1, hrefers.2.1, hrefers.2.2.trans hkept⟩
    · simp only [QueueJob.identity, Prod.mk.injEq] at hsame
      obtain ⟨hid, hpayload, -⟩ := hsame
      rw [← hid, ← hpayload]
      obtain ⟨hjobId, hsuits, hrefs⟩ := h.jobs old hold
      exact ⟨hjobId, hsuits, hrefs.trans hkept⟩
  · intro row hrow
    rcases auditLogs_of_effect hrow with hold | ⟨data, rfl, htype, hid⟩
    · exact (h.auditLogs row hold).mono hkept
    · rw [htype, hid]
      exact NamesEntity.mono hkept hrefers

theorem facts_of_shows {fact : Fact}
    (hexec : exec env op store = .ok (value, store'))
    (hshows : fact ∈ op.shows value) : fact ∈ store'.facts := by
  have hstore := exec_effect hexec
  subst hstore
  cases op with
  | connectorFindUnique id =>
      have hfound := exec_connectorFindUnique hexec
      cases value with
      | none => exact hshows.elim
      | some row =>
          obtain rfl := hshows
          exact ⟨row, Table.find_mem hfound.symm, rfl⟩
  | pipelineFindUnique id =>
      have hfound := exec_pipelineFindUnique hexec
      cases value with
      | none => exact hshows.elim
      | some row =>
          obtain rfl := hshows
          exact ⟨row, Table.find_mem hfound.symm, rfl⟩
  | pipelineFindActive id =>
      obtain ⟨row, hrow, rfl⟩ := hshows
      exact ⟨row, (exec_pipelineFindActive hexec hrow).1, rfl⟩
  | pipelineFindDue now =>
      obtain ⟨row, hrow, rfl⟩ := hshows
      exact ⟨row, (exec_pipelineFindDue hexec hrow).1, rfl⟩
  | webhookEventFindFirst connectorId idempotencyKey =>
      have hfound := exec_webhookEventFindFirst hexec
      cases value with
      | none => exact hshows.elim
      | some row =>
          obtain rfl := hshows
          exact ⟨row, List.mem_of_find?_eq_some hfound.symm, rfl⟩
  | webhookEventFindUnique id =>
      have hfound := exec_webhookEventFindUnique hexec
      cases value with
      | none => exact hshows.elim
      | some row =>
          obtain rfl := hshows
          exact ⟨row, Table.find_mem hfound.symm, rfl⟩
  | webhookEventFindUniqueWithConnector id =>
      have hfound := congrArg Prod.fst (Except.ok.inj hexec)
      cases value with
      | none => exact hshows.elim
      | some pair =>
          obtain ⟨row, hrow, rfl⟩ := Option.map_eq_some_iff.mp hfound
          obtain rfl := hshows
          exact ⟨row, Table.find_mem hrow, rfl⟩
  | connectorCreate data =>
      obtain rfl := congrArg Prod.fst (Except.ok.inj hexec)
      obtain rfl := hshows
      exact ⟨_, List.mem_append_right _ (List.mem_singleton_self _), rfl⟩
  | pipelineCreate data =>
      obtain rfl := congrArg Prod.fst (Except.ok.inj hexec)
      obtain rfl := hshows
      exact ⟨_, List.mem_append_right _ (List.mem_singleton_self _), rfl⟩
  | syncRunCreate data =>
      obtain rfl := congrArg Prod.fst (Except.ok.inj hexec)
      obtain rfl := hshows
      exact ⟨_, List.mem_append_right _ (List.mem_singleton_self _), rfl, rfl,
        rfl⟩
  | syncRunUpdate id data =>
      simp only [exec] at hexec
      split at hexec
      · cases hexec
      · rename_i old hfound
        obtain rfl := congrArg Prod.fst (Except.ok.inj hexec)
        obtain rfl := hshows
        have hid := Table.find_key hfound
        refine ⟨data.apply old, Table.mem_modify.mpr
          ⟨old, Table.find_mem hfound, ?_⟩, rfl, rfl, rfl⟩
        rw [if_pos hid]
  | backgroundJobCreate data =>
      obtain rfl := congrArg Prod.fst (Except.ok.inj hexec)
      obtain rfl := hshows
      exact ⟨_, List.mem_append_right _ (List.mem_singleton_self _), rfl, rfl,
        rfl⟩
  | webhookEventCreate data =>
      obtain ⟨-, rfl⟩ := exec_webhookEventCreate hexec
      obtain rfl := hshows
      exact ⟨_, List.mem_append_right _ (List.mem_singleton_self _), rfl⟩
  | syncedRecordCreate data =>
      obtain rfl := congrArg Prod.fst (Except.ok.inj hexec)
      obtain rfl := hshows
      exact ⟨_, List.mem_append_right _ (List.mem_singleton_self _), rfl⟩
  | _ => exact hshows.elim

theorem answers_of_exec (hexec : exec env op store = .ok (value, store')) :
    op.answers value := by
  cases op with
  | connectorFindUnique id =>
      have hfound := exec_connectorFindUnique hexec
      cases value with
      | none => trivial
      | some row => exact Table.find_key hfound.symm
  | pipelineFindUnique id =>
      have hfound := exec_pipelineFindUnique hexec
      cases value with
      | none => trivial
      | some row => exact Table.find_key hfound.symm
  | syncRunFindUnique id =>
      have hfound := exec_syncRunFindUnique hexec
      cases value with
      | none => trivial
      | some row => exact Table.find_key hfound.symm
  | backgroundJobFindUnique id =>
      have hfound := congrArg Prod.fst (Except.ok.inj hexec)
      cases value with
      | none => trivial
      | some row => exact Table.find_key hfound
  | webhookEventFindUnique id =>
      have hfound := exec_webhookEventFindUnique hexec
      cases value with
      | none => trivial
      | some row => exact Table.find_key hfound.symm
  | webhookEventFindUniqueWithConnector id =>
      have hfound := congrArg Prod.fst (Except.ok.inj hexec)
      cases value with
      | none => trivial
      | some pair =>
          obtain ⟨row, hrow, rfl⟩ := Option.map_eq_some_iff.mp hfound
          exact Table.find_key hrow
  | _ => trivial

theorem linked_event {event : Event} {token : Nat} {calls : List Call}
    (h : store.Linked)
    (hevent : event.apply store token = some (store', calls)) :
    store'.Linked := by
  have hjobs : ∀ job ∈ store'.jobs, ∃ old ∈ store.jobs,
      old.identity = job.identity := by
    intro job hjob
    have hset : ∀ {position : Nat} {changed : QueueJob} {state : QueueJobState},
        store.jobs[position]? = some changed →
        job ∈ (store.setJobState position changed state).jobs →
        ∃ old ∈ store.jobs, old.identity = job.identity := by
      intro position changed state hget hmem
      rcases mem_setJobState hmem with hold | rfl
      · exact ⟨job, hold, rfl⟩
      · exact ⟨changed, List.mem_of_getElem? hget, rfl⟩
    rcases Event.apply_cases hevent with
      ⟨elapsed, rfl, -⟩ | ⟨position, changed, hget, -, rfl, -⟩ |
      ⟨position, changed, held, hget, -, rfl, -⟩
    · exact ⟨job, hjob, rfl⟩
    · exact hset hget hjob
    · exact hset hget hjob
  obtain ⟨clock, jobs, rfl⟩ := Event.apply_store hevent
  refine { h with keys := { h.keys with }, jobs := fun job hjob => ?_ }
  obtain ⟨old, hold, hsame⟩ := hjobs job hjob
  simp only [QueueJob.identity, Prod.mk.injEq] at hsame
  obtain ⟨hid, hpayload, -⟩ := hsame
  rw [← hid, ← hpayload]
  exact h.jobs old hold

end Steps

/-! ## Runs of the platform -/

variable {env : Env} {init : Store} {pool : Platform}
  {ok : Platform → Step → Prop}

theorem references_sound :
    references.Sound (platform env) Call.Suits (fun fact store => store.Holds fact)
      Store.Linked where
  body call hcall := body_refers hcall
  starts call hcall := by
    cases call with
    | processJob jobId token payload attempts => cases hcall
    | _ => exact ⟨trivial, rfl⟩
  facts op store value store' hexec := answers_of_exec hexec
  stays op store value store' fact hexec hfact := by
    rw [exec_effect hexec]
    exact continues_effect.facts hfact
  shown _ op store value store' fact hexec _ hshows :=
    facts_of_shows hexec hshows
  keeps call seen op store value store' hexec hlinked hseen hneeds := by
    rw [exec_effect hexec]
    exact linked_effect hlinked (refers_mono hseen hneeds)
  event := by
    intro event store count store' calls hevent hlinked
    refine ⟨linked_event hlinked hevent,
      fun fact hfact => (continues_event hevent).facts hfact,
      fun call hcall => ?_⟩
    rcases Event.apply_calls hevent with rfl | ⟨position, job, -, hget, rfl⟩
    · cases hcall
    · obtain rfl := List.mem_singleton.mp hcall
      obtain ⟨-, hsuits, hrefs⟩ := hlinked.jobs job (List.mem_of_getElem? hget)
      exact ⟨hsuits, fun fact hfact =>
        (continues_event hevent).facts (hrefs hfact)⟩

/-- Every reference leads to a row, in every interleaving of calls, failures and
deliveries. -/
theorem references_lead_to_rows (hinit : init.Linked)
    (h : (platform env).Reach ok init.boot pool) : pool.store.Linked :=
  (references_sound.holds rfl hinit h).1

/-- The records of a run are those of its pipeline, and their source is what has
triggered the run; so a scheduled run has none. -/
structure Store.RecordsMatch (store : Store) (run : SyncRun) : Prop where
  pipeline : ∀ record ∈ store.rowsOf run.id, record.pipelineId = run.pipelineId
  source : ∀ record ∈ store.rowsOf run.id,
    run.triggerType.sourceType = some record.sourceType
  scheduled : run.triggerType = .scheduled → store.rowsOf run.id = []

theorem Store.Linked.run_of_record {store : Store} (h : store.Linked)
    {run : SyncRun} {record : SyncedRecord} (hrun : run ∈ store.syncRuns)
    (hrecord : record ∈ store.rowsOf run.id) :
    record.pipelineId = run.pipelineId ∧
      run.triggerType.sourceType = some record.sourceType := by
  obtain ⟨hmem, hid⟩ := List.mem_filter.mp hrecord
  obtain ⟨triggerType, ⟨row, hrow, hrowId, hpipeline, rfl⟩, hsource⟩ :=
    h.syncedRecords record hmem
  have hsame : row = run := h.keys.syncRuns.eq_of_key hrow hrun
    (hrowId.trans (by simpa using hid))
  subst hsame
  exact ⟨hpipeline.symm, hsource⟩

/-- Whatever the interleaving, the redeliveries and the failures, no record gets
into a run of another pipeline or of another kind. -/
theorem records_match_runs (hinit : init.Linked)
    (h : (platform env).Reach ok init.boot pool) :
    ∀ run ∈ pool.store.syncRuns, pool.store.RecordsMatch run := by
  have hlinked := (references_sound.holds rfl hinit h).1
  intro run hrun
  refine ⟨fun record hrecord => (hlinked.run_of_record hrun hrecord).1,
    fun record hrecord => (hlinked.run_of_record hrun hrecord).2,
    fun htrigger => ?_⟩
  refine List.eq_nil_iff_forall_not_mem.mpr fun record hrecord => ?_
  have hsource := (hlinked.run_of_record hrun hrecord).2
  rw [htrigger] at hsource
  cases hsource

/-! ## A delivered contact -/

theorem linked_sample : Sample.store.Linked where
  keys := by
    constructor <;> exact ⟨by decide, by decide⟩
  pipelines row hrow := by
    obtain rfl := List.mem_singleton.mp hrow
    exact ⟨Sample.connector, List.mem_singleton_self _, rfl⟩
  syncRuns _ hrow := absurd hrow List.not_mem_nil
  syncedRecords _ hrow := absurd hrow List.not_mem_nil
  webhookEvents _ hrow := absurd hrow List.not_mem_nil
  backgroundJobs _ hrow := absurd hrow List.not_mem_nil
  jobs _ hjob := absurd hjob List.not_mem_nil
  auditLogs _ hrow := absurd hrow List.not_mem_nil

theorem references_lead_to_rows_of_delivery :
    ∃ pool, (platform (Sample.env .async)).run Sample.store.boot
        contactDelivered = some pool ∧
      pool.store.syncedRecords.length = 1 ∧ pool.store.Linked := by
  have hruns : ((platform (Sample.env .async)).run Sample.store.boot
      contactDelivered).any (fun pool =>
        pool.store.syncedRecords.length = 1) = true := by
    decide +kernel
  obtain ⟨pool, hrun, hrows⟩ := (Option.any_eq_true _ _).mp hruns
  exact ⟨pool, hrun, of_decide_eq_true hrows,
    references_lead_to_rows linked_sample (System.reach_of_run hrun)⟩

theorem records_match_runs_of_delivery :
    ∃ pool, (platform (Sample.env .async)).run Sample.store.boot
        contactDelivered = some pool ∧
      pool.store.syncedRecords.length = 1 ∧
      ∀ run ∈ pool.store.syncRuns, pool.store.RecordsMatch run := by
  have hruns : ((platform (Sample.env .async)).run Sample.store.boot
      contactDelivered).any (fun pool =>
        pool.store.syncedRecords.length = 1) = true := by
    decide +kernel
  obtain ⟨pool, hrun, hrows⟩ := (Option.any_eq_true _ _).mp hruns
  exact ⟨pool, hrun, of_decide_eq_true hrows,
    records_match_runs linked_sample (System.reach_of_run hrun)⟩

end SyncBridge
