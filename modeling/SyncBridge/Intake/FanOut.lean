import Mathlib.Data.List.Forall2
import SyncBridge.Sample
import SyncBridge.Schedule.Exclusion
import SyncBridge.Services.Webhooks

/-!
# Events with active pipelines

The processing of an event starts a run for each active pipeline of the
connector, one after the other.  What becomes of a run depends on the payload
and on the mapping of its own pipeline only.
-/

namespace SyncBridge

open SyncBridge.Foundation SyncBridge.Foundation.Prog
open SyncBridge.WebhooksService

/-! ## What becomes of a pipeline -/

def Store.activePipelines (store : Store) (sourceConnectorId : Id) :
    List SyncPipeline :=
  store.pipelines.filter fun row =>
    row.sourceConnectorId = sourceConnectorId && row.status = .active

def TransformationEngine.accepts (engine : TransformationEngine)
    (ambient : Ambient) (payload : Record) (mappingJson : Json) : Bool :=
  match engine.compileMapping mappingJson with
  | .error _ => false
  | .ok fields =>
      match engine.transformRecordWithCompiledMapping ambient payload fields with
      | .error _ => false
      | .ok transformed => transformed.errors.isEmpty

def TransformationEngine.Transforms (engine : TransformationEngine)
    (payload : Record) (mappingJson : Json) : Prop :=
  ∀ fields, engine.compileMapping mappingJson = .ok fields → ∀ ambient,
    ∃ transformed, engine.transformRecordWithCompiledMapping ambient payload
      fields = .ok transformed

def WebhookEvent.externalId (event : WebhookEvent) : String :=
  event.idempotencyKey.getD (idString event.id)

/-- A run over an accepted payload ends with its one record, any other run fails
without a record. -/
def RunSettled (accepted : Bool) (externalId : String) (rows : List SyncedRecord)
    (run : SyncRun) : Prop :=
  if accepted then
    run.status = .success ∧ ∃ row, rows.filter (·.syncRunId = run.id) = [row] ∧
      row.pipelineId = run.pipelineId ∧ row.externalId = some externalId
  else
    run.status = .failed ∧ rows.filter (·.syncRunId = run.id) = []

/-- The run of a pipeline, as the payload and the pipeline's own mapping decide
it; the time and a random value are drawn for computed fields. -/
structure RunOf (env : Env) (event : WebhookEvent) (now : Time)
    (rows : List SyncedRecord) (pipeline : SyncPipeline) (run : SyncRun) :
    Prop where
  pipelineId : run.pipelineId = pipeline.id
  triggerType : run.triggerType = .webhook
  settled : ∃ random, RunSettled (env.engine.accepts ⟨now, random⟩
    (ensureRecordObject event.payloadJson) pipeline.mappingJson)
    event.externalId rows run

def countRuns (status : SyncRunStatus) (runs : List SyncRun) : Nat :=
  runs.countP fun run => run.status = status

/-- The call has added one run for each of the pipelines, in the order of their
creation, and its counters are those of the runs. -/
structure FansOut (env : Env) (event : WebhookEvent)
    (active : List SyncPipeline) (before after : Store)
    (summary : WebhookProcessingSummary) : Prop where
  runs : ∃ pipelines runs rows,
    pipelines.Perm active ∧
    pipelines.Pairwise (fun first second =>
      first.createdAt ≤ second.createdAt) ∧
    after.syncRuns = before.syncRuns ++ runs ∧
    after.syncedRecords = before.syncedRecords ++ rows ∧
    (∀ row ∈ rows, ∃ run ∈ runs, row.syncRunId = run.id) ∧
    List.Forall₂ (RunOf env event before.clock rows) pipelines runs ∧
    (runs.map SyncRun.pipelineId).Nodup ∧
    summary.pipelineIds = pipelines.map SyncPipeline.id ∧
    summary.syncRunIds = runs.map SyncRun.id ∧
    summary.recordsProcessed = countRuns .success runs ∧
    summary.recordsFailed = countRuns .failed runs
  total : summary.recordsProcessed + summary.recordsFailed = active.length
  status : summary.status = .processed
  event : ∃ row, Table.find WebhookEvent.id event.id after.webhookEvents =
    some row ∧ row.status = .processed

section Turns

variable {env : Env} {event : WebhookEvent} {actor : AuditActor}
  {pipeline : SyncPipeline} {store : Store} {run : SyncRun}
  {eventId pipelineId syncRunId : Id} {externalId message : String} {errorCount : Nat}
  {payload normalized : Record}

/-! ## One run -/

theorem exec_syncRunUpdate {data : SyncRunData}
    (h : Table.find SyncRun.id syncRunId store.syncRuns = some run) :
    (machine env).exec (.syncRunUpdate syncRunId data) store = .ok
      (data.apply run, (Op.syncRunUpdate syncRunId data).effect store) := by
  simp only [machine, exec, h, Op.effect]

theorem exec_syncRunCreate_eval {data : NewSyncRun} :
    (machine env).exec (.syncRunCreate data) store = .ok
      ((store.createSyncRun data).1, (store.createSyncRun data).2) := rfl

theorem exec_auditLogCreate_eval {data : NewAuditLog} :
    (machine env).exec (.auditLogCreate data) store =
      .ok ((), store.createAuditLog data) := rfl

theorem exec_pipelineUpdate {id : Id} {data : PipelineData}
    {row : SyncPipeline}
    (h : Table.find SyncPipeline.id id store.pipelines = some row) :
    (machine env).exec (.pipelineUpdate id data) store = .ok
      (data.apply row, (Op.pipelineUpdate id data).effect store) := by
  simp only [machine, exec, h, Op.effect]

structure Finishes (syncRunId : Id) (data : SyncRunData)
    (rows : List SyncedRecord) (before after : Store) : Prop where
  clock : after.clock = before.clock
  webhookEvents : after.webhookEvents = before.webhookEvents
  pipelines : after.pipelines.map SyncPipeline.id =
    before.pipelines.map SyncPipeline.id
  syncRuns : after.syncRuns =
    Table.modify SyncRun.id syncRunId data.apply before.syncRuns
  syncedRecords : after.syncedRecords = before.syncedRecords ++ rows
  nextId : before.nextId ≤ after.nextId

theorem ids_pipelineUpdate {id : Id} {data : PipelineData}
    {pipelines : List SyncPipeline} :
    (Table.modify SyncPipeline.id id data.apply pipelines).map
      SyncPipeline.id = pipelines.map SyncPipeline.id :=
  Table.map_modify fun _ => rfl

theorem failWebhookRun_yields
    (hrun : Table.find SyncRun.id syncRunId store.syncRuns = some run)
    (hpipeline : Table.find SyncPipeline.id pipelineId store.pipelines =
      some pipeline) :
    (machine env).Yields (fun counts after => counts = (0, 1) ∧ ∃ data,
        data.status = .failed ∧ Finishes syncRunId data [] store after)
      (failWebhookRun eventId pipelineId syncRunId externalId message
        errorCount actor) store := by
  refine Machine.yields_await_bind rfl ?_
  refine Machine.yields_await_bind (exec_syncRunUpdate hrun) ?_
  refine Machine.yields_await_bind rfl ?_
  refine Machine.yields_await_bind (exec_pipelineUpdate hpipeline) ?_
  refine Machine.yields_await_bind rfl ?_
  refine Machine.yields_await_bind rfl ?_
  exact .ret ⟨rfl, _, rfl, rfl, rfl, ids_pipelineUpdate, rfl,
    (List.append_nil _).symm, Nat.le_add_right store.nextId 2⟩

theorem storeWebhookRecord_yields
    (hrun : Table.find SyncRun.id syncRunId store.syncRuns = some run)
    (hpipeline : Table.find SyncPipeline.id pipelineId store.pipelines =
      some pipeline) :
    (machine env).Yields (fun counts after => counts = (1, 0) ∧ ∃ data row,
        data.status = .success ∧ row.syncRunId = syncRunId ∧
        row.pipelineId = pipelineId ∧ row.externalId = some externalId ∧
        Finishes syncRunId data [row] store after)
      (storeWebhookRecord eventId pipelineId syncRunId externalId payload
        normalized actor) store := by
  refine Machine.yields_await_bind rfl ?_
  refine Machine.yields_await_bind rfl ?_
  refine Machine.yields_await_bind (exec_syncRunUpdate hrun) ?_
  refine Machine.yields_await_bind rfl ?_
  refine Machine.yields_await_bind (exec_pipelineUpdate hpipeline) ?_
  refine Machine.yields_await_bind rfl ?_
  refine Machine.yields_await_bind rfl ?_
  refine Machine.yields_await_bind rfl ?_
  exact .ret ⟨rfl, _, _, rfl, rfl, rfl, rfl, rfl, rfl, ids_pipelineUpdate, rfl,
    rfl, Nat.le_add_right store.nextId 4⟩

def Exits (accepted : Bool) (syncRunId pipelineId : Id) (externalId : String)
    (counts : Nat × Nat) (before after : Store) : Prop :=
  if accepted then
    counts = (1, 0) ∧ ∃ data row, data.status = .success ∧
      row.syncRunId = syncRunId ∧ row.pipelineId = pipelineId ∧
      row.externalId = some externalId ∧
      Finishes syncRunId data [row] before after
  else
    counts = (0, 1) ∧ ∃ data, data.status = .failed ∧
      Finishes syncRunId data [] before after

theorem processWebhookForPipeline_yields {mappingJson : Json}
    (hrun : Table.find SyncRun.id syncRunId store.syncRuns = some run)
    (hpipeline : Table.find SyncPipeline.id pipelineId store.pipelines =
      some pipeline)
    (htransforms : env.engine.Transforms payload mappingJson) :
    (machine env).Yields (Exits (env.engine.accepts
        ⟨store.clock, store.nextId⟩ payload mappingJson) syncRunId pipelineId
        externalId · store)
      (processWebhookForPipeline env eventId pipelineId mappingJson payload
        externalId syncRunId actor) store := by
  simp only [processWebhookForPipeline, TransformationEngine.accepts]
  cases hcompiled : env.engine.compileMapping mappingJson with
  | error failure => exact failWebhookRun_yields hrun hpipeline
  | ok fields =>
      obtain ⟨transformed, htransformed⟩ :=
        htransforms fields hcompiled ⟨store.clock, store.nextId⟩
      have hexec : (machine env).exec (.transform payload fields) store =
          .ok (transformed, store) := by
        simp only [machine, exec, htransformed]
      refine Machine.yields_await_bind hexec ?_
      simp only [htransformed]
      cases hnone : transformed.errors with
      | nil => exact storeWebhookRecord_yields hrun hpipeline
      | cons error errors => exact failWebhookRun_yields hrun hpipeline

/-! ## One turn -/

structure Fanned (env : Env) (event : WebhookEvent) (before : Store)
    (done : List SyncPipeline) (totals : Totals) (after : Store)
    (runs : List SyncRun) (rows : List SyncedRecord) : Prop where
  clock : after.clock = before.clock
  webhookEvents : after.webhookEvents = before.webhookEvents
  pipelines : after.pipelines.map SyncPipeline.id =
    before.pipelines.map SyncPipeline.id
  keys : RunKeys after
  syncRuns : after.syncRuns = before.syncRuns ++ runs
  syncedRecords : after.syncedRecords = before.syncedRecords ++ rows
  owned : ∀ row ∈ rows, ∃ run ∈ runs, row.syncRunId = run.id
  settled : List.Forall₂ (RunOf env event before.clock rows) done runs
  pipelineIds : totals.pipelineIds = done.map SyncPipeline.id
  syncRunIds : totals.syncRunIds = runs.map SyncRun.id
  processed : totals.recordsProcessed = countRuns .success runs
  failed : totals.recordsFailed = countRuns .failed runs

theorem modify_created {data : SyncRunData} {new : NewSyncRun}
    (hkeys : RunKeys store) :
    Table.modify SyncRun.id store.nextId data.apply
        (store.createSyncRun new).2.syncRuns =
      store.syncRuns ++ [data.apply (store.createSyncRun new).1] := by
  have hold : ∀ row ∈ store.syncRuns, row.id ≠ store.nextId :=
    fun row hrow => Nat.ne_of_lt (hkeys.below row hrow)
  simp only [Store.createSyncRun, Table.modify, List.map_append,
    List.map_singleton, if_true]
  congr 1
  refine (List.map_congr_left fun row hrow => ?_).trans (List.map_id _)
  exact if_neg (hold row hrow)

theorem find_created {new : NewSyncRun} (hkeys : RunKeys store) :
    Table.find SyncRun.id store.nextId (store.createSyncRun new).2.syncRuns =
      some (store.createSyncRun new).1 :=
  Table.find_append_new
    (fun row hrow => Nat.ne_of_lt (hkeys.below row hrow)) rfl

section Extension

variable {before after : Store} {done : List SyncPipeline} {totals : Totals}
  {runs : List SyncRun} {rows new : List SyncedRecord}

theorem RunOf.mono (h : RunOf env event before.clock rows pipeline run)
    (hother : ∀ row ∈ new, row.syncRunId ≠ run.id) :
    RunOf env event before.clock (rows ++ new) pipeline run := by
  obtain ⟨random, hsettled⟩ := h.settled
  have hnone : new.filter (·.syncRunId = run.id) = [] := by
    simpa [List.filter_eq_nil_iff] using hother
  refine ⟨h.pipelineId, h.triggerType, random, ?_⟩
  rwa [RunSettled, List.filter_append, hnone, List.append_nil]

theorem Fanned.extend {counts : Nat × Nat}
    (h : Fanned env event before done totals store runs rows)
    (hclock : after.clock = store.clock)
    (hevents : after.webhookEvents = store.webhookEvents)
    (hids : after.pipelines.map SyncPipeline.id =
      store.pipelines.map SyncPipeline.id)
    (hnext : store.nextId < after.nextId)
    (hruns : after.syncRuns = store.syncRuns ++ [run])
    (hrows : after.syncedRecords = store.syncedRecords ++ new)
    (hid : run.id = store.nextId)
    (hnew : ∀ row ∈ new, row.syncRunId = store.nextId)
    (hrun : RunOf env event before.clock new pipeline run)
    (hcounts : counts = (countRuns .success [run], countRuns .failed [run])) :
    Fanned env event before (done ++ [pipeline]) {
        pipelineIds := totals.pipelineIds ++ [pipeline.id]
        syncRunIds := totals.syncRunIds ++ [store.nextId]
        recordsProcessed := totals.recordsProcessed + counts.1
        recordsFailed := totals.recordsFailed + counts.2 }
      after (runs ++ [run]) (rows ++ new) := by
  subst hcounts
  have hbelow : ∀ other ∈ runs, other.id < store.nextId := by
    intro other hother
    refine h.keys.below other ?_
    rw [h.syncRuns]
    exact List.mem_append_right _ hother
  have hrest : ∀ row ∈ rows, row.syncRunId ≠ run.id := by
    intro row hrow
    obtain ⟨other, hother, hof⟩ := h.owned row hrow
    rw [hof, hid]
    exact Nat.ne_of_lt (hbelow other hother)
  constructor
  · rw [hclock, h.clock]
  · rw [hevents, h.webhookEvents]
  · rw [hids, h.pipelines]
  · rw [RunKeys, hruns]
    exact (Table.Keyed.append h.keys hid).mono hnext
  · rw [hruns, h.syncRuns, List.append_assoc]
  · rw [hrows, h.syncedRecords, List.append_assoc]
  · intro row hrow
    rcases List.mem_append.mp hrow with hold | hlast
    · obtain ⟨other, hother, hof⟩ := h.owned row hold
      exact ⟨other, List.mem_append_left _ hother, hof⟩
    · exact ⟨run, by simp, (hnew row hlast).trans hid.symm⟩
  · refine List.rel_append ?_ (.cons ?_ .nil)
    · refine ((List.forall₂_and_left runs done).mpr
        ⟨hbelow, h.settled.flip⟩).flip.imp fun _ other hother => ?_
      refine hother.2.mono fun row hrow heq => ?_
      rw [hnew row hrow] at heq
      exact absurd hother.1 (heq ▸ lt_irrefl _)
    · obtain ⟨random, hsettled⟩ := hrun.settled
      have hnone : rows.filter (·.syncRunId = run.id) = [] := by
        simpa [List.filter_eq_nil_iff] using hrest
      refine ⟨hrun.pipelineId, hrun.triggerType, random, ?_⟩
      rwa [RunSettled, List.filter_append, hnone, List.nil_append]
  · rw [h.pipelineIds, List.map_append, List.map_singleton]
  · rw [h.syncRunIds, List.map_append, List.map_singleton, hid]
  · exact (congrArg (· + _) h.processed).trans List.countP_append.symm
  · exact (congrArg (· + _) h.failed).trans List.countP_append.symm

theorem find_of_id {pipelines : List SyncPipeline} {id : Id}
    (h : id ∈ pipelines.map SyncPipeline.id) :
    ∃ row, Table.find SyncPipeline.id id pipelines = some row := by
  refine Option.ne_none_iff_exists'.mp fun hnone => ?_
  obtain ⟨row, hrow, hid⟩ := List.mem_map.mp h
  exact Table.find_eq_none.mp hnone row hrow hid

theorem Fanned.exits {started : Store} {new : NewSyncRun} {counts : Nat × Nat}
    {ambient : Ambient}
    (h : Fanned env event before done totals store runs rows)
    (hof : new.pipelineId = pipeline.id) (htrigger : new.triggerType = .webhook)
    (hnow : ambient.now = store.clock) (hclock : started.clock = store.clock)
    (hevents : started.webhookEvents = store.webhookEvents)
    (hids : started.pipelines = store.pipelines)
    (hnext : store.nextId < started.nextId)
    (hruns : started.syncRuns = (store.createSyncRun new).2.syncRuns)
    (hrows : started.syncedRecords = store.syncedRecords)
    (hexit : Exits (env.engine.accepts ambient
      (ensureRecordObject event.payloadJson) pipeline.mappingJson)
      store.nextId pipeline.id event.externalId counts started after) :
    ∃ runs' rows', Fanned env event before (done ++ [pipeline]) {
        pipelineIds := totals.pipelineIds ++ [pipeline.id]
        syncRunIds := totals.syncRunIds ++ [store.nextId]
        recordsProcessed := totals.recordsProcessed + counts.1
        recordsFailed := totals.recordsFailed + counts.2 } after runs' rows' := by
  obtain ⟨now, random⟩ := ambient
  obtain rfl : now = before.clock := hnow.trans h.clock
  have hextends : ∀ (data : SyncRunData) (new' : List SyncedRecord),
      Finishes store.nextId data new' started after →
      (∀ row ∈ new', row.syncRunId = store.nextId) →
      RunSettled (env.engine.accepts ⟨before.clock, random⟩
        (ensureRecordObject event.payloadJson) pipeline.mappingJson)
        event.externalId new' (data.apply (store.createSyncRun new).1) →
      counts = (countRuns .success [data.apply (store.createSyncRun new).1],
        countRuns .failed [data.apply (store.createSyncRun new).1]) →
      Fanned env event before (done ++ [pipeline]) {
          pipelineIds := totals.pipelineIds ++ [pipeline.id]
          syncRunIds := totals.syncRunIds ++ [store.nextId]
          recordsProcessed := totals.recordsProcessed + counts.1
          recordsFailed := totals.recordsFailed + counts.2 } after
        (runs ++ [data.apply (store.createSyncRun new).1]) (rows ++ new') := by
    intro data new' hfinishes hown hsettled hcounts
    refine h.extend (hfinishes.clock.trans hclock)
      (hfinishes.webhookEvents.trans hevents)
      (hfinishes.pipelines.trans (congrArg _ hids))
      (hnext.trans_le hfinishes.nextId) ?_
      (hfinishes.syncedRecords.trans (congrArg (· ++ new') hrows)) rfl hown
      ⟨hof, htrigger, random, hsettled⟩ hcounts
    rw [hfinishes.syncRuns, hruns]
    exact modify_created h.keys
  rw [Exits] at hexit
  split at hexit
  · rename_i haccepted
    obtain ⟨rfl, data, row, hstatus, hrun, hpipeline, hexternal, hfinishes⟩ :=
      hexit
    refine ⟨_, _, hextends data [row] hfinishes (by simpa using hrun) ?_ ?_⟩
    · have hown : row.syncRunId = (data.apply (store.createSyncRun new).1).id :=
        hrun
      rw [RunSettled, if_pos haccepted]
      exact ⟨hstatus, row, by simp [hown], hpipeline.trans hof.symm, hexternal⟩
    · simp [countRuns, SyncRunData.apply, hstatus]
  · rename_i hrejected
    obtain ⟨rfl, data, hstatus, hfinishes⟩ := hexit
    refine ⟨_, _, hextends data [] hfinishes (by simp) ?_ ?_⟩
    · rw [RunSettled, if_neg hrejected]
      exact ⟨hstatus, rfl⟩
    · simp [countRuns, SyncRunData.apply, hstatus]

theorem processPipeline_yields
    (h : Fanned env event before done totals store runs rows)
    (hstored : pipeline.id ∈ before.pipelines.map SyncPipeline.id)
    (htransforms : env.engine.Transforms
      (ensureRecordObject event.payloadJson) pipeline.mappingJson) :
    (machine env).Yields (fun totals' after => ∃ runs' rows',
        Fanned env event before (done ++ [pipeline]) totals' after runs' rows')
      (processPipeline env event actor totals pipeline) store := by
  rw [← h.pipelines] at hstored
  obtain ⟨row, hrow⟩ := find_of_id hstored
  refine Machine.yields_await_bind rfl ?_
  refine Machine.yields_await_bind exec_syncRunCreate_eval ?_
  refine Machine.yields_await_bind exec_auditLogCreate_eval ?_
  generalize hstarted : Store.createAuditLog _ _ = started
  have hcreated : ∃ new : NewSyncRun, new.pipelineId = pipeline.id ∧
      new.triggerType = .webhook ∧
      started.syncRuns = (store.createSyncRun new).2.syncRuns := by
    rw [← hstarted]
    exact ⟨{
      pipelineId := pipeline.id
      status := .running
      triggerType := .webhook
      startedAt := some store.clock }, rfl, rfl, rfl⟩
  have hsame : started.clock = store.clock ∧
      started.webhookEvents = store.webhookEvents ∧
      started.pipelines = store.pipelines ∧
      started.syncedRecords = store.syncedRecords ∧
      started.nextId = store.nextId + 2 := by
    rw [← hstarted]
    exact ⟨rfl, rfl, rfl, rfl, rfl⟩
  obtain ⟨new, hof, htrigger, hruns⟩ := hcreated
  obtain ⟨hclock, hevents, hpipelines, hrows, hnext⟩ := hsame
  have hrun : Table.find SyncRun.id store.nextId started.syncRuns =
      some (store.createSyncRun new).1 := by
    rw [hruns]
    exact find_created h.keys
  rw [← hpipelines] at hrow
  refine (processWebhookForPipeline_yields hrun hrow htransforms).bind ?_
  intro counts after hexit
  refine .ret (h.exits hof htrigger hclock hclock hevents hpipelines ?_ hruns
    hrows hexit)
  rw [hnext]
  exact Nat.lt_add_of_pos_right Nat.two_pos

end Extension

/-! ## The loop and the event -/

theorem fanned_start (hkeys : RunKeys store) :
    Fanned env event store [] {} store [] [] where
  clock := rfl
  webhookEvents := rfl
  pipelines := rfl
  keys := hkeys
  syncRuns := (List.append_nil _).symm
  syncedRecords := (List.append_nil _).symm
  owned _ hrow := absurd hrow List.not_mem_nil
  settled := .nil
  pipelineIds := rfl
  syncRunIds := rfl
  processed := rfl
  failed := rfl

theorem pipelines_yield {pipelines : List SyncPipeline} (hkeys : RunKeys store)
    (hstored : ∀ pipeline ∈ pipelines, pipeline ∈ store.pipelines)
    (htransforms : ∀ pipeline ∈ pipelines, env.engine.Transforms
      (ensureRecordObject event.payloadJson) pipeline.mappingJson) :
    (machine env).Yields (fun totals after => ∃ runs rows,
        Fanned env event store pipelines totals after runs rows)
      (pipelines.foldlM (processPipeline env event actor) {}) store := by
  refine Machine.yields_foldlM (fun done totals after => ∃ runs rows,
    Fanned env event store done totals after runs rows) ?_
    ⟨[], [], fanned_start hkeys⟩
  rintro done pipeline rest totals after rfl ⟨runs, rows, hdone⟩
  exact processPipeline_yields hdone
    (List.mem_map_of_mem (hstored pipeline (by simp)))
    (htransforms pipeline (by simp))

theorem countRuns_add {rows : List SyncedRecord} {now : Time}
    {pipelines : List SyncPipeline} {runs : List SyncRun}
    (h : List.Forall₂ (RunOf env event now rows) pipelines runs) :
    countRuns .success runs + countRuns .failed runs = pipelines.length := by
  induction h with
  | nil => rfl
  | @cons pipeline run pipelines runs hrun _ ih =>
      obtain ⟨random, hsettled⟩ := hrun.settled
      have hstatus : run.status = .success ∨ run.status = .failed := by
        rw [RunSettled] at hsettled
        split at hsettled
        · exact .inl hsettled.1
        · exact .inr hsettled.1
      simp only [countRuns, List.countP_cons, List.length_cons] at ih ⊢
      rcases hstatus with hstatus | hstatus
      · simp only [hstatus, decide_true, if_true, reduceCtorEq, decide_false,
          Bool.false_eq_true, if_false]
        omega
      · simp only [hstatus, decide_true, if_true, reduceCtorEq, decide_false,
          Bool.false_eq_true, if_false]
        omega

theorem exec_webhookEventUpdate {data : WebhookEventData} {stored : WebhookEvent}
    (h : Table.find WebhookEvent.id eventId store.webhookEvents =
      some stored) :
    (machine env).exec (.webhookEventUpdate eventId data) store = .ok
      (data.apply stored, (Op.webhookEventUpdate eventId data).effect store) := by
  simp only [machine, exec, h, Op.effect]

theorem finishEvent_yields {status : WebhookEventStatus}
    {errorMessage : Option String} {stored : WebhookEvent}
    (h : Table.find WebhookEvent.id eventId store.webhookEvents =
      some stored) :
    (machine env).Yields (fun _ after => after.syncRuns = store.syncRuns ∧
        after.syncedRecords = store.syncedRecords ∧
        ∃ row, Table.find WebhookEvent.id eventId after.webhookEvents =
          some row ∧ row.status = status)
      (finishEvent eventId status errorMessage) store := by
  refine Machine.yields_await_bind rfl ?_
  exact Machine.yields_await (exec_webhookEventUpdate h)
    ⟨rfl, rfl, _, Table.find_modified (fun _ => rfl) h, rfl⟩

theorem processForPipelines_yields {connector : Connector}
    {pipelines active : List SyncPipeline} (hkeys : RunKeys store)
    (hpipelines : Table.Keyed SyncPipeline.id store.nextId store.pipelines)
    (hevent : Table.find WebhookEvent.id event.id store.webhookEvents =
      some event)
    (hperm : pipelines.Perm active) (hactive : active.Sublist store.pipelines)
    (hsorted : pipelines.Pairwise fun first second =>
      first.createdAt ≤ second.createdAt)
    (htransforms : ∀ pipeline ∈ active, env.engine.Transforms
      (ensureRecordObject event.payloadJson) pipeline.mappingJson) :
    (machine env).Yields (fun summary after =>
        FansOut env event active store after summary)
      (processForPipelines env event connector pipelines actor) store := by
  refine (pipelines_yield hkeys
    (fun pipeline hpipeline => hactive.subset (hperm.subset hpipeline))
    (fun pipeline hpipeline =>
      htransforms pipeline (hperm.subset hpipeline))).bind ?_
  rintro totals after ⟨runs, rows, hdone⟩
  have hstored : Table.find WebhookEvent.id event.id after.webhookEvents =
      some event := by
    rw [hdone.webhookEvents, hevent]
  have hof : runs.map SyncRun.pipelineId = pipelines.map SyncPipeline.id :=
    (List.forall₂_eq_eq_eq ▸ List.forall₂_map_left_iff.mpr
      (List.forall₂_map_right_iff.mpr
        (hdone.settled.flip.imp fun _ _ hrun => hrun.pipelineId)))
  have hnodup : (pipelines.map SyncPipeline.id).Nodup :=
    ((hperm.map _).nodup_iff).mpr (hpipelines.nodup.sublist (hactive.map _))
  refine (finishEvent_yields hstored).bind ?_
  rintro _ finished ⟨hruns, hrows, hfinished⟩
  refine Machine.yields_await_bind exec_auditLogCreate_eval ?_
  refine .ret ⟨⟨pipelines, runs, rows, hperm, hsorted,
    hruns.trans hdone.syncRuns, hrows.trans hdone.syncedRecords, hdone.owned,
    hdone.settled, ?_, hdone.pipelineIds, hdone.syncRunIds, hdone.processed,
    hdone.failed⟩, ?_, rfl, hfinished⟩
  · rwa [hof]
  · rw [hdone.processed, hdone.failed, countRuns_add hdone.settled,
      hperm.length_eq]

/-- Where no storage or audit call fails and no transformation of the payload
throws, an event starts one run for each active pipeline of its connector, and
each run ends as the payload and the mapping of its own pipeline decide. -/
theorem processWebhookEventNow_fans_out {connector : Connector}
    (hkeys : RunKeys store)
    (hpipelines : Table.Keyed SyncPipeline.id store.nextId store.pipelines)
    (hevent : Table.find WebhookEvent.id eventId store.webhookEvents =
      some event)
    (hconnector : event.connectorId.bind (fun connectorId =>
      Table.find Connector.id connectorId store.connectors) = some connector)
    (hactive : store.activePipelines connector.id ≠ [])
    (htransforms : ∀ pipeline ∈ store.activePipelines connector.id,
      env.engine.Transforms (ensureRecordObject event.payloadJson)
        pipeline.mappingJson) :
    (machine env).Yields (fun summary after => FansOut env event
        (store.activePipelines connector.id) store after summary)
      (processWebhookEventNow env eventId actor) store := by
  obtain ⟨connectorId, hid, hfound⟩ := Option.bind_eq_some_iff.mp hconnector
  have hconnectorFound : (machine env).Yields
      (fun found after => found = some connector ∧ after = store)
      (findEventConnector event) store := by
    have hexec : (machine env).exec (.connectorFindUnique connectorId) store =
        .ok (some connector, store) := by
      simp only [machine, exec, hfound]
    rw [findEventConnector, hid]
    exact Machine.yields_await hexec ⟨rfl, rfl⟩
  let pipelines := orderBy SyncPipeline.createdAt
    (store.activePipelines connector.id)
  have hperm : pipelines.Perm (store.activePipelines connector.id) :=
    List.perm_insertionSort _ _
  have hsome : pipelines.isEmpty = false := by
    rw [List.isEmpty_eq_false_iff]
    exact fun hnone => hactive (hnone ▸ hperm).nil_eq.symm
  have hexec : (machine env).exec (.webhookEventFindUnique eventId) store =
      .ok (some event, store) := by
    simp only [machine, exec, hevent]
  have hfind : (machine env).exec (.pipelineFindActive connector.id) store =
      .ok (pipelines, store) := rfl
  refine Machine.yields_await_bind hexec (hconnectorFound.bind ?_)
  rintro _ _ ⟨rfl, rfl⟩
  refine Machine.yields_await_bind hfind ?_
  simp only [hsome]
  obtain rfl := Table.find_key hevent
  exact processForPipelines_yields hkeys hpipelines hevent hperm
    List.filter_sublist (List.pairwise_insertionSort _ _) htransforms

end Turns

/-! ## An event with three pipelines -/

def mailMapping : Record :=
  [("mail", .obj [("path", .str "contact.mail"), ("required", .bool true)])]

def fannedEvent : WebhookEvent where
  id := 4
  sourceConnectorRef := 2
  connectorId := some 2
  idempotencyKey := some "evt-1"
  eventType := "generic_event"
  status := .received
  payloadJson := .obj [("contact", .obj [("name", .str "Ada")])]
  headersJson := .obj []
  receivedAt := 0
  processedAt := none
  errorMessage := none

/-- The mapping of the first pipeline does not compile, that of the second gives
an error and that of the third a record. -/
def fannedStore : Store :=
  { Sample.store with
    pipelines := [{ Sample.mapped Sample.brokenMapping with id := 5 },
      { Sample.mapped mailMapping with id := 6 },
      Sample.mapped Sample.requiredMapping]
    webhookEvents := [fannedEvent] }

theorem transforms_fannedStore : ∀ pipeline ∈ fannedStore.pipelines,
    Sample.engineEnv.engine.Transforms
      (ensureRecordObject fannedEvent.payloadJson) pipeline.mappingJson := by
  simp only [fannedStore, List.forall_mem_cons]
  refine ⟨?_, ?_, ?_, List.forall_mem_nil _⟩
  · intro fields hfields
    cases hfields
  · intro fields hfields ambient
    cases hfields
    exact ⟨_, rfl⟩
  · intro fields hfields ambient
    cases hfields
    exact ⟨_, rfl⟩

theorem fans_out_of_three :
    (machine Sample.engineEnv).Yields (fun summary after =>
        FansOut Sample.engineEnv fannedEvent (fannedStore.activePipelines 2)
          fannedStore after summary)
      (processWebhookEventNow Sample.engineEnv 4 none) fannedStore := by
  have hkeys : RunKeys fannedStore :=
    ⟨List.nodup_nil, by simp [fannedStore, Sample.store]⟩
  have hpipelines : Table.Keyed SyncPipeline.id fannedStore.nextId
      fannedStore.pipelines := ⟨by decide, by decide⟩
  have hconnector : fannedEvent.connectorId.bind (fun connectorId =>
      Table.find Connector.id connectorId fannedStore.connectors) =
        some Sample.connector := rfl
  have hactive : fannedStore.activePipelines Sample.connector.id ≠ [] := by
    rw [← List.isEmpty_eq_false_iff]
    decide
  exact processWebhookEventNow_fans_out hkeys hpipelines rfl hconnector hactive
    fun pipeline hpipeline =>
      transforms_fannedStore pipeline (List.mem_of_mem_filter hpipeline)

end SyncBridge
