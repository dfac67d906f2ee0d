import SyncBridge.Runs.Evaluation
import SyncBridge.Transformations.Engine
import SyncBridge.Sample

/-!
# Synchronous and queued execution

The run that is executed at once and the one that is queued and then delivered
end alike: queueing turns every record into an object, which is how the loop
reads it anyway.
-/

namespace SyncBridge

open SyncBridge.Foundation SyncBridge.Foundation.Prog
open SyncBridge.SyncRunsService

/-! ## The records of the payload -/

def queuedRecord (record : SyncRunMockRecordPayload) :
    SyncRunMockRecordPayload :=
  { record with raw := .obj (ensureRecordObject record.raw) }

section Records

variable {env : Env} {fields : List NormalizedMappingField}
  {pipeline : SyncPipeline} {ignoreCursor : Bool}
  {records : List SyncRunMockRecordPayload}

@[simp] theorem shouldProcessRecord_queuedRecord {dates : Dates}
    {record : SyncRunMockRecordPayload} {cursor : Option CursorState} :
    shouldProcessRecord dates (queuedRecord record) cursor =
      shouldProcessRecord dates record cursor := by
  simp only [shouldProcessRecord, queuedRecord, ensureRecordObject_obj]

@[simp] theorem outcome_queuedRecord {engine : TransformationEngine}
    {record : SyncRunMockRecordPayload} :
    engine.outcome fields (queuedRecord record) =
      engine.outcome fields record := by
  simp only [TransformationEngine.outcome, queuedRecord,
    ensureRecordObject_obj]

@[simp] theorem contentOf_queuedRecord {record : SyncRunMockRecordPayload} :
    contentOf env fields (queuedRecord record) =
      contentOf env fields record := by
  simp only [contentOf, outcome_queuedRecord]
  simp only [queuedRecord, ensureRecordObject_obj]

@[simp] theorem countRecord_queuedRecord {state : LoopState}
    {record : SyncRunMockRecordPayload} :
    countRecord env fields state (queuedRecord record) =
      countRecord env fields state record := by
  simp only [countRecord, outcome_queuedRecord]
  simp only [queuedRecord, ensureRecordObject_obj]

theorem eligibleRecords_queued :
    eligibleRecords env pipeline ignoreCursor (records.map queuedRecord) =
      (eligibleRecords env pipeline ignoreCursor records).map queuedRecord := by
  have hsame : ∀ cursor : Option CursorState,
      (fun record => shouldProcessRecord env.dates record cursor) ∘
        queuedRecord =
      fun record => shouldProcessRecord env.dates record cursor :=
    fun cursor => funext fun record => shouldProcessRecord_queuedRecord
  simp only [eligibleRecords]
  split
  · rw [List.filter_map, hsame]
  · rfl

theorem summaryOf_queued :
    summaryOf env fields pipeline ignoreCursor (records.map queuedRecord) =
      summaryOf env fields pipeline ignoreCursor records := by
  simp only [summaryOf, eligibleRecords_queued, List.foldl_map,
    countRecord_queuedRecord, List.length_map]

theorem contentsOf_queued :
    contentsOf env fields pipeline ignoreCursor (records.map queuedRecord) =
      contentsOf env fields pipeline ignoreCursor records := by
  have hsame : contentOf env fields ∘ queuedRecord = contentOf env fields :=
    funext fun record => contentOf_queuedRecord
  simp only [contentsOf, eligibleRecords_queued, List.filterMap_map, hsame]

theorem cursorAfter_queued :
    cursorAfter env fields pipeline ignoreCursor (records.map queuedRecord) =
      cursorAfter env fields pipeline ignoreCursor records := by
  simp only [cursorAfter, summaryOf_queued]

theorem handles_queued
    (h : ∀ record ∈ eligibleRecords env pipeline ignoreCursor records,
      env.engine.Handles fields record) :
    ∀ record ∈ eligibleRecords env pipeline ignoreCursor
      (records.map queuedRecord), env.engine.Handles fields record := by
  rw [eligibleRecords_queued]
  intro queued hqueued
  obtain ⟨record, hrecord, rfl⟩ := List.mem_map.mp hqueued
  intro ambient
  simpa only [queuedRecord, ensureRecordObject_obj] using
    h record hrecord ambient

end Records

/-! ## The two ways to execute a run -/

def Env.inMode (env : Env) (queueMode : QueueMode) : Env :=
  { env with queueMode := queueMode }

section InMode

variable {env : Env} {mode : QueueMode} {fields : List NormalizedMappingField}
  {pipeline : SyncPipeline} {ignoreCursor : Bool}
  {records : List SyncRunMockRecordPayload}

@[simp] theorem summaryOf_inMode :
    summaryOf (env.inMode mode) fields pipeline ignoreCursor records =
      summaryOf env fields pipeline ignoreCursor records := rfl

@[simp] theorem contentsOf_inMode :
    contentsOf (env.inMode mode) fields pipeline ignoreCursor records =
      contentsOf env fields pipeline ignoreCursor records := rfl

@[simp] theorem cursorAfter_inMode :
    cursorAfter (env.inMode mode) fields pipeline ignoreCursor records =
      cursorAfter env fields pipeline ignoreCursor records := rfl

end InMode

/-- `createRunFromPipeline` in the mode, where nothing fails. -/
def created (env : Env) (queueMode : QueueMode) (pipeline : SyncPipeline)
    (options : CreateRunOptions) (store : Store) :
    Except Failure RunAnswer × Store :=
  (machine (env.inMode queueMode)).eval
    (createRunFromPipeline (env.inMode queueMode) pipeline options) store

/-- The delivery of the job to a worker, where nothing fails. -/
def delivered (env : Env) (payload : ExecuteSyncRunJobPayload)
    (attempts : Nat) (store : Store) : Except Failure Unit × Store :=
  (machine (env.inMode .async)).eval
    (processQueuedSyncRun (env.inMode .async) payload attempts) store

structure Untouched (pipelineId syncRunId jobId : Id) (before after : Store) :
    Prop where
  pipeline : Table.find SyncPipeline.id pipelineId after.pipelines =
    Table.find SyncPipeline.id pipelineId before.pipelines
  run : Table.find SyncRun.id syncRunId after.syncRuns =
    Table.find SyncRun.id syncRunId before.syncRuns
  job : Table.find BackgroundJob.id jobId after.backgroundJobs =
    Table.find BackgroundJob.id jobId before.backgroundJobs

/-- Executed at once and delivered from the queue, the run has the same report,
the same rows in the same order and the same cursor.  Its id is the next one,
that of the job the one after. -/
def SameOutcome (env : Env) (pipeline : SyncPipeline)
    (options : CreateRunOptions) (store : Store) : Prop :=
  ∃ report contents cursorJson,
    RunLeft store.nextId pipeline.id report contents cursorJson store
      (created env .sync pipeline options store).2 ∧
    ∀ between attempts,
      Untouched pipeline.id store.nextId (store.nextId + 1)
        (created env .async pipeline options store).2 between →
      RunLeft store.nextId pipeline.id report contents cursorJson between
        (delivered env (queuedPayload pipeline options store.nextId
          (store.nextId + 1)) attempts between).2

section Modes

variable {env : Env} {runtime : Runtime} {fields : List NormalizedMappingField}
  {pipeline : SyncPipeline} {options : CreateRunOptions} {store : Store}

theorem steady_of_computeFree
    (hengine : env.engine = TransformationEngineService.engine runtime)
    (hfree : TransformationEngineService.ComputeFree fields) :
    env.engine.Steady fields := by
  intro first second raw
  rw [hengine]
  exact TransformationEngineService.transformRecord_ambient hfree

theorem created_sync
    (hsteady : env.engine.Steady fields)
    (hcompiled : env.engine.compileMapping pipeline.mappingJson = .ok fields)
    (hhandles : ∀ record ∈ eligibleRecords env pipeline options.ignoreCursor
      options.mockRecords, env.engine.Handles fields record)
    (hstored : Table.find SyncPipeline.id pipeline.id store.pipelines =
      some pipeline)
    (hruns : Table.Keyed SyncRun.id store.nextId store.syncRuns) :
    RunLeft store.nextId pipeline.id
      (finalReport (summaryOf env fields pipeline options.ignoreCursor
        options.mockRecords) options.triggerType)
      (contentsOf env fields pipeline options.ignoreCursor options.mockRecords)
      (cursorAfter env fields pipeline options.ignoreCursor
        options.mockRecords) store
      (created env .sync pipeline options store).2 := by
  have hfresh : ∀ row ∈ store.syncRuns, row.id ≠ store.nextId :=
    fun row hrow => (hruns.below row hrow).ne
  obtain ⟨run, after, hevals, -, hreport, hexecuted⟩ :=
    @executeSyncRunNow_leaves (env.inMode .sync) fields pipeline options store
      hsteady hcompiled hhandles hstored hfresh
  have hcreated : created env .sync pipeline options store =
      (.ok (.completed run), after) := hevals
  have hleft := hexecuted.left
  rw [hreport] at hleft
  rw [hcreated]
  simpa only [summaryOf_inMode, contentsOf_inMode, cursorAfter_inMode]
    using hleft

theorem delivered_left {syncRunId jobId : Id} {attempts : Nat}
    {between : Store} {run : SyncRun} {job : BackgroundJob}
    (hsteady : env.engine.Steady fields)
    (hcompiled : env.engine.compileMapping pipeline.mappingJson = .ok fields)
    (hhandles : ∀ record ∈ eligibleRecords env pipeline options.ignoreCursor
      options.mockRecords, env.engine.Handles fields record)
    (hstored : Table.find SyncPipeline.id pipeline.id between.pipelines =
      some pipeline)
    (hrun : Table.find SyncRun.id syncRunId between.syncRuns = some run)
    (hjob : Table.find BackgroundJob.id jobId between.backgroundJobs =
      some job) :
    RunLeft syncRunId pipeline.id
      (finalReport (summaryOf env fields pipeline options.ignoreCursor
        options.mockRecords) run.triggerType)
      (contentsOf env fields pipeline options.ignoreCursor options.mockRecords)
      (cursorAfter env fields pipeline options.ignoreCursor
        options.mockRecords) between
      (delivered env (queuedPayload pipeline options syncRunId jobId) attempts
        between).2 := by
  let payload := queuedPayload pipeline options syncRunId jobId
  have hrecords : payload.mockRecords =
      options.mockRecords.map queuedRecord := rfl
  have hpayload : ∀ record ∈ eligibleRecords env pipeline payload.ignoreCursor
      payload.mockRecords, env.engine.Handles fields record := by
    rw [hrecords]
    exact handles_queued hhandles
  obtain ⟨after, hevals, final, hreport, hexecuted⟩ :=
    @processQueuedSyncRun_leaves (env.inMode .async) fields pipeline between
      payload attempts run job hsteady hcompiled hpayload rfl hstored hrun hjob
  have hdelivered : delivered env payload attempts between =
      (.ok (), after) := hevals
  have hleft := hexecuted.left
  rw [hreport, hrecords] at hleft
  rw [hdelivered]
  simp only [summaryOf_inMode, contentsOf_inMode, cursorAfter_inMode,
    summaryOf_queued, contentsOf_queued, cursorAfter_queued] at hleft
  exact hleft

theorem RunLeft.status {syncRunId pipelineId : Id} {report : RunReport}
    {contents : List RecordContent} {cursorJson : Option Json}
    {before after : Store} {run : SyncRun}
    (h : RunLeft syncRunId pipelineId report contents cursorJson before after)
    (hrun : Table.find SyncRun.id syncRunId after.syncRuns = some run) :
    report.status = run.status := by
  have hreport := h.run
  rw [hrun] at hreport
  rw [← Option.some.inj hreport]
  rfl

/-- A run of a mapping that does not compile stays `RUNNING` when it is executed
at once, and ends as `FAILED` when it is delivered. -/
theorem not_sameOutcome {error : Failure} {result : Except Failure RunAnswer}
    {queued : Store}
    (herror : env.engine.compileMapping pipeline.mappingJson = .error error)
    (hruns : Table.Keyed SyncRun.id store.nextId store.syncRuns)
    (hcreated : created env .async pipeline options store = (result, queued))
    (hqueued : Queued (env.inMode .async) pipeline options store.nextId
      (store.nextId + 1) store queued) :
    ¬ SameOutcome env pipeline options store := by
  rintro ⟨report, contents, cursorJson, hnow, hlater⟩
  obtain ⟨thrown, stuck, hstuck, run, hrun, hrunning⟩ :=
    @executeSyncRunNow_throws (env.inMode .sync) pipeline options store error
      herror fun row hrow => (hruns.below row hrow).ne
  have hsync : created env .sync pipeline options store =
      (.error thrown, stuck) := hstuck
  rw [hsync] at hnow
  obtain ⟨waiting, hwaiting, -⟩ := hqueued.run
  obtain ⟨job, hjob⟩ := hqueued.backgroundJob
  obtain ⟨caught, ended, hended, final, hfinal, hfailed⟩ :=
    @processQueuedSyncRun_fails (env.inMode .async) pipeline queued error
      waiting (queuedPayload pipeline options store.nextId (store.nextId + 1)) 1
      job herror rfl hqueued.stored hwaiting hjob
  have hdelivered : delivered env (queuedPayload pipeline options store.nextId
      (store.nextId + 1)) 1 queued = (.error caught, ended) := hended
  rw [hcreated] at hlater
  have hleft := hlater queued 1 ⟨rfl, rfl, rfl⟩
  rw [hdelivered] at hleft
  have hsame : run.status = final.status :=
    (hnow.status hrun).symm.trans (hleft.status hfinal)
  rw [hrunning, hfailed] at hsame
  cases hsame

/-- Where nothing fails, the two modes come to the same end exactly when the
mapping of the pipeline compiles: a mapping that computes nothing, and records
whose transformation does not throw. -/
theorem modes_equivalent
    (hengine : env.engine = TransformationEngineService.engine runtime)
    (hfree : ∀ fields,
      env.engine.compileMapping pipeline.mappingJson = .ok fields →
      TransformationEngineService.ComputeFree fields)
    (hhandles : ∀ fields,
      env.engine.compileMapping pipeline.mappingJson = .ok fields →
      ∀ record ∈ eligibleRecords env pipeline options.ignoreCursor
        options.mockRecords, env.engine.Handles fields record)
    (hstored : Table.find SyncPipeline.id pipeline.id store.pipelines =
      some pipeline)
    (hruns : Table.Keyed SyncRun.id store.nextId store.syncRuns)
    (hjobs : Table.Keyed BackgroundJob.id store.nextId store.backgroundJobs) :
    (created env .async pipeline options store).1 =
      .ok (.queued (store.nextId + 1) store.nextId pipeline.id) ∧
    Queued (env.inMode .async) pipeline options store.nextId (store.nextId + 1)
      store (created env .async pipeline options store).2 ∧
    (SameOutcome env pipeline options store ↔
      ∃ fields, env.engine.compileMapping pipeline.mappingJson =
        .ok fields) := by
  obtain ⟨queued, hevals, hqueued⟩ :=
    @queueSyncRun_leaves (env.inMode .async) pipeline options store rfl hstored
      (fun row hrow => (hruns.below row hrow).ne)
      (fun row hrow => ((hjobs.below row hrow).trans_le (Nat.le_succ _)).ne)
  have hcreated : created env .async pipeline options store =
      (.ok (.queued (store.nextId + 1) store.nextId pipeline.id), queued) :=
    hevals
  refine ⟨by rw [hcreated], by rw [hcreated]; exact hqueued, ?_, ?_⟩
  · intro hsame
    cases hcompiled : env.engine.compileMapping pipeline.mappingJson with
    | ok fields => exact ⟨fields, rfl⟩
    | error error =>
        exact absurd hsame (not_sameOutcome hcompiled hruns hcreated hqueued)
  · rintro ⟨fields, hcompiled⟩
    have hsteady := steady_of_computeFree hengine (hfree fields hcompiled)
    refine ⟨_, _, _, created_sync hsteady hcompiled (hhandles fields hcompiled)
      hstored hruns, fun between attempts huntouched => ?_⟩
    rw [hcreated] at huntouched
    obtain ⟨run, hrun, htrigger⟩ := hqueued.run
    obtain ⟨job, hjob⟩ := hqueued.backgroundJob
    rw [← htrigger]
    exact delivered_left hsteady hcompiled (hhandles fields hcompiled)
      (huntouched.pipeline.trans hqueued.stored) (huntouched.run.trans hrun)
      (huntouched.job.trans hjob)

end Modes

namespace Sample

theorem handles_contacts : ∀ record ∈ contacts.mockRecords,
    engineEnv.engine.Handles requiredFields record := by
  simp only [contacts, List.forall_mem_cons]
  exact ⟨fun _ => ⟨_, rfl⟩, fun _ => ⟨_, rfl⟩, fun _ => ⟨_, rfl⟩,
    List.forall_mem_nil _⟩

end Sample

/-- Three records, of which the second lacks its name. -/
theorem modes_equivalent_of_contacts :
    (created Sample.engineEnv .async (Sample.mapped Sample.requiredMapping)
        Sample.contacts (Sample.mappedStore Sample.requiredMapping)).1 =
      .ok (.queued 11 10 3) ∧
    Queued (Sample.engineEnv.inMode .async)
      (Sample.mapped Sample.requiredMapping) Sample.contacts 10 11
      (Sample.mappedStore Sample.requiredMapping)
      (created Sample.engineEnv .async (Sample.mapped Sample.requiredMapping)
        Sample.contacts (Sample.mappedStore Sample.requiredMapping)).2 ∧
    (SameOutcome Sample.engineEnv (Sample.mapped Sample.requiredMapping)
        Sample.contacts (Sample.mappedStore Sample.requiredMapping) ↔
      ∃ fields, Sample.engineEnv.engine.compileMapping
        (.obj Sample.requiredMapping) = .ok fields) := by
  have hcompile : ∀ fields, Sample.engineEnv.engine.compileMapping
      (.obj Sample.requiredMapping) = .ok fields →
      fields = Sample.requiredFields := fun fields h =>
    (Except.ok.inj (Sample.compile_requiredMapping.symm.trans h)).symm
  have hruns : Table.Keyed SyncRun.id 10 [] := ⟨List.nodup_nil, by simp⟩
  have hjobs : Table.Keyed BackgroundJob.id 10 [] := ⟨List.nodup_nil, by simp⟩
  refine @modes_equivalent _ Sample.runtime
    (Sample.mapped Sample.requiredMapping) Sample.contacts
    (Sample.mappedStore Sample.requiredMapping) rfl ?_ ?_ rfl hruns hjobs
  · intro fields h
    rw [hcompile fields h]
    exact Sample.computeFree_requiredFields
  · intro fields h
    rw [hcompile fields h]
    exact Sample.handles_contacts

/-- A run of a pipeline whose mapping does not compile stays `RUNNING` when it
is executed at once, and ends as `FAILED` when it is delivered. -/
theorem modes_equivalent_fails :
    ¬ SameOutcome Sample.engineEnv (Sample.mapped Sample.brokenMapping)
      Sample.contacts (Sample.mappedStore Sample.brokenMapping) := by
  rintro ⟨report, contents, cursorJson, hsync, hasync⟩
  have hdelivered := hasync (created Sample.engineEnv .async
    (Sample.mapped Sample.brokenMapping) Sample.contacts
    (Sample.mappedStore Sample.brokenMapping)).2 1 ⟨rfl, rfl, rfl⟩
  have hfirst := congrArg (Option.map RunReport.status) hsync.run
  have hsecond := congrArg (Option.map RunReport.status) hdelivered.run
  exact absurd (hfirst.trans hsecond.symm) (by decide +kernel)

end SyncBridge
