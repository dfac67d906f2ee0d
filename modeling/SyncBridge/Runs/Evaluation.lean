import SyncBridge.Services.SyncRuns
import SyncBridge.Store.Effects

/-!
# Runs on which nothing fails

What a run leaves behind when no storage, audit or queue call fails and no
transformation throws: a function of the mapping, the records and the cursor.
-/

namespace SyncBridge

open SyncBridge.Foundation SyncBridge.Foundation.Prog
open SyncBridge.SyncRunsService

/-! ## What becomes of a record -/

/-- The outcome depends neither on the time nor on a random value. -/
def TransformationEngine.Steady (engine : TransformationEngine)
    (fields : List NormalizedMappingField) : Prop :=
  ∀ first second raw,
    engine.transformRecordWithCompiledMapping first raw fields =
      engine.transformRecordWithCompiledMapping second raw fields

def TransformationEngine.Handles (engine : TransformationEngine)
    (fields : List NormalizedMappingField)
    (record : SyncRunMockRecordPayload) : Prop :=
  ∀ ambient, ∃ transformed, engine.transformRecordWithCompiledMapping ambient
    (ensureRecordObject record.raw) fields = .ok transformed

def TransformationEngine.outcome (engine : TransformationEngine)
    (fields : List NormalizedMappingField)
    (record : SyncRunMockRecordPayload) : TransformationResult :=
  match engine.transformRecordWithCompiledMapping ⟨0, 0⟩
      (ensureRecordObject record.raw) fields with
  | .ok transformed => transformed
  | .error _ => ⟨[], []⟩

structure RecordContent where
  externalId : Option String
  rawJson : Json
  normalizedJson : Json
  sourceType : String

def SyncedRecord.content (row : SyncedRecord) : RecordContent :=
  ⟨row.externalId, row.rawJson, row.normalizedJson, row.sourceType⟩

section Loop

variable (env : Env) (fields : List NormalizedMappingField)

def contentOf (record : SyncRunMockRecordPayload) : Option RecordContent :=
  let transformed := env.engine.outcome fields record
  if transformed.errors.length > 0 then none
  else some ⟨record.externalId, .obj (ensureRecordObject record.raw),
    .obj transformed.normalized, "MANUAL"⟩

def countRecord (state : LoopState) (record : SyncRunMockRecordPayload) :
    LoopState :=
  let transformed := env.engine.outcome fields record
  if transformed.errors.length > 0 then state.fail transformed.errors.length
  else state.created
    (extractCursorCandidate env.dates (ensureRecordObject record.raw))

def cursorWritten (pipeline : SyncPipeline) (state : LoopState) :
    Option Record :=
  if pipeline.incrementalMode && state.failedCount = 0 then
    state.maxCursor.bind (cursorCandidateToJson env.dates)
  else none

def summaryOf (pipeline : SyncPipeline) (ignoreCursor : Bool)
    (records : List SyncRunMockRecordPayload) : RunProcessingSummary :=
  let eligible := eligibleRecords env pipeline ignoreCursor records
  let state := eligible.foldl (countRecord env fields) {}
  let cursorValue := cursorWritten env pipeline state
  { recordsReceived := records.length
    recordsProcessed := state.createdCount
    recordsFailed := state.failedCount
    errorCount := state.totalErrorCount
    skippedByCursor := records.length - eligible.length
    cursorAdvanced := cursorValue.isSome
    cursorValue := cursorValue }

end Loop

/-! ## What a part of a run changes -/

/-- The part adds rows with these contents to the run, edits the pipelines and
leaves the runs and the jobs as they are. -/
structure Leaves (syncRunId : Id) (contents : List RecordContent)
    (edit : List SyncPipeline → List SyncPipeline) (before after : Store) :
    Prop where
  clock : after.clock = before.clock
  pipelines : after.pipelines = edit before.pipelines
  syncRuns : after.syncRuns = before.syncRuns
  backgroundJobs : after.backgroundJobs = before.backgroundJobs
  jobs : after.jobs = before.jobs
  records : ∃ new, after.syncedRecords = before.syncedRecords ++ new ∧
    new.map SyncedRecord.content = contents ∧
    ∀ row ∈ new, row.syncRunId = syncRunId

section Parts

variable {env : Env} {fields : List NormalizedMappingField}
  {syncRunId pipelineId : Id} {contents contents' : List RecordContent}
  {edit edit' : List SyncPipeline → List SyncPipeline} {actor : AuditActor}
  {before middle after store : Store} {pipeline : SyncPipeline}

theorem Leaves.refl : Leaves syncRunId [] id store store :=
  ⟨rfl, rfl, rfl, rfl, rfl, [], by simp, rfl, nofun⟩

theorem Leaves.syncedRecords (h : Leaves syncRunId [] edit before after) :
    after.syncedRecords = before.syncedRecords := by
  obtain ⟨new, hnew, hnone, -⟩ := h.records
  obtain rfl := List.map_eq_nil_iff.mp hnone
  rwa [List.append_nil] at hnew

theorem Leaves.trans (first : Leaves syncRunId contents edit before middle)
    (second : Leaves syncRunId contents' edit' middle after) :
    Leaves syncRunId (contents ++ contents') (edit' ∘ edit) before after := by
  obtain ⟨new, hnew, hcontents, hruns⟩ := first.records
  obtain ⟨new', hnew', hcontents', hruns'⟩ := second.records
  refine ⟨second.clock.trans first.clock, ?_,
    second.syncRuns.trans first.syncRuns,
    second.backgroundJobs.trans first.backgroundJobs,
    second.jobs.trans first.jobs, new ++ new', ?_, ?_, ?_⟩
  · rw [second.pipelines, first.pipelines]
    rfl
  · rw [hnew', hnew, List.append_assoc]
  · rw [List.map_append, hcontents, hcontents']
  · intro row hrow
    exact (List.mem_append.mp hrow).elim (hruns row) (hruns' row)

def RunsTo (env : Env) (syncRunId : Id) (contents : List RecordContent)
    (edit : List SyncPipeline → List SyncPipeline) {α : Type} (body : Body α)
    (store : Store) (value : α) : Prop :=
  ∃ after, (machine env).eval body store = (.ok value, after) ∧
    Leaves syncRunId contents edit store after

section Rules

variable {α β : Type} {body : Body α} {rest : α → Body β} {value : α}
  {result : β}

theorem RunsTo.ret : RunsTo env syncRunId [] id (.ret value) store value :=
  ⟨store, rfl, .refl⟩

theorem RunsTo.bind
    (h : RunsTo env syncRunId contents edit body store value)
    (hrest : ∀ middle, Leaves syncRunId contents edit store middle →
      RunsTo env syncRunId contents' edit' (rest value) middle result) :
    RunsTo env syncRunId (contents ++ contents') (edit' ∘ edit)
      (body.bind rest) store result := by
  obtain ⟨middle, hbody, hmiddle⟩ := h
  obtain ⟨after, hafter, hleaves⟩ := hrest middle hmiddle
  exact ⟨after, (Machine.eval_bind_ok hbody).trans hafter, hmiddle.trans hleaves⟩

theorem RunsTo.skip (h : RunsTo env syncRunId [] id body store value)
    (hrest : ∀ middle, Leaves syncRunId [] id store middle →
      RunsTo env syncRunId contents edit (rest value) middle result) :
    RunsTo env syncRunId contents edit (body.bind rest) store result :=
  h.bind hrest

theorem RunsTo.done (h : RunsTo env syncRunId contents edit body store value)
    (hrest : ∀ middle, RunsTo env syncRunId [] id (rest value) middle result) :
    RunsTo env syncRunId contents edit (body.bind rest) store result := by
  have hboth := h.bind fun middle _ => hrest middle
  rwa [List.append_nil] at hboth

theorem RunsTo.followed (h : RunsTo env syncRunId contents id body store value)
    (hrest : ∀ middle, Leaves syncRunId contents id store middle →
      RunsTo env syncRunId [] edit (rest value) middle result) :
    RunsTo env syncRunId contents edit (body.bind rest) store result := by
  have hboth := h.bind hrest
  rwa [List.append_nil] at hboth

theorem RunsTo.attempt
    (h : RunsTo env syncRunId contents edit body store value) :
    RunsTo env syncRunId contents edit (Prog.attempt body) store
      (.ok value) := by
  obtain ⟨after, hbody, hafter⟩ := h
  exact ⟨after, Machine.eval_attempt_ok hbody, hafter⟩

end Rules

theorem log_runsTo {action entityType entityId : String} {metadata : Record} :
    RunsTo env syncRunId [] id
      (AuditService.log action entityType entityId metadata actor) store
      () := by
  refine ⟨_, Machine.eval_await rfl, ⟨rfl, rfl, rfl, rfl, rfl, [], ?_, rfl, nofun⟩⟩
  simp [Store.createAuditLog]

theorem transform_runsTo {record : SyncRunMockRecordPayload}
    (hsteady : env.engine.Steady fields)
    (hhandles : env.engine.Handles fields record) :
    RunsTo env syncRunId [] id
      (await (.transform (ensureRecordObject record.raw) fields)) store
      (env.engine.outcome fields record) := by
  obtain ⟨transformed, htransformed⟩ := hhandles ⟨0, 0⟩
  have houtcome : env.engine.outcome fields record = transformed := by
    rw [TransformationEngine.outcome, htransformed]
  have hnow := hsteady ⟨store.clock, store.nextId⟩ ⟨0, 0⟩
    (ensureRecordObject record.raw)
  refine ⟨store, Machine.eval_await ?_, .refl⟩
  simp only [machine, exec, hnow, htransformed, houtcome]

theorem persistRecord_runsTo {state : LoopState}
    {record : SyncRunMockRecordPayload} {normalized : Record} :
    RunsTo env syncRunId [⟨record.externalId,
        .obj (ensureRecordObject record.raw), .obj normalized, "MANUAL"⟩] id
      (persistRecord env syncRunId pipelineId actor state record normalized)
      store (state.created (extractCursorCandidate env.dates
        (ensureRecordObject record.raw))) := by
  let created := store.createSyncedRecord
    (persistedRecord syncRunId pipelineId record normalized)
  have hcreate : RunsTo env syncRunId [⟨record.externalId,
      .obj (ensureRecordObject record.raw), .obj normalized, "MANUAL"⟩] id
      (await (.syncedRecordCreate
        (persistedRecord syncRunId pipelineId record normalized))) store
      created.1 := by
    refine ⟨created.2, Machine.eval_await rfl, rfl, rfl, rfl, rfl, rfl,
      [created.1], rfl, rfl, fun row hrow => ?_⟩
    obtain rfl := List.mem_singleton.mp hrow
    rfl
  refine hcreate.attempt.done fun middle => ?_
  refine RunsTo.skip (RunsTo.attempt (log_runsTo.skip fun _ _ => log_runsTo))
    fun _ _ => .ret

theorem processRecord_runsTo {state : LoopState}
    {record : SyncRunMockRecordPayload} (hsteady : env.engine.Steady fields)
    (hhandles : env.engine.Handles fields record) :
    RunsTo env syncRunId (contentOf env fields record).toList id
      (processRecord env syncRunId pipelineId fields actor state record) store
      (countRecord env fields state record) := by
  refine (transform_runsTo hsteady hhandles).skip fun middle _ => ?_
  simp only [contentOf, countRecord]
  split
  · exact log_runsTo.skip fun _ _ => .ret
  · exact persistRecord_runsTo

theorem records_runsTo {records : List SyncRunMockRecordPayload}
    (hsteady : env.engine.Steady fields)
    (hhandles : ∀ record ∈ records, env.engine.Handles fields record) :
    RunsTo env syncRunId (records.filterMap (contentOf env fields)) id
      (records.foldlM (processRecord env syncRunId pipelineId fields actor) {})
      store (records.foldl (countRecord env fields) {}) := by
  refine Machine.eval_foldlM (fun done after =>
    Leaves syncRunId (done.filterMap (contentOf env fields)) id store after)
    ?_ .refl
  intro done record rest state middle hrecords hdone
  have hturn : RunsTo env syncRunId (contentOf env fields record).toList id
      (processRecord env syncRunId pipelineId fields actor state record) middle
      (countRecord env fields state record) :=
    processRecord_runsTo hsteady (hhandles record (by simp [hrecords]))
  obtain ⟨after, hone, hafter⟩ := hturn
  refine ⟨after, hone, ?_⟩
  have hlast : [record].filterMap (contentOf env fields) =
      (contentOf env fields record).toList := by
    simp only [List.filterMap_cons, List.filterMap_nil]
    cases contentOf env fields record <;> rfl
  rw [List.filterMap_append, hlast]
  exact hdone.trans hafter

def writeCursor (pipelineId : Id) (cursorValue : Option Record)
    (pipelines : List SyncPipeline) : List SyncPipeline :=
  match cursorValue with
  | some document => Table.modify SyncPipeline.id pipelineId
      (PipelineData.apply { cursorJson := some (.obj document) }) pipelines
  | none => pipelines

theorem pipelineUpdate_runsTo {id : Id} {data : PipelineData}
    (hstored : Table.find SyncPipeline.id id store.pipelines = some pipeline) :
    RunsTo env syncRunId [] (Table.modify SyncPipeline.id id data.apply)
      (await (.pipelineUpdate id data)) store (data.apply pipeline) := by
  refine ⟨(Op.pipelineUpdate id data).effect store, Machine.eval_await ?_,
    ⟨rfl, rfl, rfl, rfl, rfl, [], ?_, rfl, nofun⟩⟩
  · simp only [machine, exec, hstored, Op.effect]
  · simp [Op.effect]

theorem updateCursor_runsTo {state : LoopState}
    (hstored : Table.find SyncPipeline.id pipeline.id store.pipelines =
      some pipeline) :
    RunsTo env syncRunId []
      (writeCursor pipeline.id (cursorWritten env pipeline state))
      (updateCursor env syncRunId pipeline state actor) store
      (cursorWritten env pipeline state) := by
  have hquiet : ∀ {action entityType entityId : String} {metadata : Record}
      {value : Option Record} {store : Store}, RunsTo env syncRunId [] id
        ((AuditService.log action entityType entityId metadata actor).bind
          fun _ => .ret value) store value :=
    log_runsTo.skip fun _ _ => .ret
  simp only [updateCursor, cursorWritten]
  cases hincremental : pipeline.incrementalMode with
  | false => exact .ret
  | true =>
      by_cases hsucceeded : state.failedCount = 0
      · simp only [hsucceeded, decide_true, Bool.and_self, if_true]
        cases state.maxCursor with
        | none => exact hquiet
        | some maxCursor =>
            simp only [Option.bind_some]
            cases cursorCandidateToJson env.dates maxCursor with
            | none => exact .ret
            | some cursorValue =>
                exact (pipelineUpdate_runsTo hstored).done fun _ => hquiet
      · simp only [hsucceeded, decide_false, Bool.and_false, if_false]
        exact hquiet

theorem compileMappingOrThrow_ok {mappingJson : Json}
    (h : env.engine.compileMapping mappingJson = .ok fields) :
    compileMappingOrThrow env mappingJson = .ok fields := by
  rw [compileMappingOrThrow, h]

theorem processRunRecords_runsTo {records : List SyncRunMockRecordPayload}
    {ignoreCursor : Bool} (hsteady : env.engine.Steady fields)
    (hcompiled : env.engine.compileMapping pipeline.mappingJson = .ok fields)
    (hhandles : ∀ record ∈ eligibleRecords env pipeline ignoreCursor records,
      env.engine.Handles fields record)
    (hstored : Table.find SyncPipeline.id pipeline.id store.pipelines =
      some pipeline) :
    RunsTo env syncRunId
      ((eligibleRecords env pipeline ignoreCursor records).filterMap
        (contentOf env fields))
      (writeCursor pipeline.id
        (summaryOf env fields pipeline ignoreCursor records).cursorValue)
      (processRunRecords env syncRunId pipeline records ignoreCursor actor)
      store (summaryOf env fields pipeline ignoreCursor records) := by
  simp only [processRunRecords, bind_eq, compileMappingOrThrow_ok hcompiled,
    ofExcept_ok, ret_bind]
  refine (records_runsTo hsteady hhandles).followed fun middle hmiddle => ?_
  have hfound : Table.find SyncPipeline.id pipeline.id middle.pipelines =
      some pipeline := by
    rw [hmiddle.pipelines]
    exact hstored
  exact (updateCursor_runsTo hfound).done fun _ => .ret

end Parts

/-! ## What a run leaves behind -/

structure RunReport where
  status : SyncRunStatus
  recordsReceived : Nat
  recordsProcessed : Nat
  recordsFailed : Nat
  errorMessage : Option String
  triggerType : SyncRunTriggerType

def SyncRun.report (run : SyncRun) : RunReport where
  status := run.status
  recordsReceived := run.recordsReceived
  recordsProcessed := run.recordsProcessed
  recordsFailed := run.recordsFailed
  errorMessage := run.errorMessage
  triggerType := run.triggerType

def finalReport (summary : RunProcessingSummary)
    (triggerType : SyncRunTriggerType) : RunReport where
  status := RunProcessingSummary.finalRunStatus summary
  recordsReceived := summary.recordsReceived
  recordsProcessed := summary.recordsProcessed
  recordsFailed := summary.recordsFailed
  errorMessage := if summary.recordsFailed > 0 then
    some "One or more records failed during processing." else none
  triggerType := triggerType

@[simp] theorem report_finalRunData {summary : RunProcessingSummary}
    {finishedAt : Time} {run : SyncRun} :
    ((finalRunData summary finishedAt).apply run).report =
      finalReport summary run.triggerType := rfl

structure RunLeft (syncRunId pipelineId : Id) (report : RunReport)
    (contents : List RecordContent) (cursorJson : Option Json)
    (before after : Store) : Prop where
  run : (Table.find SyncRun.id syncRunId after.syncRuns).map SyncRun.report =
    some report
  records : ∃ new, after.syncedRecords = before.syncedRecords ++ new ∧
    new.map SyncedRecord.content = contents ∧
    ∀ row ∈ new, row.syncRunId = syncRunId
  cursor : (Table.find SyncPipeline.id pipelineId after.pipelines).map
    SyncPipeline.cursorJson = some cursorJson

def contentsOf (env : Env) (fields : List NormalizedMappingField)
    (pipeline : SyncPipeline) (ignoreCursor : Bool)
    (records : List SyncRunMockRecordPayload) : List RecordContent :=
  (eligibleRecords env pipeline ignoreCursor records).filterMap
    (contentOf env fields)

def cursorAfter (env : Env) (fields : List NormalizedMappingField)
    (pipeline : SyncPipeline) (ignoreCursor : Bool)
    (records : List SyncRunMockRecordPayload) : Option Json :=
  ((summaryOf env fields pipeline ignoreCursor records).cursorValue.map
    Json.obj).or pipeline.cursorJson

section Whole

variable {env : Env} {fields : List NormalizedMappingField}
  {pipeline : SyncPipeline} {options : CreateRunOptions} {store : Store}
  {syncRunId : Id} {contents : List RecordContent} {actor : AuditActor}
  {edit : List SyncPipeline → List SyncPipeline}

theorem eval_into {α β : Type} {body : Body α} {rest : α → Body β}
    {value : α} {middle : Store} {result : Except Failure β} {P : Store → Prop}
    (h : (machine env).eval body store = (.ok value, middle))
    (hrest : ∃ after, (machine env).eval (rest value) middle =
      (result, after) ∧ P after) :
    ∃ after, (machine env).eval (body.bind rest) store = (result, after) ∧
      P after := by
  obtain ⟨after, hafter, hP⟩ := hrest
  exact ⟨after, (Machine.eval_bind_ok h).trans hafter, hP⟩

theorem RunsTo.into {α β : Type} {body : Body α} {rest : α → Body β}
    {value : α} {result : Except Failure β} {P : Store → Prop}
    (h : RunsTo env syncRunId contents edit body store value)
    (hrest : ∀ middle, Leaves syncRunId contents edit store middle →
      ∃ after, (machine env).eval (rest value) middle = (result, after) ∧
        P after) :
    ∃ after, (machine env).eval (body.bind rest) store = (result, after) ∧
      P after := by
  obtain ⟨middle, hbody, hmiddle⟩ := h
  exact eval_into hbody (hrest middle hmiddle)

theorem log_into (syncRunId : Id) {β : Type}
    {action entityType entityId : String} {metadata : Record}
    {rest : Unit → Body β} {result : Except Failure β} {P : Store → Prop}
    (hrest : ∀ middle, Leaves syncRunId [] id store middle →
      ∃ after, (machine env).eval (rest ()) middle = (result, after) ∧
        P after) :
    ∃ after, (machine env).eval ((AuditService.log action entityType entityId
        metadata actor).bind rest) store = (result, after) ∧ P after :=
  log_runsTo.into hrest

theorem log_last (syncRunId : Id) {action entityType entityId : String}
    {metadata : Record} {P : Store → Prop}
    (hlast : ∀ after, Leaves syncRunId [] id store after → P after) :
    ∃ after, (machine env).eval (AuditService.log action entityType entityId
        metadata actor) store = (.ok (), after) ∧ P after := by
  have hlog : RunsTo env syncRunId [] id
      (AuditService.log action entityType entityId metadata actor) store () :=
    log_runsTo
  obtain ⟨after, hafter, hleaves⟩ := hlog
  exact ⟨after, hafter, hlast after hleaves⟩

theorem await_into {β : Type} {op : Op} {rest : op.Res → Body β}
    {value : op.Res} {middle : Store} {result : Except Failure β} {P : Store → Prop}
    (h : (machine env).exec op store = .ok (value, middle))
    (hrest : ∃ after, (machine env).eval (rest value) middle =
      (result, after) ∧ P after) :
    ∃ after, (machine env).eval ((await op).bind rest) store =
      (result, after) ∧ P after :=
  eval_into (Machine.eval_await h) hrest

theorem syncRunUpdate_exec {id : Id} {data : SyncRunData} {run : SyncRun}
    (h : Table.find SyncRun.id id store.syncRuns = some run) :
    (machine env).exec (.syncRunUpdate id data) store =
      .ok (data.apply run, (Op.syncRunUpdate id data).effect store) := by
  simp only [machine, exec, h, Op.effect]

theorem pipelineUpdate_exec {id : Id} {data : PipelineData}
    {row : SyncPipeline}
    (h : Table.find SyncPipeline.id id store.pipelines = some row) :
    (machine env).exec (.pipelineUpdate id data) store =
      .ok (data.apply row, (Op.pipelineUpdate id data).effect store) := by
  simp only [machine, exec, h, Op.effect]

theorem backgroundJobUpdate_exec {id : Id} {data : BackgroundJobData}
    {row : BackgroundJob}
    (h : Table.find BackgroundJob.id id store.backgroundJobs = some row) :
    (machine env).exec (.backgroundJobUpdate id data) store =
      .ok (data.apply row, (Op.backgroundJobUpdate id data).effect store) := by
  simp only [machine, exec, h, Op.effect]

theorem find_runUpdated {id : Id} {data : SyncRunData} {run : SyncRun}
    {rows : List SyncRun} (h : Table.find SyncRun.id id rows = some run) :
    Table.find SyncRun.id id (Table.modify SyncRun.id id data.apply rows) =
      some (data.apply run) := by
  have hkey : ∀ row : SyncRun, (data.apply row).id = row.id := fun _ => rfl
  exact Table.find_modified hkey h

theorem find_pipelineUpdated {id : Id} {data : PipelineData}
    {row : SyncPipeline} {rows : List SyncPipeline}
    (h : Table.find SyncPipeline.id id rows = some row) :
    Table.find SyncPipeline.id id
        (Table.modify SyncPipeline.id id data.apply rows) =
      some (data.apply row) := by
  have hkey : ∀ row : SyncPipeline, (data.apply row).id = row.id :=
    fun _ => rfl
  exact Table.find_modified hkey h

theorem find_jobUpdated {id : Id} {data : BackgroundJobData}
    {job : BackgroundJob} {rows : List BackgroundJob}
    (h : Table.find BackgroundJob.id id rows = some job) :
    Table.find BackgroundJob.id id
        (Table.modify BackgroundJob.id id data.apply rows) =
      some (data.apply job) := by
  have hkey : ∀ row : BackgroundJob, (data.apply row).id = row.id :=
    fun _ => rfl
  exact Table.find_modified hkey h

theorem find_writeCursor {cursorValue : Option Record}
    {pipelines : List SyncPipeline}
    (h : Table.find SyncPipeline.id pipeline.id pipelines = some pipeline) :
    ∃ row, Table.find SyncPipeline.id pipeline.id
        (writeCursor pipeline.id cursorValue pipelines) = some row ∧
      row.cursorJson = (cursorValue.map Json.obj).or pipeline.cursorJson := by
  cases cursorValue with
  | none => exact ⟨pipeline, h, rfl⟩
  | some document => exact ⟨_, find_pipelineUpdated h, rfl⟩

structure Executed (syncRunId pipelineId : Id) (run : SyncRun)
    (contents : List RecordContent) (cursorJson : Option Json)
    (before after : Store) : Prop where
  run : Table.find SyncRun.id syncRunId after.syncRuns = some run
  records : ∃ new, after.syncedRecords = before.syncedRecords ++ new ∧
    new.map SyncedRecord.content = contents ∧
    ∀ row ∈ new, row.syncRunId = syncRunId
  pipeline : ∃ row,
    Table.find SyncPipeline.id pipelineId after.pipelines = some row ∧
    row.cursorJson = cursorJson

section Ends

variable {pipelineId : Id} {run : SyncRun} {cursorJson : Option Json}
  {before middle after : Store}

theorem Executed.left
    (h : Executed syncRunId pipelineId run contents cursorJson before after) :
    RunLeft syncRunId pipelineId run.report contents cursorJson before
      after := by
  obtain ⟨row, hrow, hcursor⟩ := h.pipeline
  exact ⟨by rw [h.run, Option.map_some], h.records,
    by rw [hrow, Option.map_some, hcursor]⟩

theorem Executed.quiet
    (h : Executed syncRunId pipelineId run contents cursorJson before middle)
    (hleaves : Leaves syncRunId [] id middle after) :
    Executed syncRunId pipelineId run contents cursorJson before after := by
  refine ⟨?_, ?_, ?_⟩
  · rw [hleaves.syncRuns]
    exact h.run
  · rw [hleaves.syncedRecords]
    exact h.records
  · rw [hleaves.pipelines]
    exact h.pipeline

theorem Executed.since
    (h : Executed syncRunId pipelineId run contents cursorJson middle after)
    (hsame : middle.syncedRecords = before.syncedRecords) :
    Executed syncRunId pipelineId run contents cursorJson before after := by
  refine ⟨h.run, ?_, h.pipeline⟩
  rw [← hsame]
  exact h.records

theorem Executed.runUpdated (data : SyncRunData)
    (h : Executed syncRunId pipelineId run contents cursorJson before after) :
    Executed syncRunId pipelineId (data.apply run) contents cursorJson before
      ((Op.syncRunUpdate syncRunId data).effect after) :=
  ⟨find_runUpdated h.run, h.records, h.pipeline⟩

theorem Executed.jobUpdated {jobId : Id} {data : BackgroundJobData}
    (h : Executed syncRunId pipelineId run contents cursorJson before after) :
    Executed syncRunId pipelineId run contents cursorJson before
      ((Op.backgroundJobUpdate jobId data).effect after) :=
  ⟨h.run, h.records, h.pipeline⟩

theorem Executed.pipelineUpdated (time : Time)
    (h : Executed syncRunId pipelineId run contents cursorJson before after) :
    Executed syncRunId pipelineId run contents cursorJson before
      ((Op.pipelineUpdate pipelineId { lastRunAt := some time }).effect
        after) := by
  obtain ⟨row, hrow, hcursor⟩ := h.pipeline
  exact ⟨h.run, h.records, _, find_pipelineUpdated hrow, hcursor⟩

end Ends

theorem executed_of_leaves {ignoreCursor : Bool}
    {records : List SyncRunMockRecordPayload} {run : SyncRun}
    {before after : Store}
    (hrun : Table.find SyncRun.id syncRunId before.syncRuns = some run)
    (hstored : Table.find SyncPipeline.id pipeline.id before.pipelines =
      some pipeline)
    (h : Leaves syncRunId (contentsOf env fields pipeline ignoreCursor records)
      (writeCursor pipeline.id
        (summaryOf env fields pipeline ignoreCursor records).cursorValue)
      before after) :
    Executed syncRunId pipeline.id run
      (contentsOf env fields pipeline ignoreCursor records)
      (cursorAfter env fields pipeline ignoreCursor records) before after := by
  refine ⟨by rw [h.syncRuns]; exact hrun, h.records, ?_⟩
  rw [h.pipelines]
  exact find_writeCursor hstored

theorem executeSyncRunNow_leaves (hsteady : env.engine.Steady fields)
    (hcompiled : env.engine.compileMapping pipeline.mappingJson = .ok fields)
    (hhandles : ∀ record ∈ eligibleRecords env pipeline options.ignoreCursor
      options.mockRecords, env.engine.Handles fields record)
    (hstored : Table.find SyncPipeline.id pipeline.id store.pipelines =
      some pipeline)
    (hfresh : ∀ row ∈ store.syncRuns, row.id ≠ store.nextId) :
    ∃ run after, (machine env).eval (executeSyncRunNow env pipeline options)
        store = (.ok (.completed run), after) ∧ run.id = store.nextId ∧
      run.report = finalReport (summaryOf env fields pipeline
        options.ignoreCursor options.mockRecords) options.triggerType ∧
      Executed store.nextId pipeline.id run
        (contentsOf env fields pipeline options.ignoreCursor
          options.mockRecords)
        (cursorAfter env fields pipeline options.ignoreCursor
          options.mockRecords) store after := by
  let summary := summaryOf env fields pipeline options.ignoreCursor
    options.mockRecords
  let created := store.createSyncRun {
    pipelineId := pipeline.id
    status := .running
    triggerType := options.triggerType
    startedAt := some store.clock }
  refine ⟨(finalRunData summary store.clock).apply created.1, ?_⟩
  have hcreate : (machine env).exec (.syncRunCreate {
      pipelineId := pipeline.id
      status := .running
      triggerType := options.triggerType
      startedAt := some store.clock }) store = .ok created := rfl
  refine await_into rfl (await_into hcreate ?_)
  refine log_into store.nextId fun started hstarted => ?_
  have hrun : Table.find SyncRun.id store.nextId started.syncRuns =
      some created.1 := by
    rw [hstarted.syncRuns]
    exact Table.find_append_new hfresh rfl
  have hpipeline : Table.find SyncPipeline.id pipeline.id started.pipelines =
      some pipeline := by
    rw [hstarted.pipelines]
    exact hstored
  refine (processRunRecords_runsTo hsteady hcompiled hhandles hpipeline).into
    fun processed hprocessed => ?_
  have hclock : processed.clock = store.clock :=
    hprocessed.clock.trans hstarted.clock
  have hsame : started.syncedRecords = store.syncedRecords :=
    hstarted.syncedRecords
  have hexecuted := (executed_of_leaves hrun hpipeline hprocessed).since hsame
  refine await_into rfl (await_into (syncRunUpdate_exec hexecuted.run) ?_)
  obtain ⟨row, hrow, -⟩ := hexecuted.pipeline
  refine await_into (pipelineUpdate_exec hrow) ?_
  rw [hclock]
  have hended := (hexecuted.runUpdated
    (finalRunData summary store.clock)).pipelineUpdated store.clock
  refine log_into store.nextId fun first hfirst => ?_
  refine log_into store.nextId fun after hafter => ?_
  exact ⟨after, rfl, rfl, rfl, (hended.quiet hfirst).quiet hafter⟩

structure Queued (env : Env) (pipeline : SyncPipeline)
    (options : CreateRunOptions) (syncRunId jobId : Id)
    (before after : Store) : Prop where
  run : ∃ run, Table.find SyncRun.id syncRunId after.syncRuns = some run ∧
    run.triggerType = options.triggerType
  backgroundJob : ∃ job,
    Table.find BackgroundJob.id jobId after.backgroundJobs = some job
  stored : Table.find SyncPipeline.id pipeline.id after.pipelines =
    some pipeline
  syncedRecords : after.syncedRecords = before.syncedRecords
  queued : env.isTestEnv = false → ∃ job ∈ after.jobs, job.payload =
    .executeSyncRun (queuedPayload pipeline options syncRunId jobId)

theorem Queued.quiet {jobId : Id} {before middle after : Store}
    (h : Queued env pipeline options syncRunId jobId before middle)
    (hleaves : Leaves syncRunId [] id middle after) :
    Queued env pipeline options syncRunId jobId before after := by
  refine ⟨?_, ?_, ?_, hleaves.syncedRecords.trans h.syncedRecords, ?_⟩
  · rw [hleaves.syncRuns]
    exact h.run
  · rw [hleaves.backgroundJobs]
    exact h.backgroundJob
  · rw [hleaves.pipelines]
    exact h.stored
  · rw [hleaves.jobs]
    exact h.queued

def enqueued (env : Env) (payload : ExecuteSyncRunJobPayload)
    (store : Store) : Store :=
  { store with
    jobs := if env.isTestEnv then store.jobs
      else (store.addJob payload.backgroundJobId (.executeSyncRun payload)
        env.defaultAttempts).jobs }

theorem enqueue_eval {payload : ExecuteSyncRunJobPayload}
    (hasync : env.queueMode = .async) :
    (machine env).eval (JobsService.enqueueExecuteSyncRunJob env payload)
      store = (.ok payload.backgroundJobId, enqueued env payload store) := by
  cases htest : env.isTestEnv with
  | true =>
      simp [JobsService.enqueueExecuteSyncRunJob, JobsService.enqueueJob,
        JobsService.isAsyncMode, JobsService.hasQueue, hasync, htest, enqueued,
        Machine.eval]
  | false =>
      simp [JobsService.enqueueExecuteSyncRunJob, JobsService.enqueueJob,
        JobsService.isAsyncMode, JobsService.hasQueue, hasync, htest, enqueued,
        Machine.eval, Prog.await, machine, exec, Store.addJob]

theorem queueSyncRun_leaves (hasync : env.queueMode = .async)
    (hstored : Table.find SyncPipeline.id pipeline.id store.pipelines =
      some pipeline)
    (hruns : ∀ row ∈ store.syncRuns, row.id ≠ store.nextId)
    (hjobs : ∀ row ∈ store.backgroundJobs, row.id ≠ store.nextId + 1) :
    ∃ after, (machine env).eval (queueSyncRun env pipeline options) store =
        (.ok (.queued (store.nextId + 1) store.nextId pipeline.id), after) ∧
      Queued env pipeline options store.nextId (store.nextId + 1) store
        after := by
  let created := store.createSyncRun {
    pipelineId := pipeline.id
    status := .queued
    triggerType := options.triggerType }
  have hcreate : (machine env).exec (.syncRunCreate {
      pipelineId := pipeline.id
      status := .queued
      triggerType := options.triggerType }) store = .ok created := rfl
  refine await_into hcreate (await_into rfl ?_)
  refine eval_into (enqueue_eval hasync) ?_
  refine log_into store.nextId fun first hfirst => ?_
  refine log_into store.nextId fun after hafter => ?_
  refine ⟨after, rfl, Queued.quiet (Queued.quiet ?_ hfirst) hafter⟩
  constructor
  · exact ⟨created.1, Table.find_append_new hruns rfl, rfl⟩
  · exact ⟨_, Table.find_append_new hjobs rfl⟩
  · exact hstored
  · rfl
  · intro htest
    simp [enqueued, htest, Store.addJob]

/-! ### The worker -/

section Worker

variable {payload : ExecuteSyncRunJobPayload} {attempts : Nat} {run : SyncRun}
  {job : BackgroundJob}

theorem runQueuedRecords_leaves {jobId : Id} {startedAt : Time}
    (hsteady : env.engine.Steady fields)
    (hcompiled : env.engine.compileMapping pipeline.mappingJson = .ok fields)
    (hhandles : ∀ record ∈ eligibleRecords env pipeline payload.ignoreCursor
      payload.mockRecords, env.engine.Handles fields record)
    (hstored : Table.find SyncPipeline.id pipeline.id store.pipelines =
      some pipeline)
    (hrun : Table.find SyncRun.id syncRunId store.syncRuns = some run)
    (hjob : Table.find BackgroundJob.id jobId store.backgroundJobs =
      some job) :
    ∃ after, (machine env).eval (runQueuedRecords env payload attempts jobId
        syncRunId pipeline startedAt actor) store = (.ok (), after) ∧
      ∃ final, final.report = finalReport (summaryOf env fields pipeline
          payload.ignoreCursor payload.mockRecords) run.triggerType ∧
        Executed syncRunId pipeline.id final
          (contentsOf env fields pipeline payload.ignoreCursor
            payload.mockRecords)
          (cursorAfter env fields pipeline payload.ignoreCursor
            payload.mockRecords) store after := by
  let summary := summaryOf env fields pipeline payload.ignoreCursor
    payload.mockRecords
  refine (processRunRecords_runsTo hsteady hcompiled hhandles hstored).into
    fun processed hprocessed => ?_
  have hexecuted := executed_of_leaves hrun hstored hprocessed
  have hfound : Table.find BackgroundJob.id jobId processed.backgroundJobs =
      some job := by
    rw [hprocessed.backgroundJobs]
    exact hjob
  refine await_into rfl (await_into (syncRunUpdate_exec hexecuted.run) ?_)
  obtain ⟨row, hrow, -⟩ := hexecuted.pipeline
  refine await_into (pipelineUpdate_exec hrow) ?_
  refine await_into (backgroundJobUpdate_exec hfound) ?_
  have hended := (hexecuted.runUpdated
    (finalRunData summary processed.clock)).pipelineUpdated processed.clock
  refine log_into syncRunId fun first hfirst => ?_
  refine log_last syncRunId fun after hafter => ?_
  exact ⟨_, rfl, (hended.jobUpdated.quiet hfirst).quiet hafter⟩

theorem getById_eval
    (hstored : Table.find SyncPipeline.id pipeline.id store.pipelines =
      some pipeline) :
    (machine env).eval (PipelinesService.getById pipeline.id) store =
      (.ok pipeline, store) := by
  have hfind : (machine env).exec (.pipelineFindUnique pipeline.id) store =
      .ok (some pipeline, store) := by
    simp only [machine, exec, hstored]
  exact Machine.eval_bind_ok (Machine.eval_await hfind)

theorem processQueuedSyncRun_into {result : Except Failure Unit}
    {P : Store → Prop} (hpipeline : payload.pipelineId = pipeline.id)
    (hstored : Table.find SyncPipeline.id pipeline.id store.pipelines =
      some pipeline)
    (hrun : Table.find SyncRun.id payload.syncRunId store.syncRuns = some run)
    (hjob : Table.find BackgroundJob.id payload.backgroundJobId
      store.backgroundJobs = some job)
    (hrest : ∀ started run' job',
      Table.find SyncPipeline.id pipeline.id started.pipelines = some pipeline →
      Table.find SyncRun.id payload.syncRunId started.syncRuns = some run' →
      run'.triggerType = run.triggerType →
      Table.find BackgroundJob.id payload.backgroundJobId
        started.backgroundJobs = some job' →
      started.syncedRecords = store.syncedRecords →
      ∃ after, (machine env).eval (Prog.tryCatch
        (runQueuedRecords env payload attempts payload.backgroundJobId
          payload.syncRunId pipeline store.clock
          (some ⟨payload.requestedByUserId, payload.requestedByRole⟩))
        (failQueuedRun payload attempts payload.backgroundJobId
          payload.syncRunId pipeline store.clock
          (some ⟨payload.requestedByUserId, payload.requestedByRole⟩)))
        started = (result, after) ∧ P after) :
    ∃ after, (machine env).eval (processQueuedSyncRun env payload attempts)
      store = (result, after) ∧ P after := by
  have hfindJob : (machine env).exec
      (.backgroundJobFindUnique payload.backgroundJobId) store =
        .ok (some job, store) := by
    simp only [machine, exec, hjob]
  have hfindRun : (machine env).exec (.syncRunFindUnique payload.syncRunId)
      store = .ok (some run, store) := by
    simp only [machine, exec, hrun]
  have hrunId : run.id = payload.syncRunId := Table.find_key hrun
  have hjobId : job.id = payload.backgroundJobId := Table.find_key hjob
  rw [← hrunId] at hrun hrest
  rw [← hjobId] at hjob hrest
  simp only [processQueuedSyncRun, bind_eq]
  refine await_into hfindJob (eval_into rfl ?_)
  refine await_into hfindRun (eval_into rfl ?_)
  rw [hpipeline]
  refine eval_into (getById_eval hstored) ?_
  refine await_into rfl ?_
  refine await_into (backgroundJobUpdate_exec hjob) ?_
  refine await_into (syncRunUpdate_exec hrun) ?_
  refine log_into run.id fun first hfirst => ?_
  refine log_into run.id fun started hstarted => ?_
  have hboth := hfirst.trans hstarted
  have hpipeline' : Table.find SyncPipeline.id pipeline.id started.pipelines =
      some pipeline := by
    rw [hboth.pipelines]
    exact hstored
  have hrun' : Table.find SyncRun.id run.id started.syncRuns =
      some (SyncRunData.apply {
        status := .running
        startedAt := some store.clock } run) := by
    rw [hboth.syncRuns]
    exact find_runUpdated hrun
  have hjob' : Table.find BackgroundJob.id job.id started.backgroundJobs =
      some (BackgroundJobData.apply {
        status := .processing
        startedAt := some store.clock
        attempts := attempts } job) := by
    rw [hboth.backgroundJobs]
    exact find_jobUpdated hjob
  exact hrest started _ _ hpipeline' hrun' rfl hjob' hboth.syncedRecords

theorem processQueuedSyncRun_leaves (hsteady : env.engine.Steady fields)
    (hcompiled : env.engine.compileMapping pipeline.mappingJson = .ok fields)
    (hhandles : ∀ record ∈ eligibleRecords env pipeline payload.ignoreCursor
      payload.mockRecords, env.engine.Handles fields record)
    (hpipeline : payload.pipelineId = pipeline.id)
    (hstored : Table.find SyncPipeline.id pipeline.id store.pipelines =
      some pipeline)
    (hrun : Table.find SyncRun.id payload.syncRunId store.syncRuns = some run)
    (hjob : Table.find BackgroundJob.id payload.backgroundJobId
      store.backgroundJobs = some job) :
    ∃ after, (machine env).eval (processQueuedSyncRun env payload attempts)
        store = (.ok (), after) ∧
      ∃ final, final.report = finalReport (summaryOf env fields pipeline
          payload.ignoreCursor payload.mockRecords) run.triggerType ∧
        Executed payload.syncRunId pipeline.id final
          (contentsOf env fields pipeline payload.ignoreCursor
            payload.mockRecords)
          (cursorAfter env fields pipeline payload.ignoreCursor
            payload.mockRecords) store after := by
  refine processQueuedSyncRun_into hpipeline hstored hrun hjob
    fun started run' job' hpipeline' hrun' htrigger hjob' hsame => ?_
  obtain ⟨after, hevals, final, hreport, hexecuted⟩ := runQueuedRecords_leaves
    hsteady hcompiled hhandles hpipeline' hrun' hjob'
  rw [htrigger] at hreport
  exact ⟨after, Machine.eval_tryCatch_ok hevals, final, hreport,
    hexecuted.since hsame⟩

end Worker

/-! ## Runs of a mapping that does not compile -/

section Uncompiled

variable {error : Failure} {run : SyncRun}

theorem compileMappingOrThrow_error {mappingJson : Json}
    (h : env.engine.compileMapping mappingJson = .error error) :
    ∃ thrown, compileMappingOrThrow env mappingJson = .error thrown := by
  rw [compileMappingOrThrow, h]
  split
  · exact ⟨_, rfl⟩
  · exact ⟨_, rfl⟩

theorem processRunRecords_throws (records : List SyncRunMockRecordPayload)
    (ignoreCursor : Bool)
    (h : env.engine.compileMapping pipeline.mappingJson = .error error) :
    ∃ thrown, ∀ syncRunId actor store, (machine env).eval
      (processRunRecords env syncRunId pipeline records ignoreCursor actor)
      store = (.error thrown, store) := by
  obtain ⟨thrown, hthrown⟩ := compileMappingOrThrow_error h
  refine ⟨thrown, fun syncRunId actor store => ?_⟩
  simp only [processRunRecords, bind_eq, hthrown, ofExcept_error, throw_bind]
  rfl

/-- `executeSyncRunNow` has no `catch`: the run stays `RUNNING`. -/
theorem executeSyncRunNow_throws
    (h : env.engine.compileMapping pipeline.mappingJson = .error error)
    (hfresh : ∀ row ∈ store.syncRuns, row.id ≠ store.nextId) :
    ∃ thrown after, (machine env).eval (executeSyncRunNow env pipeline options)
        store = (.error thrown, after) ∧
      ∃ run, Table.find SyncRun.id store.nextId after.syncRuns = some run ∧
        run.status = .running := by
  obtain ⟨thrown, hthrown⟩ := processRunRecords_throws options.mockRecords
    options.ignoreCursor h
  let created := store.createSyncRun {
    pipelineId := pipeline.id
    status := .running
    triggerType := options.triggerType
    startedAt := some store.clock }
  have hcreate : (machine env).exec (.syncRunCreate {
      pipelineId := pipeline.id
      status := .running
      triggerType := options.triggerType
      startedAt := some store.clock }) store = .ok created := rfl
  refine ⟨thrown, await_into rfl (await_into hcreate ?_)⟩
  refine log_into store.nextId fun started hstarted => ?_
  refine ⟨started, Machine.eval_bind_error (hthrown _ _ started), created.1,
    ?_, rfl⟩
  rw [hstarted.syncRuns]
  exact Table.find_append_new hfresh rfl

section Delivery

variable {payload : ExecuteSyncRunJobPayload} {attempts : Nat}
  {job : BackgroundJob} {jobId : Id} {startedAt : Time}

theorem failQueuedRun_leaves {failure : Failure}
    (hstored : Table.find SyncPipeline.id pipeline.id store.pipelines =
      some pipeline)
    (hrun : Table.find SyncRun.id syncRunId store.syncRuns = some run)
    (hjob : Table.find BackgroundJob.id jobId store.backgroundJobs =
      some job) :
    ∃ after, (machine env).eval (failQueuedRun payload attempts jobId syncRunId
        pipeline startedAt actor failure) store = (.error failure, after) ∧
      ∃ run, Table.find SyncRun.id syncRunId after.syncRuns = some run ∧
        run.status = .failed := by
  refine await_into rfl (await_into (syncRunUpdate_exec hrun) ?_)
  refine await_into (pipelineUpdate_exec hstored) ?_
  refine await_into (backgroundJobUpdate_exec hjob) ?_
  refine log_into syncRunId fun first hfirst => ?_
  refine log_into syncRunId fun after hafter => ?_
  refine ⟨after, rfl, ?_⟩
  rw [(hfirst.trans hafter).syncRuns]
  exact ⟨_, find_runUpdated hrun, rfl⟩

/-- The delivery catches the exception and ends the run as `FAILED`. -/
theorem processQueuedSyncRun_fails
    (h : env.engine.compileMapping pipeline.mappingJson = .error error)
    (hpipeline : payload.pipelineId = pipeline.id)
    (hstored : Table.find SyncPipeline.id pipeline.id store.pipelines =
      some pipeline)
    (hrun : Table.find SyncRun.id payload.syncRunId store.syncRuns = some run)
    (hjob : Table.find BackgroundJob.id payload.backgroundJobId
      store.backgroundJobs = some job) :
    ∃ thrown after, (machine env).eval
        (processQueuedSyncRun env payload attempts) store =
          (.error thrown, after) ∧
      ∃ run, Table.find SyncRun.id payload.syncRunId after.syncRuns =
        some run ∧ run.status = .failed := by
  obtain ⟨thrown, hthrown⟩ := processRunRecords_throws payload.mockRecords
    payload.ignoreCursor h
  refine ⟨thrown, processQueuedSyncRun_into hpipeline hstored hrun hjob
    fun started run' job' hpipeline' hrun' _ hjob' _ => ?_⟩
  have hbody : (machine env).eval (runQueuedRecords env payload attempts
      payload.backgroundJobId payload.syncRunId pipeline store.clock
      (some ⟨payload.requestedByUserId, payload.requestedByRole⟩)) started =
        (.error thrown, started) :=
    Machine.eval_bind_error (hthrown _ _ started)
  obtain ⟨after, hevals, hfailed⟩ :=
    failQueuedRun_leaves hpipeline' hrun' hjob'
  exact ⟨after, (Machine.eval_tryCatch_error hbody).trans hevals, hfailed⟩

end Delivery

end Uncompiled

end Whole

end SyncBridge
