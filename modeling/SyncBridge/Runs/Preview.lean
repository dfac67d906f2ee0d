import SyncBridge.Runs.Modes
import SyncBridge.Services.Pipelines

/-!
# The preview of a run

`previewTransformation` maps the records and counts afterwards; a run counts
while it goes through them.  Where the cursor is not applied and nothing fails,
the counts and the rows are the same.
-/

namespace SyncBridge

open SyncBridge.Foundation SyncBridge.Foundation.Prog
open SyncBridge.SyncRunsService SyncBridge.PipelinesService

/-! ## What the preview shows -/

def previewOf (env : Env) (fields : List NormalizedMappingField)
    (record : SyncRunMockRecordPayload) : PreviewResult :=
  previewResult record (env.engine.outcome fields record)

def PipelinesService.PreviewResult.content (result : PreviewResult) : RecordContent :=
  ⟨result.externalId, .obj result.raw, .obj result.normalized, "MANUAL"⟩

namespace PipelinesService.PreviewResponse

variable (response : PreviewResponse)

def contents : List RecordContent :=
  (response.results.filter fun result => !result.isInvalid).map
    PreviewResult.content

def errorCount : Nat :=
  (response.results.map fun result => result.errors.length).sum

end PipelinesService.PreviewResponse

def previewResponse (env : Env) (fields : List NormalizedMappingField)
    (pipelineId : Id) (records : List SyncRunMockRecordPayload) :
    PreviewResponse :=
  let results := records.map (previewOf env fields)
  let recordsInvalid := (results.filter PreviewResult.isInvalid).length
  { pipelineId := pipelineId
    results := results
    summary := {
      recordsReceived := records.length
      recordsValid := records.length - recordsInvalid
      recordsInvalid := recordsInvalid } }

section Counting

variable {env : Env} {fields : List NormalizedMappingField}
  {record : SyncRunMockRecordPayload} {records : List SyncRunMockRecordPayload}
  {state : LoopState}

theorem isInvalid_previewOf :
    (previewOf env fields record).isInvalid =
      decide (0 < (env.engine.outcome fields record).errors.length) := rfl

theorem contentOf_previewOf :
    contentOf env fields record =
      if (previewOf env fields record).isInvalid then none
      else some (previewOf env fields record).content := by
  simp only [contentOf, isInvalid_previewOf, decide_eq_true_eq]
  rfl

theorem countRecord_previewOf :
    countRecord env fields state record =
      if (previewOf env fields record).isInvalid then
        state.fail (previewOf env fields record).errors.length
      else state.created (extractCursorCandidate env.dates
        (ensureRecordObject record.raw)) := by
  simp only [countRecord, isInvalid_previewOf, decide_eq_true_eq]
  rfl

theorem filterMap_contentOf :
    records.filterMap (contentOf env fields) =
      ((records.map (previewOf env fields)).filter
        fun result => !result.isInvalid).map PreviewResult.content := by
  induction records with
  | nil => rfl
  | cons record records ih =>
      simp only [List.filterMap_cons, List.map_cons, List.filter_cons, ih]
      rw [contentOf_previewOf]
      cases (previewOf env fields record).isInvalid <;> rfl

theorem foldl_countRecord :
    (records.foldl (countRecord env fields) state).failedCount =
        state.failedCount + ((records.map (previewOf env fields)).filter
          PreviewResult.isInvalid).length ∧
      (records.foldl (countRecord env fields) state).createdCount +
          (records.foldl (countRecord env fields) state).failedCount =
        state.createdCount + state.failedCount + records.length ∧
      (records.foldl (countRecord env fields) state).totalErrorCount =
        state.totalErrorCount + ((records.map (previewOf env fields)).map
          fun result => result.errors.length).sum := by
  induction records generalizing state with
  | nil => simp
  | cons record records ih =>
      obtain ⟨hfailed, hturns, herrors⟩ :=
        @ih (countRecord env fields state record)
      simp only [List.foldl_cons, List.map_cons, List.filter_cons,
        List.length_cons, List.sum_cons]
      rw [countRecord_previewOf] at hfailed hturns herrors ⊢
      cases hinvalid : (previewOf env fields record).isInvalid with
      | true =>
          simp only [hinvalid, if_true, LoopState.fail, List.length_cons]
            at hfailed hturns herrors ⊢
          omega
      | false =>
          have hnone : (previewOf env fields record).errors.length = 0 := by
            simpa [PreviewResult.isInvalid] using hinvalid
          simp only [hinvalid, Bool.false_eq_true, if_false, LoopState.created]
            at hfailed hturns herrors ⊢
          omega

end Counting

section Agreement

variable {env : Env} {fields : List NormalizedMappingField}
  {pipeline : SyncPipeline} {ignoreCursor : Bool}
  {records : List SyncRunMockRecordPayload} {user : AuthenticatedUser}
  {store : Store}

theorem foldlM_previewRecord (hsteady : env.engine.Steady fields)
    (hhandles : ∀ record ∈ records, env.engine.Handles fields record) :
    ∃ after, (machine env).eval (records.foldlM (previewRecord fields) [])
      store = (.ok (records.map (previewOf env fields)), after) := by
  obtain ⟨after, hafter, -⟩ := @Machine.eval_foldlM _ _ _ _ _ _ (machine env)
    store (previewRecord fields)
    (fun results record => results ++ [previewOf env fields record])
    (fun _ _ => True) records
    (fun done record rest results middle hrecords _ => by
      have hhandle : env.engine.Handles fields record :=
        hhandles record (by simp [hrecords])
      obtain ⟨after, htransform, -⟩ := @transform_runsTo env fields 0 middle
        record hsteady hhandle
      exact ⟨after, Machine.eval_bind_ok htransform, trivial⟩) [] trivial
  have hmap : records.foldl
      (fun results record => results ++ [previewOf env fields record]) [] =
        records.map (previewOf env fields) := by
    rw [List.foldl_append_eq_append, List.nil_append, ← List.flatMap_def,
      ← List.map_eq_flatMap]
  rw [← hmap]
  exact ⟨after, hafter⟩

theorem previewTransformation_eval (hsteady : env.engine.Steady fields)
    (hcompiled : env.engine.compileMapping pipeline.mappingJson = .ok fields)
    (hhandles : ∀ record ∈ records, env.engine.Handles fields record)
    (hstored : Table.find SyncPipeline.id pipeline.id store.pipelines =
      some pipeline)
    (haccess : assertCanAccess pipeline user = .ok ()) :
    ∃ after, (machine env).eval (previewTransformation env pipeline.id
      (some records) user) store =
        (.ok (previewResponse env fields pipeline.id records), after) := by
  have hfind : (machine env).eval (findOne pipeline.id user) store =
      (.ok pipeline, store) := by
    refine Machine.eval_bind_ok (getById_eval hstored) |>.trans ?_
    rw [haccess]
    rfl
  have hmapping : PipelinesService.compileMappingOrThrow env
      pipeline.mappingJson = .ok fields := by
    rw [PipelinesService.compileMappingOrThrow, hcompiled]
  obtain ⟨middle, hresults⟩ := @foldlM_previewRecord env fields records store
    hsteady hhandles
  simp only [previewTransformation, bind_eq]
  rw [Machine.eval_bind_ok hfind, hmapping]
  simp only [ofExcept_ok, ret_bind, Option.getD_some]
  rw [Machine.eval_bind_ok hresults]
  exact ⟨_, Machine.eval_bind_ok (Machine.eval_await rfl)⟩

theorem eligibleRecords_all
    (hcursor : pipeline.incrementalMode = false ∨ ignoreCursor = true) :
    eligibleRecords env pipeline ignoreCursor records = records := by
  obtain hnever | hignored := hcursor
  · simp [eligibleRecords, hnever]
  · simp [eligibleRecords, hignored]

/-- Where the cursor is not applied, the summary of the run has the counts of
the preview, and the rows are those of its results without errors. -/
theorem summaryOf_preview
    (hcursor : pipeline.incrementalMode = false ∨ ignoreCursor = true) :
    let response := previewResponse env fields pipeline.id records
    let summary := summaryOf env fields pipeline ignoreCursor records
    summary.recordsReceived = response.summary.recordsReceived ∧
      summary.recordsProcessed = response.summary.recordsValid ∧
      summary.recordsFailed = response.summary.recordsInvalid ∧
      summary.errorCount = response.errorCount ∧
      contentsOf env fields pipeline ignoreCursor records =
        response.contents := by
  have heligible : eligibleRecords env pipeline ignoreCursor records =
      records := eligibleRecords_all hcursor
  obtain ⟨hfailed, hturns, herrors⟩ :=
    @foldl_countRecord env fields records {}
  simp only [summaryOf, contentsOf, heligible, previewResponse,
    PreviewResponse.errorCount, PreviewResponse.contents]
  dsimp only at hfailed hturns herrors
  refine ⟨trivial, ?_, ?_, ?_, filterMap_contentOf⟩
  · omega
  · omega
  · omega

end Agreement

/-! ## The preview predicts the run -/

/-- The summary that `processRunRecords` returns agrees with the preview. -/
structure SummaryPredicted (response : PreviewResponse)
    (summary : RunProcessingSummary) : Prop where
  received : summary.recordsReceived = response.summary.recordsReceived
  processed : summary.recordsProcessed = response.summary.recordsValid
  failed : summary.recordsFailed = response.summary.recordsInvalid
  errors : summary.errorCount = response.errorCount

/-- The rows of the run are those of the results without errors, in order. -/
def RowsPredicted (response : PreviewResponse) (syncRunId : Id)
    (before after : Store) : Prop :=
  ∃ new, after.syncedRecords = before.syncedRecords ++ new ∧
    new.map SyncedRecord.content = response.contents ∧
    ∀ row ∈ new, row.syncRunId = syncRunId

structure RunPredicted (response : PreviewResponse) (syncRunId : Id)
    (before after : Store) : Prop where
  run : ∃ run, Table.find SyncRun.id syncRunId after.syncRuns = some run ∧
    run.recordsReceived = response.summary.recordsReceived ∧
    run.recordsProcessed = response.summary.recordsValid ∧
    run.recordsFailed = response.summary.recordsInvalid ∧
    (run.status = .success ↔ response.summary.recordsInvalid = 0)
  rows : RowsPredicted response syncRunId before after

section Prediction

variable {env : Env} {runtime : Runtime} {fields : List NormalizedMappingField}
  {pipeline : SyncPipeline} {options : CreateRunOptions}
  {user : AuthenticatedUser} {response : PreviewResponse} {syncRunId : Id}
  {before after : Store}

theorem runPredicted_of_left {summary : RunProcessingSummary}
    {triggerType : SyncRunTriggerType} {cursorJson : Option Json}
    (hsummary : SummaryPredicted response summary)
    (h : RunLeft syncRunId pipeline.id (finalReport summary triggerType)
      response.contents cursorJson before after) :
    RunPredicted response syncRunId before after := by
  obtain ⟨run, hrun, hreport⟩ := Option.map_eq_some_iff.mp h.run
  refine ⟨⟨run, hrun, ?_, ?_, ?_, ?_⟩, h.records⟩
  · exact (congrArg RunReport.recordsReceived hreport).trans hsummary.received
  · exact (congrArg RunReport.recordsProcessed hreport).trans
      hsummary.processed
  · exact (congrArg RunReport.recordsFailed hreport).trans hsummary.failed
  · have hstatus : run.status = RunProcessingSummary.finalRunStatus summary :=
      congrArg RunReport.status hreport
    rw [hstatus, RunProcessingSummary.finalRunStatus, hsummary.failed]
    split <;> simp <;> omega

/-- For a pipeline whose mapping computes nothing, records whose transformation
does not throw and a run that does not apply the cursor, the preview answers
what the run comes to: the summary of its records, and the run and the rows
that it leaves when it is executed at once or delivered from the queue. -/
theorem preview_predicts_run
    (hengine : env.engine = TransformationEngineService.engine runtime)
    (hcompiled : env.engine.compileMapping pipeline.mappingJson = .ok fields)
    (hfree : TransformationEngineService.ComputeFree fields)
    (hhandles : ∀ record ∈ options.mockRecords,
      env.engine.Handles fields record)
    (hcursor : pipeline.incrementalMode = false ∨ options.ignoreCursor = true)
    {store : Store}
    (hstored : Table.find SyncPipeline.id pipeline.id store.pipelines =
      some pipeline)
    (haccess : assertCanAccess pipeline user = .ok ()) :
    ∃ response, ((machine env).eval (previewTransformation env pipeline.id
        (some options.mockRecords) user) store).1 = .ok response ∧
      (∀ syncRunId actor before,
        Table.find SyncPipeline.id pipeline.id before.pipelines =
          some pipeline →
        ∃ summary after, (machine env).eval (processRunRecords env syncRunId
            pipeline options.mockRecords options.ignoreCursor actor) before =
              (.ok summary, after) ∧
          SummaryPredicted response summary ∧
          RowsPredicted response syncRunId before after) ∧
      (∀ before,
        Table.find SyncPipeline.id pipeline.id before.pipelines =
          some pipeline →
        Table.Keyed SyncRun.id before.nextId before.syncRuns →
        RunPredicted response before.nextId before
          (created env .sync pipeline options before).2) ∧
      ∀ syncRunId jobId attempts before run job,
        Table.find SyncPipeline.id pipeline.id before.pipelines =
          some pipeline →
        Table.find SyncRun.id syncRunId before.syncRuns = some run →
        Table.find BackgroundJob.id jobId before.backgroundJobs = some job →
        RunPredicted response syncRunId before (delivered env
          (queuedPayload pipeline options syncRunId jobId) attempts before).2 := by
  have hsteady := steady_of_computeFree hengine hfree
  obtain ⟨previewed, hpreview⟩ := previewTransformation_eval hsteady hcompiled
    hhandles hstored haccess
  obtain ⟨hreceived, hprocessed, hfailed, herrors, hcontents⟩ :=
    @summaryOf_preview env fields pipeline options.ignoreCursor
      options.mockRecords hcursor
  have heligible : ∀ record ∈ eligibleRecords env pipeline options.ignoreCursor
      options.mockRecords, env.engine.Handles fields record := by
    rw [eligibleRecords_all hcursor]
    exact hhandles
  have hsummary : SummaryPredicted
      (previewResponse env fields pipeline.id options.mockRecords)
      (summaryOf env fields pipeline options.ignoreCursor
        options.mockRecords) :=
    ⟨hreceived, hprocessed, hfailed, herrors⟩
  refine ⟨previewResponse env fields pipeline.id options.mockRecords,
    by rw [hpreview], ?_, ?_, ?_⟩
  · intro syncRunId actor before hfound
    obtain ⟨after, hevals, hleaves⟩ := @processRunRecords_runsTo env fields
      syncRunId actor before pipeline options.mockRecords options.ignoreCursor
      hsteady hcompiled heligible hfound
    refine ⟨_, after, hevals, hsummary, ?_⟩
    rw [RowsPredicted, ← hcontents]
    exact hleaves.records
  · intro before hfound hruns
    have hleft := created_sync hsteady hcompiled heligible hfound hruns
    rw [hcontents] at hleft
    exact runPredicted_of_left hsummary hleft
  · intro syncRunId jobId attempts before run job hfound hrun hjob
    have hleft := @delivered_left env fields pipeline options syncRunId jobId
      attempts before run job hsteady hcompiled heligible hfound hrun hjob
    rw [hcontents] at hleft
    exact runPredicted_of_left hsummary hleft

end Prediction

/-- Of the three records the second lacks its name. -/
theorem preview_predicts_run_of_contacts :
    ∃ response, ((machine Sample.engineEnv).eval (previewTransformation
        Sample.engineEnv 3 (some Sample.contacts.mockRecords) Sample.operator)
        (Sample.mappedStore Sample.requiredMapping)).1 = .ok response ∧
      response.summary.recordsReceived = 3 ∧ response.summary.recordsValid = 2 ∧
      RunPredicted response 10 (Sample.mappedStore Sample.requiredMapping)
        (created Sample.engineEnv .sync (Sample.mapped Sample.requiredMapping)
          { Sample.contacts with ignoreCursor := true }
          (Sample.mappedStore Sample.requiredMapping)).2 := by
  have hruns : Table.Keyed SyncRun.id 10 [] := ⟨List.nodup_nil, by simp⟩
  obtain ⟨response, hpreview, -, hexecuted, -⟩ :=
    @preview_predicts_run _ Sample.runtime _
      (Sample.mapped Sample.requiredMapping)
      { Sample.contacts with ignoreCursor := true } Sample.operator rfl
      Sample.compile_requiredMapping Sample.computeFree_requiredFields
      Sample.handles_contacts (.inr rfl)
      (Sample.mappedStore Sample.requiredMapping) rfl rfl
  have hcounts : ((machine Sample.engineEnv).eval (previewTransformation
      Sample.engineEnv 3 (some Sample.contacts.mockRecords) Sample.operator)
      (Sample.mappedStore Sample.requiredMapping)).1.toOption.any
        (fun response => response.summary.recordsReceived = 3 ∧
          response.summary.recordsValid = 2) = true := by
    decide +kernel
  have hboth := (congrArg (fun result => result.toOption.any fun response =>
    decide (response.summary.recordsReceived = 3 ∧
      response.summary.recordsValid = 2)) hpreview).symm.trans hcounts
  obtain ⟨hreceived, hvalid⟩ := of_decide_eq_true hboth
  exact ⟨response, hpreview, hreceived, hvalid,
    hexecuted (Sample.mappedStore Sample.requiredMapping) rfl hruns⟩

end SyncBridge
