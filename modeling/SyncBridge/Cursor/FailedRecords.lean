import SyncBridge.Cursor.HighWater

/-!
# Records that failed

A run that fails on a record leaves the cursor where it is, so that the record
is let through again.  It is lost behind the cursor once a later run, over other
records, moves the cursor past it.
-/

namespace SyncBridge

open SyncBridge.Foundation SyncBridge.Foundation.Prog
open SyncBridge.SyncRunsService

/-! ## A failure in a run -/

section OneRun

variable {env : Env} {syncRunId : Id} {pipeline : SyncPipeline}
  {records : List SyncRunMockRecordPayload} {actor : AuditActor}
  {store : Store} {state : LoopState}
  {compiledMapping : List NormalizedMappingField}

def finishRun (env : Env) (syncRunId : Id) (pipeline : SyncPipeline)
    (mockRecords eligible : List SyncRunMockRecordPayload) (actor : AuditActor)
    (state : LoopState) : Body RunProcessingSummary :=
  (updateCursor env syncRunId pipeline state actor).bind fun cursorValue =>
    .ret {
      recordsReceived := mockRecords.length
      recordsProcessed := state.createdCount
      recordsFailed := state.failedCount
      errorCount := state.totalErrorCount
      skippedByCursor := mockRecords.length - eligible.length
      cursorAdvanced := cursorValue.isSome
      cursorValue := cursorValue }

theorem records_failed {pipelineId : Id} (hfailed : state.failedCount ≠ 0) :
    (records.foldlM (processRecord env syncRunId pipelineId compiledMapping
      actor) state).Returns fun state' => state'.failedCount ≠ 0 := by
  refine (Returns.foldlM (fun _ state => state.failedCount ≠ 0) ?_
    hfailed).mono fun _ h => h
  intro record rest state hstate
  refine processRecord_returns.mono fun state' hstate' => ?_
  rcases hstate' with hcounted | rfl
  · exact hcounted
  · exact hstate

theorem rest_keeps {mockRecords eligible : List SyncRunMockRecordPayload}
    {pipelineId : Id} (hincremental : pipeline.incrementalMode = true)
    (hfailed : state.failedCount ≠ 0) :
    (machine env).Ensures
      (fun _ final => final.pipelines = store.pipelines)
      ((records.foldlM (processRecord env syncRunId pipelineId compiledMapping
        actor) state).bind
          (finishRun env syncRunId pipeline mockRecords eligible actor))
      store := by
  have hloop : (records.foldlM (processRecord env syncRunId pipelineId
      compiledMapping actor) state).Uses KeepsPipelines :=
    Uses.foldlM (fun _ _ _ => processRecord_rule keepsPipelines_quiet
      fun _ _ => (uses_await _).mpr rfl) state
  refine ((ensures_pipelines hloop).and_returns
    (records_failed hfailed)).bind ?_ fun _ _ hkept => hkept.1
  rintro state' middle ⟨hmiddle, hstate'⟩
  have hcounted : state'.failedCount ≠ 0 := hstate' state' rfl
  refine (updateCursor_outcome hincremental fun chosen hnone _ =>
    absurd hnone hcounted).bind ?_ ?_
  · rintro value final (⟨hkept, -⟩ | ⟨hnone, -⟩)
    · exact hkept.trans hmiddle
    · exact absurd hnone hcounted
  · rintro error final (⟨hkept, -⟩ | ⟨hnone, -⟩)
    · exact hkept.trans hmiddle
    · exact absurd hnone hcounted

end OneRun

namespace CursorRun

variable {env : Env} {id : Id} {run : CursorRun env id}
  {record again : SyncRunMockRecordPayload} {sequence : ℚ}

def turn (run : CursorRun env id)
    (compiledMapping : List NormalizedMappingField) :
    LoopState → SyncRunMockRecordPayload → Body LoopState :=
  processRecord env run.syncRunId run.pipeline.id compiledMapping run.actor

/-- The run has come to the record, and the turn for it has counted a failure or
thrown. -/
def FailsOn (run : CursorRun env id) (record : SyncRunMockRecordPayload) :
    Prop :=
  ∃ compiledMapping done rest state middle outcome last,
    compileMappingOrThrow env run.pipeline.mappingJson = .ok compiledMapping ∧
    run.accepted = done ++ record :: rest ∧
    (machine env).Runs (done.foldlM (run.turn compiledMapping) {}) run.before
      (.ok state) middle ∧
    (machine env).Runs (run.turn compiledMapping state record) middle outcome
      last ∧
    (∀ state', outcome = .ok state' →
      state'.failedCount = state.failedCount + 1) ∧
    (machine env).Runs ((Prog.ofExcept outcome).bind fun state' =>
      (rest.foldlM (run.turn compiledMapping) state').bind
        (finishRun env run.syncRunId run.pipeline run.batch run.accepted
          run.actor)) last run.result run.after

theorem turn_keeps {compiledMapping : List NormalizedMappingField}
    {state : LoopState} :
    (run.turn compiledMapping state record).Uses KeepsPipelines :=
  processRecord_rule keepsPipelines_quiet fun _ _ => (uses_await _).mpr rfl

theorem FailsOn.keeps (h : run.FailsOn record) :
    run.after.pipelines = run.before.pipelines := by
  obtain ⟨compiledMapping, done, rest, state, middle, outcome, last, -, -, hdone,
    hturn, hfailed, hrest⟩ := h
  have hmiddle : middle.pipelines = run.before.pipelines :=
    (ensures_pipelines (Uses.foldlM (fun _ _ _ => turn_keeps) _)).of_runs hdone
  have hlast : last.pipelines = middle.pipelines :=
    (ensures_pipelines turn_keeps).of_runs hturn
  have hafter : run.after.pipelines = last.pipelines := by
    cases outcome with
    | error error =>
        have hthrown : (machine env).Ensures
            (fun _ final => final.pipelines = last.pipelines)
            (.throw error : Body RunProcessingSummary) last := rfl
        exact hthrown.of_runs hrest
    | ok state' =>
        have hcounted : state'.failedCount ≠ 0 := by
          rw [hfailed state' rfl]
          exact Nat.succ_ne_zero _
        exact (rest_keeps run.incremental hcounted).of_runs hrest
  rw [hafter, hlast, hmiddle]

def Moved (run : CursorRun env id) : Prop :=
  run.after.checkpoint id ≠ run.before.checkpoint id

/-- After a run that has moved the cursor a record is let through when it is
past all that the run has persisted. -/
theorem accepted_after_moved (hmoved : run.Moved)
    (hagain : recordSequence env.dates again = some sequence) :
    shouldProcessRecord env.dates again (run.after.cursor env.dates id) =
        true ↔
      ∀ other ∈ run.persistedSequences, other < sequence := by
  rcases run.moves with hkept | ⟨top, htop, hmax, -⟩
  · exact absurd hkept hmoved
  · obtain ⟨known, hknown, hbound⟩ := Option.bind_eq_some_iff.mp htop
    rw [hknown, shouldProcess_iff hbound hagain]
    exact ⟨fun hlt other hother => lt_of_le_of_lt (hmax.2 other hother) hlt,
      fun h => h top hmax.1⟩

theorem reached_of_moved (hmoved : run.Moved) :
    ∀ other ∈ run.persistedSequences,
      Reached (run.after.cursor env.dates id) other := by
  intro other hother
  rcases run.moves with hkept | ⟨top, htop, hmax, -⟩
  · exact absurd hkept hmoved
  · exact reached_of_sequence htop (hmax.2 other hother)

theorem past_of_moved {bound : ℚ} (hmoved : run.Moved)
    (hreached : Reached (run.before.cursor env.dates id) bound) :
    ∃ top ∈ run.persistedSequences, bound < top := by
  rcases run.moves with hkept | ⟨top, -, hmax, hpast⟩
  · exact absurd hkept hmoved
  · exact ⟨top, hmax.1, hpast bound hreached⟩

theorem accepted_after_kept (hkept : run.after.checkpoint id =
      run.before.checkpoint id) :
    run.after.cursor env.dates id = run.before.cursor env.dates id := by
  rw [Store.cursor, hkept, ← Store.cursor]

def finalStore (run : CursorRun env id) : List (CursorRun env id) → Store
  | [] => run.after
  | next :: since => finalStore next since

theorem accepted_since {since : List (CursorRun env id)}
    (hchain : (run :: since).IsChain Follows)
    (hagain : recordSequence env.dates again = some sequence) :
    shouldProcessRecord env.dates again
        ((run.finalStore since).cursor env.dates id) = true ↔
      (∀ later ∈ since, later.Moved →
        ∀ other ∈ later.persistedSequences, other < sequence) ∧
      ((∃ later ∈ since, later.Moved) ∨
        shouldProcessRecord env.dates again
          (run.after.cursor env.dates id) = true) := by
  induction since generalizing run with
  | nil => simp [finalStore]
  | cons next since ih =>
      obtain ⟨hfollows, hrest⟩ := List.isChain_cons_cons.mp hchain
      have hstart : next.before.cursor env.dates id =
          run.after.cursor env.dates id := by
        rw [Store.cursor, hfollows, ← Store.cursor]
      rw [finalStore, ih hrest, List.forall_mem_cons, List.exists_mem_cons_iff]
      by_cases hmoved : next.Moved
      · rw [accepted_after_moved hmoved hagain]
        constructor
        · rintro ⟨hlater, hmove⟩
          refine ⟨⟨fun _ other hother => ?_, hlater⟩, .inl (.inl hmoved)⟩
          rcases hmove with ⟨later, hmem, hlaterMoved⟩ | hpast
          · have hreached := reached_later hrest
              (reached_of_moved hmoved other hother) later hmem
            obtain ⟨top, htop, hpast⟩ :=
              past_of_moved hlaterMoved hreached
            exact hpast.trans (hlater later hmem hlaterMoved top htop)
          · exact hpast other hother
        · rintro ⟨⟨hpast, hlater⟩, -⟩
          exact ⟨hlater, .inr (hpast hmoved)⟩
      · rw [accepted_after_kept (not_not.mp hmoved), hstart]
        simp [hmoved]

/-- A record that has failed is let through again exactly when no run since
moved the cursor with a sequence that is not behind it.  Where no run has moved
the cursor at all, it must be one that the cursor let through before. -/
theorem failed_record_accepted {since : List (CursorRun env id)}
    (hchain : (run :: since).IsChain Follows) (hfailed : run.FailsOn record)
    (hsequence : recordSequence env.dates record = some sequence)
    (hagain : recordSequence env.dates again =
      recordSequence env.dates record) :
    shouldProcessRecord env.dates again
        ((run.finalStore since).cursor env.dates id) = true ↔
      (∀ later ∈ since, later.Moved →
        ∀ other ∈ later.persistedSequences, other < sequence) ∧
      ((∃ later ∈ since, later.Moved) ∨
        shouldProcessRecord env.dates again
          (run.before.cursor env.dates id) = true) := by
  have hkept : run.after.checkpoint id = run.before.checkpoint id := by
    rw [Store.checkpoint, hfailed.keeps, Store.checkpoint]
  rw [accepted_since hchain (hagain.trans hsequence),
    accepted_after_kept hkept]

end CursorRun

/-! ## A record that is lost -/

def requiredName : Record :=
  [("name", .obj [("path", .str "name"), ("required", .bool true)])]

def nameless : SyncRunMockRecordPayload := numbered "a" 5

def named (sequence : ℚ) : SyncRunMockRecordPayload :=
  ⟨some "b", .obj [("name", .str "Ada"), ("sequence", .num sequence)]⟩

theorem recordSequence_named {dates : Dates} {sequence : ℚ} :
    recordSequence dates (named sequence) = some sequence := by
  simp [recordSequence, sequenceOf, named, extractCursorCandidate,
    cursorOfParts, Record.get, List.lookup_cons]

def failingRun : CursorRun Sample.engineEnv 3 :=
  .ofBatch Sample.engineEnv (Sample.mappedStore requiredName)
    (Sample.mapped requiredName) [nameless] rfl rfl rfl
    (List.forall_mem_singleton.mpr (by rw [nameless, recordSequence_numbered]; rfl))

def requiredField : NormalizedMappingField where
  outputPath := "name"
  sourcePath := "name"
  required := true
  hasDefault := false
  defaultValue := none
  type := .json
  trim := false
  lowercase := false
  uppercase := false
  compute := none

def failedTurn : Except Failure LoopState × Store :=
  (machine Sample.engineEnv).eval
    (failingRun.turn [requiredField] {} nameless) failingRun.before

theorem failedTurn_counts : failedTurn.1 = .ok (LoopState.fail {} 1) := rfl

theorem failingRun_fails : failingRun.FailsOn nameless := by
  refine ⟨[requiredField], [], [], {}, failingRun.before, failedTurn.1,
    failedTurn.2, rfl, rfl, .ret _ _, Machine.runs_eval _ _, ?_,
    Machine.runs_eval _ _⟩
  intro state' hstate'
  rw [failedTurn_counts] at hstate'
  obtain rfl := Except.ok.inj hstate'
  rfl

def passingRun (sequence : ℚ) : CursorRun Sample.engineEnv 3 :=
  .ofBatch Sample.engineEnv failingRun.after (Sample.mapped requiredName)
    [named sequence] rfl rfl rfl
    (List.forall_mem_singleton.mpr (by rw [recordSequence_named]; rfl))

theorem passing_follows (sequence : ℚ) :
    [failingRun, passingRun sequence].IsChain CursorRun.Follows :=
  List.isChain_pair.mpr rfl

/-- Past the other record, the one that failed is let through. -/
theorem failed_record_accepted_of_passing :
    shouldProcessRecord Sample.dates nameless
      ((passingRun 3).after.cursor Sample.dates 3) = true := by
  have hpersisted : (passingRun 3).persistedSequences = [3] := by
    decide +kernel
  refine (CursorRun.failed_record_accepted (passing_follows 3) failingRun_fails
    recordSequence_numbered rfl).mpr ⟨?_, .inr rfl⟩
  intro later hlater _ other hother
  obtain rfl := List.mem_singleton.mp hlater
  rw [hpersisted, List.mem_singleton] at hother
  rw [hother]
  norm_num

/-- Behind the other record, it is not let through any more. -/
theorem failed_record_accepted_fails :
    [failingRun, passingRun 10].IsChain CursorRun.Follows ∧
      failingRun.FailsOn nameless ∧
      (passingRun 10).persistedSequences = [10] ∧
      recordSequence Sample.dates nameless = some 5 ∧
      shouldProcessRecord Sample.dates nameless
        ((passingRun 10).after.cursor Sample.dates 3) = false :=
  ⟨passing_follows 10, failingRun_fails, by decide +kernel,
    recordSequence_numbered, by decide +kernel⟩

end SyncBridge
