import SyncBridge.Cursor.Replay

/-!
# Runs over sequences, one after the other

A run either leaves the cursor alone or has stored a row for each of its records
and moves the cursor to the greatest of their sequences.  Over a history of
runs that do not overlap the cursor is a high-water mark.
-/

namespace SyncBridge

open SyncBridge.Foundation SyncBridge.Foundation.Prog
open SyncBridge.SyncRunsService

/-! ## What a run writes -/

section OneRun

variable {env : Env} {syncRunId pipelineId : Id} {pipeline : SyncPipeline}
  {batch records : List SyncRunMockRecordPayload} {ignoreCursor : Bool}
  {actor : AuditActor} {store : Store} {state : LoopState}
  {compiledMapping : List NormalizedMappingField}

def storedRaw (record : SyncRunMockRecordPayload) : Json :=
  .obj (ensureRecordObject record.raw)

def StoredAll (records : List SyncRunMockRecordPayload)
    (before after : Store) : Prop :=
  ∃ new, after.syncedRecords = before.syncedRecords ++ new ∧
    new.map SyncedRecord.rawJson = records.map storedRaw

def KeepsRecords (op : Op) : Prop := op.writesSyncedRecords = false

theorem keepsRecords_quiet : AllowsQuiet KeepsRecords := by
  refine allowsQuiet fun op hop => ?_
  cases op with
  | syncedRecordCreate _ => cases hop
  | _ => rfl

theorem ensures_records {α : Type} {body : Body α}
    (h : body.Uses KeepsRecords) :
    (machine env).Ensures
      (fun _ (final : Store) => final.syncedRecords = store.syncedRecords) body
      store := by
  refine Machine.ensures_of_uses (J := fun final : Store =>
    final.syncedRecords = store.syncedRecords) ?_ h rfl
  intro op before value after hop hexec hbefore
  rw [machine_effect hexec, effect_syncedRecords hop, hbefore]

theorem processRecord_stores {record : SyncRunMockRecordPayload} :
    (machine env).Ensures (fun result final => ∀ state', result = .ok state' →
        state'.failedCount = 0 → StoredAll [record] store final)
      (processRecord env syncRunId pipelineId compiledMapping actor state
        record) store := by
  have hlog : ∀ {action entityType entityId : String} {metadata : Record}
      {store : Store}, (machine env).Ensures
        (fun _ final => final.syncedRecords = store.syncedRecords)
        (AuditService.log action entityType entityId metadata actor) store :=
    ensures_records (log_rule keepsRecords_quiet)
  have hfail : ∀ (state : LoopState) (errors : Nat),
      (state.fail errors).failedCount ≠ 0 := fun _ _ => Nat.succ_ne_zero _
  refine Machine.ensures_await_bind (fun transformed middle htransform => ?_)
    fun _ _ herror => by cases herror
  have hmiddle : middle = store := machine_effect htransform
  subst hmiddle
  split
  · refine hlog.bind (fun _ final _ state' hstate' hnone => ?_)
      fun _ _ _ _ herror => by cases herror
    obtain rfl := Except.ok.inj hstate'
    exact absurd hnone (hfail _ _)
  · refine Machine.Ensures.bind (P := fun result final => ∀ row,
        result = .ok (.ok row) → StoredAll [record] middle final)
      (Machine.Ensures.attempt (Machine.ensures_await
        (Q := fun result final => ∀ row, result = .ok row →
          StoredAll [record] middle final) ?_ ?_) ?_) ?_ ?_
    · intro row final hexec _ _
      rw [machine_effect hexec]
      exact ⟨_, rfl, rfl⟩
    · intro error _ row herror
      cases herror
    · intro result final hresult row hrow
      exact hresult row (Except.ok.inj hrow)
    · rintro (error | row) final hstored
      · intro state' hstate' hnone
        obtain rfl := Except.ok.inj hstate'
        exact absurd hnone (hfail _ _)
      · refine Machine.Ensures.bind (P := fun _ last =>
          last.syncedRecords = final.syncedRecords)
          (Machine.Ensures.attempt (ensures_records (Uses.bind
            (log_rule keepsRecords_quiet) fun _ =>
              log_rule keepsRecords_quiet)) fun _ _ hkept => hkept) ?_ ?_
        · rintro (error | done) last hkept state' hstate' hnone
          · obtain rfl := Except.ok.inj hstate'
            exact absurd hnone (hfail _ _)
          · obtain ⟨new, hrows, hnew⟩ := hstored row rfl
            exact ⟨new, hkept.trans hrows, hnew⟩
        · intro error last _ state' herror
          cases herror
    · intro error final _ state' herror
      cases herror

theorem StoredAll.append {first second : List SyncRunMockRecordPayload}
    {before middle after : Store} (h : StoredAll first before middle)
    (h' : StoredAll second middle after) :
    StoredAll (first ++ second) before after := by
  obtain ⟨new, hrows, hnew⟩ := h
  obtain ⟨new', hrows', hnew'⟩ := h'
  refine ⟨new ++ new', ?_, ?_⟩
  · rw [hrows', hrows, List.append_assoc]
  · rw [List.map_append, List.map_append, hnew, hnew']

theorem records_store :
    (machine env).Ensures (fun result final => ∀ state, result = .ok state →
        state.failedCount = 0 → StoredAll records store final)
      (records.foldlM (processRecord env syncRunId pipelineId compiledMapping
        actor) {}) store := by
  let Stored : List SyncRunMockRecordPayload → LoopState → Store → Prop :=
    fun items state store' => state.failedCount = 0 → ∃ done,
      records = done ++ items ∧ StoredAll done store store'
  have hstart : Stored records {} store :=
    fun _ => ⟨[], rfl, [], by simp, rfl⟩
  refine (Machine.ensures_foldlM Stored (fun _ _ => True) ?_ hstart).mono ?_
  · intro record items state before hbefore
    refine (processRecord_stores.and_returns processRecord_returns).mono ?_
    rintro (error | state') final ⟨hstored, hcounted⟩
    · trivial
    · intro hnone
      have hcreated : state' = state.created (candidateOf env.dates record) :=
        (hcounted state' rfl).resolve_left (absurd hnone)
      have hsucceeded : state.failedCount = 0 := by
        rw [hcreated] at hnone
        exact hnone
      obtain ⟨done, hrecords, hdone⟩ := hbefore hsucceeded
      exact ⟨done ++ [record], by simp [hrecords],
        hdone.append (hstored state' rfl hnone)⟩
  · rintro result final hfinal state rfl hnone
    obtain ⟨done, hrecords, hdone⟩ := hfinal hnone
    rw [List.append_nil] at hrecords
    rwa [hrecords]

inductive CursorOutcome (env : Env) (id : Id)
    (records : List SyncRunMockRecordPayload)
    (picked : Option CursorCandidate) (before after : Store)
    (result : Except Failure RunProcessingSummary) : Prop
  | kept (pipelines : after.pipelines = before.pipelines)
      (failed : ∀ summary, result = .ok summary →
        summary.recordsFailed ≠ 0 ∨ picked = none)
  | moved {chosen : CursorCandidate} {document : Record}
      (candidate : picked = some chosen)
      (json : cursorCandidateToJson env.dates chosen = some document)
      (pipelines : after.pipelines = Table.modify SyncPipeline.id id
        (PipelineData.apply { cursorJson := some (.obj document) })
        before.pipelines)
      (stored : StoredAll records before after)
      (succeeded : ∀ summary, result = .ok summary →
        summary.recordsFailed = 0)

theorem updateCursor_outcome (hincremental : pipeline.incrementalMode = true)
    (hdocument : ∀ chosen, state.failedCount = 0 →
      state.maxCursor = some chosen →
      (cursorCandidateToJson env.dates chosen).isSome = true) :
    (machine env).Ensures (fun result final =>
        (final.pipelines = store.pipelines ∧ ∀ value, result = .ok value →
          state.failedCount ≠ 0 ∨ state.maxCursor = none) ∨
        state.failedCount = 0 ∧ ∃ chosen document,
          state.maxCursor = some chosen ∧
          cursorCandidateToJson env.dates chosen = some document ∧
          final.pipelines = Table.modify SyncPipeline.id pipeline.id
            (PipelineData.apply { cursorJson := some (.obj document) })
            store.pipelines ∧
          final.syncedRecords = store.syncedRecords)
      (updateCursor env syncRunId pipeline state actor) store := by
  have hlog : ∀ {action entityType entityId : String} {metadata : Record}
      {store : Store}, (machine env).Ensures
        (fun _ final => final.pipelines = store.pipelines ∧
          final.syncedRecords = store.syncedRecords)
        (AuditService.log action entityType entityId metadata actor) store :=
    Machine.ensures_iff.mpr fun _ _ hruns =>
      ⟨(ensures_pipelines (log_rule keepsPipelines_quiet)).of_runs hruns,
        (ensures_records (log_rule keepsRecords_quiet)).of_runs hruns⟩
  simp only [updateCursor, hincremental, Bool.not_true, Bool.false_eq_true,
    if_false]
  by_cases hsucceeded : state.failedCount = 0
  · simp only [hsucceeded, if_true]
    cases hchosen : state.maxCursor with
    | none =>
        refine hlog.bind (fun _ final hfinal => ?_) fun _ final hfinal => ?_
        · exact .inl ⟨hfinal.1, fun _ _ => .inr rfl⟩
        · exact .inl ⟨hfinal.1, fun _ _ => .inr rfl⟩
    | some chosen =>
        obtain ⟨document, hjson⟩ :=
          Option.isSome_iff_exists.mp (hdocument chosen hsucceeded hchosen)
        simp only [hjson]
        refine Machine.ensures_await_bind (fun updated middle hexec => ?_)
          fun error => .inl ⟨rfl, fun _ herror => by cases herror⟩
        have hmoved : ∀ final : Store, final.pipelines = middle.pipelines ∧
            final.syncedRecords = middle.syncedRecords →
            final.pipelines = Table.modify SyncPipeline.id pipeline.id
              (PipelineData.apply { cursorJson := some (.obj document) })
              store.pipelines ∧
            final.syncedRecords = store.syncedRecords := by
          rintro final ⟨hpipelines, hrecords⟩
          rw [hpipelines, hrecords, machine_effect hexec]
          exact ⟨rfl, rfl⟩
        refine hlog.bind (fun _ final hfinal => ?_) fun _ final hfinal => ?_
        · exact .inr ⟨trivial, chosen, document, rfl, hjson, hmoved final hfinal⟩
        · exact .inr ⟨trivial, chosen, document, rfl, hjson, hmoved final hfinal⟩
  · simp only [hsucceeded, if_false]
    refine hlog.bind (fun _ final hfinal => ?_) fun _ final hfinal => ?_
    · exact .inl ⟨hfinal.1, fun _ _ => .inl hsucceeded⟩
    · exact .inl ⟨hfinal.1, fun _ _ => .inl hsucceeded⟩

theorem finish_outcome {before : Store} {picked : Option CursorCandidate}
    {summaryOf : Option Record → RunProcessingSummary}
    (hincremental : pipeline.incrementalMode = true)
    (hbefore : store.pipelines = before.pipelines)
    (hpicked : state.failedCount = 0 → state.maxCursor = picked)
    (hdocument : ∀ chosen, picked = some chosen →
      (cursorCandidateToJson env.dates chosen).isSome = true)
    (hstored : state.failedCount = 0 → StoredAll records before store)
    (hcount : ∀ value, (summaryOf value).recordsFailed = state.failedCount) :
    (machine env).Ensures (fun result final =>
        CursorOutcome env pipeline.id records picked before final result)
      ((updateCursor env syncRunId pipeline state actor).bind
        fun value => .ret (summaryOf value)) store := by
  refine (updateCursor_outcome hincremental fun chosen hsucceeded hchosen =>
    hdocument chosen (hpicked hsucceeded ▸ hchosen)).bind ?_ ?_
  · rintro value final (⟨hkept, hnone⟩ | ⟨hsucceeded, chosen, document, hchosen,
      hjson, hmoved, hrecords⟩)
    · refine .kept (hkept.trans hbefore) fun summary hsummary => ?_
      obtain rfl := Except.ok.inj hsummary
      rw [hcount]
      by_cases hsucceeded : state.failedCount = 0
      · refine .inr ?_
        rw [← hpicked hsucceeded]
        exact (hnone value rfl).resolve_left (absurd hsucceeded)
      · exact .inl hsucceeded
    · obtain ⟨new, hrows, hnew⟩ := hstored hsucceeded
      refine .moved (hpicked hsucceeded ▸ hchosen) hjson (hbefore ▸ hmoved)
        ⟨new, hrecords.trans hrows, hnew⟩ fun summary hsummary => ?_
      obtain rfl := Except.ok.inj hsummary
      rw [hcount, hsucceeded]
  · rintro error final (⟨hkept, -⟩ | ⟨hsucceeded, chosen, document, hchosen,
      hjson, hmoved, hrecords⟩)
    · exact .kept (hkept.trans hbefore) fun _ herror => by cases herror
    · obtain ⟨new, hrows, hnew⟩ := hstored hsucceeded
      exact .moved (hpicked hsucceeded ▸ hchosen) hjson (hbefore ▸ hmoved)
        ⟨new, hrecords.trans hrows, hnew⟩ fun _ herror => by cases herror

theorem processRunRecords_outcome
    (hincremental : pipeline.incrementalMode = true) :
    (machine env).Ensures (fun result final =>
        CursorOutcome env pipeline.id
          (newRecords env.dates
            (normalizeCursorState env.dates pipeline.cursorJson) batch)
          (latestCandidate env.dates
            (normalizeCursorState env.dates pipeline.cursorJson) batch)
          store final result)
      (processRunRecords env syncRunId pipeline batch false actor) store := by
  simp only [processRunRecords, bind_eq, eligibleRecords_eq hincremental]
  refine Machine.ensures_ofExcept_bind (fun compiledMapping _ => ?_)
    fun error => .kept rfl fun _ herror => by cases herror
  refine Machine.Ensures.bind (Machine.ensures_iff.mpr fun _ _ hruns =>
    And.intro (records_ensures.of_runs hruns) (records_store.of_runs hruns))
    ?_ ?_
  · rintro state middle ⟨⟨hmiddle, hpicked⟩, hstored⟩
    exact finish_outcome hincremental hmiddle (hpicked state rfl)
      (fun _ => latest_has_part) (hstored state rfl) fun _ => rfl
  · rintro error middle ⟨⟨hmiddle, -⟩, -⟩
    exact .kept hmiddle fun _ herror => by cases herror

end OneRun

/-! ## Sequences -/

def IsMaximum (values : List ℚ) : Option ℚ → Prop
  | none => values = []
  | some top => top ∈ values ∧ ∀ value ∈ values, value ≤ top

section Sequences

variable {dates : Dates} {batch : List SyncRunMockRecordPayload}
  {record : SyncRunMockRecordPayload} {cursor : Option CursorState}
  {known : CursorState} {sequence bound : ℚ}

def sequenceOf (dates : Dates) (raw : Record) : Option ℚ :=
  (extractCursorCandidate dates raw).bind CursorState.sequence

def recordSequence (dates : Dates) (record : SyncRunMockRecordPayload) :
    Option ℚ := sequenceOf dates (ensureRecordObject record.raw)

def Sequenced (dates : Dates) (batch : List SyncRunMockRecordPayload) : Prop :=
  ∀ record ∈ batch, (recordSequence dates record).isSome = true

theorem candidate_of_sequence
    (h : recordSequence dates record = some sequence) :
    ∃ candidate, candidateOf dates record = some candidate ∧
      candidate.sequence = some sequence := by
  obtain ⟨candidate, hcandidate, hsequence⟩ := Option.bind_eq_some_iff.mp h
  exact ⟨candidate, hcandidate, hsequence⟩

theorem shouldProcess_iff (hknown : known.sequence = some bound)
    (h : recordSequence dates record = some sequence) :
    shouldProcessRecord dates record (some known) = true ↔
      bound < sequence := by
  obtain ⟨candidate, hcandidate, hsequence⟩ := candidate_of_sequence h
  rw [candidateOf] at hcandidate
  simp [shouldProcessRecord, hcandidate, isCandidateNewer, hsequence, hknown]

theorem latestCandidate_sequence (hbatch : Sequenced dates batch)
    {chosen : CursorCandidate}
    (h : latestCandidate dates cursor batch = some chosen) :
    ∃ top, chosen.sequence = some top ∧
      IsMaximum ((newRecords dates cursor batch).filterMap
        (recordSequence dates)) (some top) := by
  have hcandidates : ∀ candidate, some candidate ∈
      (newRecords dates cursor batch).map (candidateOf dates) →
      candidate.sequence.isSome = true ∧ ∃ record ∈
        newRecords dates cursor batch,
          recordSequence dates record = candidate.sequence := by
    intro candidate hmem
    obtain ⟨record, hrecord, hcandidate⟩ := List.mem_map.mp hmem
    have hsequence : recordSequence dates record = candidate.sequence := by
      rw [candidateOf] at hcandidate
      rw [recordSequence, sequenceOf, hcandidate]
      rfl
    exact ⟨hsequence ▸ hbatch record (mem_of_mem_newRecords hrecord),
      record, hrecord, hsequence⟩
  have hchoose : ∀ left right : CursorCandidate,
      left.sequence.isSome = true → right.sequence.isSome = true →
      (laterCandidate left right).sequence.isSome = true ∧
        left.sequence.getD 0 ≤ (laterCandidate left right).sequence.getD 0 ∧
        right.sequence.getD 0 ≤
          (laterCandidate left right).sequence.getD 0 := by
    intro left right hleft hright
    obtain ⟨leftSequence, hleft⟩ := Option.isSome_iff_exists.mp hleft
    obtain ⟨rightSequence, hright⟩ := Option.isSome_iff_exists.mp hright
    simp [laterCandidate_sequence hleft hright, hleft, hright]
  let below (left right : CursorCandidate) : Prop :=
    left.sequence.getD 0 ≤ right.sequence.getD 0
  have htrans : ∀ a b c, below a b → below b c → below a c :=
    fun _ _ _ hab hbc => le_trans hab hbc
  obtain ⟨hsome, hgreatest⟩ := le_pickAll htrans (fun _ _ => le_refl _) hchoose
    (fun candidate hmem => (hcandidates candidate hmem).1) h
  obtain ⟨top, htop⟩ := Option.isSome_iff_exists.mp hsome
  obtain ⟨record, hrecord, hsequence⟩ :=
    (hcandidates chosen (mem_of_pickAll laterCandidate_mem h)).2
  rw [htop] at hsequence
  refine ⟨top, htop,
    List.mem_filterMap.mpr ⟨record, hrecord, hsequence⟩, ?_⟩
  intro value hvalue
  obtain ⟨other, hother, hvalue⟩ := List.mem_filterMap.mp hvalue
  obtain ⟨candidate, hcandidate, hsame⟩ := candidate_of_sequence hvalue
  have hle : below candidate chosen :=
    hgreatest candidate (List.mem_map.mpr ⟨other, hother, hcandidate⟩)
  simpa [below, hsame, htop] using hle

theorem newRecords_eq_nil (hbatch : Sequenced dates batch)
    (h : latestCandidate dates cursor batch = none) :
    newRecords dates cursor batch = [] := by
  refine List.eq_nil_iff_forall_not_mem.mpr fun record hrecord => ?_
  obtain ⟨sequence, hsequence⟩ := Option.isSome_iff_exists.mp
    (hbatch record (mem_of_mem_newRecords hrecord))
  obtain ⟨candidate, hcandidate, -⟩ := candidate_of_sequence hsequence
  exact pickAll_eq_none h candidate
    (List.mem_map.mpr ⟨record, hrecord, hcandidate⟩)

end Sequences

/-! ## Histories -/

/-- A run over records with sequences that does not ignore the cursor, and that
has the pipeline to itself. -/
structure CursorRun (env : Env) (id : Id) where
  before : Store
  after : Store
  pipeline : SyncPipeline
  syncRunId : Id
  batch : List SyncRunMockRecordPayload
  actor : AuditActor
  result : Except Failure RunProcessingSummary
  ofPipeline : pipeline.id = id
  incremental : pipeline.incrementalMode = true
  stored : before.checkpoint id = some (pipeline.cursorJson, true)
  sequenced : Sequenced env.dates batch
  runs : (machine env).Runs
    (processRunRecords env syncRunId pipeline batch false actor) before result
    after

def Store.cursor (dates : Dates) (store : Store) (id : Id) :
    Option CursorState :=
  (store.checkpoint id).bind fun checkpoint =>
    normalizeCursorState dates checkpoint.1

def Store.cursorSequence (dates : Dates) (store : Store) (id : Id) :
    Option ℚ := (store.cursor dates id).bind CursorState.sequence

namespace CursorRun

variable {env : Env} {id : Id}

def Follows (earlier later : CursorRun env id) : Prop :=
  later.before.checkpoint id = earlier.after.checkpoint id

def persisted (run : CursorRun env id) : List SyncedRecord :=
  run.after.syncedRecords.drop run.before.syncedRecords.length

def persistedSequences (run : CursorRun env id) : List ℚ :=
  run.persisted.filterMap fun row =>
    sequenceOf env.dates (ensureRecordObject row.rawJson)

def accepted (run : CursorRun env id) : List SyncRunMockRecordPayload :=
  newRecords env.dates (run.before.cursor env.dates id) run.batch

variable (run : CursorRun env id)

theorem cursor_before : run.before.cursor env.dates id =
    normalizeCursorState env.dates run.pipeline.cursorJson := by
  rw [Store.cursor, run.stored]
  rfl

theorem outcome : CursorOutcome env id run.accepted
    (latestCandidate env.dates (run.before.cursor env.dates id) run.batch)
    run.before run.after run.result := by
  have houtcome :=
    (processRunRecords_outcome run.incremental).of_runs run.runs
  rw [run.ofPipeline, ← run.cursor_before] at houtcome
  exact houtcome

variable {run}

theorem persistedSequences_of_stored
    (h : StoredAll run.accepted run.before run.after) :
    run.persistedSequences =
      run.accepted.filterMap (recordSequence env.dates) := by
  obtain ⟨new, hrows, hnew⟩ := h
  have hpersisted : run.persisted = new := by
    rw [persisted, hrows, List.drop_left]
  have hsequences : run.persistedSequences =
      (new.map SyncedRecord.rawJson).filterMap fun json =>
        sequenceOf env.dates (ensureRecordObject json) := by
    rw [persistedSequences, hpersisted, List.filterMap_map]
    rfl
  rw [hsequences, hnew, List.filterMap_map]
  rfl

theorem mem_accepted {sequence : ℚ}
    (h : sequence ∈ run.persistedSequences) :
    ∃ record ∈ run.accepted,
      recordSequence env.dates record = some sequence := by
  obtain ⟨row, hrow, hsequence⟩ := List.mem_filterMap.mp h
  obtain ⟨new, hrows, hnew⟩ := stored_ensures.of_runs run.runs
  rw [persisted, hrows, List.drop_left] at hrow
  obtain ⟨record, hrecord, hraw⟩ := hnew row hrow
  rw [eligibleRecords_eq run.incremental, ← run.cursor_before] at hrecord
  rw [hraw] at hsequence
  exact ⟨record, hrecord, hsequence⟩

def Reached (cursor : Option CursorState) (sequence : ℚ) : Prop :=
  ∃ known bound, cursor = some known ∧ known.sequence = some bound ∧
    sequence ≤ bound

theorem lt_of_reached {sequence bound : ℚ}
    {record : SyncRunMockRecordPayload}
    (hreached : Reached (run.before.cursor env.dates id) bound)
    (hrecord : record ∈ run.accepted)
    (hsequence : recordSequence env.dates record = some sequence) :
    bound < sequence := by
  obtain ⟨known, top, hknown, htop, hle⟩ := hreached
  have hkept := (List.mem_filter.mp hrecord).2
  rw [hknown] at hkept
  exact lt_of_le_of_lt hle ((shouldProcess_iff htop hsequence).mp hkept)

theorem cursor_moved {chosen : CursorCandidate} {document : Record}
    (hjson : cursorCandidateToJson env.dates chosen = some document)
    (hpipelines : run.after.pipelines = Table.modify SyncPipeline.id id
      (PipelineData.apply { cursorJson := some (.obj document) })
      run.before.pipelines) :
    run.after.cursor env.dates id = some chosen := by
  rw [Store.cursor, checkpoint_modify run.stored hpipelines]
  exact normalizeCursorState_toJson hjson

theorem sequence_moved {chosen : CursorCandidate} {document : Record}
    (hchosen : latestCandidate env.dates (run.before.cursor env.dates id)
      run.batch = some chosen)
    (hjson : cursorCandidateToJson env.dates chosen = some document)
    (hpipelines : run.after.pipelines = Table.modify SyncPipeline.id id
      (PipelineData.apply { cursorJson := some (.obj document) })
      run.before.pipelines)
    (hstored : StoredAll run.accepted run.before run.after) :
    ∃ top, run.after.cursorSequence env.dates id = some top ∧
      IsMaximum run.persistedSequences (some top) := by
  obtain ⟨top, htop, hmax⟩ := latestCandidate_sequence run.sequenced hchosen
  rw [← accepted, ← persistedSequences_of_stored hstored] at hmax
  refine ⟨top, ?_, hmax⟩
  rw [Store.cursorSequence, cursor_moved hjson hpipelines]
  exact htop

/-- A run leaves the checkpoint alone or moves the cursor to the greatest
sequence that it has persisted, past everything that it had reached. -/
theorem moves (run : CursorRun env id) :
    run.after.checkpoint id = run.before.checkpoint id ∨
      ∃ top, run.after.cursorSequence env.dates id = some top ∧
        IsMaximum run.persistedSequences (some top) ∧
        ∀ bound, Reached (run.before.cursor env.dates id) bound →
          bound < top := by
  cases run.outcome with
  | kept pipelines _ =>
      left
      rw [Store.checkpoint, pipelines, Store.checkpoint]
  | moved candidate json pipelines stored _ =>
      right
      obtain ⟨top, htop, hmax⟩ := sequence_moved candidate json pipelines stored
      obtain ⟨record, hrecord, hsequence⟩ := mem_accepted hmax.1
      exact ⟨top, htop, hmax, fun bound hreached =>
        lt_of_reached hreached hrecord hsequence⟩

theorem reached_of_sequence {store : Store} {sequence top : ℚ}
    (h : store.cursorSequence env.dates id = some top)
    (hle : sequence ≤ top) :
    Reached (store.cursor env.dates id) sequence := by
  obtain ⟨known, hknown, htop⟩ := Option.bind_eq_some_iff.mp h
  exact ⟨known, top, hknown, htop, hle⟩

theorem reached_after {bound : ℚ}
    (h : Reached (run.before.cursor env.dates id) bound) :
    Reached (run.after.cursor env.dates id) bound := by
  rcases run.moves with hkept | ⟨top, htop, -, hpast⟩
  · rwa [Store.cursor, hkept, ← Store.cursor]
  · exact reached_of_sequence htop (hpast bound h).le

theorem reached_later {later : List (CursorRun env id)} {bound : ℚ}
    (hchain : (run :: later).IsChain Follows)
    (h : Reached (run.after.cursor env.dates id) bound) :
    ∀ other ∈ later, Reached (other.before.cursor env.dates id) bound := by
  induction later generalizing run with
  | nil => exact fun _ hmem => absurd hmem List.not_mem_nil
  | cons next later ih =>
      obtain ⟨hfollows, hrest⟩ := List.isChain_cons_cons.mp hchain
      have hnext : Reached (next.before.cursor env.dates id) bound := by
        rwa [Store.cursor, hfollows, ← Store.cursor]
      intro other hother
      rcases List.mem_cons.mp hother with rfl | hother
      · exact hnext
      · exact ih hrest (reached_after hnext) other hother

/-! ## The high-water mark -/

def Succeeded (run : CursorRun env id) : Prop :=
  ∃ summary, run.result = .ok summary ∧ summary.recordsFailed = 0

theorem moves_of_succeeded (h : run.Succeeded) :
    (run.after.checkpoint id = run.before.checkpoint id ∧
        run.persistedSequences = []) ∨
      ∃ top, run.after.cursorSequence env.dates id = some top ∧
        IsMaximum run.persistedSequences (some top) := by
  obtain ⟨summary, hsummary, hnone⟩ := h
  cases run.outcome with
  | kept pipelines failed =>
      left
      have hempty : run.accepted = [] := newRecords_eq_nil run.sequenced
        ((failed summary hsummary).resolve_left (absurd hnone))
      refine ⟨by rw [Store.checkpoint, pipelines, Store.checkpoint], ?_⟩
      refine List.eq_nil_iff_forall_not_mem.mpr fun sequence hsequence => ?_
      obtain ⟨record, hrecord, -⟩ := mem_accepted hsequence
      rw [hempty] at hrecord
      cases hrecord
  | moved candidate json pipelines stored _ =>
      exact .inr (sequence_moved candidate json pipelines stored)

theorem sequence_after (h : run.Succeeded) :
    IsMaximum ((run.before.cursorSequence env.dates id).toList ++
      run.persistedSequences) (run.after.cursorSequence env.dates id) := by
  rcases moves_of_succeeded h with ⟨hkept, hnone⟩ | ⟨top, htop, hmax⟩
  · have hsame : run.after.cursorSequence env.dates id =
        run.before.cursorSequence env.dates id := by
      rw [Store.cursorSequence, Store.cursor, hkept, ← Store.cursor,
        ← Store.cursorSequence]
    rw [hsame, hnone, List.append_nil]
    cases run.before.cursorSequence env.dates id with
    | none => rfl
    | some sequence => simp [IsMaximum]
  · rw [htop]
    refine ⟨List.mem_append_right _ hmax.1, fun value hvalue => ?_⟩
    rcases List.mem_append.mp hvalue with hbefore | hnew
    · have hreached : Reached (run.before.cursor env.dates id) value :=
        reached_of_sequence (Option.mem_toList.mp hbefore) le_rfl
      obtain ⟨record, hrecord, hsequence⟩ := mem_accepted hmax.1
      exact (lt_of_reached hreached hrecord hsequence).le
    · exact hmax.2 value hnew

theorem reached_of_succeeded (h : run.Succeeded) :
    ∀ sequence ∈ run.persistedSequences,
      Reached (run.after.cursor env.dates id) sequence := by
  intro sequence hsequence
  rcases moves_of_succeeded h with ⟨-, hnone⟩ | ⟨top, htop, hmax⟩
  · rw [hnone] at hsequence
    cases hsequence
  · exact reached_of_sequence htop (hmax.2 sequence hsequence)

theorem checkpoint_of_failed {summary : RunProcessingSummary}
    (h : run.result = .ok summary) (hfailed : summary.recordsFailed ≠ 0) :
    run.after.checkpoint id = run.before.checkpoint id := by
  cases run.outcome with
  | kept pipelines _ => rw [Store.checkpoint, pipelines, Store.checkpoint]
  | moved _ _ _ _ succeeded => exact absurd (succeeded summary h) hfailed

/-- Over any history the cursor is the greatest sequence persisted by the runs
without failures, and each of them persists only greater sequences than those
before it. -/
theorem high_water_mark {runs : List (CursorRun env id)}
    (hchain : runs.IsChain Follows) :
    (∀ run ∈ runs, ∀ summary, run.result = .ok summary →
      (summary.recordsFailed = 0 → IsMaximum
        ((run.before.cursorSequence env.dates id).toList ++
          run.persistedSequences)
        (run.after.cursorSequence env.dates id)) ∧
      (summary.recordsFailed ≠ 0 →
        run.after.checkpoint id = run.before.checkpoint id)) ∧
    runs.Pairwise fun earlier later => earlier.Succeeded → later.Succeeded →
      ∀ sequence ∈ earlier.persistedSequences,
        ∀ sequence' ∈ later.persistedSequences, sequence < sequence' := by
  refine ⟨fun run _ summary hsummary => ⟨fun hnone =>
    sequence_after ⟨summary, hsummary, hnone⟩, checkpoint_of_failed hsummary⟩,
    ?_⟩
  induction runs with
  | nil => exact .nil
  | cons run runs ih =>
      refine .cons (fun later hlater hsucceeded _ sequence hsequence sequence'
        hsequence' => ?_) (ih hchain.tail)
      have hreached := reached_later hchain
        (reached_of_succeeded hsucceeded sequence hsequence) later hlater
      obtain ⟨record, hrecord, hfound⟩ := mem_accepted hsequence'
      exact lt_of_reached hreached hrecord hfound

def ofBatch (env : Env) (store : Store) (pipeline : SyncPipeline)
    (batch : List SyncRunMockRecordPayload) (hid : pipeline.id = id)
    (hincremental : pipeline.incrementalMode = true)
    (hstored : store.checkpoint id = some (pipeline.cursorJson, true))
    (hsequenced : Sequenced env.dates batch) : CursorRun env id where
  before := store
  after := ((machine env).eval
    (processRunRecords env 4 pipeline batch false none) store).2
  pipeline := pipeline
  syncRunId := 4
  batch := batch
  actor := none
  result := ((machine env).eval
    (processRunRecords env 4 pipeline batch false none) store).1
  ofPipeline := hid
  incremental := hincremental
  stored := hstored
  sequenced := hsequenced
  runs := Machine.runs_eval _ _

end CursorRun

theorem recordSequence_numbered {dates : Dates} {externalId : String}
    {sequence : ℚ} :
    recordSequence dates (numbered externalId sequence) = some sequence := by
  have hcandidate : extractCursorCandidate dates
      (ensureRecordObject (numbered externalId sequence).raw) =
        some ⟨some sequence, none⟩ := candidateOf_numbered
  rw [recordSequence, sequenceOf, hcandidate]
  rfl

theorem sequenced_pair {dates : Dates} {first second : String}
    {sequence sequence' : ℚ} :
    Sequenced dates [numbered first sequence, numbered second sequence'] := by
  intro record hrecord
  rcases List.mem_pair.mp hrecord with rfl | rfl
  · rw [recordSequence_numbered]; rfl
  · rw [recordSequence_numbered]; rfl

def numberedRun : CursorRun (Sample.env .sync) 3 :=
  .ofBatch (Sample.env .sync) Sample.store Sample.pipeline numberedBatch rfl rfl
    rfl sequenced_pair

def laterBatch : List SyncRunMockRecordPayload :=
  [numbered "b" 2, numbered "c" 3]

theorem left_incremental :
    (leftPipeline numberedBatch).incrementalMode = true := by decide +kernel

theorem left_stored : numberedRun.after.checkpoint 3 =
    some ((leftPipeline numberedBatch).cursorJson, true) := by
  have hleft : (Table.find SyncPipeline.id Sample.pipeline.id
      (firstRun numberedBatch).2.pipelines).isSome = true := by decide +kernel
  rw [← left_incremental]
  exact checkpoint_left hleft

def laterRun : CursorRun (Sample.env .sync) 3 :=
  .ofBatch (Sample.env .sync) numberedRun.after (leftPipeline numberedBatch)
    laterBatch (by decide +kernel) left_incremental left_stored sequenced_pair

/-- What the later run persists is past the first batch. -/
theorem high_water_mark_of_batches :
    numberedRun.Succeeded ∧ laterRun.Succeeded ∧
      laterRun.persistedSequences ≠ [] ∧
      ∀ sequence ∈ numberedRun.persistedSequences,
        ∀ sequence' ∈ laterRun.persistedSequences, sequence < sequence' := by
  have hfirst : numberedRun.Succeeded :=
    ok_of_succeeded (by decide +kernel : succeeded numberedRun.result = true)
  have hlater : laterRun.Succeeded :=
    ok_of_succeeded (by decide +kernel : succeeded laterRun.result = true)
  have hchain : [numberedRun, laterRun].IsChain CursorRun.Follows :=
    List.isChain_pair.mpr rfl
  exact ⟨hfirst, hlater, by decide +kernel,
    List.pairwise_pair.mp (CursorRun.high_water_mark hchain).2 hfirst hlater⟩

end SyncBridge
