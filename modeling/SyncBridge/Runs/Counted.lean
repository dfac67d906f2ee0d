import SyncBridge.Cursor.HighWater
import SyncBridge.Foundation.Performed

/-!
# How the records of a run are counted

A row counts as created before its two audit calls, and the handler around them
counts a failed record for whatever they raise.  Each record is counted once
unless an audit call for a stored row fails; then the record is counted twice.
-/

namespace SyncBridge

open SyncBridge.Foundation SyncBridge.Foundation.Prog
open SyncBridge.SyncRunsService

/-! ## What is counted -/

def Op.auditsStored : Op → Bool
  | .auditLogCreate data => data.action = "transformation_applied" ||
      data.action = "synced_record_created"
  | _ => false

/-- No audit call for a stored row has failed. -/
def StoredAudited (calls : List (Performed Op.Res Failure)) : Prop :=
  ∀ call ∈ calls, call.1.auditsStored = true → call.failed = false

def SyncedRecord.Holds (syncRunId : Id) (record : SyncRunMockRecordPayload)
    (row : SyncedRecord) : Prop :=
  row.syncRunId = syncRunId ∧ row.externalId = record.externalId ∧
    row.rawJson = storedRaw record

abbrev Outcomes := List (SyncRunMockRecordPayload × Option SyncedRecord)

namespace Outcomes

def rows (outcomes : Outcomes) : List SyncedRecord :=
  outcomes.filterMap Prod.snd

def unstored (outcomes : Outcomes) : Nat :=
  (outcomes.filter fun outcome => outcome.2.isNone).length

theorem rows_append (first second : Outcomes) :
    rows (first ++ second) = rows first ++ rows second :=
  List.filterMap_append

theorem unstored_append (first second : Outcomes) :
    unstored (first ++ second) = unstored first + unstored second := by
  simp [unstored]

theorem rows_add_unstored (outcomes : Outcomes) :
    (rows outcomes).length + unstored outcomes = outcomes.length := by
  induction outcomes with
  | nil => rfl
  | cons outcome outcomes ih =>
      obtain ⟨record, row⟩ := outcome
      cases row with
      | none =>
          simp only [rows, unstored, List.filterMap_cons, List.length_cons,
            List.filter_cons, Option.isNone_none, if_true] at ih ⊢
          omega
      | some row =>
          simp only [rows, unstored, List.filterMap_cons, List.length_cons,
            List.filter_cons, Option.isNone_some, Bool.false_eq_true,
            if_false] at ih ⊢
          omega

end Outcomes

def createdRows (before after : Store) : List SyncedRecord :=
  after.syncedRecords.drop before.syncedRecords.length

/-- The counters balance, they count as processed the rows that the run has
added, and as failed the records it went through for which it has added none. -/
structure CountedOnce (syncRunId : Id)
    (eligible : List SyncRunMockRecordPayload) (before after : Store)
    (summary : RunProcessingSummary) : Prop where
  balance : summary.recordsReceived = summary.recordsProcessed +
    summary.recordsFailed + summary.skippedByCursor
  processed : summary.recordsProcessed = (createdRows before after).length
  failed : ∃ outcomes : Outcomes, outcomes.map Prod.fst = eligible ∧
    outcomes.rows = createdRows before after ∧
    (∀ outcome ∈ outcomes, ∀ row ∈ outcome.2,
      row.Holds syncRunId outcome.1) ∧
    summary.recordsFailed = outcomes.unstored

/-! ## One record -/

/-- What a part of the loop adds to the rows and to the counters; `again` counts
the records that are counted twice. -/
structure Tallied (outcomes : Outcomes) (again : Nat) (state state' : LoopState)
    (before after : Store) (calls : List (Performed Op.Res Failure)) :
    Prop where
  rows : after.syncedRecords = before.syncedRecords ++ outcomes.rows
  created : state'.createdCount = state.createdCount + outcomes.rows.length
  failed : state'.failedCount = state.failedCount + outcomes.unstored + again
  audited : again = 0 ↔ StoredAudited calls

section Loop

variable {env : Env} {syncRunId pipelineId : Id} {pipeline : SyncPipeline}
  {compiledMapping : List NormalizedMappingField} {actor : AuditActor}
  {record : SyncRunMockRecordPayload} {normalized : Record}
  {records : List SyncRunMockRecordPayload} {ignoreCursor : Bool}
  {state state' : LoopState} {before middle after : Store}
  {calls first second : List (Performed Op.Res Failure)}

@[simp] theorem storedAudited_nil : StoredAudited [] :=
  fun _ hmem => absurd hmem List.not_mem_nil

theorem storedAudited_other {op : Op} {outcome : Except Failure op.Res}
    (h : op.auditsStored = false) : StoredAudited [⟨op, outcome⟩] := by
  simp [StoredAudited, h]

theorem storedAudited_append :
    StoredAudited (first ++ second) ↔
      StoredAudited first ∧ StoredAudited second := by
  simp only [StoredAudited, List.mem_append, or_imp, forall_and]

theorem storedAudited_of_uses {α : Type} {body : Body α}
    {result : Except Failure α}
    (h : (machine env).Performs body before calls result after)
    (huses : body.Uses fun op => op.auditsStored = false) :
    StoredAudited calls := by
  intro call hcall haudits
  have hquiet := h.allowed huses call hcall
  rw [hquiet] at haudits
  cases haudits

theorem Tallied.append {outcomes outcomes' : Outcomes} {again again' : Nat}
    {next : LoopState} (h : Tallied outcomes again state next before middle first)
    (h' : Tallied outcomes' again' next state' middle after second) :
    Tallied (outcomes ++ outcomes') (again + again') state state' before after
      (first ++ second) := by
  refine ⟨?_, ?_, ?_, ?_⟩
  · rw [h'.rows, h.rows, Outcomes.rows_append, List.append_assoc]
  · rw [h'.created, h.created, Outcomes.rows_append, List.length_append]
    omega
  · rw [h'.failed, h.failed, Outcomes.unstored_append]
    omega
  · rw [storedAudited_append, ← h.audited, ← h'.audited]
    omega

theorem tallied_rejected {errors : Nat}
    (hrows : after.syncedRecords = before.syncedRecords)
    (haudited : StoredAudited calls) :
    Tallied [(record, none)] 0 state (state.fail errors) before after calls := by
  refine ⟨?_, rfl, rfl, by simpa using haudited⟩
  rw [hrows]
  exact (List.append_nil _).symm

theorem storedAudited_audits {action action' entityType entityType' entityId
      entityId' : String} {metadata metadata' : Record}
    {result : Except Failure Unit}
    (haction : action = "transformation_applied")
    (haction' : action' = "synced_record_created")
    (h : (machine env).Performs
      ((AuditService.log action entityType entityId metadata actor).bind
        fun _ => AuditService.log action' entityType' entityId' metadata'
          actor) before calls result after) :
    StoredAudited calls ↔ ∃ value, result = .ok value := by
  rcases Machine.performs_bind.mp h with ⟨error, hfirst, rfl⟩ |
    ⟨value, middle, first, second, hfirst, hsecond, rfl⟩
  · obtain ⟨rfl, -⟩ := Machine.performs_await.mp hfirst
    simp [StoredAudited, Op.auditsStored, haction]
  · obtain ⟨rfl, -⟩ := Machine.performs_await.mp hfirst
    obtain ⟨rfl, -⟩ := Machine.performs_await.mp hsecond
    cases result with
    | ok value => simp [StoredAudited]
    | error error => simp [StoredAudited, Op.auditsStored, haction']

theorem persistRecord_tallied
    (h : (machine env).Performs (persistRecord env syncRunId pipelineId actor
      state record normalized) before calls (.ok state') after) :
    ∃ row again, (∀ stored ∈ row, SyncedRecord.Holds syncRunId record stored) ∧
      Tallied [(record, row)] again state state' before after calls := by
  rcases Machine.performs_bind.mp h with ⟨error, -, herror⟩ |
    ⟨created, middle, first, second, hfirst, hsecond, rfl⟩
  · cases herror
  obtain ⟨outcome, hcreated, hfirst⟩ := Machine.performs_attempt.mp hfirst
  obtain rfl := Except.ok.inj hcreated
  obtain ⟨rfl, hends⟩ := Machine.performs_await.mp hfirst
  cases created with
  | error error =>
      obtain ⟨-, rfl⟩ := hends
      cases hsecond
      exact ⟨none, 0, fun _ hmem => absurd hmem (Option.not_mem_none _),
        tallied_rejected rfl (storedAudited_other rfl)⟩
  | ok row =>
      rcases Machine.performs_bind.mp hsecond with ⟨error, -, herror⟩ |
        ⟨audited, last, audits, rest, haudits, hrest, rfl⟩
      · cases herror
      obtain ⟨result, hresult, haudits⟩ := Machine.performs_attempt.mp haudits
      obtain rfl := Except.ok.inj hresult
      have hkept : last.syncedRecords = middle.syncedRecords :=
        (ensures_records (Uses.bind (log_rule keepsRecords_quiet) fun _ =>
          log_rule keepsRecords_quiet)).of_runs haudits.runs
      have hgood := storedAudited_audits rfl rfl haudits
      have hstore : before.createSyncedRecord (persistedRecord syncRunId
          pipelineId record normalized) = (row, middle) := Except.ok.inj hends
      obtain ⟨rfl, rfl⟩ := Prod.mk.inj hstore
      have hholds : ∀ stored ∈ some (before.createSyncedRecord (persistedRecord
          syncRunId pipelineId record normalized)).1,
          SyncedRecord.Holds syncRunId record stored := by
        intro stored hmem
        obtain rfl := Option.mem_some_iff.mp hmem
        exact ⟨rfl, rfl, rfl⟩
      cases audited with
      | ok value =>
          cases hrest
          refine ⟨_, 0, hholds, hkept, rfl, rfl, ?_⟩
          rw [storedAudited_append, storedAudited_append, hgood]
          exact iff_of_true rfl
            ⟨storedAudited_other rfl, ⟨value, rfl⟩, storedAudited_nil⟩
      | error error =>
          cases hrest
          refine ⟨_, 1, hholds, hkept, rfl, rfl, ?_⟩
          rw [storedAudited_append, storedAudited_append, hgood]
          refine iff_of_false one_ne_zero ?_
          rintro ⟨-, ⟨value, hvalue⟩, -⟩
          cases hvalue

theorem processRecord_tallied
    (h : (machine env).Performs (processRecord env syncRunId pipelineId
      compiledMapping actor state record) before calls (.ok state') after) :
    ∃ row again, (∀ stored ∈ row, SyncedRecord.Holds syncRunId record stored) ∧
      Tallied [(record, row)] again state state' before after calls := by
  rcases Machine.performs_bind.mp h with ⟨error, -, herror⟩ |
    ⟨transformed, middle, first, second, hfirst, hsecond, rfl⟩
  · cases herror
  obtain ⟨rfl, hends⟩ := Machine.performs_await.mp hfirst
  have hmiddle : middle = before := machine_effect hends
  subst hmiddle
  split at hsecond
  · rcases Machine.performs_bind.mp hsecond with ⟨error, -, herror⟩ |
      ⟨value, last, audit, rest, haudit, hrest, rfl⟩
    · cases herror
    cases hrest
    have hkept : after.syncedRecords = middle.syncedRecords :=
      (ensures_records (log_rule keepsRecords_quiet)).of_runs haudit.runs
    refine ⟨none, 0, fun _ hmem => absurd hmem (Option.not_mem_none _),
      tallied_rejected hkept ?_⟩
    rw [List.append_nil, storedAudited_append]
    refine ⟨storedAudited_other rfl, storedAudited_of_uses haudit ?_⟩
    exact (uses_await _).mpr rfl
  · obtain ⟨row, again, hholds, hcounts⟩ := persistRecord_tallied hsecond
    refine ⟨row, again, hholds, hcounts.rows, hcounts.created, hcounts.failed,
      ?_⟩
    rw [storedAudited_append, hcounts.audited]
    exact (and_iff_right (storedAudited_other rfl)).symm

/-! ## The batch -/

theorem records_count
    (h : (machine env).Performs (records.foldlM (processRecord env syncRunId
      pipelineId compiledMapping actor) {}) before calls (.ok state') after) :
    ∃ (outcomes : Outcomes) (again : Nat), outcomes.map Prod.fst = records ∧
      (∀ outcome ∈ outcomes, ∀ row ∈ outcome.2,
        SyncedRecord.Holds syncRunId outcome.1 row) ∧
      Tallied outcomes again {} state' before after calls := by
  refine Machine.Performs.foldlM (fun done state store calls =>
    ∃ (outcomes : Outcomes) (again : Nat), outcomes.map Prod.fst = done ∧
      (∀ outcome ∈ outcomes, ∀ row ∈ outcome.2,
        SyncedRecord.Holds syncRunId outcome.1 row) ∧
      Tallied outcomes again {} state before store calls) ?_ h ?_
  · rintro done record rest state store earlier calls next after -
      ⟨outcomes, again, hrecords, hholds, hcounts⟩ hturn
    obtain ⟨row, again', hrow, hone⟩ := processRecord_tallied hturn
    refine ⟨outcomes ++ [(record, row)], again + again', by simp [hrecords], ?_,
      hcounts.append hone⟩
    intro outcome houtcome
    rcases List.mem_append.mp houtcome with hdone | hlast
    · exact hholds outcome hdone
    · obtain rfl := List.mem_singleton.mp hlast
      exact hrow
  · refine ⟨[], 0, rfl, fun _ hmem => absurd hmem List.not_mem_nil,
      (List.append_nil _).symm, rfl, rfl, ?_⟩
    exact iff_of_true rfl storedAudited_nil

theorem updateCursor_audits :
    (updateCursor env syncRunId pipeline state actor).Uses
      fun op => op.auditsStored = false := by
  have hlog : ∀ {action entityType entityId : String} {metadata : Record}
      {value : Option Record}, (decide (action = "transformation_applied") ||
        decide (action = "synced_record_created")) = false →
      ((AuditService.log action entityType entityId metadata actor).bind
        fun _ => .ret value).Uses fun op => op.auditsStored = false :=
    fun hother => Uses.await hother fun _ => trivial
  simp only [updateCursor]
  split
  · trivial
  · split
    · split
      · exact Uses.await rfl fun _ => hlog (by decide)
      · trivial
    · exact hlog (by decide)

theorem length_eligibleRecords_le :
    (eligibleRecords env pipeline ignoreCursor records).length ≤
      records.length := by
  rw [eligibleRecords]
  split
  · exact List.length_filter_le _ _
  · exact le_rfl

theorem processRunRecords_tallied {summary : RunProcessingSummary}
    (h : (machine env).Performs (processRunRecords env syncRunId pipeline
      records ignoreCursor actor) before calls (.ok summary) after) :
    ∃ (outcomes : Outcomes) (again : Nat),
      outcomes.map Prod.fst =
        eligibleRecords env pipeline ignoreCursor records ∧
      (∀ outcome ∈ outcomes, ∀ row ∈ outcome.2,
        SyncedRecord.Holds syncRunId outcome.1 row) ∧
      createdRows before after = outcomes.rows ∧
      summary.recordsProcessed = outcomes.rows.length ∧
      summary.recordsFailed = outcomes.unstored + again ∧
      summary.recordsReceived = outcomes.rows.length + outcomes.unstored +
        summary.skippedByCursor ∧
      (again = 0 ↔ StoredAudited calls) := by
  rcases Machine.performs_bind.mp h with ⟨error, -, herror⟩ |
    ⟨compiledMapping, start, none, loop, hcompiled, hloop, rfl⟩
  · cases herror
  obtain ⟨rfl, -, rfl⟩ := Machine.performs_ofExcept.mp hcompiled
  rcases Machine.performs_bind.mp hloop with ⟨error, -, herror⟩ |
    ⟨state, middle, turns, tail, hturns, htail, rfl⟩
  · cases herror
  rcases Machine.performs_bind.mp htail with ⟨error, -, herror⟩ |
    ⟨cursorValue, last, cursor, rest, hcursor, hrest, rfl⟩
  · cases herror
  cases hrest
  obtain ⟨outcomes, again, hrecords, hholds, hcounts⟩ := records_count hturns
  have hkept : after.syncedRecords = middle.syncedRecords := by
    refine (ensures_records (updateCursor_rule keepsRecords_quiet ?_)).of_runs
      hcursor.runs
    exact fun _ _ _ => (uses_await _).mpr rfl
  have hsum : outcomes.rows.length + outcomes.unstored =
      (eligibleRecords env pipeline ignoreCursor records).length := by
    rw [Outcomes.rows_add_unstored, ← hrecords, List.length_map]
  have hle := @length_eligibleRecords_le env pipeline records ignoreCursor
  refine ⟨outcomes, again, hrecords, hholds, ?_, ?_, ?_, ?_, ?_⟩
  · rw [createdRows, hkept, hcounts.rows, List.drop_left]
  · exact hcounts.created.trans (Nat.zero_add _)
  · have hfailed := hcounts.failed
    dsimp only at hfailed ⊢
    omega
  · dsimp only
    omega
  · rw [List.nil_append, List.append_nil, storedAudited_append, hcounts.audited]
    exact (and_iff_left
      (storedAudited_of_uses hcursor updateCursor_audits)).symm

/-- Whatever fails, the records of a run that returns are counted once exactly
if no audit call for a stored row has failed. -/
theorem counted_once_iff {summary : RunProcessingSummary}
    (h : (machine env).Performs (processRunRecords env syncRunId pipeline
      records ignoreCursor actor) before calls (.ok summary) after) :
    CountedOnce syncRunId (eligibleRecords env pipeline ignoreCursor records)
        before after summary ↔
      StoredAudited calls := by
  obtain ⟨outcomes, again, hrecords, hholds, hrows, hprocessed, hfailed,
    hreceived, haudited⟩ := processRunRecords_tallied h
  rw [← haudited]
  constructor
  · intro hcounted
    have hbalance := hcounted.balance
    omega
  · rintro rfl
    refine ⟨by omega, by rw [hrows, hprocessed], outcomes, hrecords, hrows.symm,
      hholds, by omega⟩

end Loop

/-! ## A batch of two records -/

def countedRun (faults : List (Option Failure)) :
    List (Performed Op.Res Failure) × Except Failure RunProcessingSummary ×
      Store :=
  (machine (Sample.env .sync)).perform (processRunRecords (Sample.env .sync) 4
    Sample.pipeline numberedBatch true none) faults Sample.store

theorem performs_countedRun (faults : List (Option Failure)) :
    (machine (Sample.env .sync)).Performs (processRunRecords (Sample.env .sync)
      4 Sample.pipeline numberedBatch true none) Sample.store
      (countedRun faults).1 (countedRun faults).2.1 (countedRun faults).2.2 :=
  Machine.performs_perform _ faults Sample.store

/-- The insertion of the first row fails. -/
theorem counted_once_of_batch :
    ∃ summary, (countedRun [none, some uniqueViolation]).2.1 = .ok summary ∧
      CountedOnce 4 (eligibleRecords (Sample.env .sync) Sample.pipeline true
        numberedBatch) Sample.store
        (countedRun [none, some uniqueViolation]).2.2 summary := by
  have hreturns : ((countedRun [none, some uniqueViolation]).2.1.toOption.any
      fun _ => true) = true := by decide +kernel
  have haudited : ((countedRun [none, some uniqueViolation]).1.all fun call =>
      !call.1.auditsStored || !call.failed) = true := by decide +kernel
  obtain ⟨summary, hsummary, -⟩ := (Option.any_eq_true _ _).mp hreturns
  have hresult := toOption_eq_some.mp hsummary
  have hperforms := performs_countedRun [none, some uniqueViolation]
  rw [hresult] at hperforms
  refine ⟨summary, hresult, (counted_once_iff hperforms).mpr ?_⟩
  intro call hcall haudits
  have hcalled := List.all_eq_true.mp haudited call hcall
  simpa [haudits] using hcalled

/-- The first audit call for the first row fails. -/
theorem counted_twice :
    ∃ summary, (countedRun [none, none, some uniqueViolation]).2.1 =
        .ok summary ∧
      ¬ CountedOnce 4 (eligibleRecords (Sample.env .sync) Sample.pipeline true
        numberedBatch) Sample.store
        (countedRun [none, none, some uniqueViolation]).2.2 summary := by
  have hreturns :
      ((countedRun [none, none, some uniqueViolation]).2.1.toOption.any
        fun summary => summary.recordsReceived != summary.recordsProcessed +
          summary.recordsFailed + summary.skippedByCursor) = true := by
    decide +kernel
  obtain ⟨summary, hsummary, hdiffers⟩ := (Option.any_eq_true _ _).mp hreturns
  refine ⟨summary, toOption_eq_some.mp hsummary, fun hcounted => ?_⟩
  exact bne_iff_ne.mp hdiffers hcounted.balance

end SyncBridge
