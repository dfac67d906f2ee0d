import SyncBridge.Foundation.Ownership
import SyncBridge.Runs.Custody
import SyncBridge.Sample

/-!
# Counters of a run

The rows of a run are stored one by one, and its counters are written once, at
the end.  Whoever executes the run knows how many rows it has stored, and the
counters it writes say so; only the `catch` block of a delivery ends the run
without counters.
-/

namespace SyncBridge

open SyncBridge.Foundation SyncBridge.Foundation.Prog

def Store.recordsOf (store : Store) (runId : Id) : Nat :=
  store.syncedRecords.countP fun row => row.syncRunId = runId

/-- A run that has ended counts the rows that are stored for it. -/
def Store.CountersAgree (store : Store) (runId : Id) : Prop :=
  ∀ row ∈ store.syncRuns, row.id = runId → row.status.isActive = false →
    row.recordsProcessed = store.recordsOf runId

def Call.executes (runId : Id) : Call → Bool
  | .processJob _ _ (.executeSyncRun payload) _ => payload.syncRunId = runId
  | _ => false

/-! ## The monitor of a run -/

/-- Whether the call has created the run for the queue, whether it executes the
run, how many rows it has stored and whether it has ended the run. -/
structure Counting where
  queued : Bool := false
  executing : Bool := false
  stored : Nat := 0
  ended : Bool := false

def Counting.note (runId : Id) (state : Counting) :
    (op : Op) → op.Res → Counting
  | .syncRunCreate data, run =>
      if run.id = runId then
        if data.status = .queued then { state with queued := true }
        else { state with executing := true, stored := 0, ended := false }
      else state
  | .syncedRecordCreate data, _ =>
      if data.syncRunId = runId then { state with stored := state.stored + 1 }
      else state
  | .syncRunUpdate id data, _ =>
      if id = runId ∧ data.status.isActive = false then
        { state with ended := true }
      else state
  | _, _ => state

inductive Counting.Writes (state : Counting) (data : SyncRunData) : Prop
  | counters (hended : state.ended = false)
      (hstatus : data.status.isActive = false)
      (hcounted : data.recordsProcessed = some state.stored)
  | status (hcounters : data.recordsProcessed = none)
      (hended : data.status.isActive = true → state.ended = false)

def counting (runId : Id) : Monitor Op.Res Call Counting where
  init call := { executing := call.executes runId }
  note _ := Counting.note runId
  guard _ state
    | .syncRunCreate data =>
        data.status.isActive = true ∧ data.recordsProcessed = 0
    | .syncedRecordCreate data => data.syncRunId = runId →
        state.executing = true ∧ state.ended = false
    | .syncRunUpdate id data => id = runId →
        state.executing = true ∧ state.Writes data
    | .queueAdd _ (.executeSyncRun payload) _ =>
        payload.syncRunId = runId → state.queued = true
    | _ => True
  facts _ _
    | .syncRunFindUnique id, found => ∀ row, found = some row → row.id = id
    | _, _ => True

def Op.leavesRuns : Op → Bool
  | .syncRunCreate _ => false
  | .syncRunUpdate _ _ => false
  | .syncedRecordCreate _ => false
  | .queueAdd _ (.executeSyncRun _) _ => false
  | _ => true

section Walk

variable {env : Env} {runId id : Id} {call : Call} {state : Counting}
  {actor : AuditActor}

theorem counting_silent {op : Op} (hop : op.leavesRuns = true) :
    (counting runId).Silent call state op := by
  cases op with
  | syncRunCreate _ | syncRunUpdate _ _ | syncedRecordCreate _ => cases hop
  | queueAdd _ payload _ =>
      cases payload with
      | executeSyncRun _ => cases hop
      | processWebhookEvent _ => exact ⟨trivial, fun _ => rfl⟩
  | _ => exact ⟨trivial, fun _ => rfl⟩

def Counting.Stored (runId id : Id) (count : Nat) (state : Counting) : Prop :=
  id = runId →
    state.executing = true ∧ state.stored = count ∧ state.ended = false

def Counting.Executes (runId id : Id) (state : Counting) : Prop :=
  id = runId → state.executing = true

def Stands (runId id : Id) {α : Type} (count : α → Nat) (state : Counting) :
    Except Failure α → Prop
  | .ok value => state.Stored runId id (count value)
  | .error _ => state.Executes runId id

theorem Counting.Stored.executes {count : Nat}
    (h : state.Stored runId id count) : state.Executes runId id :=
  fun hid => (h hid).1

theorem await_silent {op : Op} (hop : op.leavesRuns = true) :
    (await op).Uses ((counting runId).Silent call state) :=
  (uses_await op).mpr (counting_silent hop)

theorem log_silent {action entityType entityId : String} {metadata : Record} :
    (AuditService.log action entityType entityId metadata actor).Uses
      ((counting runId).Silent call state) := await_silent rfl

theorem persistRecord_stands {pipelineId : Id}
    {loop : SyncRunsService.LoopState} {record : SyncRunMockRecordPayload}
    {normalized : Record} (h : state.Stored runId id loop.createdCount) :
    (counting runId).Accepts call
      (Stands runId id SyncRunsService.LoopState.createdCount)
      (SyncRunsService.persistRecord env id pipelineId actor loop record
        normalized) state := by
  simp only [SyncRunsService.persistRecord, bind_eq]
  refine Monitor.accepts_bind.mpr (Monitor.accepts_attempt.mpr
    (Monitor.accepts_await.mpr ⟨fun hid => ?_, fun row _ => ?_, fun _ _ => h⟩))
  · exact ⟨(h hid).1, (h hid).2.2⟩
  · -- The row is stored and counted, whatever becomes of its audit entries.
    have hstored : ((counting runId).note call state (.syncedRecordCreate
        (SyncRunsService.persistedRecord id pipelineId record normalized))
          row).Stored runId id (loop.createdCount + 1) := by
      intro hid
      obtain ⟨hexecuting, hcount, hended⟩ := h hid
      simp [counting, Counting.note, SyncRunsService.persistedRecord, hid,
        hexecuting, hcount, hended]
    refine Monitor.accepts_bind.mpr (Monitor.accepts_attempt.mpr
      ((Monitor.accepts_of_silent ?_).mono ?_))
    · exact log_silent.bind fun _ => log_silent
    · rintro _ (failure | _) rfl
      · exact hstored
      · exact hstored

theorem processRecord_stands {pipelineId : Id}
    {compiledMapping : List NormalizedMappingField}
    {loop : SyncRunsService.LoopState} {record : SyncRunMockRecordPayload}
    (h : state.Stored runId id loop.createdCount) :
    (counting runId).Accepts call
      (Stands runId id SyncRunsService.LoopState.createdCount)
      (SyncRunsService.processRecord env id pipelineId compiledMapping actor
        loop record) state := by
  refine Monitor.accepts_silent_bind (await_silent rfl) (fun transformed => ?_)
    fun _ => h.executes
  split
  · exact Monitor.accepts_silent_bind log_silent (fun _ => h)
      fun _ => h.executes
  · exact persistRecord_stands h

theorem updateCursor_silent {pipeline : SyncPipeline}
    {loop : SyncRunsService.LoopState} :
    (SyncRunsService.updateCursor env id pipeline loop actor).Uses
      ((counting runId).Silent call state) :=
  updateCursor_rule (allowsQuiet fun op hop => counting_silent
    (by cases op <;> first | rfl | cases hop)) fun _ _ _ => await_silent rfl

theorem processRunRecords_stands {pipeline : SyncPipeline}
    {mockRecords : List SyncRunMockRecordPayload} {ignoreCursor : Bool}
    (h : state.Stored runId id 0) :
    (counting runId).Accepts call
      (Stands runId id RunProcessingSummary.recordsProcessed)
      (SyncRunsService.processRunRecords env id pipeline mockRecords
        ignoreCursor actor) state := by
  refine Monitor.accepts_ofExcept_bind (fun compiledMapping _ => ?_)
    fun _ => h.executes
  refine Monitor.accepts_bind.mpr (Monitor.Accepts.mono ?_
    (Monitor.accepts_foldlM
      (fun _ (loop : SyncRunsService.LoopState) (state : Counting) =>
        state.Stored runId id loop.createdCount)
      (fun state _ => state.Executes runId id)
      (fun record records loop state hloop =>
        (processRecord_stands hloop).mono ?_) h))
  · rintro state (failure | loop) hstands
    · exact hstands
    · exact Monitor.accepts_silent_bind updateCursor_silent
        (fun _ => hstands) fun _ => hstands.executes
  · rintro state (failure | loop) hstands
    · exact hstands
    · exact hstands

theorem leavesRuns_of_quiet {op : Op} (hop : op.isQuiet = true) :
    op.leavesRuns = true := by
  cases op <;> first | rfl | cases hop

theorem finalRunData_writes {summary : RunProcessingSummary} {finishedAt : Time}
    (h : state.Stored runId id summary.recordsProcessed) (hid : id = runId) :
    state.executing = true ∧
      state.Writes (SyncRunsService.finalRunData summary finishedAt) := by
  obtain ⟨hexecuting, hstored, hended⟩ := h hid
  refine ⟨hexecuting, .counters hended ?_ (by rw [hstored]; rfl)⟩
  simp only [SyncRunsService.finalRunData,
    SyncRunsService.RunProcessingSummary.finalRunStatus]
  split <;> rfl

theorem executes_update {data : SyncRunData} {run : SyncRun}
    (h : state.Executes runId id) :
    ((counting runId).note call state (.syncRunUpdate id data) run).Executes
      runId id := by
  intro hid
  simp only [counting, Counting.note]
  split
  · exact h hid
  · exact h hid

/-! ### Calls that start runs -/

abbrev Counts (runId : Id) (call : Call) {α : Type} (body : Body α) : Prop :=
  (counting runId).Keeps call (fun _ => True) body

theorem counts_silent {α : Type} {body : Body α}
    (h : ∀ state, body.Uses ((counting runId).Silent call state)) :
    Counts runId call body :=
  ⟨fun state _ => (Monitor.accepts_of_silent (h state)).mono
    fun _ _ _ => trivial⟩

theorem counts_quiet : Quiet (Counts runId call) where
  toCompositional := Monitor.compositional_keeps _ _ _
  op _ hop := counts_silent fun _ => await_silent (leavesRuns_of_quiet hop)

theorem counts_update {pipelineId : Id} {data : PipelineData} :
    Counts runId call (await (.pipelineUpdate pipelineId data)) :=
  counts_silent fun _ => await_silent rfl

theorem counts_create {α : Type} {data : NewSyncRun} {rest : SyncRun → Body α}
    (hstatus : data.status = .running) (hcounted : data.recordsProcessed = 0)
    (hrest : ∀ run state, state.Stored runId run.id 0 →
      (counting runId).Accepts call (fun _ _ => True) (rest run) state) :
    (counting runId).Accepts call (fun _ _ => True)
      ((await (.syncRunCreate data)).bind rest) state := by
  refine Monitor.accepts_await_bind.mpr
    ⟨⟨by rw [hstatus]; rfl, hcounted⟩, fun run _ => hrest run _ fun hid => ?_,
      fun _ _ => trivial⟩
  simp [counting, Counting.note, hid, hstatus]

theorem executeSyncRunNow_counts {pipeline : SyncPipeline}
    {options : CreateRunOptions} :
    Counts runId call
      (SyncRunsService.executeSyncRunNow env pipeline options) := by
  constructor
  intro state _
  refine Monitor.accepts_silent_bind (await_silent rfl) (fun startedAt => ?_)
    fun _ => trivial
  refine counts_create rfl rfl fun run state hstored => ?_
  refine Monitor.accepts_silent_bind log_silent (fun _ => ?_) fun _ => trivial
  refine Monitor.accepts_bind.mpr ((processRunRecords_stands hstored).mono ?_)
  rintro state (failure | summary) hstands
  · trivial
  · refine Monitor.accepts_silent_bind (await_silent rfl) (fun finishedAt => ?_)
      fun _ => trivial
    refine Monitor.accepts_await_bind.mpr
      ⟨finalRunData_writes hstands, fun completedRun _ => ?_, fun _ _ => trivial⟩
    refine Monitor.Keeps.accepts (I := fun _ => True) ?_ _ trivial
    refine counts_quiet.bind counts_update fun _ => ?_
    exact counts_quiet.bind (log_rule counts_quiet) fun _ =>
      counts_quiet.bind (log_rule counts_quiet) fun _ => counts_quiet.ret _

theorem queueSyncRun_counts {pipeline : SyncPipeline}
    {options : CreateRunOptions} :
    Counts runId call
      (SyncRunsService.queueSyncRun env pipeline options) := by
  constructor
  intro state _
  refine Monitor.accepts_await_bind.mpr
    ⟨⟨rfl, rfl⟩, fun run _ => ?_, fun _ _ => trivial⟩
  refine Monitor.accepts_silent_bind (await_silent rfl)
    (fun backgroundJob => ?_) fun _ => trivial
  refine Monitor.accepts_bind.mpr (Monitor.Accepts.mono
    (Q := fun _ _ => True) ?_ ?_)
  · rintro state (failure | _) -
    · trivial
    · refine Monitor.Keeps.accepts (I := fun _ => True) ?_ _ trivial
      exact counts_quiet.bind (log_rule counts_quiet) fun _ =>
        counts_quiet.bind (log_rule counts_quiet) fun _ => counts_quiet.ret _
  · simp only [JobsService.enqueueExecuteSyncRunJob, JobsService.enqueueJob]
    split
    · trivial
    · split
      · trivial
      · refine Monitor.accepts_await.mpr
          ⟨fun hid => ?_, fun _ _ => trivial, fun _ _ => trivial⟩
        have hsame : run.id = runId := hid
        simp [counting, Counting.note, hsame]

theorem failWebhookRun_counts {eventId pipelineId : Id}
    {externalId message : String} {errorCount : Nat}
    (h : state.Stored runId id 0) :
    (counting runId).Accepts call (fun _ _ => True)
      (WebhooksService.failWebhookRun eventId pipelineId id externalId message
        errorCount actor) state := by
  refine Monitor.accepts_silent_bind (await_silent rfl) (fun finishedAt => ?_)
    fun _ => trivial
  refine Monitor.accepts_await_bind.mpr
    ⟨fun hid => ?_, fun _ _ => ?_, fun _ _ => trivial⟩
  · obtain ⟨hexecuting, hstored, hended⟩ := h hid
    exact ⟨hexecuting, .counters hended rfl (by rw [hstored])⟩
  · refine Monitor.Keeps.accepts (I := fun _ => True) ?_ _ trivial
    refine counts_quiet.bind (currentTime_rule counts_quiet) fun lastRunAt => ?_
    refine counts_quiet.bind counts_update fun _ => ?_
    exact counts_quiet.bind (log_rule counts_quiet) fun _ =>
      counts_quiet.bind (log_rule counts_quiet) fun _ => counts_quiet.ret _

theorem storeWebhookRecord_counts {eventId pipelineId : Id}
    {externalId : String} {payload normalized : Record}
    (h : state.Stored runId id 0) :
    (counting runId).Accepts call (fun _ _ => True)
      (WebhooksService.storeWebhookRecord eventId pipelineId id externalId
        payload normalized actor) state := by
  refine Monitor.accepts_await_bind.mpr
    ⟨fun hid => ?_, fun row _ => ?_, fun _ _ => trivial⟩
  · exact ⟨(h hid).1, (h hid).2.2⟩
  refine Monitor.accepts_silent_bind (await_silent rfl) (fun finishedAt => ?_)
    fun _ => trivial
  refine Monitor.accepts_await_bind.mpr
    ⟨fun hid => ?_, fun _ _ => ?_, fun _ _ => trivial⟩
  · obtain ⟨hexecuting, hstored, hended⟩ := h hid
    simp only [counting, Counting.note, if_pos hid]
    exact ⟨hexecuting, .counters hended rfl (by rw [hstored])⟩
  · refine Monitor.Keeps.accepts (I := fun _ => True) ?_ _ trivial
    refine counts_quiet.bind (currentTime_rule counts_quiet) fun lastRunAt => ?_
    refine counts_quiet.bind counts_update fun _ => ?_
    exact counts_quiet.bind (log_rule counts_quiet) fun _ =>
      counts_quiet.bind (log_rule counts_quiet) fun _ =>
        counts_quiet.bind (log_rule counts_quiet) fun _ => counts_quiet.ret _

theorem processPipeline_counts {event : WebhookEvent}
    {totals : WebhooksService.Totals} {pipeline : SyncPipeline} :
    Counts runId call
      (WebhooksService.processPipeline env event actor totals pipeline) := by
  constructor
  intro state _
  refine Monitor.accepts_silent_bind (await_silent rfl) (fun startedAt => ?_)
    fun _ => trivial
  refine counts_create rfl rfl fun run state hstored => ?_
  refine Monitor.accepts_silent_bind log_silent (fun _ => ?_) fun _ => trivial
  refine Monitor.accepts_bind.mpr (Monitor.Accepts.mono
    (Q := fun _ _ => True) ?_ ?_)
  · rintro state (failure | _) - <;> trivial
  · simp only [WebhooksService.processWebhookForPipeline]
    split
    · exact failWebhookRun_counts hstored
    · refine Monitor.accepts_silent_bind (await_silent rfl)
        (fun transformed => ?_) fun _ => trivial
      split
      · exact failWebhookRun_counts hstored
      · exact storeWebhookRecord_counts hstored

/-! ### Deliveries -/

theorem runQueuedRecords_stands {payload : ExecuteSyncRunJobPayload}
    {attempts : Nat} {backgroundJobId : Id} {pipeline : SyncPipeline}
    {startedAt : Time} (h : state.Stored runId id 0) :
    (counting runId).Accepts call (fun state _ => state.Executes runId id)
      (SyncRunsService.runQueuedRecords env payload attempts backgroundJobId id
        pipeline startedAt actor) state := by
  refine Monitor.accepts_bind.mpr ((processRunRecords_stands h).mono ?_)
  rintro state (failure | summary) hstands
  · exact hstands
  · refine Monitor.accepts_silent_bind (await_silent rfl) (fun finishedAt => ?_)
      fun _ => hstands.executes
    refine Monitor.accepts_await_bind.mpr ⟨finalRunData_writes hstands,
      fun completedRun _ => ?_, fun _ _ => hstands.executes⟩
    refine (Monitor.accepts_of_silent ?_).mono ?_
    · refine Uses.await (counting_silent rfl) fun _ => ?_
      refine Uses.await (counting_silent rfl) fun _ => ?_
      exact log_silent.bind fun _ => log_silent
    · rintro _ _ rfl
      exact executes_update hstands.executes

theorem failQueuedRun_counts {payload : ExecuteSyncRunJobPayload}
    {attempts : Nat} {backgroundJobId : Id} {pipeline : SyncPipeline}
    {startedAt : Time} {failure : Failure} (h : state.Executes runId id) :
    (counting runId).Accepts call (fun _ _ => True)
      (SyncRunsService.failQueuedRun payload attempts backgroundJobId id
        pipeline startedAt actor failure) state := by
  refine Monitor.accepts_silent_bind (await_silent rfl) (fun finishedAt => ?_)
    fun _ => trivial
  refine Monitor.accepts_await_bind.mpr
    ⟨fun hid => ⟨h hid, .status rfl nofun⟩, fun _ _ => ?_, fun _ _ => trivial⟩
  refine Monitor.Keeps.accepts (I := fun _ => True) ?_ _ trivial
  refine counts_quiet.bind counts_update fun _ => ?_
  refine counts_quiet.bind (counts_silent fun _ => await_silent rfl) fun _ => ?_
  exact counts_quiet.bind (log_rule counts_quiet) fun _ =>
    counts_quiet.bind (log_rule counts_quiet) fun _ => counts_quiet.throw _

theorem counts_status {α : Type} {data : SyncRunData} {rest : SyncRun → Body α}
    (h : state.Stored runId id 0) (hstatus : data.status = .running)
    (hcounters : data.recordsProcessed = none)
    (hrest : ∀ run, (counting runId).Accepts call (fun _ _ => True) (rest run)
      state) :
    (counting runId).Accepts call (fun _ _ => True)
      ((await (.syncRunUpdate id data)).bind rest) state := by
  refine Monitor.accepts_await_bind.mpr
    ⟨fun hid => ⟨(h hid).1, .status hcounters fun _ => (h hid).2.2⟩,
      fun run _ => ?_, fun _ _ => trivial⟩
  have hkept : (counting runId).note call state (.syncRunUpdate id data) run =
      state := by
    simp [counting, Counting.note, hstatus, SyncRunStatus.isActive]
  rw [hkept]
  exact hrest run

theorem processQueuedSyncRun_counts {payload : ExecuteSyncRunJobPayload}
    {attempts : Nat} (h : state.Stored runId payload.syncRunId 0) :
    (counting runId).Accepts call (fun _ _ => True)
      (SyncRunsService.processQueuedSyncRun env payload attempts) state := by
  have hsilent : ∀ {state : Counting} {α β : Type} {body : Body α}
      {rest : α → Body β},
      body.Uses ((counting runId).Silent call state) →
      (∀ value, (counting runId).Accepts call (fun _ _ => True) (rest value)
        state) →
      (counting runId).Accepts call (fun _ _ => True) (body.bind rest) state :=
    fun huses hrest => Monitor.accepts_silent_bind huses hrest fun _ => trivial
  simp only [SyncRunsService.processQueuedSyncRun, bind_eq]
  refine hsilent (await_silent rfl) fun found => ?_
  refine hsilent ?_ fun backgroundJob => ?_
  · cases found <;> trivial
  refine Monitor.accepts_await_bind.mpr
    ⟨trivial, fun found hfound => ?_, fun _ _ => trivial⟩
  cases found with
  | none => trivial
  | some syncRun =>
      have hid : syncRun.id = payload.syncRunId := hfound syncRun rfl
      rw [← hid] at h
      simp only [orNotFound, ret_bind]
      refine hsilent ?_ fun pipeline => ?_
      · exact getById_rule (allowsQuiet fun _ hop =>
          counting_silent (leavesRuns_of_quiet hop))
      refine hsilent (await_silent rfl) fun startedAt => ?_
      refine hsilent (await_silent rfl) fun _ => ?_
      refine counts_status h rfl rfl fun _ => ?_
      refine hsilent log_silent fun _ => hsilent log_silent fun _ => ?_
      refine Monitor.accepts_tryCatch.mpr ((runQueuedRecords_stands h).mono ?_)
      rintro state (failure | _) hexecutes
      · exact failQueuedRun_counts hexecutes
      · trivial

end Walk

theorem body_counts (env : Env) (runId : Id) (call : Call) :
    (counting runId).Accepts call (fun _ _ => True) (call.body env)
      ((counting runId).init call) := by
  by_cases hcall : ∃ jobId token payload attempts,
      call = .processJob jobId token (.executeSyncRun payload) attempts
  · obtain ⟨jobId, token, payload, attempts, rfl⟩ := hcall
    have hstored : ((counting runId).init (.processJob jobId token
        (.executeSyncRun payload) attempts)).Stored runId payload.syncRunId
          0 := fun hid => ⟨by simp [counting, Call.executes, hid], rfl, rfl⟩
    refine Monitor.accepts_bind.mpr (Monitor.Accepts.mono
      (Q := fun _ _ => True) ?_ ?_)
    · rintro state (failure | _) - <;> trivial
    · refine Monitor.accepts_bind.mpr (Monitor.accepts_attempt.mpr
        ((processQueuedSyncRun_counts hstored).mono fun state result _ => ?_))
      cases result with
      | ok _ => exact ⟨trivial, fun _ _ => trivial, fun _ _ => trivial⟩
      | error failure => exact ⟨trivial, fun _ _ => trivial, fun _ _ => trivial⟩
  · refine Monitor.Keeps.accepts (I := fun _ => True) ?_ _ trivial
    refine body_rule call counts_quiet.toCompositional (fun op hop => ?_)
      (fun pipeline options _ _ => ?_) (fun jobId token payload attempts heq =>
        absurd ⟨jobId, token, payload, attempts, heq⟩ hcall)
      fun _ eventId actor => ?_
    · refine counts_silent fun state => await_silent ?_
      cases op with
      | syncRunCreate _ | syncRunUpdate _ _ | syncedRecordCreate _ => cases hop
      | queueAdd _ payload _ =>
          obtain ⟨-, event, rfl⟩ := hop
          rfl
      | _ => rfl
    · simp only [SyncRunsService.createRunFromPipeline]
      split
      · exact queueSyncRun_counts
      · exact executeSyncRunNow_counts
    · exact processWebhookEventNow_rule counts_quiet
        (fun _ _ _ _ => processPipeline_counts)
        fun _ _ _ => counts_silent fun _ => await_silent rfl

/-! ## The rows of a run -/

/-- Nobody executes the run: nothing is stored for it, and it has not ended. -/
structure Store.Idle (runId : Id) (store : Store) : Prop where
  records : store.recordsOf runId = 0
  rows : ∀ row ∈ store.syncRuns, row.id = runId →
    row.status.isActive = true ∧ row.recordsProcessed = 0

def Counting.Shows (state : Counting) (row : SyncRun) : Prop :=
  if state.ended then row.recordsProcessed = state.stored
  else row.status.isActive = true ∧ row.recordsProcessed = 0

structure Store.InHand (runId : Id) (state : Counting) (store : Store) :
    Prop where
  known : runId < store.nextId
  records : store.recordsOf runId = state.stored
  rows : ∀ row ∈ store.syncRuns, row.id = runId → state.Shows row

section Steps

variable {env : Env} {runId : Id} {op : Op} {store store' : Store}
  {value : op.Res} {call : Call} {state : Counting}

theorem recordsOf_of_leaves (hop : op.writesSyncedRecords = false) :
    (op.effect store).recordsOf runId = store.recordsOf runId := by
  rw [Store.recordsOf, effect_syncedRecords hop, Store.recordsOf]

theorem recordsOf_effect (hop : ∀ data, op = .syncedRecordCreate data →
    data.syncRunId ≠ runId) :
    (op.effect store).recordsOf runId = store.recordsOf runId := by
  cases hwrites : op.writesSyncedRecords with
  | false => exact recordsOf_of_leaves hwrites
  | true =>
      cases op with
      | syncedRecordCreate data =>
          have hother := hop data rfl
          simp [Store.recordsOf, Op.effect, Store.createSyncedRecord,
            List.countP_append, hother]
      | _ => cases hwrites

theorem recordsOf_create {data : NewSyncedRecord}
    (h : data.syncRunId = runId) :
    ((Op.syncedRecordCreate data).effect store).recordsOf runId =
      store.recordsOf runId + 1 := by
  simp [Store.recordsOf, Op.effect, Store.createSyncedRecord,
    List.countP_append, h]

theorem rows_effect {P : SyncRun → Prop}
    (hrows : ∀ row ∈ store.syncRuns, row.id = runId → P row)
    (hcreate : ∀ data, op = .syncRunCreate data → store.nextId = runId →
      P (store.createSyncRun data).1)
    (hupdate : ∀ id data, op = .syncRunUpdate id data → id ≠ runId) :
    ∀ row ∈ (op.effect store).syncRuns, row.id = runId → P row := by
  intro row hrow hid
  rcases syncRuns_of_effect hrow with hold | ⟨data, rfl, rfl⟩ |
    ⟨data, old, hold, rfl, rfl⟩
  · exact hrows row hold hid
  · exact hcreate data rfl hid
  · exact absurd hid (hupdate old.id data rfl)

theorem exec_syncRunCreate {data : NewSyncRun} {run : SyncRun}
    (h : exec env (.syncRunCreate data) store = .ok (run, store')) :
    run = (store.createSyncRun data).1 :=
  (congrArg Prod.fst (Except.ok.inj h)).symm

theorem Store.Idle.pass (h : store.Idle runId)
    (hguard : (counting runId).guard call state op)
    (hidle : state.executing = false) : (op.effect store).Idle runId := by
  refine ⟨?_, rows_effect h.rows ?_ ?_⟩
  · rw [recordsOf_effect, h.records]
    rintro data rfl hid
    have hexecuting := (hguard hid).1
    rw [hidle] at hexecuting
    cases hexecuting
  · rintro data rfl -
    exact hguard
  · rintro id data rfl hid
    have hexecuting := (hguard hid).1
    rw [hidle] at hexecuting
    cases hexecuting

theorem Store.InHand.pass {owner : Counting} (h : store.InHand runId owner)
    (hguard : (counting runId).guard call state op)
    (hidle : state.executing = false) :
    (op.effect store).InHand runId owner := by
  refine ⟨h.known.trans_le nextId_le_effect, ?_, rows_effect h.rows ?_ ?_⟩
  · rw [recordsOf_effect, h.records]
    rintro data rfl hid
    have hexecuting := (hguard hid).1
    rw [hidle] at hexecuting
    cases hexecuting
  · rintro data rfl hnew
    exact absurd hnew (Nat.ne_of_gt h.known)
  · rintro id data rfl hid
    have hexecuting := (hguard hid).1
    rw [hidle] at hexecuting
    cases hexecuting

def Counting.cutShort (runId : Id) (state : Counting) : Op → Bool
  | .syncRunUpdate id data => id = runId ∧ data.recordsProcessed = none ∧
      data.status.isActive = false ∧ state.ended = false ∧ state.stored ≠ 0
  | _ => false

theorem Counting.Shows.written {id : Id} {data : SyncRunData} {old : SyncRun}
    {updated : (Op.syncRunUpdate id data).Res} (h : state.Shows old)
    (hwrites : state.Writes data)
    (hwhole : state.cutShort id (.syncRunUpdate id data) = false) :
    (Counting.note id state (.syncRunUpdate id data) updated).Shows
      (data.apply old) := by
  cases hwrites with
  | counters hended hstatus hcounted =>
      simp [Counting.note, Counting.Shows, SyncRunData.apply,
        hstatus, hcounted]
  | status hcounters hended =>
      cases hstatus : data.status.isActive with
      | true =>
          have hopen := hended hstatus
          simp only [Counting.Shows, hopen, Bool.false_eq_true, if_false] at h
          simp [Counting.note, Counting.Shows, hstatus, hopen,
            SyncRunData.apply, hcounters, h.2]
      | false =>
          have hnone : state.ended = false → state.stored = 0 := by
            intro hopen
            by_contra hstored
            simp [Counting.cutShort, hcounters, hstatus, hopen, hstored]
              at hwhole
          cases hopen : state.ended with
          | true =>
              simp only [Counting.Shows, hopen, if_true] at h
              simp [Counting.note, Counting.Shows, hstatus,
                SyncRunData.apply, hcounters, h]
          | false =>
              simp only [Counting.Shows, hopen, Bool.false_eq_true, if_false]
                at h
              simp [Counting.note, Counting.Shows, hstatus,
                SyncRunData.apply, hcounters, h.2, hnone hopen]

theorem Store.InHand.act (h : store.InHand runId state)
    (hexec : exec env op store = .ok (value, store'))
    (hguard : (counting runId).guard call state op)
    (hwhole : state.cutShort runId op = false) :
    (op.effect store).InHand runId
      ((counting runId).note call state op value) := by
  have hknown : runId < (op.effect store).nextId :=
    h.known.trans_le nextId_le_effect
  cases op with
  | syncRunCreate data =>
      obtain rfl := exec_syncRunCreate hexec
      have hother : (store.createSyncRun data).1.id ≠ runId :=
        Nat.ne_of_gt h.known
      simp only [counting, Counting.note, if_neg hother]
      refine ⟨hknown, h.records, rows_effect h.rows ?_ (fun _ _ => nofun)⟩
      rintro other ⟨⟩ hnew
      exact absurd hnew hother
  | syncedRecordCreate data =>
      by_cases hid : data.syncRunId = runId
      · obtain ⟨-, hended⟩ := hguard hid
        simp only [counting, Counting.note, if_pos hid]
        refine ⟨hknown, ?_, fun row hrow heq => ?_⟩
        · rw [recordsOf_create hid, h.records]
        · have hrow := h.rows row hrow heq
          simpa [Counting.Shows, hended] using hrow
      · simp only [counting, Counting.note, if_neg hid]
        refine ⟨hknown, ?_, h.rows⟩
        rw [recordsOf_effect, h.records]
        rintro other ⟨⟩
        exact hid
  | syncRunUpdate id data =>
      by_cases hid : id = runId
      · subst hid
        obtain ⟨-, hwrites⟩ := hguard rfl
        refine ⟨hknown, ?_, fun row hrow heq => ?_⟩
        · rw [recordsOf_of_leaves rfl, h.records]
          simp only [counting, Counting.note]
          split <;> rfl
        · obtain ⟨old, hold, rfl⟩ := Table.mem_modify.mp hrow
          have hsame : old.id = id := by
            by_contra hother
            rw [if_neg hother] at heq
            exact hother heq
          rw [if_pos hsame]
          exact @Counting.Shows.written state id data old value
            (h.rows old hold hsame) hwrites hwhole
      · have hnote : (counting runId).note call state (.syncRunUpdate id data)
            value = state := by
          simp [counting, Counting.note, hid]
        rw [hnote]
        refine ⟨hknown, ?_, rows_effect h.rows (fun _ => nofun) ?_⟩
        · rw [recordsOf_of_leaves rfl, h.records]
        · rintro other written ⟨⟩
          exact hid
  | _ =>
      refine ⟨hknown, ?_, ?_⟩
      · exact (recordsOf_of_leaves rfl).trans h.records
      · exact rows_effect h.rows (fun _ => nofun) fun _ _ => nofun

theorem creates_of_takes (hother : ¬ state.executing = true)
    (htakes : ((counting runId).note call state op value).executing = true) :
    ∃ data, op = .syncRunCreate data := by
  cases op with
  | syncRunCreate data => exact ⟨data, rfl⟩
  | syncRunUpdate id data =>
      refine absurd ?_ hother
      simp only [counting, Counting.note] at htakes
      split at htakes <;> exact htakes
  | syncedRecordCreate data =>
      refine absurd ?_ hother
      simp only [counting, Counting.note] at htakes
      split at htakes <;> exact htakes
  | _ => exact absurd htakes hother

theorem created_of_takes {data : NewSyncRun} {run : SyncRun}
    (hother : ¬ state.executing = true)
    (htakes : ((counting runId).note call state (.syncRunCreate data)
      run).executing = true) : run.id = runId := by
  by_contra hid
  simp only [counting, Counting.note, if_neg hid] at htakes
  exact hother htakes

theorem Store.Idle.take {data : NewSyncRun} (h : store.Idle runId)
    (hguard : (counting runId).guard call state (.syncRunCreate data))
    (hidle : state.executing = false)
    (htakes : ((counting runId).note call state (.syncRunCreate data)
      (store.createSyncRun data).1).executing = true) :
    ((Op.syncRunCreate data).effect store).InHand runId
      ((counting runId).note call state (.syncRunCreate data)
        (store.createSyncRun data).1) := by
  have hother : ¬ state.executing = true := by simp [hidle]
  have hid : (store.createSyncRun data).1.id = runId :=
    created_of_takes hother htakes
  have hpass := h.pass hguard hidle
  simp only [counting, Counting.note, if_pos hid] at htakes ⊢
  split
  · rename_i hqueued
    rw [if_pos hqueued] at htakes
    exact absurd htakes hother
  · refine ⟨?_, hpass.records, fun row hrow heq => hpass.rows row hrow heq⟩
    rw [← hid]
    exact Nat.lt_succ_self _

end Steps

/-! ## Interleavings -/

section Interleavings

variable (env : Env) (runId : Id)

/-- A job of the run is delivered although a call executes the run, or has
executed it: as a delivery, or because it has created the run `RUNNING`. -/
def redelivers (pool : Platform) : Step → Bool
  | .env (.deliver position) =>
      match pool.store.jobs[position]? with
      | some job => job.payload.syncRunId? = some runId &&
          pool.tasks.any fun task => ((counting runId).state task).executing
      | none => false
  | _ => false

/-- The `catch` block of a delivery sets the run `FAILED` after the delivery has
stored rows and before it has written the counters. -/
def cutsShort (pool : Platform) : Step → Bool
  | .run index =>
      match pool.tasks[index]? with
      | some ⟨caller, trace, .call op next⟩ =>
          ((counting runId).state ⟨caller, trace, .call op next⟩).cutShort runId
            op
      | _ => false
  | _ => false

/-- The run is executed once, and no delivery of it is cut short. -/
def Whole (pool : Platform) (step : Step) : Prop :=
  redelivers runId pool step = false ∧ cutsShort runId pool step = false

instance (pool : Platform) (step : Step) : Decidable (Whole runId pool step) :=
  inferInstanceAs (Decidable (_ ∧ _))

structure Store.Unserved (store : Store) : Prop extends store.Idle runId where
  jobs : ∀ job ∈ store.jobs, job.payload.syncRunId? ≠ some runId

variable {env runId} {ok : Platform → Step → Prop} {init : Store}
  {pool : Platform}

theorem counting_accepts (h : (platform env).Reach ok init.boot pool) :
    ∀ task ∈ pool.tasks, (counting runId).Accepts task.call (fun _ _ => True)
      task.prog ((counting runId).state task) := by
  refine Monitor.accepts_of_reach (Q := fun _ _ _ => True) ?_
    (fun _ _ _ _ => trivial) (body_counts env runId) rfl h
  intro call state op store value store' hexec
  cases op with
  | syncRunFindUnique id =>
      obtain rfl := @exec_syncRunFindUnique env _ _ _ _ hexec
      exact fun row hrow => Table.find_key hrow
  | _ => trivial

theorem queued_known (h : (platform env).Reach ok init.boot pool) :
    ∀ task ∈ pool.tasks, ((counting runId).state task).queued = true →
      runId < pool.store.nextId := by
  refine Monitor.knows_of_reach (K := fun (state : Counting) (store : Store) =>
    state.queued = true → runId < store.nextId) ?_ ?_ ?_ ?_ rfl h
  · exact fun call store hqueued => nomatch hqueued
  · intro call state op store value store' hexec hknown hqueued
    have heffect : store' = op.effect store := @exec_effect env _ _ _ _ hexec
    rw [heffect]
    cases op with
    | syncRunCreate data =>
        obtain rfl := @exec_syncRunCreate env _ _ _ _ hexec
        by_cases hid : (store.createSyncRun data).1.id = runId
        · rw [← hid]
          exact Nat.lt_succ_self _
        · rw [show (counting runId).note call state (.syncRunCreate data) _ =
            state from if_neg hid] at hqueued
          exact (hknown hqueued).trans_le nextId_le_effect
    | syncRunUpdate id data =>
        refine hknown ?_
        simp only [counting, Counting.note] at hqueued
        split at hqueued <;> exact hqueued
    | syncedRecordCreate data =>
        refine (hknown ?_).trans_le nextId_le_effect
        simp only [counting, Counting.note] at hqueued
        split at hqueued <;> exact hqueued
    | _ => exact (hknown hqueued).trans_le nextId_le_effect
  · intro state op store value store' hexec hknown hqueued
    have heffect : store' = op.effect store := @exec_effect env _ _ _ _ hexec
    rw [heffect]
    exact (hknown hqueued).trans_le nextId_le_effect
  · intro state event store count store' calls henv hknown
    obtain ⟨clock, jobs, rfl⟩ := Event.apply_store henv
    exact hknown

theorem jobs_known (hinit : ∀ job ∈ init.jobs, job.payload.syncRunId? ≠ some runId)
    (h : (platform env).Reach ok init.boot pool) :
    ∀ job ∈ pool.store.jobs, job.payload.syncRunId? = some runId →
      runId < pool.store.nextId := by
  refine (payloads_of_reach (P := fun store payload =>
    payload.syncRunId? = some runId → runId < store.nextId) ?_ ?_ ?_ ?_ h).jobs
  · exact fun job hjob hruns => absurd hruns (hinit job hjob)
  · exact fun op store payload hknown hruns =>
      (hknown hruns).trans_le nextId_le_effect
  · exact fun store clock jobs payload hknown => hknown
  · intro pool pool' index task jobId payload attempts next value hreach hdone
      hruns
    have hmem := List.mem_of_getElem? hdone.at_index
    have hguard : (counting runId).Accepts task.call (fun _ _ => True)
        task.prog ((counting runId).state task) :=
      counting_accepts hreach task hmem
    rw [hdone.awaits] at hguard
    cases payload with
    | executeSyncRun payload =>
        exact queued_known hreach task hmem (hguard.1 (Option.some.inj hruns))
    | processWebhookEvent payload => cases hruns

theorem executes_iff {jobId : Id} {token attempts : Nat} {payload : JobPayload} :
    (Call.processJob jobId token payload attempts).executes runId = true ↔
      payload.syncRunId? = some runId := by
  cases payload with
  | executeSyncRun payload =>
      simp [Call.executes, JobPayload.syncRunId?]
  | processWebhookEvent payload =>
      simp [Call.executes, JobPayload.syncRunId?]

theorem counting_ownership (hinit : ∀ job ∈ init.jobs, job.payload.syncRunId? ≠ some runId) :
    Ownership (counting runId) (fun state => state.executing = true)
      (Store.Idle runId) (Store.InHand runId) (platform env) (Whole runId)
      init.boot where
  start call hstarts := by
    cases call with
    | processJob _ _ _ _ => cases hstarts
    | _ => exact nofun
  acts := by
    intro pool pool' index task op next value _ hok hdone hguard howns hheld
    have hexec := exec_of_done hdone
    refine .inl ⟨?_, ?_⟩
    · cases op with
      | syncRunCreate _ | syncRunUpdate _ _ | syncedRecordCreate _ =>
          simp only [counting, Counting.note]
          repeat' split
          all_goals first | rfl | exact howns
      | _ => exact howns
    · rw [effect_of_done hdone]
      refine hheld.act hexec hguard ?_
      obtain ⟨caller, trace, prog⟩ := task
      obtain rfl := hdone.awaits
      simpa only [cutsShort, hdone.at_index] using hok.2
  passes := by
    intro pool pool' index task op next value _ hdone hguard hother _
    have hidle : ((counting runId).state task).executing = false := by
      simpa using hother
    rw [effect_of_done hdone]
    exact ⟨fun hfree => hfree.pass hguard hidle,
      fun owner hheld => hheld.pass hguard hidle⟩
  takes := by
    intro pool pool' index task op next value _ hdone hguard hother htakes
    have hexec := exec_of_done hdone
    rw [effect_of_done hdone]
    obtain ⟨data, rfl⟩ := creates_of_takes hother htakes
    obtain rfl := exec_syncRunCreate hexec
    have hid := created_of_takes hother htakes
    exact ⟨fun owner hheld => absurd hid (Nat.ne_of_gt hheld.known),
      fun hfree => hfree.take hguard (by simpa using hother) htakes⟩
  event := by
    intro pool pool' event calls hreach hok henv
    have hkeeps : (pool.store.Idle runId → pool'.store.Idle runId) ∧
        (∀ owner, pool.store.InHand runId owner →
          pool'.store.InHand runId owner) ∧
        pool'.store.nextId = pool.store.nextId := by
      obtain ⟨clock, jobs, hstore⟩ := Event.apply_store henv
      rw [hstore]
      exact ⟨fun hfree => ⟨hfree.records, hfree.rows⟩,
        fun _ hheld => ⟨hheld.known, hheld.records, hheld.rows⟩, rfl⟩
    rcases Event.apply_calls henv with rfl | ⟨position, job, rfl, hget, rfl⟩
    · exact .inl ⟨hkeeps.1, hkeeps.2.1, fun call hcall => nomatch hcall⟩
    · by_cases hruns : job.payload.syncRunId? = some runId
      · -- The job of the run is delivered for the first time.
        have honce := hok.1
        simp only [redelivers, hget, hruns, decide_true, Bool.true_and,
          List.any_eq_false] at honce
        refine .inr ⟨_, rfl, executes_iff.mpr hruns, honce, fun hfree => ?_⟩
        have hidle := hkeeps.1 hfree
        refine ⟨?_, hidle.records, hidle.rows⟩
        rw [hkeeps.2.2]
        exact jobs_known hinit hreach job (List.mem_of_getElem? hget) hruns
      · refine .inl ⟨hkeeps.1, hkeeps.2.1, fun call hcall hexecuting => hruns ?_⟩
        obtain rfl := List.mem_singleton.mp hcall
        exact executes_iff.mp hexecuting

/-- The counters of a run that is executed once and not cut short agree with its
rows. -/
theorem counters_agree (hinit : init.Unserved runId)
    (h : (platform env).Reach (Whole runId) init.boot pool) :
    pool.store.CountersAgree runId := by
  have howned := (counting_ownership hinit.jobs).owned
    (Q := fun _ _ _ => True) (fun _ hreach => counting_accepts hreach) rfl
    hinit.toIdle h
  intro row hrow hid hended
  by_cases howner : ∃ task ∈ pool.tasks,
      ((counting runId).state task).executing = true
  · obtain ⟨task, htask, hexecuting⟩ := howner
    have hheld := howned.held task htask hexecuting
    have hshows := hheld.rows row hrow hid
    rw [hheld.records]
    cases hstate : ((counting runId).state task).ended with
    | true => simpa [Counting.Shows, hstate] using hshows
    | false =>
        simp only [Counting.Shows, hstate, Bool.false_eq_true, if_false]
          at hshows
        rw [hshows.1] at hended
        cases hended
  · -- Nobody has executed the run, so that it has not ended.
    have hidle := howned.free fun task htask hexecuting =>
      howner ⟨task, htask, hexecuting⟩
    rw [(hidle.rows row hrow hid).1] at hended
    cases hended

end Interleavings

/-! ## One record -/

theorem unserved_sample (runId : Id) : Sample.store.Unserved runId where
  records := rfl
  rows := fun _ hrow => nomatch hrow
  jobs := fun _ hjob => nomatch hjob

def queueRun : List Step :=
  [.start (.createForPipeline 3 ⟨some [⟨some "a-1", .obj []⟩], none, none⟩
    Sample.operator)] ++ List.replicate 7 (.run 0)

theorem counters_agree_of_delivery :
    ∃ pool, (platform (Sample.env .async)).runWhere (Whole 11)
        Sample.store.boot
        (queueRun ++ [.env (.deliver 0)] ++ List.replicate 20 (.run 1)) =
          some pool ∧
      (pool.store.syncRuns.any fun row =>
        row.id = 11 && row.status.isActive = false) = true ∧
      pool.store.recordsOf 11 = 1 ∧ pool.store.CountersAgree 11 := by
  have hruns : ((platform (Sample.env .async)).runWhere (Whole 11)
      Sample.store.boot (queueRun ++ [.env (.deliver 0)] ++
        List.replicate 20 (.run 1))).any (fun pool =>
          (pool.store.syncRuns.any fun row =>
            row.id = 11 && row.status.isActive = false) &&
          pool.store.recordsOf 11 = 1) = true := by
    decide +kernel
  obtain ⟨pool, hrun, htests⟩ := (Option.any_eq_true _ _).mp hruns
  obtain ⟨hended, hrecords⟩ := Bool.and_eq_true_iff.mp htests
  exact ⟨pool, hrun, hended, of_decide_eq_true hrecords,
    counters_agree (unserved_sample 11) (System.reach_of_runWhere hrun)⟩

/-- The write of the counters fails once, after the row is stored. -/
theorem counters_agree_fails :
    ∃ pool, (platform (Sample.env .async)).Reach
        (fun pool step => redelivers 11 pool step = false) Sample.store.boot
        pool ∧
      ¬ pool.store.CountersAgree 11 := by
  have hruns : ((platform (Sample.env .async)).runWhere
      (fun pool step => redelivers 11 pool step = false) Sample.store.boot
      (queueRun ++ [.env (.deliver 0)] ++ List.replicate 14 (.run 1) ++
        [.fail 1 (.error "database unavailable"), .run 1, .run 1])).any
      (fun pool => (pool.store.syncRuns.any fun row => row.id = 11 &&
          row.status.isActive = false && row.recordsProcessed = 0) &&
        pool.store.recordsOf 11 = 1) = true := by
    decide +kernel
  obtain ⟨pool, hrun, htests⟩ := (Option.any_eq_true _ _).mp hruns
  refine ⟨pool, System.reach_of_runWhere hrun, fun hagree => ?_⟩
  obtain ⟨hrow, hrecords⟩ := Bool.and_eq_true_iff.mp htests
  obtain ⟨row, hmem, hrow⟩ := List.any_eq_true.mp hrow
  simp only [Bool.and_eq_true, decide_eq_true_eq] at hrow hrecords
  obtain ⟨⟨hid, hended⟩, hzero⟩ := hrow
  have hcounted := hagree row hmem hid hended
  rw [hzero, hrecords] at hcounted
  cases hcounted

end SyncBridge
