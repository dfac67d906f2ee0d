import SyncBridge.Foundation.Lookups
import SyncBridge.Services.Footprint

/-!
# The lifecycle of runs and jobs

Runs and background jobs have a status, an error and the times of their start
and end.  Every update of a row is one of three transitions: it starts the row,
or it finishes it with success or failure.  The time that it writes is the last
one that its call has read from the clock.
-/

namespace SyncBridge

open SyncBridge.Foundation SyncBridge.Foundation.Prog

/-! ## Rows -/

inductive Phase where
  | unfinished
  | succeeded
  | failed
  deriving DecidableEq, Repr

def SyncRunStatus.phase : SyncRunStatus → Phase
  | .queued => .unfinished
  | .running => .unfinished
  | .success => .succeeded
  | .failed => .failed
  -- No service writes it.
  | .cancelled => .unfinished

def BackgroundJobStatus.phase : BackgroundJobStatus → Phase
  | .queued => .unfinished
  | .processing => .unfinished
  | .completed => .succeeded
  | .failed => .failed

structure Lifecycle where
  phase : Phase
  error : Option String
  startedAt : Option Time
  finishedAt : Option Time

def SyncRun.lifecycle (row : SyncRun) : Lifecycle where
  phase := row.status.phase
  error := row.errorMessage
  startedAt := row.startedAt
  finishedAt := row.finishedAt

def BackgroundJob.lifecycle (row : BackgroundJob) : Lifecycle where
  phase := row.status.phase
  error := row.lastError
  startedAt := row.startedAt
  finishedAt := row.finishedAt

namespace Lifecycle

/-- The fields match the status. -/
structure Matches (fields : Lifecycle) : Prop where
  finished : fields.finishedAt.isSome = true ↔ fields.phase ≠ .unfinished
  error : fields.error.isSome = true → fields.phase = .failed
  times : ∀ startedAt finishedAt, fields.startedAt = some startedAt →
    fields.finishedAt = some finishedAt → startedAt ≤ finishedAt

structure Update where
  phase : Phase
  error : Option (Option String)
  startedAt : Option Time
  finishedAt : Option Time

def Update.apply (update : Update) (fields : Lifecycle) : Lifecycle where
  phase := update.phase
  error := update.error.getD fields.error
  startedAt := update.startedAt.or fields.startedAt
  finishedAt := update.finishedAt.or fields.finishedAt

inductive Transition where
  | start (time : Time)
  | succeed (time : Time)
  | fail (message : String) (time : Time)

def Transition.update : Transition → Update
  | .start time => ⟨.unfinished, none, some time, none⟩
  | .succeed time => ⟨.succeeded, some none, none, some time⟩
  | .fail message time => ⟨.failed, some (some message), none, some time⟩

def Transition.time : Transition → Time
  | .start time => time
  | .succeed time => time
  | .fail _ time => time

def Transition.Fits (fields : Lifecycle) : Transition → Prop
  | .start _ => fields.finishedAt = none
  | .succeed time => ∀ startedAt, fields.startedAt = some startedAt →
      startedAt ≤ time
  | .fail _ time => ∀ startedAt, fields.startedAt = some startedAt →
      startedAt ≤ time

variable {fields : Lifecycle} {transition : Transition}

theorem Matches.update_iff (h : fields.Matches) :
    (transition.update.apply fields).Matches ↔ transition.Fits fields := by
  constructor
  · intro hafter
    cases transition with
    | start time =>
        by_contra hfinished
        have hset : fields.finishedAt.isSome = true :=
          Option.isSome_iff_ne_none.mpr hfinished
        exact hafter.finished.mp hset rfl
    | succeed time =>
        exact fun startedAt hstart => hafter.times startedAt time hstart rfl
    | fail message time =>
        exact fun startedAt hstart => hafter.times startedAt time hstart rfl
  · intro hfits
    cases transition with
    | start time =>
        have hnever : fields.finishedAt = none := hfits
        have hopen : fields.phase = .unfinished := by
          by_contra hclosed
          have hset := h.finished.mpr hclosed
          rw [hnever] at hset
          cases hset
        have herror : fields.error = none := by
          by_contra hsome
          have hfailed := h.error (Option.isSome_iff_ne_none.mpr hsome)
          rw [hopen] at hfailed
          cases hfailed
        constructor
        · simp [Transition.update, Update.apply, hnever]
        · simp [Transition.update, Update.apply, herror]
        · simp [Transition.update, Update.apply, hnever]
    | succeed time =>
        constructor
        · simp [Transition.update, Update.apply]
        · simp [Transition.update, Update.apply]
        · rintro startedAt _ hstart ⟨⟩
          exact hfits startedAt hstart
    | fail message time =>
        constructor
        · simp [Transition.update, Update.apply]
        · simp [Transition.update, Update.apply]
        · rintro startedAt _ hstart ⟨⟩
          exact hfits startedAt hstart

end Lifecycle

/-! ## Operations -/

def SyncRunData.lifecycle (data : SyncRunData) : Lifecycle.Update where
  phase := data.status.phase
  error := data.errorMessage
  startedAt := data.startedAt
  finishedAt := data.finishedAt

def BackgroundJobData.lifecycle (data : BackgroundJobData) :
    Lifecycle.Update where
  phase := data.status.phase
  error := data.lastError
  startedAt := data.startedAt
  finishedAt := data.finishedAt

/-- A row with a lifecycle. -/
inductive Tracked where
  | run (id : Id)
  | job (id : Id)
  deriving DecidableEq, Repr

def Store.HasLifecycle (store : Store) (fields : Lifecycle) : Tracked → Prop
  | .run id => ∃ row ∈ store.syncRuns, row.id = id ∧ row.lifecycle = fields
  | .job id =>
      ∃ row ∈ store.backgroundJobs, row.id = id ∧ row.lifecycle = fields

def Op.updates : Op → Option (Tracked × Lifecycle.Update)
  | .syncRunUpdate id data => some (.run id, data.lifecycle)
  | .backgroundJobUpdate id data => some (.job id, data.lifecycle)
  | _ => none

def Op.inserts (store : Store) : Op → Option (Tracked × Lifecycle)
  | .syncRunCreate data =>
      some (.run store.nextId, ⟨data.status.phase, none, data.startedAt, none⟩)
  | .backgroundJobCreate data =>
      some (.job store.nextId, ⟨data.status.phase, none, none, none⟩)
  | _ => none

theorem hasLifecycle_effect {op : Op} {store : Store} {fields : Lifecycle}
    {tracked : Tracked} (h : (op.effect store).HasLifecycle fields tracked) :
    store.HasLifecycle fields tracked ∨
    op.inserts store = some (tracked, fields) ∨
    ∃ update old, op.updates = some (tracked, update) ∧
      store.HasLifecycle old tracked ∧ fields = update.apply old := by
  cases tracked with
  | run id =>
      obtain ⟨row, hrow, rfl, rfl⟩ := h
      rcases syncRuns_of_effect hrow with hold | ⟨data, rfl, rfl⟩ |
        ⟨data, old, hold, rfl, rfl⟩
      · exact .inl ⟨row, hold, rfl, rfl⟩
      · exact .inr (.inl rfl)
      · exact .inr (.inr ⟨data.lifecycle, old.lifecycle,
          by simp [Op.updates, SyncRunData.apply], ⟨old, hold, rfl, rfl⟩, rfl⟩)
  | job id =>
      obtain ⟨row, hrow, rfl, rfl⟩ := h
      cases op with
      | backgroundJobCreate data =>
          rcases List.mem_append.mp hrow with hold | hnew
          · exact .inl ⟨row, hold, rfl, rfl⟩
          · obtain rfl := List.mem_singleton.mp hnew
            exact .inr (.inl rfl)
      | backgroundJobUpdate written data =>
          rcases Table.mem_modify_cases hrow with hold | ⟨old, hold, hid, rfl⟩
          · exact .inl ⟨row, hold, rfl, rfl⟩
          · exact .inr (.inr ⟨data.lifecycle, old.lifecycle,
              by simp [Op.updates, BackgroundJobData.apply, hid],
              ⟨old, hold, rfl, rfl⟩, rfl⟩)
      | pollEnter _ _ =>
          obtain ⟨pollLocks, heq⟩ := @effect_pollEnter store _ _
          rw [heq] at hrow
          exact .inl ⟨row, hrow, rfl, rfl⟩
      | _ => exact .inl ⟨row, hrow, rfl, rfl⟩

def Op.Orderly : Op → Prop
  | .syncRunCreate data => data.status.phase = .unfinished
  | .backgroundJobCreate data => data.status.phase = .unfinished
  | .syncRunUpdate _ data =>
      ∃ transition, data.lifecycle = Lifecycle.Transition.update transition
  | .backgroundJobUpdate _ data =>
      ∃ transition, data.lifecycle = Lifecycle.Transition.update transition
  | _ => True

/-! ## Stamps -/

inductive Stamp where
  | start (time : Time)
  | finish (tracked : Tracked) (time : Time)

def Stamp.time : Stamp → Time
  | .start time => time
  | .finish _ time => time

def Op.startTime : Op → Option Time
  | .syncRunCreate data => data.startedAt
  | .syncRunUpdate _ data => data.startedAt
  | .backgroundJobUpdate _ data => data.startedAt
  | _ => none

def Op.finishTime : Op → Option (Tracked × Time)
  | .syncRunUpdate id data => data.finishedAt.map (Tracked.run id, ·)
  | .backgroundJobUpdate id data => data.finishedAt.map (Tracked.job id, ·)
  | _ => none

def stamping : Lookup Op.Res Stamp where
  looks op := op = .now
  acts
    | .start time, op => op.startTime = some time
    | .finish tracked time, op => op.finishTime = some (tracked, time)
  shows
    | stamp, .now, time => stamp.time = time
    | _, _, _ => False

section Bodies

variable {env : Env} {S : Stamp → Prop}

structure Stamped (S : Stamp → Prop) {α : Type} (body : Body α) : Prop where
  acts : stamping.ActsOn S body
  orderly : body.Uses Op.Orderly

abbrev Clocked {α : Type} (body : Body α) : Prop := Stamped (fun _ => False) body

theorem compositional_clocked :
    Compositional fun {_} (body : Body _) => Clocked body where
  ret value := ⟨(Lookup.compositional_actsOn stamping).ret value, trivial⟩
  throw failure := ⟨(Lookup.compositional_actsOn stamping).throw failure, trivial⟩
  bind hbody hrest :=
    ⟨(Lookup.compositional_actsOn stamping).bind hbody.acts fun value =>
      (hrest value).acts, hbody.orderly.bind fun value => (hrest value).orderly⟩
  tryCatch hbody hhandler :=
    ⟨(Lookup.compositional_actsOn stamping).tryCatch hbody.acts fun failure =>
      (hhandler failure).acts,
      hbody.orderly.tryCatch fun failure => (hhandler failure).orderly⟩

theorem Stamped.anywhere {α : Type} {body : Body α} (h : Clocked body) :
    Stamped S body := ⟨h.acts.anywhere, h.orderly⟩

theorem clocked_await {op : Op} (hstart : op.startTime = none)
    (hfinish : op.finishTime = none) (horderly : op.Orderly) :
    Clocked (await op) := by
  refine ⟨Lookup.actsOn_await fun stamp hacts => ?_,
    (uses_await op).mpr horderly⟩
  cases stamp with
  | start time => exact absurd (hstart.symm.trans hacts) (by simp)
  | finish tracked time => exact absurd (hfinish.symm.trans hacts) (by simp)

theorem clocked_quiet : Quiet fun {_} (body : Body _) => Clocked body where
  toCompositional := compositional_clocked
  op op hop := by
    cases op with
    | syncRunCreate _ | syncRunUpdate _ _ | backgroundJobCreate _
    | backgroundJobUpdate _ _ => cases hop
    | _ => exact clocked_await rfl rfl trivial

theorem clocked_now {α : Type} {rest : Time → Body α}
    (hrest : ∀ time, Stamped (fun stamp => stamp.time = time) (rest time)) :
    Clocked (currentTime.bind rest) := by
  constructor
  · refine Lookup.actsOn_look rfl ?_ fun time => (hrest time).acts
    rintro (time | ⟨tracked, time⟩) hacts <;> cases hacts
  · exact Uses.await trivial fun time => (hrest time).orderly

theorem startedAt_update {transition : Lifecycle.Transition} {time : Time}
    (h : transition.update.startedAt = some time) : time = transition.time := by
  cases transition <;> cases h
  rfl

theorem finishedAt_update {transition : Lifecycle.Transition} {time : Time}
    (h : transition.update.finishedAt = some time) :
    time = transition.time := by
  cases transition <;> cases h <;> rfl

theorem stamped_pass {α : Type} {op : Op} {rest : op.Res → Body α}
    (hnow : op ≠ .now) (hstart : op.startTime = none)
    (hfinish : op.finishTime = none) (horderly : op.Orderly)
    (hrest : ∀ value, Stamped S (rest value)) :
    Stamped S ((await op).bind rest) := by
  refine ⟨Lookup.actsOn_bind ((uses_await op).mpr ⟨hnow, ?_⟩) fun value =>
    (hrest value).acts, Uses.await horderly fun value => (hrest value).orderly⟩
  rintro (time | ⟨tracked, time⟩) hacts
  · exact absurd (hstart.symm.trans hacts) (by simp)
  · exact absurd (hfinish.symm.trans hacts) (by simp)

theorem stamped_update {α : Type} {op : Op} {tracked : Tracked}
    {update : Lifecycle.Update} {time : Time} {rest : op.Res → Body α}
    (transition : Lifecycle.Transition)
    (hop : op.updates = some (tracked, update))
    (htransition : update = transition.update) (htime : transition.time = time)
    (hrest : ∀ value, Stamped (fun stamp => stamp.time = time) (rest value)) :
    Stamped (fun stamp => stamp.time = time) ((await op).bind rest) := by
  have hwrites : op ≠ .now ∧ op.Orderly ∧ op.startTime = update.startedAt ∧
      op.finishTime = update.finishedAt.map (tracked, ·) := by
    cases op with
    | syncRunUpdate id data =>
        cases hop
        exact ⟨by simp, ⟨transition, htransition⟩, rfl, rfl⟩
    | backgroundJobUpdate id data =>
        cases hop
        exact ⟨by simp, ⟨transition, htransition⟩, rfl, rfl⟩
    | _ => cases hop
  obtain ⟨hnow, horderly, hstart, hfinish⟩ := hwrites
  refine ⟨Lookup.actsOn_bind ((uses_await op).mpr ⟨hnow, ?_⟩) fun value =>
    (hrest value).acts, Uses.await horderly fun value => (hrest value).orderly⟩
  subst htransition htime
  rintro (time | ⟨other, time⟩) hacts
  · exact startedAt_update (hstart.symm.trans hacts)
  · obtain ⟨_, hwritten, heq⟩ :=
      Option.map_eq_some_iff.mp (hfinish.symm.trans hacts)
    cases heq
    exact finishedAt_update hwritten

theorem stamped_create {α : Type} {data : NewSyncRun} {time : Time}
    {rest : SyncRun → Body α} (hphase : data.status.phase = .unfinished)
    (hstart : data.startedAt = some time)
    (hrest : ∀ run, Clocked (rest run)) :
    Stamped (fun stamp => stamp.time = time)
      ((await (.syncRunCreate data)).bind rest) := by
  refine ⟨Lookup.actsOn_bind ((uses_await _).mpr ⟨by simp [stamping], ?_⟩)
    fun run => (hrest run).acts.anywhere,
    Uses.await hphase fun run => (hrest run).orderly⟩
  rintro (other | ⟨tracked, other⟩) hacts
  · exact Option.some.inj (hacts.symm.trans hstart)
  · cases hacts

/-! ### The bodies that write times -/

theorem finalRunData_transition {summary : RunProcessingSummary}
    {finishedAt : Time} : ∃ transition : Lifecycle.Transition,
      (SyncRunsService.finalRunData summary finishedAt).lifecycle =
        transition.update ∧ transition.time = finishedAt := by
  by_cases hfailed : summary.recordsFailed > 0
  · refine ⟨.fail "One or more records failed during processing." finishedAt,
      ?_, rfl⟩
    simp [SyncRunsService.finalRunData, SyncRunData.lifecycle, hfailed,
      SyncRunsService.RunProcessingSummary.finalRunStatus, SyncRunStatus.phase,
      Lifecycle.Transition.update]
  · refine ⟨.succeed finishedAt, ?_, rfl⟩
    simp [SyncRunsService.finalRunData, SyncRunData.lifecycle, hfailed,
      SyncRunsService.RunProcessingSummary.finalRunStatus, SyncRunStatus.phase,
      Lifecycle.Transition.update]

theorem pipelineUpdate_clocked {id : Id} {data : PipelineData} :
    Clocked (await (.pipelineUpdate id data)) := clocked_await rfl rfl trivial

theorem processRunRecords_clocked {syncRunId : Id} {pipeline : SyncPipeline}
    {mockRecords : List SyncRunMockRecordPayload} {ignoreCursor : Bool}
    {actor : AuditActor} :
    Clocked (SyncRunsService.processRunRecords env syncRunId pipeline
      mockRecords ignoreCursor actor) :=
  processRunRecords_rule clocked_quiet (fun _ _ _ => pipelineUpdate_clocked)
    fun _ _ => clocked_await rfl rfl trivial

theorem executeSyncRunNow_clocked {pipeline : SyncPipeline}
    {options : CreateRunOptions} :
    Clocked (SyncRunsService.executeSyncRunNow env pipeline options) := by
  have quiet := clocked_quiet
  refine clocked_now fun startedAt => stamped_create rfl rfl fun run => ?_
  refine quiet.bind (log_rule quiet) fun _ => ?_
  refine quiet.bind processRunRecords_clocked fun summary => ?_
  refine clocked_now fun finishedAt => ?_
  obtain ⟨transition, hdata, htime⟩ :=
    @finalRunData_transition summary finishedAt
  refine stamped_update transition rfl hdata htime
    fun completedRun => .anywhere ?_
  refine quiet.bind pipelineUpdate_clocked fun _ => ?_
  exact quiet.bind (log_rule quiet) fun _ =>
    quiet.bind (log_rule quiet) fun _ => quiet.ret _

theorem backgroundJobCreate_clocked {data : NewBackgroundJob}
    (h : data.status = .queued) : Clocked (await (.backgroundJobCreate data)) :=
  clocked_await rfl rfl (congrArg BackgroundJobStatus.phase h)

theorem createRunFromPipeline_clocked {pipeline : SyncPipeline}
    {options : CreateRunOptions} :
    Clocked (SyncRunsService.createRunFromPipeline env pipeline options) := by
  simp only [SyncRunsService.createRunFromPipeline]
  split
  · exact queueSyncRun_rule clocked_quiet
      (fun _ hdata => backgroundJobCreate_clocked hdata)
      (fun _ _ => clocked_await rfl rfl trivial) (clocked_await rfl rfl rfl)
  · exact executeSyncRunNow_clocked

theorem runQueuedRecords_clocked {payload : ExecuteSyncRunJobPayload}
    {attempts : Nat} {backgroundJobId syncRunId : Id} {pipeline : SyncPipeline}
    {startedAt : Time} {actor : AuditActor} :
    Clocked (SyncRunsService.runQueuedRecords env payload attempts
      backgroundJobId syncRunId pipeline startedAt actor) := by
  have quiet := clocked_quiet
  refine quiet.bind processRunRecords_clocked fun summary => ?_
  refine clocked_now fun finishedAt => ?_
  obtain ⟨transition, hdata, htime⟩ :=
    @finalRunData_transition summary finishedAt
  refine stamped_update transition rfl hdata htime fun _ => ?_
  refine stamped_pass (by simp) rfl rfl trivial fun _ => ?_
  refine stamped_update (.succeed finishedAt) rfl rfl rfl fun _ => ?_
  exact .anywhere (quiet.bind (log_rule quiet) fun _ => log_rule quiet)

theorem failQueuedRun_clocked {payload : ExecuteSyncRunJobPayload}
    {attempts : Nat} {backgroundJobId syncRunId : Id} {pipeline : SyncPipeline}
    {startedAt : Time} {actor : AuditActor} {failure : Failure} :
    Clocked (SyncRunsService.failQueuedRun payload attempts backgroundJobId
      syncRunId pipeline startedAt actor failure) := by
  have quiet := clocked_quiet
  refine clocked_now fun finishedAt => ?_
  refine stamped_update (.fail _ finishedAt) rfl rfl rfl fun _ => ?_
  refine stamped_pass (by simp) rfl rfl trivial fun _ => ?_
  refine stamped_update (.fail _ finishedAt) rfl rfl rfl fun _ => ?_
  exact .anywhere (quiet.bind (log_rule quiet) fun _ =>
    quiet.bind (log_rule quiet) fun _ => quiet.throw _)

theorem processQueuedSyncRun_clocked {payload : ExecuteSyncRunJobPayload}
    {attempts : Nat} :
    Clocked (SyncRunsService.processQueuedSyncRun env payload attempts) := by
  have quiet := clocked_quiet
  refine quiet.await rfl fun _ => quiet.bind (orNotFound_rule quiet) fun _ => ?_
  refine quiet.await rfl fun _ => quiet.bind (orNotFound_rule quiet) fun _ => ?_
  refine quiet.bind (getById_rule quiet) fun pipeline => ?_
  refine clocked_now fun startedAt => ?_
  refine stamped_update (.start startedAt) rfl rfl rfl fun _ => ?_
  refine stamped_update (.start startedAt) rfl rfl rfl fun _ => ?_
  refine .anywhere (quiet.bind (log_rule quiet) fun _ =>
    quiet.bind (log_rule quiet) fun _ => ?_)
  exact quiet.tryCatch runQueuedRecords_clocked fun _ => failQueuedRun_clocked

theorem failWebhookRun_clocked {eventId pipelineId syncRunId : Id}
    {externalId message : String} {errorCount : Nat} {actor : AuditActor} :
    Clocked (WebhooksService.failWebhookRun eventId pipelineId syncRunId
      externalId message errorCount actor) := by
  have quiet := clocked_quiet
  refine clocked_now fun finishedAt => ?_
  refine stamped_update (.fail message finishedAt) rfl rfl rfl
    fun _ => .anywhere ?_
  refine quiet.bind (currentTime_rule quiet) fun lastRunAt => ?_
  refine quiet.bind pipelineUpdate_clocked fun _ => ?_
  exact quiet.bind (log_rule quiet) fun _ =>
    quiet.bind (log_rule quiet) fun _ => quiet.ret _

theorem storeWebhookRecord_clocked {eventId pipelineId syncRunId : Id}
    {externalId : String} {payload normalized : Record} {actor : AuditActor} :
    Clocked (WebhooksService.storeWebhookRecord eventId pipelineId syncRunId
      externalId payload normalized actor) := by
  have quiet := clocked_quiet
  refine quiet.bind (clocked_await rfl rfl trivial) fun syncedRecord => ?_
  refine clocked_now fun finishedAt => ?_
  refine stamped_update (.succeed finishedAt) rfl rfl rfl
    fun _ => .anywhere ?_
  refine quiet.bind (currentTime_rule quiet) fun lastRunAt => ?_
  refine quiet.bind pipelineUpdate_clocked fun _ => ?_
  exact quiet.bind (log_rule quiet) fun _ => quiet.bind (log_rule quiet)
    fun _ => quiet.bind (log_rule quiet) fun _ => quiet.ret _

theorem processPipeline_clocked {event : WebhookEvent} {actor : AuditActor}
    {totals : WebhooksService.Totals} {pipeline : SyncPipeline} :
    Clocked (WebhooksService.processPipeline env event actor totals
      pipeline) := by
  have quiet := clocked_quiet
  refine clocked_now fun startedAt => stamped_create rfl rfl fun run => ?_
  refine quiet.bind (log_rule quiet) fun _ => quiet.bind ?_ fun _ => quiet.ret _
  simp only [WebhooksService.processWebhookForPipeline]
  split
  · exact failWebhookRun_clocked
  · refine quiet.await rfl fun transformed => ?_
    split
    · exact failWebhookRun_clocked
    · exact storeWebhookRecord_clocked

theorem processWebhookEventNow_clocked {eventId : Id} {actor : AuditActor} :
    Clocked (WebhooksService.processWebhookEventNow env eventId actor) :=
  processWebhookEventNow_rule clocked_quiet
    (fun _ _ _ _ => processPipeline_clocked)
    fun _ _ _ => clocked_await rfl rfl trivial

theorem processQueuedWebhookEvent_clocked
    {payload : ProcessWebhookEventJobPayload} {attempts : Nat} :
    Clocked (WebhooksService.processQueuedWebhookEvent env payload
      attempts) := by
  have quiet := clocked_quiet
  refine quiet.await rfl fun _ => quiet.bind (orNotFound_rule quiet) fun _ => ?_
  refine quiet.await rfl fun _ => quiet.bind (orNotFound_rule quiet) fun _ => ?_
  refine clocked_now fun startedAt => ?_
  refine stamped_update (.start startedAt) rfl rfl rfl fun _ => ?_
  refine .anywhere (quiet.bind (log_rule quiet) fun _ =>
    quiet.bind (log_rule quiet) fun _ => quiet.tryCatch ?_ fun failure => ?_)
  · refine quiet.bind processWebhookEventNow_clocked fun summary => ?_
    refine clocked_now fun finishedAt => ?_
    exact stamped_update (.succeed finishedAt) rfl rfl rfl
      fun _ => .anywhere (log_rule quiet)
  · refine clocked_now fun finishedAt => ?_
    refine stamped_pass (by simp) rfl rfl trivial fun _ => ?_
    refine stamped_update (.fail _ finishedAt) rfl rfl rfl fun _ => ?_
    exact .anywhere (quiet.bind (log_rule quiet) fun _ =>
      quiet.bind (log_rule quiet) fun _ => quiet.throw _)

theorem body_clocked (call : Call) : Clocked (call.body env) := by
  have quiet := clocked_quiet
  cases hclient : call.isClient with
  | false =>
      cases call with
      | processJob jobId token payload attempts =>
          refine quiet.bind ?_ fun _ => quiet.ret _
          exact deliverJob_rule quiet (fun _ _ => processQueuedSyncRun_clocked)
            (fun _ _ => processQueuedWebhookEvent_clocked)
            (clocked_await rfl rfl trivial) (clocked_await rfl rfl trivial)
      | _ => cases hclient
  | true =>
      refine body_rule call compositional_clocked (fun op hop => ?_)
        (fun _ _ _ _ => createRunFromPipeline_clocked) ?_
        fun _ _ _ => processWebhookEventNow_clocked
      · cases op with
        | syncRunCreate _ | syncRunUpdate _ _ => cases hop
        | backgroundJobCreate data => exact backgroundJobCreate_clocked hop
        | backgroundJobUpdate id data =>
            exact absurd (hclient.symm.trans hop) (by simp)
        | _ => exact clocked_await rfl rfl trivial
      · rintro jobId token run attempts rfl
        cases hclient

end Bodies

end SyncBridge
