import SyncBridge.Foundation.Windows
import SyncBridge.Services.Footprint

/-!
# The check for active runs

Before a scheduled run is stored, the active runs of its pipeline are counted.
The count and the insertion are separate operations, in the manual trigger and
in the polling cycle alike.
-/

namespace SyncBridge

open SyncBridge.Foundation SyncBridge.Foundation.Prog

/-! ## The count and the insertion -/

def Op.findsIdle : (op : Op) → op.Res → Option Id
  | .syncRunCountActive pipelineId, count =>
      if count = 0 then some pipelineId else none
  | _, _ => none

def Op.startsScheduled : Op → Option Id
  | .syncRunCreate data =>
      if data.triggerType = .scheduled then some data.pipelineId else none
  | _ => none

def idleCheck : CheckThenAct Op.Res Call Id where
  finds _ := Op.findsIdle
  acts _ := Op.startsScheduled
  facts
    | .pipelineFindUnique id, found => ∀ row, found = some row → row.id = id
    | _, _ => True

theorem idleCheck_facts {env : Env} {op : Op} {store store' : Store}
    {value : op.Res} (h : exec env op store = .ok (value, store')) :
    idleCheck.facts op value := by
  cases op with
  | pipelineFindUnique id =>
      obtain rfl := exec_pipelineFindUnique h
      exact fun row hrow => Table.find_key hrow
  | _ => trivial

/-! ## Every call counts before it inserts -/

section Accepted

variable {env : Env} {call : Call} {ledger : Ledger Id}

structure Checked {α : Type} (call : Call) (body : Body α)
    (ledger : Ledger Id) : Prop where
  accepts : idleCheck.monitor.Accepts call (fun _ _ => True) body ledger

theorem checked_ret {α : Type} (value : α) :
    Checked call (.ret value) ledger := ⟨trivial⟩

theorem silent_of_not_scheduling {op : Op}
    (hfinds : ∀ value, op.findsIdle value = none)
    (hstarts : op.startsScheduled = none) :
    idleCheck.monitor.Silent call ledger op :=
  CheckThenAct.silent hfinds hstarts

theorem silent_quiet : AllowsQuiet (idleCheck.monitor.Silent call ledger) := by
  refine allowsQuiet fun op hop => ?_
  cases op with
  | syncRunCountActive _ | syncRunCreate _ => cases hop
  | _ => exact silent_of_not_scheduling (fun _ => rfl) rfl

theorem checked_of_uses {α : Type} {body : Body α}
    (h : body.Uses (idleCheck.monitor.Silent call ledger)) :
    Checked call body ledger :=
  ⟨(Monitor.accepts_of_silent h).mono fun _ _ _ => trivial⟩

theorem checked_bind {α β : Type} {body : Body α} {rest : α → Body β}
    (h : body.Uses (idleCheck.monitor.Silent call ledger))
    (hrest : ∀ value, Checked call (rest value) ledger) :
    Checked call (body.bind rest) ledger :=
  ⟨Monitor.accepts_silent_bind h (fun value => (hrest value).accepts)
    fun _ => trivial⟩

theorem checked_await {α : Type} {op : Op} {rest : op.Res → Body α}
    (hfinds : ∀ value, op.findsIdle value = none)
    (hstarts : op.startsScheduled = none)
    (hrest : ∀ value, Checked call (rest value) ledger) :
    Checked call ((Prog.await op).bind rest) ledger :=
  checked_bind ((uses_await op).mpr
    (silent_of_not_scheduling hfinds hstarts)) hrest

theorem checked_seq {α β : Type} {body : Body α} {rest : α → Body β}
    (h : Checked call body ledger)
    (hrest : ∀ value ledger', Checked call (rest value) ledger') :
    Checked call (body.bind rest) ledger := by
  refine ⟨Monitor.accepts_bind.mpr (h.accepts.mono ?_)⟩
  rintro ledger' (error | value) _
  · trivial
  · exact (hrest value ledger').accepts

theorem checked_tryCatch {α : Type} {body : Body α}
    {handler : Failure → Body α} (h : Checked call body ledger)
    (hhandler : ∀ error ledger', Checked call (handler error) ledger') :
    Checked call (body.tryCatch handler) ledger := by
  refine ⟨Monitor.accepts_tryCatch.mpr (h.accepts.mono ?_)⟩
  rintro ledger' (error | value) _
  · exact (hhandler error ledger').accepts
  · trivial

theorem checked_attempt {α : Type} {body : Body α}
    (h : Checked call body ledger) : Checked call (Prog.attempt body) ledger :=
  checked_tryCatch (checked_seq h fun _ _ => checked_ret _)
    fun _ _ => checked_ret _

theorem queueSyncRun_checked {pipeline : SyncPipeline}
    {options : CreateRunOptions}
    (hfree : options.triggerType = .scheduled → pipeline.id ∈ ledger.free) :
    Checked call (SyncRunsService.queueSyncRun env pipeline options)
      ledger := by
  have hguard : ∀ key, Op.startsScheduled (.syncRunCreate {
      pipelineId := pipeline.id
      status := .queued
      triggerType := options.triggerType }) = some key → key ∈ ledger.free := by
    intro key hkey
    simp only [Op.startsScheduled] at hkey
    split at hkey
    · rename_i hscheduled
      obtain rfl := Option.some.inj hkey
      exact hfree hscheduled
    · cases hkey
  refine ⟨Monitor.accepts_await_bind.mpr ⟨hguard, fun syncRun _ => ?_,
    fun _ _ => trivial⟩⟩
  refine Checked.accepts (checked_of_uses
    (Uses.await (silent_of_not_scheduling (fun _ => rfl) rfl)
      fun backgroundJob => ?_))
  refine Uses.bind (enqueueJob_rule silent_quiet ?_) fun _ => ?_
  · exact (uses_await _).mpr (silent_of_not_scheduling (fun _ => rfl) rfl)
  · exact Uses.bind (log_rule silent_quiet) fun _ =>
      Uses.bind (log_rule silent_quiet) fun _ => trivial

variable (hasync : env.queueMode = .async)

include hasync

theorem createScheduledForPipeline_checked {pipelineId : Id}
    {actor : AuditActor} (hfree : pipelineId ∈ ledger.free) :
    Checked call
      (SyncRunsService.createScheduledForPipeline env pipelineId actor)
      ledger := by
  simp only [SyncRunsService.createScheduledForPipeline,
    SyncRunsService.createRunFromPipeline, hasync, if_true, bind_eq]
  simp only [PipelinesService.getById, bind_eq, bind_assoc]
  refine ⟨Monitor.accepts_await_bind.mpr ⟨fun _ hopens => (by cases hopens),
    ?_, fun _ _ => trivial⟩⟩
  intro found hfound
  cases found with
  | none => trivial
  | some row =>
      have hrow : row.id = pipelineId := hfound row rfl
      exact (queueSyncRun_checked fun _ => hrow ▸ hfree).accepts

omit hasync in
theorem hasActiveRun_checked {α : Type} {pipelineId : Id}
    {rest : Bool → Body α}
    (hactive : ∀ ledger', Checked call (rest true) ledger')
    (hidle : ∀ ledger', pipelineId ∈ ledger'.free →
      Checked call (rest false) ledger') :
    Checked call ((SyncRunsService.hasActiveRun pipelineId).bind rest)
      ledger := by
  simp only [SyncRunsService.hasActiveRun, bind_eq, bind_assoc, pure_eq,
    ret_bind]
  refine ⟨Monitor.accepts_await_bind.mpr ⟨nofun, ?_, fun _ _ => trivial⟩⟩
  intro count _
  cases count with
  | zero => exact (hidle _ List.mem_cons_self).accepts
  | succ count => exact (hactive _).accepts

theorem triggerPipelineSchedule_checked {pipelineId : Id}
    {user : AuthenticatedUser} :
    Checked call
      (SchedulerService.triggerPipelineSchedule env pipelineId user) ledger := by
  refine checked_bind (findOne_rule silent_quiet) fun pipeline => ?_
  refine checked_bind (uses_ofExcept _) fun _ => ?_
  refine hasActiveRun_checked ?_ ?_
  · exact fun _ => checked_of_uses
      (Uses.bind (log_rule silent_quiet) fun _ => trivial)
  · intro ledger' hfree
    refine checked_seq (createScheduledForPipeline_checked hasync hfree) ?_
    exact fun run _ => checked_of_uses
      (Uses.bind (log_rule silent_quiet) fun _ => trivial)

theorem pollPipeline_checked {now : Time} {summary : PollSummary}
    {pipeline : SyncPipeline} :
    Checked call (SchedulerService.pollPipeline env now summary pipeline)
      ledger := by
  simp only [SchedulerService.pollPipeline]
  split
  · exact checked_of_uses
      (Uses.bind (log_rule silent_quiet) fun _ => trivial)
  · refine hasActiveRun_checked ?_ ?_
    · exact fun _ => checked_of_uses
        (Uses.bind (log_rule silent_quiet) fun _ => trivial)
    · intro ledger' hfree
      refine checked_seq ?_ fun _ _ => checked_ret _
      refine checked_seq (createScheduledForPipeline_checked hasync hfree) ?_
      intro run ledger''
      refine checked_bind (uses_ofExcept _) fun nextRunAt => ?_
      refine checked_of_uses (Uses.await ?_ fun _ => log_rule silent_quiet)
      exact silent_of_not_scheduling (fun _ => rfl) rfl

theorem enqueueDuePipelines_checked :
    Checked call (SchedulerService.enqueueDuePipelines env) ledger := by
  have hloop : ∀ now (pipelines : List SyncPipeline) summary ledger',
      Checked call (pipelines.foldlM (SchedulerService.pollPipeline env now)
        summary) ledger' := by
    intro now pipelines
    induction pipelines with
    | nil => exact fun _ _ => checked_ret _
    | cons pipeline pipelines ih =>
        intro summary ledger'
        rw [List.foldlM_cons, bind_eq]
        exact checked_seq (pollPipeline_checked hasync) ih
  refine checked_bind (currentTime_rule silent_quiet) fun now => ?_
  refine checked_await (fun _ => rfl) rfl fun duePipelines => ?_
  exact hloop now duePipelines _ _

theorem pollTick_checked {startedAt : Time} :
    Checked call (SchedulerService.pollTick env startedAt) ledger := by
  refine checked_bind (log_rule silent_quiet) fun _ => ?_
  refine checked_seq (enqueueDuePipelines_checked hasync) ?_
  exact fun summary ledger' => checked_of_uses
    (Uses.bind (currentTime_rule silent_quiet) fun _ => log_rule silent_quiet)

theorem runPollingCycle_checked {worker : Id} :
    Checked call (SchedulerService.runPollingCycle env worker) ledger := by
  simp only [SchedulerService.runPollingCycle]
  split
  · exact checked_ret _
  · refine checked_await (fun _ => rfl) rfl fun entered => ?_
    split
    · exact checked_ret _
    · refine checked_bind (currentTime_rule silent_quiet) fun startedAt => ?_
      refine checked_seq (checked_attempt ?_) fun outcome ledger' =>
        checked_await (fun _ => rfl) rfl fun _ =>
          checked_of_uses (uses_ofExcept outcome)
      refine checked_tryCatch (pollTick_checked hasync) ?_
      exact fun failure ledger' => checked_of_uses
        (Uses.bind (currentTime_rule silent_quiet) fun _ =>
          log_rule silent_quiet)

/-- Whoever stores a scheduled run has found its pipeline idle. -/
theorem body_checked (call : Call) : Checked call (call.body env) ⟨[], []⟩ := by
  cases hstarts : call.startsScheduled with
  | false =>
      refine checked_of_uses ((body_uses call).mono fun op hop => ?_)
      cases op with
      | syncRunCountActive _ =>
          rw [Call.mayAttempt, hstarts] at hop
          cases hop
      | syncRunCreate data =>
          refine silent_of_not_scheduling (fun _ => rfl) (if_neg ?_)
          intro hscheduled
          have := hop.1 hscheduled
          rw [hstarts] at this
          cases this
      | _ => exact silent_of_not_scheduling (fun _ => rfl) rfl
  | true =>
      cases call with
      | triggerPipelineSchedule pipelineId user =>
          exact checked_seq (triggerPipelineSchedule_checked hasync)
            fun _ _ => checked_ret _
      | runPollingCycle worker =>
          exact checked_seq (runPollingCycle_checked hasync)
            fun _ _ => checked_ret _
      | _ => cases hstarts

end Accepted

end SyncBridge
