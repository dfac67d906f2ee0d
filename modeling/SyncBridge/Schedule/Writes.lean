import SyncBridge.Foundation.Monitor
import SyncBridge.Services.Footprint

/-!
# Writes of schedules

The schedule of a pipeline is written whole, by an edit that computes it from
one reading of the row.  The polling cycle writes the next run alone, computed
from the row it found due.  Every other write of a pipeline leaves the schedule
as it is.
-/

namespace SyncBridge

open SyncBridge.Foundation SyncBridge.Foundation.Prog

variable {env : Env}

def SyncPipeline.Schedulable (row : SyncPipeline) : Prop :=
  row.scheduleEnabled = true ∧ row.status = .active

instance (row : SyncPipeline) : Decidable row.Schedulable :=
  inferInstanceAs (Decidable (_ ∧ _))

structure PipelineData.LeavesSchedule (data : PipelineData) : Prop where
  scheduleEnabled : data.scheduleEnabled = none
  scheduleCron : data.scheduleCron = none
  scheduleTimezone : data.scheduleTimezone = none
  nextRunAt : data.nextRunAt = none

inductive PipelineData.Planned (env : Env) (row : SyncPipeline) :
    Call → PipelineData → Prop
  | edit {pipelineId : Id} {dto : UpdatePipelineScheduleDto}
      {user : AuthenticatedUser} {baseTime : Time} {nextRunAt : Option Time}
      (hcheck : SchedulerService.checkSchedule env
        (SchedulerService.effectiveSchedule dto row) row.status = .ok ())
      (hnext : SchedulerService.scheduledNextRunAt env
        (SchedulerService.effectiveSchedule dto row) row.status baseTime =
          .ok nextRunAt) :
      Planned env row (.updatePipelineSchedule pipelineId dto user)
        (SchedulerService.scheduleData
          (SchedulerService.effectiveSchedule dto row) row nextRunAt)
  | poll {worker : Id} {now : Time} {nextRunAt : Option Time}
      (hschedulable : row.Schedulable)
      (hvalid : SchedulerService.validSchedule env row = true)
      (hnext : env.cron.computeNextRunAt (SchedulerService.cronOf row)
        (SchedulerService.timezoneOf row) now = .ok nextRunAt) :
      Planned env row (.runPollingCycle worker)
        { nextRunAt := some nextRunAt }

/-! ## What a call knows of pipelines -/

def Call.polls : Call → Bool
  | .runPollingCycle _ => true
  | _ => false

/-- The rows a call has read since it wrote one; a polling cycle works on the
rows it found due alone. -/
def noteRows (call : Call) (known : List SyncPipeline) : (op : Op) → op.Res →
    List SyncPipeline
  | .pipelineFindUnique _, some row =>
      if call.polls then known else row :: known
  | .pipelineFindDue _, due => due ++ known
  | .pipelineCreate _, _ => []
  | .pipelineUpdate _ data, _ =>
      if data.status = none ∧ data.scheduleEnabled = none then known else []
  | _, _ => known

def planning (env : Env) : Monitor Op.Res Call (List SyncPipeline) where
  init _ := []
  note := noteRows
  guard call known
    | .pipelineUpdate id data => data.LeavesSchedule ∨
        ∃ row ∈ known, row.id = id ∧ data.Planned env row call
    | _ => True
  facts _ _
    | .pipelineFindDue _, due => ∀ row ∈ due, row.Schedulable
    | _, _ => True

theorem planning_facts {op : Op} {store store' : Store} {value : op.Res}
    (h : exec env op store = .ok (value, store')) (call : Call)
    (known : List SyncPipeline) : (planning env).facts call known op value := by
  cases op with
  | pipelineFindDue now =>
      intro row hrow
      exact (of_isDue (exec_pipelineFindDue h hrow).2).symm
  | _ => trivial

variable {call : Call} {rows : List SyncPipeline}

theorem planning_guard {known : List SyncPipeline} {op : Op}
    (h : ∀ id data, op = .pipelineUpdate id data → data.LeavesSchedule) :
    (planning env).guard call known op := by
  cases op with
  | pipelineUpdate id data => exact .inl (h id data rfl)
  | _ => trivial

theorem leavesSchedule_of_ofRun {data : PipelineData}
    (h : PipelineData.OfRun data) : data.LeavesSchedule := by
  rcases h with ⟨time, rfl⟩ | ⟨cursorValue, rfl⟩
  · exact ⟨rfl, rfl, rfl, rfl⟩
  · exact ⟨rfl, rfl, rfl, rfl⟩

theorem noteRows_update {known : List SyncPipeline} {id : Id}
    {data : PipelineData} {updated : SyncPipeline} (hstatus : data.status = none)
    (henabled : data.scheduleEnabled = none) :
    noteRows call known (.pipelineUpdate id data) updated = known :=
  if_pos ⟨hstatus, henabled⟩

theorem subset_noteRows {known : List SyncPipeline} {op : Op}
    (hop : op.writesPipelines = false) (value : op.Res) :
    known ⊆ noteRows call known op value := by
  cases op with
  | pipelineFindUnique id =>
      cases value with
      | none => exact fun _ hrow => hrow
      | some row =>
          simp only [noteRows]
          split
          · exact fun _ hrow => hrow
          · exact List.subset_cons_self row known
  | pipelineFindDue now => exact List.subset_append_right value known
  | pipelineCreate _ | pipelineUpdate _ _ => cases hop
  | _ => exact fun _ hrow => hrow

theorem known_of_noteRows {known : List SyncPipeline} {op : Op}
    {store store' : Store} {value : op.Res}
    (hexec : exec env op store = .ok (value, store')) {row : SyncPipeline}
    (hrow : row ∈ noteRows call known op value) :
    row ∈ known ∨ row ∈ store.pipelines := by
  cases op with
  | pipelineFindUnique id =>
      obtain rfl := exec_pipelineFindUnique hexec
      cases hfound : Table.find SyncPipeline.id id store.pipelines with
      | none =>
          rw [hfound] at hrow
          exact .inl hrow
      | some found =>
          rw [hfound] at hrow
          simp only [noteRows] at hrow
          split at hrow
          · exact .inl hrow
          · rcases List.mem_cons.mp hrow with rfl | hbefore
            · exact .inr (Table.find_mem hfound)
            · exact .inl hbefore
  | pipelineFindDue now =>
      rcases List.mem_append.mp hrow with hread | hbefore
      · exact .inr (exec_pipelineFindDue hexec hread).1
      · exact .inl hbefore
  | pipelineCreate data => cases hrow
  | pipelineUpdate id data =>
      simp only [noteRows] at hrow
      split at hrow
      · exact .inl hrow
      · cases hrow
  | _ => exact .inl hrow

abbrev Plans (env : Env) (call : Call) (rows : List SyncPipeline) {α : Type}
    (body : Body α) : Prop :=
  (planning env).Keeps call (rows ⊆ ·) body

def KeepsRows (env : Env) (call : Call) (rows : List SyncPipeline) (op : Op) :
    Prop :=
  ∀ known, rows ⊆ known → (planning env).guard call known op ∧
    ∀ value, rows ⊆ noteRows call known op value

theorem keepsRows {op : Op} (h : op.writesPipelines = false) :
    KeepsRows env call rows op := by
  intro known hknown
  refine ⟨planning_guard ?_, fun value => ?_⟩
  · rintro id data rfl
    cases h
  · exact fun row hrow => subset_noteRows h value (hknown hrow)

theorem keepsRows_ofRun {id : Id} {data : PipelineData}
    (h : PipelineData.OfRun data) :
    KeepsRows env call rows (.pipelineUpdate id data) := by
  intro known hknown
  refine ⟨.inl (leavesSchedule_of_ofRun h), fun updated => ?_⟩
  have hkept : data.status = none ∧ data.scheduleEnabled = none := by
    rcases h with ⟨time, rfl⟩ | ⟨cursorValue, rfl⟩ <;> exact ⟨rfl, rfl⟩
  rw [noteRows_update hkept.1 hkept.2]
  exact hknown

theorem keepsRows_quiet : AllowsQuiet (KeepsRows env call rows) := by
  refine allowsQuiet fun op hop => keepsRows ?_
  cases op with
  | pipelineCreate _ | pipelineUpdate _ _ => cases hop
  | _ => rfl

theorem plans_of_uses {α : Type} {body : Body α}
    (h : body.Uses (KeepsRows env call rows)) : Plans env call rows body :=
  .of_uses (h.mono fun _ hop known hknown => hop known hknown)

theorem plans_of_leaves {α : Type} {body : Body α}
    (h : body.Uses fun op => ∀ id data, op = .pipelineUpdate id data →
      data.LeavesSchedule) : Plans env call [] body :=
  .of_uses (h.mono fun _ hop _ _ =>
    ⟨planning_guard hop, fun _ => List.nil_subset _⟩)

/-! ## The schedule of a pipeline -/

theorem checkSchedule_eq_ok {schedule : SchedulerService.EffectiveSchedule}
    {status : PipelineStatus}
    (h : SchedulerService.checkSchedule env schedule status = .ok ())
    (henabled : schedule.enabled = true) :
    schedule.cron.isEmpty = false ∧
      env.cron.validateCronExpression schedule.cron = [] ∧
      env.cron.validateTimezone schedule.timezone = true := by
  simp only [SchedulerService.checkSchedule, henabled, and_true, true_and,
    if_true] at h
  split at h
  · cases h
  · split at h
    · cases h
    · rename_i hcron
      split at h
      · rename_i hvalid
        split at h
        · rename_i htimezone
          exact ⟨by simpa using hcron, hvalid, htimezone⟩
        · cases h
      · cases h

theorem updatePipelineSchedule_plans {pipelineId : Id}
    {dto : UpdatePipelineScheduleDto} {user : AuthenticatedUser}
    (hcall : call = .updatePipelineSchedule pipelineId dto user) :
    Plans env call []
      (SchedulerService.updatePipelineSchedule env pipelineId dto user) := by
  subst hcall
  simp only [SchedulerService.updatePipelineSchedule, PipelinesService.findOne,
    PipelinesService.getById, bind_eq, bind_assoc, pure_eq, ret_bind]
  refine ⟨fun known _ => Monitor.accepts_await_bind.mpr
    ⟨trivial, fun found _ => ?_, fun _ _ => List.nil_subset _⟩⟩
  cases found with
  | none => exact List.nil_subset _
  | some row =>
      refine Monitor.accepts_ofExcept_bind (fun _ _ => ?_)
        fun _ => List.nil_subset _
      refine Monitor.accepts_ofExcept_bind (fun _ hcheck => ?_)
        fun _ => List.nil_subset _
      refine Monitor.accepts_await_bind.mpr
        ⟨trivial, fun baseTime _ => ?_, fun _ _ => List.nil_subset _⟩
      refine Monitor.accepts_ofExcept_bind (fun nextRunAt hnext => ?_)
        fun _ => List.nil_subset _
      refine Monitor.accepts_await_bind.mpr
        ⟨.inr ⟨row, List.mem_cons_self, rfl, .edit hcheck hnext⟩,
          fun updated _ => ?_, fun _ _ => List.nil_subset _⟩
      refine (plans_of_uses ?_).accepts _ (List.nil_subset _)
      refine Uses.bind (log_rule keepsRows_quiet) fun _ => ?_
      split
      · exact Uses.bind (log_rule keepsRows_quiet) fun _ => trivial
      · trivial

/-! ## Polling -/

theorem createScheduledForPipeline_plans {pipelineId : Id}
    {actor : AuditActor} :
    Plans env call rows
      (SyncRunsService.createScheduledForPipeline env pipelineId actor) := by
  have hop : ∀ {op : Op}, op.writesPipelines = false →
      (await op).Uses (KeepsRows env call rows) :=
    fun h => (uses_await _).mpr (keepsRows h)
  refine plans_of_uses (createScheduledForPipeline_rule keepsRows_quiet
    fun pipeline options _ => ?_)
  exact createRunFromPipeline_rule keepsRows_quiet
    (fun _ _ hdata => (uses_await _).mpr (keepsRows_ofRun hdata))
    (fun _ _ => hop rfl) (fun _ _ => hop rfl) (fun _ _ => hop rfl)
    (fun _ _ => hop rfl) fun _ _ _ => hop rfl

theorem pollPipeline_plans {worker : Id} {now : Time} {summary : PollSummary}
    {pipeline : SyncPipeline} (hcall : call = .runPollingCycle worker)
    (hmem : pipeline ∈ rows) (hschedulable : pipeline.Schedulable) :
    Plans env call rows
      (SchedulerService.pollPipeline env now summary pipeline) := by
  simp only [SchedulerService.pollPipeline]
  split
  · exact plans_of_uses (Uses.bind (log_rule keepsRows_quiet) fun _ => trivial)
  · rename_i hvalid
    have hactive : Plans env call rows
        (SyncRunsService.hasActiveRun pipeline.id) :=
      plans_of_uses (hasActiveRun_rule keepsRows_quiet
        ((uses_await _).mpr (keepsRows rfl)))
    refine hactive.bind fun hasActiveRun => ?_
    split
    · exact plans_of_uses
        (Uses.bind (log_rule keepsRows_quiet) fun _ => trivial)
    · refine Monitor.Keeps.bind ?_ fun _ => .ret _
      refine createScheduledForPipeline_plans.bind fun run => ?_
      refine ⟨fun known hknown => Monitor.accepts_ofExcept_bind
        (fun nextRunAt hnext => ?_) fun _ => hknown⟩
      have hplanned : PipelineData.Planned env pipeline call
          { nextRunAt := some nextRunAt } := by
        subst hcall
        exact .poll hschedulable (by simpa using hvalid) hnext
      refine Monitor.accepts_await_bind.mpr
        ⟨.inr ⟨pipeline, hknown hmem, rfl, hplanned⟩, fun updated _ => ?_,
          fun _ _ => hknown⟩
      refine (plans_of_uses (log_rule keepsRows_quiet)).accepts _ ?_
      show rows ⊆ noteRows call known _ updated
      rw [noteRows_update rfl rfl]
      exact hknown

theorem enqueueDuePipelines_plans {worker : Id}
    (hcall : call = .runPollingCycle worker) :
    Plans env call [] (SchedulerService.enqueueDuePipelines env) := by
  refine Monitor.Keeps.bind (plans_of_uses (currentTime_rule keepsRows_quiet))
    fun now => ?_
  refine ⟨fun known _ => Monitor.accepts_await_bind.mpr
    ⟨trivial, fun due hdue => ?_, fun _ _ => List.nil_subset _⟩⟩
  have hloop : Plans env call due
      (due.foldlM (SchedulerService.pollPipeline env now)
        ⟨due.length, 0, 0⟩) :=
    .foldlM (fun summary pipeline hmem =>
      pollPipeline_plans hcall hmem (hdue pipeline hmem)) _
  exact (hloop.accepts (due ++ known) (List.subset_append_left _ _)).mono
    fun _ _ _ => List.nil_subset _

theorem runPollingCycle_plans {worker : Id}
    (hcall : call = .runPollingCycle worker) :
    Plans env call [] (SchedulerService.runPollingCycle env worker) := by
  simp only [SchedulerService.runPollingCycle]
  have hlog : ∀ {action entityType entityId metadata actor},
      Plans env call [] (AuditService.log action entityType entityId metadata
        actor) := plans_of_uses (log_rule keepsRows_quiet)
  have hnow : Plans env call [] currentTime :=
    plans_of_uses (currentTime_rule keepsRows_quiet)
  split
  · exact .ret _
  · refine .await (fun _ _ => ⟨trivial, fun _ _ => List.nil_subset _⟩)
      fun _ entered _ _ => ?_
    split
    · exact .ret _
    · refine hnow.bind fun startedAt => ?_
      refine Monitor.Keeps.bind (.attempt (.tryCatch ?_ fun failure => ?_))
        fun outcome => ?_
      · refine hlog.bind fun _ => ?_
        refine (enqueueDuePipelines_plans hcall).bind fun summary => ?_
        exact hnow.bind fun _ => hlog
      · exact hnow.bind fun _ => hlog
      · exact .await (fun _ _ => ⟨trivial, fun _ _ => List.nil_subset _⟩)
          fun _ _ _ _ => .ofExcept outcome

/-! ## Calls -/

theorem body_plans (call : Call) : Plans env call [] (call.body env) := by
  have hother : (∀ id data, call.edits id data → data.LeavesSchedule) →
      Plans env call [] (call.body env) := by
    intro hedits
    refine plans_of_leaves ((body_uses call).mono ?_)
    rintro op hop id data rfl
    rcases hop with hrun | hedit
    · exact leavesSchedule_of_ofRun hrun
    · exact hedits id data hedit
  cases call with
  | updatePipelineSchedule pipelineId dto user =>
      exact (updatePipelineSchedule_plans rfl).bind fun _ => .ret _
  | runPollingCycle worker =>
      exact (runPollingCycle_plans rfl).bind fun _ => .ret _
  | updatePipeline id dto user =>
      refine hother ?_
      rintro _ _ ⟨-, rfl⟩
      exact ⟨rfl, rfl, rfl, rfl⟩
  | updateStatus id status user =>
      refine hother ?_
      rintro _ _ ⟨-, rfl⟩
      exact ⟨rfl, rfl, rfl, rfl⟩
  | _ => exact hother fun _ _ hedit => hedit.elim

variable {ok : Platform → Step → Prop} {init : Store} {pool : Platform}

theorem planned_of_reach (h : (platform env).Reach ok init.boot pool) :
    ∀ task ∈ pool.tasks, (planning env).Accepts task.call (fun _ _ => True)
      task.prog ((planning env).state task) := by
  refine Monitor.accepts_of_reach (Q := fun _ _ _ => True)
    (fun call known _ _ _ _ hexec => planning_facts hexec call known)
    (fun _ _ _ _ => trivial) (fun call => ?_) rfl h
  exact ((body_plans call).accepts [] (List.nil_subset _)).mono
    fun _ _ _ => trivial

end SyncBridge
