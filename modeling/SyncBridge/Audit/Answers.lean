import SyncBridge.Audit.Trail
import SyncBridge.Deliveries
import SyncBridge.Foundation.Holdings
import SyncBridge.Integrity.References

/-!
# The audit log is complete

The log holds what the calls have entered, each entry once and nothing else.  A
call that has answered has entered what its answer stands for, and a completed
job has been delivered to a call that has entered what the job stands for.
-/

namespace SyncBridge

open SyncBridge.Foundation SyncBridge.Foundation.Prog

/-! ## Entries -/

def AuditLog.data (row : AuditLog) : NewAuditLog where
  action := row.action
  entityType := row.entityType
  entityId := row.entityId
  metadataJson := row.metadataJson
  actorId := row.actorId

def Op.entries : (Σ op : Op, op.Res) → List NewAuditLog
  | ⟨.auditLogCreate data, _⟩ => [data]
  | _ => []

def entriesOf (task : Task Op.Res Failure Answer Call) : List NewAuditLog :=
  task.rowsMade Op.entries

def Entered (task : Task Op.Res Failure Answer Call) (mention : Mention) : Prop :=
  ∃ entry ∈ entriesOf task, entry.Makes mention

theorem entered_of_shows {task : Task Op.Res Failure Answer Call}
    {mention : Mention} {entry : Σ op : Op, op.Res} (hentry : entry ∈ task.trace)
    (hshows : mention ∈ trail.shows task.call entry.1 entry.2) :
    Entered task mention := by
  obtain ⟨op, value⟩ := entry
  cases op with
  | auditLogCreate data =>
      refine ⟨data, List.mem_flatMap.mpr ⟨_, List.mem_reverse.mpr hentry, ?_⟩,
        hshows⟩
      exact List.mem_singleton_self _
  | _ => exact hshows.elim

theorem entries_of_effect {op : Op} {value : op.Res} {store : Store} :
    (op.effect store).auditLogs.map AuditLog.data =
      store.auditLogs.map AuditLog.data ++ Op.entries ⟨op, value⟩ := by
  cases op with
  | auditLogCreate data =>
      simp [Op.effect, Store.createAuditLog, Op.entries, AuditLog.data]
  | pollEnter worker ttl =>
      simp only [Op.effect, Op.entries, List.append_nil]
      split <;> rfl
  | _ => exact (List.append_nil _).symm

theorem repeats_of_exec {env : Env} {op : Op} {store store' : Store}
    {value : op.Res} (h : exec env op store = .ok (value, store')) :
    op.repeats value := by
  have hanswers := answers_of_exec h
  cases op with
  | syncRunUpdate id data =>
      simp only [exec] at h
      split at h
      · cases h
      · rename_i row hfind
        cases h
        have hid : row.id = id := Table.find_key hfind
        exact ⟨hid, rfl⟩
  | _ => exact hanswers

/-! ## Updates that ask for a status -/

inductive StatusRequest where
  | connector (id : Id) (status : ConnectorStatus) (user : AuthenticatedUser)
  | pipeline (id : Id) (status : PipelineStatus) (user : AuthenticatedUser)

def Call.asks : Call → Option StatusRequest
  | .updateConnector id dto user =>
      dto.status.map fun status => .connector id status user
  | .updatePipeline id dto user =>
      dto.status.map fun status => .pipeline id status user
  | _ => none

namespace StatusRequest

def mention : StatusRequest → Mention
  | .connector id _ user =>
      .act (some user) "connector_status_updated" "connector" id
  | .pipeline id _ user =>
      .act (some user) "pipeline_status_updated" "pipeline" id

def FoundSo : StatusRequest → (op : Op) → op.Res → Prop
  | .connector id status _, .connectorFindUnique _, some row =>
      row.id = id ∧ row.status = status
  | .pipeline id status _, .pipelineFindUnique _, some row =>
      row.id = id ∧ row.status = status
  | _, _, _ => False

/-- Either the change is entered or there is none. -/
def Settles (request : StatusRequest) (op : Op) (value : op.Res) : Prop :=
  (∃ data, op = .auditLogCreate data ∧ data.Makes request.mention) ∨
    request.FoundSo op value

end StatusRequest

def statusTrail : Knowledge Op.Res Call StatusRequest where
  given _ := ∅
  shows _ op value := {request | request.Settles op value}
  needs _ _ _ := True
  facts := Op.answers
  needs_mono _ _ := trivial

section Updates

variable {env : Env} {call : Call} {known : Set StatusRequest} {α : Type}
  {learned : α → Set StatusRequest} {id : Id} {user : AuthenticatedUser}

theorem settles_nothing (body : Body α) : statusTrail.Safe call known body :=
  Knowledge.safe_of_uses (uses_of_forall (fun _ => trivial) body)

theorem settles_log {request : StatusRequest} {value : α} {action : String}
    {entityType entityId : String} {metadata : Record} {actor : AuditActor}
    (hmakes : NewAuditLog.Makes ⟨action, entityType, entityId, .obj metadata,
      actor.map AuthenticatedUser.sub⟩ request.mention) :
    statusTrail.Informed call known (fun _ => {request})
      ((AuditService.log action entityType entityId metadata actor).bind
        fun _ => .ret value) :=
  Knowledge.informed_await_bind (K := statusTrail) trivial fun _ _ =>
    Knowledge.informed_ret
      (Set.singleton_subset_iff.mpr (.inr (.inl ⟨_, rfl, hmakes⟩)))

theorem connector_findOne_settles {rest : Connector → Body α}
    (hrest : ∀ row : Connector, row.id = id →
      statusTrail.Informed call
        (known ∪ {request | request.FoundSo (.connectorFindUnique id) (some row)})
        learned (rest row)) :
    statusTrail.Informed call known learned
      ((ConnectorsService.findOne id user).bind rest) := by
  simp only [ConnectorsService.findOne, bind_eq, bind_assoc, pure_eq, ret_bind]
  refine informed_connector_getById (K := statusTrail) (fun _ _ h => h) trivial
    fun row hid => Knowledge.informed_ofExcept_bind fun _ _ => ?_
  exact (hrest row hid).mono
    (Set.union_subset_union_right _ fun _ hfound => .inr hfound)

theorem pipeline_findOne_settles {rest : SyncPipeline → Body α}
    (hrest : ∀ row : SyncPipeline, row.id = id →
      statusTrail.Informed call
        (known ∪ {request | request.FoundSo (.pipelineFindUnique id) (some row)})
        learned (rest row)) :
    statusTrail.Informed call known learned
      ((PipelinesService.findOne id user).bind rest) := by
  simp only [PipelinesService.findOne, bind_eq, bind_assoc, pure_eq, ret_bind]
  refine informed_getById (K := statusTrail) (fun _ _ h => h) trivial
    fun row hid => Knowledge.informed_ofExcept_bind fun _ _ => ?_
  exact (hrest row hid).mono
    (Set.union_subset_union_right _ fun _ hfound => .inr hfound)

theorem updateConnector_settles {dto : UpdateConnectorDto}
    {status : ConnectorStatus} (hstatus : dto.status = some status) :
    statusTrail.Informed call known
      (fun _ => {.connector id status user})
      (ConnectorsService.update id dto user) := by
  simp only [ConnectorsService.update, bind_eq, hstatus]
  refine connector_findOne_settles fun row hid => ?_
  refine Knowledge.informed_ofExcept_bind fun _ _ => ?_
  refine Knowledge.Informed.seq (settles_nothing _) fun updated => ?_
  split
  · rw [hid]
    exact settles_log makes_act
  · rename_i hsame
    exact Knowledge.informed_ret
      (Set.singleton_subset_iff.mpr (.inr ⟨hid, (not_not.mp hsame).symm⟩))

theorem updatePipeline_settles {dto : UpdatePipelineDto}
    {status : PipelineStatus} (hstatus : dto.status = some status) :
    statusTrail.Informed call known
      (fun _ => {.pipeline id status user})
      (PipelinesService.update env id dto user) := by
  simp only [PipelinesService.update, bind_eq, hstatus]
  refine pipeline_findOne_settles fun row hid => ?_
  refine Knowledge.Informed.seq (settles_nothing _) fun _ => ?_
  refine Knowledge.Informed.seq (settles_nothing _) fun updated => ?_
  split
  · rw [hid]
    exact settles_log makes_act
  · rename_i hsame
    exact Knowledge.informed_ret
      (Set.singleton_subset_iff.mpr (.inr ⟨hid, (not_not.mp hsame).symm⟩))

theorem body_settles (call : Call) :
    statusTrail.Informed call ∅ (fun _ => {request | call.asks = some request})
      (call.body env) := by
  cases call with
  | updateConnector id dto user =>
      cases hstatus : dto.status with
      | none =>
          exact (settles_nothing _).weaken subset_rfl fun _ request hrequest => by
            simp [Call.asks, hstatus] at hrequest
      | some status =>
          refine (updateConnector_settles hstatus).bind fun row =>
            Knowledge.informed_ret fun request hrequest => ?_
          simp only [Call.asks, hstatus, Option.map_some] at hrequest
          exact .inr (Option.some.inj hrequest).symm
  | updatePipeline id dto user =>
      cases hstatus : dto.status with
      | none =>
          exact (settles_nothing _).weaken subset_rfl fun _ request hrequest => by
            simp [Call.asks, hstatus] at hrequest
      | some status =>
          refine (updatePipeline_settles hstatus).bind fun row =>
            Knowledge.informed_ret fun request hrequest => ?_
          simp only [Call.asks, hstatus, Option.map_some] at hrequest
          exact .inr (Option.some.inj hrequest).symm
  | _ => exact (settles_nothing _).weaken subset_rfl fun _ _ h => by cases h

end Updates

/-! ## Answers -/

section Runs

variable {env : Env} {init : Store} {pool pool' : Platform}
  {ok : Platform → Step → Prop}

/-- The log is what was there and what the calls have entered. -/
theorem log_accounted (h : (platform env).Reach ok init.boot pool) :
    (pool.store.auditLogs.map AuditLog.data).Perm
      (init.auditLogs.map AuditLog.data ++ pool.tasks.flatMap entriesOf) := by
  refine h.rows_accounted (R := fun store => store.auditLogs.map AuditLog.data)
    (fun op store value store' hexec => ?_)
    (fun event store count store' calls hevent => ?_) rfl
  · rw [exec_effect hexec]
    exact entries_of_effect
  · obtain ⟨clock, jobs, rfl⟩ := Event.apply_store hevent
    rfl

theorem entered_of_answer (h : (platform env).Reach ok init.boot pool)
    {task : Task Op.Res Failure Answer Call} (htask : task ∈ pool.tasks)
    {answer : Answer} (hanswer : answerOf task = some answer)
    {mention : Mention} (hmention : mention ∈ task.call.mentions answer) :
    Entered task mention := by
  have hbody : ∀ call, trail.Informed call (trail.given call) call.mentions
      ((platform env).body call) := body_enters
  rcases Knowledge.shown_of_returned hbody
      (fun _ _ _ _ hexec => repeats_of_exec hexec) rfl h htask
      (prog_of_answerOf hanswer) hmention with hgiven | ⟨entry, hentry, hshows⟩
  · exact hgiven.elim
  · exact entered_of_shows hentry hshows

theorem settled_of_answer (h : (platform env).Reach ok init.boot pool)
    {task : Task Op.Res Failure Answer Call} (htask : task ∈ pool.tasks)
    {answer : Answer} (hanswer : answerOf task = some answer)
    {request : StatusRequest} (hasks : task.call.asks = some request) :
    Entered task request.mention ∨
      ∃ entry ∈ task.trace, request.FoundSo entry.1 entry.2 := by
  have hbody : ∀ call, statusTrail.Informed call (statusTrail.given call)
      (fun _ => {request | call.asks = some request})
      ((platform env).body call) := body_settles
  rcases Knowledge.shown_of_returned hbody
      (fun _ _ _ _ hexec => answers_of_exec hexec) rfl h htask
      (prog_of_answerOf hanswer) hasks with
    hgiven | ⟨⟨op, value⟩, hentry, ⟨data, rfl, hmakes⟩ | hfound⟩
  · exact hgiven.elim
  · exact .inl (entered_of_shows hentry hmakes)
  · exact .inr ⟨⟨op, value⟩, hentry, hfound⟩

/-- Each entry of the log is that of one call, and each call that has answered
has entered what its answer stands for; an update that asks for a status has
entered the change unless it has found the row with that status. -/
theorem answers_audited (h : (platform env).Reach ok init.boot pool) :
    (pool.store.auditLogs.map AuditLog.data).Perm
        (init.auditLogs.map AuditLog.data ++ pool.tasks.flatMap entriesOf) ∧
      ∀ task ∈ pool.tasks, ∀ answer, answerOf task = some answer →
        (∀ mention ∈ task.call.mentions answer, Entered task mention) ∧
        ∀ request, task.call.asks = some request →
          Entered task request.mention ∨
            ∃ entry ∈ task.trace, request.FoundSo entry.1 entry.2 :=
  ⟨log_accounted h, fun _ htask _ hanswer =>
    ⟨fun _ hmention => entered_of_answer h htask hanswer hmention,
      fun _ hasks => settled_of_answer h htask hanswer hasks⟩⟩

end Runs

/-! ## The entries of a delivered contact -/

theorem answers_audited_of_delivery :
    ∃ pool, (platform (Sample.env .async)).run Sample.store.boot
        contactDelivered = some pool ∧
      pool.store.auditLogs.length = 10 ∧
      (pool.store.auditLogs.map AuditLog.data).Perm
        (Sample.store.auditLogs.map AuditLog.data ++
          pool.tasks.flatMap entriesOf) ∧
      ∀ task ∈ pool.tasks, ∀ answer, answerOf task = some answer →
        (∀ mention ∈ task.call.mentions answer, Entered task mention) ∧
        ∀ request, task.call.asks = some request →
          Entered task request.mention ∨
            ∃ entry ∈ task.trace, request.FoundSo entry.1 entry.2 := by
  have hruns : ((platform (Sample.env .async)).run Sample.store.boot
      contactDelivered).any (fun pool =>
        pool.store.auditLogs.length = 10) = true := by
    decide +kernel
  obtain ⟨pool, hrun, hlogs⟩ := (Option.any_eq_true _ _).mp hruns
  exact ⟨pool, hrun, of_decide_eq_true hlogs,
    answers_audited (System.reach_of_run hrun)⟩

/-! ## Completed jobs -/

section Completed

variable {env : Env} {init : Store} {pool pool' : Platform}
  {ok : Platform → Step → Prop}

def Delivered (pool : Platform) (job : QueueJob) : Prop :=
  ∃ task ∈ pool.tasks, (∃ token attempts,
      task.call = .processJob job.id token job.payload attempts) ∧
    ∀ mention ∈ job.payload.mentions, Entered task mention

theorem completed_of_effect {op : Op} {store : Store} {job : QueueJob}
    (hjob : job ∈ (op.effect store).jobs) (hcompleted : job.state = .completed) :
    job ∈ store.jobs ∨ ∃ token, op = .moveToCompleted job.id token ∧
      ∃ old ∈ store.jobs, old.state = .active token ∧ job = old.complete := by
  cases hwrites : op.writesJobs with
  | false =>
      rw [effect_jobs hwrites] at hjob
      exact .inl hjob
  | true =>
      cases op with
      | queueAdd jobId payload attempts =>
          rcases List.mem_append.mp hjob with hold | hnew
          · exact .inl hold
          · obtain rfl := List.mem_singleton.mp hnew
            cases hcompleted
      | moveToCompleted jobId token =>
          obtain ⟨old, hold, rfl⟩ := List.mem_map.mp hjob
          by_cases hsettles : old.id = jobId ∧ old.state = .active token
          · rw [QueueJob.settled, if_pos hsettles]
            exact .inr ⟨token, by rw [← hsettles.1]; rfl, old, hold, hsettles.2,
              rfl⟩
          · rw [QueueJob.settled, if_neg hsettles]
            exact .inl hold
      | moveToFailed jobId token =>
          obtain ⟨old, hold, rfl⟩ := List.mem_map.mp hjob
          by_cases hsettles : old.id = jobId ∧ old.state = .active token
          · rw [QueueJob.settled, if_pos hsettles, QueueJob.retryOrFail] at hcompleted
            split at hcompleted <;> cases hcompleted
          · rw [QueueJob.settled, if_neg hsettles]
            exact .inl hold
      | _ => cases hwrites

theorem completed_of_event {event : Event} {store store' : Store} {token : Nat}
    {calls : List Call} (h : event.apply store token = some (store', calls))
    {job : QueueJob} (hjob : job ∈ store'.jobs)
    (hcompleted : job.state = .completed) : job ∈ store.jobs := by
  rcases Event.apply_cases h with
    ⟨elapsed, rfl, -⟩ | ⟨position, waiting, -, -, rfl, -⟩ |
    ⟨position, active, held, -, -, rfl, -⟩
  · exact hjob
  · rcases mem_setJobState hjob with hold | rfl
    · exact hold
    · cases hcompleted
  · rcases mem_setJobState hjob with hold | rfl
    · exact hold
    · cases hcompleted

theorem Entered.grown {call : Call} {prog prog' : Body Answer} {mention : Mention}
    {trace trace' : List (Σ op : Op, op.Res)}
    (h : Entered ⟨call, trace, prog⟩ mention) (hsubset : trace ⊆ trace') :
    Entered ⟨call, trace', prog'⟩ mention := by
  obtain ⟨entry, hentry, hmakes⟩ := h
  obtain ⟨operation, hoperation, hmade⟩ := List.mem_flatMap.mp hentry
  refine ⟨entry, List.mem_flatMap.mpr ⟨operation, ?_, hmade⟩, hmakes⟩
  exact List.mem_reverse.mpr (hsubset (List.mem_reverse.mp hoperation))

theorem Delivered.set {job : QueueJob} {index : Nat}
    {task : Task Op.Res Failure Answer Call} {prog : Body Answer}
    {trace : List (Σ op : Op, op.Res)} (h : Delivered pool job)
    (hget : pool.tasks[index]? = some task) (hsubset : task.trace ⊆ trace)
    (htasks : pool'.tasks = pool.tasks.set index ⟨task.call, trace, prog⟩) :
    Delivered pool' job := by
  obtain ⟨other, hother, hcall, hentered⟩ := h
  obtain ⟨position, hlt, rfl⟩ := List.mem_iff_getElem.mp hother
  by_cases heq : index = position
  · subst heq
    have htask : pool.tasks[index] = task :=
      Option.some.inj ((List.getElem?_eq_getElem hlt).symm.trans hget)
    rw [htask] at hcall hentered
    refine ⟨⟨task.call, trace, prog⟩, ?_, hcall, fun mention hmention =>
      (hentered mention hmention).grown hsubset⟩
    rw [htasks]
    exact List.mem_set hlt _
  · refine ⟨_, ?_, hcall, hentered⟩
    rw [htasks]
    exact List.mem_iff_getElem.mpr ⟨position, by simpa using hlt,
      List.getElem_set_ne heq _⟩

theorem delivered_of_completed (hinit : init.Unlocked env)
    (h : (platform env).Reach ok init.boot pool) {index : Nat}
    {task : Task Op.Res Failure Answer Call} {jobId : Id} {token : Nat}
    {next : Except Failure Unit → Body Answer} {value : Unit}
    (hdone : (platform env).Done pool pool' index task
      (.moveToCompleted jobId token) next value) {job : QueueJob}
    (hjob : job ∈ pool.store.jobs) (hactive : job.state = .active token)
    (hid : job.id = jobId) : Delivered pool job := by
  have hmem := List.mem_of_getElem? hdone.at_index
  have huses := uses_of_reach h task hmem
  rw [hdone.awaits] at huses
  obtain ⟨payload, attempts, hcall⟩ := huses.1
  have hlocks := locksMatch_of_reach hinit h
  have hat : pool.calls[index]? =
      some (.processJob jobId token payload attempts) := by
    rw [Pool.calls, List.getElem?_map, hdone.at_index]
    exact congrArg some hcall
  obtain rfl := hlocks.token _ _ _ _ _ hat
  have hlocked := hlocks.locked job hjob token hactive
  rw [hat] at hlocked
  obtain ⟨-, -, rfl, -⟩ := Call.processJob.inj (Option.some.inj hlocked)
  have hbody : ∀ call, trail.Safe call (trail.given call)
      ((platform env).body call) := fun call => (body_enters call).safe
  have haccepts := Knowledge.accepts_of_safe hbody
    (fun _ _ _ _ hexec => repeats_of_exec hexec) rfl h task hmem
  rw [hdone.awaits] at haccepts
  refine ⟨task, hmem, ⟨token, attempts, hid ▸ hcall⟩, fun mention hmention => ?_⟩
  have hknown : mention ∈ trail.monitor.state task :=
    haccepts.1 jobId token _ attempts hcall hmention
  rcases Knowledge.mem_after.mp hknown with hgiven | ⟨entry, hentry, hshows⟩
  · exact hgiven.elim
  · exact entered_of_shows hentry hshows

/-- Every job that is completed has been delivered to a call that has entered
what the job stands for: that the job and its run or event were started, how
they ended and that the job was completed. -/
theorem completed_jobs_audited (hinit : init.jobs = [])
    (h : (platform env).Reach ok init.boot pool) :
    ∀ job ∈ pool.store.jobs, job.state = .completed → Delivered pool job := by
  have hunlocked : init.Unlocked env := unlocked_of_no_jobs hinit
  refine h.invariant (I := fun pool => ∀ job ∈ pool.store.jobs,
    job.state = .completed → Delivered pool job) ?_ ?_ ?_ ?_ ?_
  · intro job hjob
    simp [Store.boot, hinit] at hjob
  · intro pool call _ hold _ _ job hjob hcompleted
    obtain ⟨task, htask, hdelivered⟩ := hold job hjob hcompleted
    exact ⟨task, List.mem_append_left _ htask, hdelivered⟩
  · intro pool pool' index task op next value hreach hold _ hdone job hjob
      hcompleted
    refine Delivered.set ?_ hdone.at_index (List.subset_cons_self _ _) hdone.tasks
    rw [effect_of_done hdone] at hjob
    rcases completed_of_effect hjob hcompleted with hbefore |
      ⟨token, rfl, old, hmem, hactive, rfl⟩
    · exact hold job hbefore hcompleted
    · have hdelivered : Delivered pool old :=
        delivered_of_completed hunlocked hreach hdone hmem hactive rfl
      exact hdelivered
  · intro pool pool' index task op next error _ hold _ hraised job hjob
      hcompleted
    rw [hraised.store] at hjob
    exact (hold job hjob hcompleted).set hraised.at_index (List.Subset.refl _)
      hraised.tasks
  · intro pool pool' event calls _ hold _ hevent htasks job hjob hcompleted
    obtain ⟨task, htask, hdelivered⟩ :=
      hold job (completed_of_event hevent hjob hcompleted) hcompleted
    refine ⟨task, ?_, hdelivered⟩
    rw [htasks]
    exact List.mem_append_left _ htask

theorem completed_jobs_audited_of_delivery :
    ∃ pool, (platform (Sample.env .async)).run Sample.store.boot
        contactDelivered = some pool ∧
      (∃ job ∈ pool.store.jobs, job.state = .completed) ∧
      ∀ job ∈ pool.store.jobs, job.state = .completed → Delivered pool job := by
  have hruns : ((platform (Sample.env .async)).run Sample.store.boot
      contactDelivered).any (fun pool =>
        ∃ job ∈ pool.store.jobs, job.state = .completed) = true := by
    decide +kernel
  obtain ⟨pool, hrun, hcompleted⟩ := (Option.any_eq_true _ _).mp hruns
  exact ⟨pool, hrun, of_decide_eq_true hcompleted,
    completed_jobs_audited rfl (System.reach_of_run hrun)⟩

end Completed

end SyncBridge
