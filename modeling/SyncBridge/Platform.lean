import SyncBridge.Services.Connectors
import SyncBridge.Services.Pipelines
import SyncBridge.Services.Scheduler
import SyncBridge.Services.Webhooks
import SyncBridge.Store.Effects

/-!
# The platform

All calls of the services over one store, interleaved with the events of the
outside: the clock, and the queue that hands a waiting job to a worker or takes
back a job whose lock has run out.
-/

namespace SyncBridge

open SyncBridge.Foundation

inductive Call where
  | receiveEvent (params : ReceiveEventParams)
  | retryEvent (id : Id) (user : AuthenticatedUser)
  | processEvent (id : Id) (user : AuthenticatedUser)
  | createForPipeline (pipelineId : Id) (dto : CreateSyncRunDto)
      (user : AuthenticatedUser)
  | triggerPipelineSchedule (pipelineId : Id) (user : AuthenticatedUser)
  | runPollingCycle (worker : Id)
  | createConnector (dto : CreateConnectorDto) (user : AuthenticatedUser)
  | updateConnector (id : Id) (dto : UpdateConnectorDto)
      (user : AuthenticatedUser)
  | updateConnectorStatus (id : Id) (status : ConnectorStatus)
      (user : AuthenticatedUser)
  | createPipeline (dto : CreatePipelineDto) (user : AuthenticatedUser)
  | updatePipeline (id : Id) (dto : UpdatePipelineDto)
      (user : AuthenticatedUser)
  | updateStatus (id : Id) (status : PipelineStatus) (user : AuthenticatedUser)
  | updatePipelineSchedule (pipelineId : Id) (dto : UpdatePipelineScheduleDto)
      (user : AuthenticatedUser)
  | processJob (jobId : Id) (token : Nat) (payload : JobPayload)
      (attempts : Nat)

inductive Answer where
  | webhook (answer : WebhookAnswer)
  | run (answer : RunAnswer)
  | connector (row : Connector)
  | pipeline (row : SyncPipeline)
  | schedule (response : ScheduleResponse)
  | done

section Bodies

variable (env : Env)

def processJob (attempts : Nat) : JobPayload → Body Unit
  | .executeSyncRun payload =>
      SyncRunsService.processQueuedSyncRun env payload attempts
  | .processWebhookEvent payload =>
      WebhooksService.processQueuedWebhookEvent env payload attempts

/-- A delivery runs the processor and settles the job by its outcome. -/
def deliverJob (jobId : Id) (token : Nat) (payload : JobPayload)
    (attempts : Nat) : Body Unit := do
  match ← Prog.attempt (processJob env attempts payload) with
  | .ok _ => await (.moveToCompleted jobId token)
  | .error _ => await (.moveToFailed jobId token)

def Call.body : Call → Body Answer
  | .receiveEvent params =>
      Answer.webhook <$> WebhooksService.receiveEvent env params
  | .retryEvent id user =>
      Answer.webhook <$> WebhooksService.retryEvent env id user
  | .processEvent id user =>
      Answer.webhook <$> WebhooksService.processEvent env id user
  | .createForPipeline pipelineId dto user =>
      Answer.run <$> SyncRunsService.createForPipeline env pipelineId dto user
  | .triggerPipelineSchedule pipelineId user =>
      Answer.run <$>
        SchedulerService.triggerPipelineSchedule env pipelineId user
  | .runPollingCycle worker =>
      (fun _ => Answer.done) <$> SchedulerService.runPollingCycle env worker
  | .createConnector dto user =>
      Answer.connector <$> ConnectorsService.create dto user
  | .updateConnector id dto user =>
      Answer.connector <$> ConnectorsService.update id dto user
  | .updateConnectorStatus id status user =>
      Answer.connector <$> ConnectorsService.updateStatus id status user
  | .createPipeline dto user =>
      Answer.pipeline <$> PipelinesService.create env dto user
  | .updatePipeline id dto user =>
      Answer.pipeline <$> PipelinesService.update env id dto user
  | .updateStatus id status user =>
      Answer.pipeline <$> PipelinesService.updateStatus id status user
  | .updatePipelineSchedule pipelineId dto user =>
      Answer.schedule <$>
        SchedulerService.updatePipelineSchedule env pipelineId dto user
  | .processJob jobId token payload attempts =>
      (fun _ => Answer.done) <$> deliverJob env jobId token payload attempts

end Bodies

/-- Deliveries are started by the queue, everything else by clients and
timers. -/
def Call.isClient : Call → Bool
  | .processJob _ _ _ _ => false
  | _ => true

/-! ## The outside -/

/-- The queue refers to a job by its position. -/
inductive Event where
  | tick (elapsed : Nat)
  | deliver (position : Nat)
  | stall (position : Nat)

def Store.setJobState (store : Store) (position : Nat) (job : QueueJob)
    (state : QueueJobState) : Store :=
  { store with jobs := store.jobs.set position { job with state := state } }

/-- A delivery takes its own number as the token of the lock. -/
def Event.apply : Event → Store → Nat → Option (Store × List Call)
  | .tick elapsed, store, _ =>
      some ({ store with clock := store.clock + elapsed }, [])
  | .deliver position, store, token =>
      match store.jobs[position]? with
      | some job =>
          if job.state = .waiting then
            some (store.setJobState position job (.active token),
              [.processJob job.id token job.payload (job.attemptsMade + 1)])
          else none
      | none => none
  | .stall position, store, _ =>
      match store.jobs[position]? with
      | some job =>
          match job.state with
          | .active _ => some (store.setJobState position job .waiting, [])
          | _ => none
      | none => none

theorem Event.apply_cases {event : Event} {store store' : Store} {token : Nat}
    {calls : List Call} (h : event.apply store token = some (store', calls)) :
    (∃ elapsed : Nat, store' = { store with clock := store.clock + elapsed } ∧
      calls = []) ∨
    (∃ position job, store.jobs[position]? = some job ∧
      job.state = .waiting ∧
      store' = store.setJobState position job (.active token) ∧
      calls = [.processJob job.id token job.payload
        (job.attemptsMade + 1)]) ∨
    (∃ position job held, store.jobs[position]? = some job ∧
      job.state = .active held ∧
      store' = store.setJobState position job .waiting ∧ calls = []) := by
  cases event with
  | tick elapsed =>
      cases h
      exact .inl ⟨_, rfl, rfl⟩
  | deliver position =>
      simp only [Event.apply] at h
      split at h
      · rename_i job hget
        split at h
        · rename_i hwaiting
          cases h
          exact .inr (.inl ⟨position, job, hget, hwaiting, rfl, rfl⟩)
        · cases h
      · cases h
  | stall position =>
      simp only [Event.apply] at h
      split at h
      · rename_i job hget
        split at h
        · rename_i held hactive
          cases h
          exact .inr (.inr ⟨position, job, held, hget, hactive, rfl, rfl⟩)
        · cases h
      · cases h

theorem Event.apply_calls {event : Event} {store store' : Store} {token : Nat}
    {calls : List Call} (h : event.apply store token = some (store', calls)) :
    calls = [] ∨ ∃ position job, event = .deliver position ∧
      store.jobs[position]? = some job ∧
      calls = [.processJob job.id token job.payload
        (job.attemptsMade + 1)] := by
  cases event with
  | tick elapsed =>
      cases h
      exact .inl rfl
  | deliver position =>
      simp only [Event.apply] at h
      split at h
      · rename_i job hget
        split at h
        · cases h
          exact .inr ⟨position, job, rfl, hget, rfl⟩
        · cases h
      · cases h
  | stall position =>
      simp only [Event.apply] at h
      split at h
      · split at h
        · cases h
          exact .inl rfl
        · cases h
      · cases h

theorem Event.apply_store {event : Event} {store store' : Store} {token : Nat}
    {calls : List Call} (h : event.apply store token = some (store', calls)) :
    ∃ clock jobs, store' = { store with clock := clock, jobs := jobs } := by
  rcases Event.apply_cases h with
    ⟨elapsed, rfl, -⟩ | ⟨position, job, -, -, rfl, -⟩ |
    ⟨position, job, held, -, -, rfl, -⟩
  · exact ⟨_, _, rfl⟩
  · exact ⟨_, _, rfl⟩
  · exact ⟨_, _, rfl⟩

theorem Event.clock_le {event : Event} {store store' : Store} {token : Nat}
    {calls : List Call} (h : event.apply store token = some (store', calls)) :
    store.clock ≤ store'.clock := by
  rcases Event.apply_cases h with
    ⟨elapsed, rfl, -⟩ | ⟨position, job, -, -, rfl, -⟩ |
    ⟨position, job, held, -, -, rfl, -⟩
  · exact Int.le_add_of_nonneg_right (Int.natCast_nonneg elapsed)
  · exact le_refl _
  · exact le_refl _

abbrev Platform := Pool Op.Res Failure Answer Call Store

def answerOf (task : Task Op.Res Failure Answer Call) : Option Answer :=
  match task.prog with
  | .ret answer => some answer
  | _ => none

theorem prog_of_answerOf {task : Task Op.Res Failure Answer Call}
    {answer : Answer} (h : answerOf task = some answer) :
    task.prog = .ret answer := by
  obtain ⟨call, trace, prog⟩ := task
  cases prog with
  | ret value => exact congrArg Prog.ret (Option.some.inj h)
  | throw error => cases h
  | call op next => cases h

abbrev Step := Action Failure Call Event

def platform (env : Env) : System Op.Res Failure Answer Call Store Event where
  exec := exec env
  fallible := Op.fallible
  body := Call.body env
  starts := Call.isClient
  env := Event.apply

section Steps

variable {env : Env} {pool pool' : Platform} {index : Nat}
  {task : Task Op.Res Failure Answer Call} {op : Op}
  {next : Except Failure op.Res → Body Answer} {value : op.Res}

theorem exec_of_done
    (h : (platform env).Done pool pool' index task op next value) :
    exec env op pool.store = .ok (value, pool'.store) := h.exec

theorem effect_of_done
    (h : (platform env).Done pool pool' index task op next value) :
    pool'.store = op.effect pool.store := exec_effect (exec_of_done h)

end Steps

def Store.boot (store : Store) : Platform := ⟨store, []⟩

/-- The pools the platform gets into by any calls, events and failures. -/
def Reachable (env : Env) (init : Store) (pool : Platform) : Prop :=
  (platform env).Reach (fun _ _ => True) init.boot pool

end SyncBridge
