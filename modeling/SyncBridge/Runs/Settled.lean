import SyncBridge.Foundation.Settling
import SyncBridge.Intake.Custody
import SyncBridge.Runs.Custody
import SyncBridge.Store.History

/-!
# The platform settles

Calls end, and jobs are not tried again for ever: without new calls and stalls
only time can go on passing.  Where nothing is left to do, every run and every
event that nobody has lost is in a final status.
-/

namespace SyncBridge

open SyncBridge.Foundation SyncBridge.Foundation.Prog

/-! ## Work -/

/-- The attempts that a job has left, where one that waits has to be taken
first. -/
def QueueJob.weight (job : QueueJob) : Nat :=
  match job.state with
  | .waiting => 2 * (job.attempts - job.attemptsMade) + 1
  | .active _ => 2 * (job.attempts - job.attemptsMade)
  | _ => 0

abbrev Work : Type := Body Answer ⊕ (Nat ⊕ Body Answer)

namespace Work

abbrev delivery (body : Body Answer) : Work := .inl body

abbrev job (weight : Nat) : Work := .inr (.inl weight)

abbrev client (body : Body Answer) : Work := .inr (.inr body)

abbrev Less : Work → Work → Prop :=
  Sum.Lex Prog.Left (Sum.Lex (· < ·) Prog.Left)

theorem wellFounded_less : WellFounded Less :=
  Sum.lex_wf wellFounded_left (Sum.lex_wf Nat.lt_wfRel.wf wellFounded_left)

end Work

def workOf (jobs : List QueueJob) : List Work :=
  jobs.map fun job => .job job.weight

def workload : Workload Op.Res Failure Answer Call Store Work where
  ofTask call body := if call.isClient then .client body else .delivery body
  ofStore store := workOf store.jobs

def Event.isStill : Event → Prop
  | .tick _ => True
  | _ => False

/-- A stall gives a job back without taking an attempt from it. -/
def Event.isCalm : Event → Prop
  | .stall _ => False
  | _ => True

/-! ## Deliveries queue nothing -/

def Call.queues (call : Call) : Op → Prop
  | .queueAdd _ _ _ => call.isClient = true
  | _ => True

theorem body_queues {env : Env} (call : Call) :
    (call.body env).Uses call.queues := by
  cases hclient : call.isClient with
  | true =>
      refine uses_of_forall (fun op => ?_) _
      cases op <;> first | exact hclient | trivial
  | false =>
      cases call with
      | processJob jobId token payload attempts =>
          have quiet : AllowsQuiet (Call.queues
              (.processJob jobId token payload attempts)) :=
            allowsQuiet fun op hop => by cases op <;> trivial
          have hop : ∀ op : Op, (∀ id payload attempts,
              op ≠ .queueAdd id payload attempts) →
              (await op).Uses (Call.queues
                (.processJob jobId token payload attempts)) := by
            intro op hne
            refine (uses_await op).mpr ?_
            cases op <;> first | exact absurd rfl (hne _ _ _) | trivial
          refine (deliverJob_rule quiet (fun run _ => ?_) (fun event _ => ?_)
            (hop _ nofun) (hop _ nofun)).bind fun _ => trivial
          · exact processQueuedSyncRun_rule quiet (fun _ _ _ => hop _ nofun)
              (fun _ _ => hop _ nofun) (fun _ _ => hop _ nofun)
              fun _ _ => hop _ nofun
          · refine processQueuedWebhookEvent_rule quiet (fun _ _ => ?_)
              (fun _ _ _ => hop _ nofun) fun _ _ => hop _ nofun
            refine processWebhookEventNow_rule quiet (fun _ _ _ _ => ?_)
              fun _ _ _ => hop _ nofun
            exact processPipeline_rule quiet (fun _ _ => hop _ nofun)
              (fun _ _ => hop _ nofun) (fun _ _ => hop _ nofun)
              fun _ _ => hop _ nofun
      | _ => cases hclient

/-! ## Every step but the ticks takes work away -/

theorem weight_settled {jobId : Id} {token : Nat} {settle : QueueJob → QueueJob}
    (hsettle : ∀ job : QueueJob, job.state = .active token →
      (settle job).weight ≤ job.weight) (job : QueueJob) :
    (job.settled jobId token settle).weight ≤ job.weight := by
  rw [QueueJob.settled]
  split
  · rename_i hactive
    exact hsettle job hactive.2
  · exact Nat.le_refl _

theorem weight_complete (job : QueueJob) : job.complete.weight ≤ job.weight :=
  Nat.zero_le _

theorem weight_retryOrFail {job : QueueJob} {token : Nat}
    (h : job.state = .active token) : job.retryOrFail.weight ≤ job.weight := by
  simp only [QueueJob.weight, QueueJob.retryOrFail, h]
  by_cases hremain : job.attemptsMade + 1 < job.attempts
  · simp only [hremain, if_true]
    omega
  · simp [hremain]

variable {env : Env} {init : Store} {pool pool' : Platform}
  {ok : Platform → Step → Prop}

theorem reduced_settled {jobs : List QueueJob} {settle : QueueJob → QueueJob}
    (h : ∀ job : QueueJob, (settle job).weight ≤ job.weight) :
    Reduced Work.Less (workOf (jobs.map settle)) (workOf jobs) := by
  rw [workOf, List.map_map]
  refine reduced_map fun job _ => ?_
  rcases Nat.lt_or_eq_of_le (h job) with hless | hsame
  · exact .inr (Sum.Lex.inr (Sum.Lex.inl hless))
  · exact .inl (congrArg Work.job hsame)

theorem reduced_of_done (h : (platform env).Reach ok init.boot pool)
    {index : Nat} {task : Task Op.Res Failure Answer Call} {op : Op}
    {next : Except Failure op.Res → Body Answer} {value : op.Res}
    (hdone : (platform env).Done pool pool' index task op next value) :
    ∃ new, (∀ item ∈ new, Work.Less item (workload.ofTask task.call task.prog)) ∧
      Reduced Work.Less (workload.ofStore pool'.store)
        (workload.ofStore pool.store + new) := by
  have hnone : Reduced Work.Less (workload.ofStore pool'.store)
      (workload.ofStore pool.store) →
      ∃ new, (∀ item ∈ new,
          Work.Less item (workload.ofTask task.call task.prog)) ∧
        Reduced Work.Less (workload.ofStore pool'.store)
          (workload.ofStore pool.store + new) := fun hreduced =>
    ⟨0, fun item hitem => absurd hitem (Multiset.notMem_zero item),
      by rwa [add_zero]⟩
  have hstore := effect_of_done hdone
  cases hwrites : op.writesJobs with
  | false =>
      refine hnone ?_
      simp only [workload, hstore, effect_jobs hwrites]
      exact .refl
  | true =>
      cases op with
      | queueAdd jobId payload attempts =>
          have hbody : ∀ call, ((platform env).body call).Uses call.queues :=
            body_queues
          have huses := System.Reach.uses hbody rfl h task
            (List.mem_of_getElem? hdone.at_index)
          rw [hdone.awaits] at huses
          have hclient : task.call.isClient = true := huses.1
          refine ⟨{.job (QueueJob.weight ⟨jobId, payload, attempts, 0, .waiting⟩)},
            fun item hitem => ?_, ?_⟩
          · obtain rfl := Multiset.mem_singleton.mp hitem
            simp only [workload, hclient, if_true]
            exact Sum.Lex.inr (Sum.Lex.sep _ _)
          · simp only [workload, hstore, workOf, Op.effect, Store.addJob,
              List.map_append, List.map_cons, List.map_nil, ← Multiset.coe_add,
              Multiset.coe_singleton]
            exact .refl
      | moveToCompleted jobId token =>
          refine hnone ?_
          rw [hstore]
          exact reduced_settled (weight_settled fun job _ => weight_complete job)
      | moveToFailed jobId token =>
          refine hnone ?_
          rw [hstore]
          exact reduced_settled (weight_settled fun _ => weight_retryOrFail)
      | _ => cases hwrites

theorem Event.apply_deliver {position : Nat} {store store' : Store}
    {token : Nat} {calls : List Call}
    (h : (Event.deliver position).apply store token = some (store', calls)) :
    ∃ job, store.jobs[position]? = some job ∧ job.state = .waiting ∧
      store' = store.setJobState position job (.active token) ∧
      calls = [.processJob job.id token job.payload (job.attemptsMade + 1)] := by
  simp only [Event.apply] at h
  split at h
  · rename_i job hget
    split at h
    · rename_i hwaiting
      cases h
      exact ⟨job, hget, hwaiting, rfl, rfl⟩
    · cases h
  · cases h

theorem lessened_of_deliver {position : Nat} {store store' : Store}
    {token : Nat} {calls : List Call}
    (h : (Event.deliver position).apply store token = some (store', calls)) :
    Lessened Work.Less (workload.ofStore store' +
      workload.ofTasks (calls.map (platform env).spawn))
      (workload.ofStore store) := by
  obtain ⟨job, hget, hwaiting, rfl, rfl⟩ := Event.apply_deliver h
  have hwork : (workOf store.jobs)[position]? = some (.job job.weight) := by
    simp [workOf, hget]
  refine .single ⟨{.job (QueueJob.weight { job with state := .active token }),
    .delivery (Call.body env (.processJob job.id token job.payload
      (job.attemptsMade + 1)))}, .job job.weight, fun item hitem => ?_, ?_⟩
  · rcases Multiset.mem_cons.mp hitem with rfl | hbody
    · refine Sum.Lex.inr (Sum.Lex.inl ?_)
      simp [QueueJob.weight, hwaiting]
    · obtain rfl := Multiset.mem_singleton.mp hbody
      exact Sum.Lex.sep _ _
  · have hset := coe_set_add (Work.job (QueueJob.weight
      { job with state := .active token })) hwork
    have hstore : workload.ofStore
        (store.setJobState position job (.active token)) =
          (workOf store.jobs).set position (.job (QueueJob.weight
            { job with state := .active token })) := by
      simp [workload, workOf, Store.setJobState, List.map_set]
    rw [hstore, add_right_comm, hset, add_assoc]
    rfl

theorem workload_lawful (env : Env) (init : Store) :
    workload.Lawful (platform env) init.boot Work.Less Event.isCalm
      Event.isStill where
  wellFounded := Work.wellFounded_less
  left call body rest hleft := by
    simp only [workload]
    split
    · exact Sum.Lex.inr (Sum.Lex.inr hleft)
    · exact Sum.Lex.inl hleft
  done _ _ _ _ _ _ _ hreach hdone := reduced_of_done hreach hdone
  calm event store count store' calls hcalm hstill happly := by
    cases event with
    | tick elapsed => exact absurd trivial hstill
    | deliver position => exact lessened_of_deliver happly
    | stall position => exact hcalm.elim
  still event store count store' calls hstill happly := by
    cases event with
    | tick elapsed =>
        cases happly
        exact ⟨rfl, rfl⟩
    | _ => exact hstill.elim

/-! ## Nothing is left to do -/

/-- Every call has ended and no job waits. -/
structure AtRest (pool : Platform) : Prop where
  ended : ∀ task ∈ pool.tasks, task.prog.finished = true
  taken : ∀ job ∈ pool.store.jobs, job.state ≠ .waiting

theorem atRest_of_stuck (h : ∀ action, Workload.Drains Event.isCalm action →
    ¬ Workload.Idle Event.isStill action →
    (platform env).step pool action = none) : AtRest pool where
  ended task htask := by
    obtain ⟨index, hget⟩ := List.mem_iff_getElem?.mp htask
    obtain ⟨call, trace, prog⟩ := task
    cases prog with
    | ret value => rfl
    | throw error => rfl
    | call op next =>
        have hstuck := h (.run index) trivial id
        simp only [System.step, hget] at hstuck
        cases hexec : (platform env).exec op pool.store with
        | ok result => simp [hexec] at hstuck
        | error error => simp [hexec] at hstuck
  taken job hjob hwaiting := by
    obtain ⟨position, hget⟩ := List.mem_iff_getElem?.mp hjob
    have hstuck := h (.env (.deliver position)) trivial id
    have happly : (platform env).env (.deliver position) pool.store
        pool.tasks.length = (Event.deliver position).apply pool.store
          pool.tasks.length := rfl
    simp [System.step, happly, Event.apply, hget, hwaiting] at hstuck

/-- Without new calls and stalls, from some moment on only time passes; and the
platform can always be brought to where every call has ended and no job waits. -/
theorem platform_settles (h : (platform env).Reach (fun _ _ => True) init.boot pool) :
    (∀ (pools : Nat → Platform) (actions : Nat → Step), pools 0 = pool →
      (∀ moment, Workload.Drains Event.isCalm (actions moment)) →
      (∀ moment, (platform env).step (pools moment) (actions moment) =
        some (pools (moment + 1))) →
      ∃ bound, ∀ moment ≥ bound,
        Workload.Idle Event.isStill (actions moment)) ∧
      ∃ actions settled, (platform env).run pool actions = some settled ∧
        (∀ action ∈ actions, Workload.Drains Event.isCalm action ∧
          ¬ Workload.Idle Event.isStill action) ∧
        AtRest settled := by
  have hlawful := workload_lawful env init
  refine ⟨fun pools actions hfirst hdrains hsteps => ?_, ?_⟩
  · subst hfirst
    exact hlawful.idle_eventually h hdrains hsteps
  · obtain ⟨actions, settled, hrun, hactions, hstuck⟩ := hlawful.exists_settled h
    exact ⟨actions, settled, hrun, hactions, atRest_of_stuck hstuck⟩

def LosesNothing (env : Env) (pool : Platform) (step : Step) : Prop :=
  ¬ LosesRun env pool step ∧ ¬ LosesEvent env pool step

instance (env : Env) (pool : Platform) (step : Step) :
    Decidable (LosesNothing env pool step) :=
  inferInstanceAs (Decidable (_ ∧ _))

/-- What has become of everything once nothing is left to do. -/
structure WorkedOff (pool : Platform) : Prop where
  runs : ∀ row ∈ pool.store.syncRuns, row.status.isActive = false
  events : ∀ row ∈ pool.store.webhookEvents, row.status.isFinal = true
  /-- A job that is not over is held by a delivery that has ended without
  settling it. -/
  jobs : ∀ job ∈ pool.store.jobs, job.state = .completed ∨ job.state = .failed ∨
    ∃ token task, job.state = .active token ∧ pool.tasks[token]? = some task ∧
      task.prog.finished = true ∧ task.call =
        .processJob job.id token job.payload (job.attemptsMade + 1)

theorem not_attended {S : Subject} {id : Id} (hsettled : AtRest pool) :
    ¬ Attended (S.owed env) S.Queued pool id := by
  rintro (⟨job, hjob, hwaiting, -⟩ | ⟨task, htask, hrunning, -⟩)
  · exact hsettled.taken job hjob hwaiting
  · rw [hsettled.ended task htask] at hrunning
    cases hrunning

/-- Where nothing is left to do and nothing has been lost, every run and every
event is in a final status. -/
theorem settled_outcomes (hjobs : init.jobs = [])
    (hruns : ∀ id, ¬ init.RunActive id) (hevents : ∀ id, ¬ init.EventReceived id)
    (h : (platform env).Reach (LosesNothing env) init.boot pool)
    (hsettled : AtRest pool) : WorkedOff pool where
  runs row hrow := by
    by_contra hactive
    exact not_attended hsettled (Subject.attended (runSubject_lawful env)
      (unlocked_of_no_jobs hjobs) hruns (h.mono fun _ _ hloses => hloses.1) row.id
      ⟨row, hrow, rfl, by simpa using hactive⟩)
  events row hrow := by
    by_contra hreceived
    refine not_attended hsettled (Subject.attended (eventSubject_lawful env)
      (unlocked_of_no_jobs hjobs) hevents (h.mono fun _ _ hloses => hloses.2)
      row.id ⟨row, hrow, rfl, ?_⟩)
    cases hstatus : row.status with
    | received => exact hstatus
    | _ => exact absurd (by rw [hstatus]; rfl) hreceived
  jobs job hjob := by
    cases hstate : job.state with
    | waiting => exact absurd hstate (hsettled.taken job hjob)
    | completed => exact .inl rfl
    | failed => exact .inr (.inl rfl)
    | active token =>
        have hlocked := (locksMatch_of_reach (unlocked_of_no_jobs hjobs) h).locked
          job hjob token hstate
        rw [Pool.calls, List.getElem?_map, Option.map_eq_some_iff] at hlocked
        obtain ⟨task, hget, hcall⟩ := hlocked
        exact .inr (.inr ⟨token, task, rfl, hget,
          hsettled.ended task (List.mem_of_getElem? hget), hcall⟩)

/-! ## A contact that is delivered -/

/-- From the moment at which a run has been queued. -/
theorem platform_settles_of_delivery :
    ∃ pool, (platform (Sample.env .async)).run Sample.store.boot
        (contactDelivered.take 8) = some pool ∧
      (∃ job ∈ pool.store.jobs, job.state = .waiting) ∧
      (∀ (pools : Nat → Platform) (actions : Nat → Step), pools 0 = pool →
        (∀ moment, Workload.Drains Event.isCalm (actions moment)) →
        (∀ moment, (platform (Sample.env .async)).step (pools moment)
          (actions moment) = some (pools (moment + 1))) →
        ∃ bound, ∀ moment ≥ bound,
          Workload.Idle Event.isStill (actions moment)) ∧
      ∃ actions settled,
        (platform (Sample.env .async)).run pool actions = some settled ∧
          (∀ action ∈ actions, Workload.Drains Event.isCalm action ∧
            ¬ Workload.Idle Event.isStill action) ∧
          AtRest settled := by
  have hruns : ((platform (Sample.env .async)).run Sample.store.boot
      (contactDelivered.take 8)).any (fun pool =>
        ∃ job ∈ pool.store.jobs, job.state = .waiting) = true := by
    decide +kernel
  obtain ⟨pool, hrun, hwaiting⟩ := (Option.any_eq_true _ _).mp hruns
  exact ⟨pool, hrun, of_decide_eq_true hwaiting,
    platform_settles (System.reach_of_run hrun)⟩

theorem settled_outcomes_of_delivery :
    ∃ pool, (platform (Sample.env .async)).runWhere
        (LosesNothing (Sample.env .async)) Sample.store.boot
        contactDelivered = some pool ∧
      pool.store.syncRuns.length = 1 ∧ WorkedOff pool := by
  have hruns : ((platform (Sample.env .async)).runWhere
      (LosesNothing (Sample.env .async)) Sample.store.boot
      contactDelivered).any (fun pool => pool.store.syncRuns.length = 1 ∧
        (∀ task ∈ pool.tasks, task.prog.finished = true) ∧
          ∀ job ∈ pool.store.jobs, job.state ≠ .waiting) = true := by
    decide +kernel
  obtain ⟨pool, hrun, hchecked⟩ := (Option.any_eq_true _ _).mp hruns
  obtain ⟨hrows, hended, htaken⟩ := of_decide_eq_true hchecked
  refine ⟨pool, hrun, hrows, settled_outcomes rfl ?_ ?_
    (System.reach_of_runWhere hrun) ⟨hended, htaken⟩⟩
  · rintro id ⟨row, hrow, -⟩
    cases hrow
  · rintro id ⟨row, hrow, -⟩
    cases hrow

end SyncBridge
