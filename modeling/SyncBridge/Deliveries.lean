import SyncBridge.Services.Footprint

/-!
# Jobs and deliveries

A job that is taken is held under the number of the call that processes it, and
that call has the job's own payload and attempt number.
-/

namespace SyncBridge

open SyncBridge.Foundation SyncBridge.Foundation.Prog

structure LocksMatch (env : Env) (pool : Platform) : Prop where
  /-- The token of a delivery is its own number. -/
  token : ∀ (index : Nat) jobId token payload attempts,
    pool.calls[index]? = some (.processJob jobId token payload attempts) →
    token = index
  attempts : ∀ job ∈ pool.store.jobs, job.attempts = env.defaultAttempts
  locked : ∀ job ∈ pool.store.jobs, ∀ token, job.state = .active token →
    pool.calls[token]? = some
      (.processJob job.id token job.payload (job.attemptsMade + 1))

structure Store.Unlocked (env : Env) (store : Store) : Prop where
  attempts : ∀ job ∈ store.jobs, job.attempts = env.defaultAttempts
  unlocked : ∀ job ∈ store.jobs, ∀ token, job.state ≠ .active token

variable {env : Env} {init : Store} {pool pool' : Platform}

theorem unlocked_of_no_jobs (h : init.jobs = []) : init.Unlocked env := by
  constructor <;> simp [h]

theorem LocksMatch.start {call : Call} (h : LocksMatch env pool)
    (hclient : call.isClient = true) :
    LocksMatch env
      { pool with tasks := pool.tasks ++ [(platform env).spawn call] } := by
  have hcalls : Pool.calls
      { pool with tasks := pool.tasks ++ [(platform env).spawn call] } =
        pool.calls ++ [call] := by
    simp [Pool.calls, System.spawn]
  refine ⟨?_, h.attempts, ?_⟩
  · intro index jobId token payload attempts hget
    rw [hcalls] at hget
    refine h.token index jobId token payload attempts
      (getElem?_of_append (P := fun other => other.isClient = false) ?_ hget
        rfl)
    simp [hclient]
  · intro job hjob token hactive
    rw [hcalls, List.getElem?_append_left]
    · exact h.locked job hjob token hactive
    · exact (List.getElem?_eq_some_iff.mp (h.locked job hjob token hactive)).1

section Done

variable {index : Nat} {task : Task Op.Res Failure Answer Call} {op : Op}
  {next : Except Failure op.Res → Body Answer} {value : op.Res}

theorem LocksMatch.settled {jobId : Id} {token : Nat}
    {settle : QueueJob → QueueJob} (h : LocksMatch env pool)
    (hdone : (platform env).Done pool pool' index task op next value)
    (hjobs : pool'.store.jobs =
      pool.store.jobs.map (QueueJob.settled jobId token settle))
    (hattempts : ∀ job, (settle job).attempts = job.attempts)
    (hinactive : ∀ job held, (settle job).state ≠ .active held) :
    LocksMatch env pool' := by
  have hcalls := hdone.calls
  refine ⟨hcalls ▸ h.token, ?_, ?_⟩
  · rw [hjobs]
    rintro _ hmem
    obtain ⟨job, hjob, rfl⟩ := List.mem_map.mp hmem
    rw [QueueJob.settled]
    split
    · rw [hattempts]
      exact h.attempts job hjob
    · exact h.attempts job hjob
  · rw [hjobs, hcalls]
    rintro _ hmem held hactive
    obtain ⟨job, hjob, rfl⟩ := List.mem_map.mp hmem
    rw [QueueJob.settled] at hactive ⊢
    split at hactive
    · exact absurd hactive (hinactive job held)
    · rename_i hother
      rw [if_neg hother]
      exact h.locked job hjob held hactive

theorem LocksMatch.done (h : LocksMatch env pool)
    (huses : task.prog.Uses (task.call.mayAttempt env))
    (hdone : (platform env).Done pool pool' index task op next value) :
    LocksMatch env pool' := by
  have hcalls := hdone.calls
  have hstore := effect_of_done hdone
  have hop : task.call.mayAttempt env op := by
    rw [hdone.awaits] at huses
    exact huses.1
  cases hwrites : op.writesJobs with
  | false =>
      have hjobs : pool'.store.jobs = pool.store.jobs := by
        rw [hstore, effect_jobs hwrites]
      exact ⟨hcalls ▸ h.token, hjobs ▸ h.attempts,
        by rw [hjobs, hcalls]; exact h.locked⟩
  | true =>
      cases op with
      | queueAdd jobId payload attempts =>
          refine ⟨hcalls ▸ h.token, ?_, ?_⟩
          · rw [hstore]
            rintro job hmem
            rcases List.mem_append.mp hmem with hold | hnew
            · exact h.attempts job hold
            · obtain rfl := List.mem_singleton.mp hnew
              exact hop
          · rw [hstore, hcalls]
            rintro job hmem held hactive
            rcases List.mem_append.mp hmem with hold | hnew
            · exact h.locked job hold held hactive
            · obtain rfl := List.mem_singleton.mp hnew
              cases hactive
      | moveToCompleted jobId token =>
          exact @LocksMatch.settled env pool pool' index task _ next value jobId
            token QueueJob.complete h hdone (by rw [hstore]; rfl) (fun _ => rfl)
            (fun _ _ => QueueJobState.noConfusion)
      | moveToFailed jobId token =>
          refine @LocksMatch.settled env pool pool' index task _ next value
            jobId token QueueJob.retryOrFail h hdone (by rw [hstore]; rfl)
            (fun _ => rfl) ?_
          intro job held
          simp only [QueueJob.retryOrFail]
          split <;> exact QueueJobState.noConfusion
      | _ => cases hwrites

end Done

theorem LocksMatch.raised {index : Nat}
    {task : Task Op.Res Failure Answer Call} {op : Op}
    {next : Except Failure op.Res → Body Answer} {error : Failure}
    (h : LocksMatch env pool)
    (hraised : System.Raised pool pool' index task op next error) :
    LocksMatch env pool' := by
  have hcalls := hraised.calls
  refine ⟨hcalls ▸ h.token, hraised.store ▸ h.attempts, ?_⟩
  rw [hraised.store, hcalls]
  exact h.locked

theorem mem_setJobState {store : Store} {position : Nat} {job other : QueueJob}
    {state : QueueJobState}
    (h : other ∈ (store.setJobState position job state).jobs) :
    other ∈ store.jobs ∨ other = { job with state := state } :=
  List.mem_or_eq_of_mem_set h

theorem attempts_of_setJobState {store : Store} {position attempts : Nat}
    {job : QueueJob} {state : QueueJobState}
    (h : ∀ job ∈ store.jobs, job.attempts = attempts)
    (hget : store.jobs[position]? = some job) :
    ∀ other ∈ (store.setJobState position job state).jobs,
      other.attempts = attempts := by
  intro other hother
  rcases mem_setJobState hother with hold | rfl
  · exact h other hold
  · exact h job (List.mem_of_getElem? hget)

theorem LocksMatch.event {event : Event} {calls : List Call}
    (h : LocksMatch env pool)
    (happly : event.apply pool.store pool.tasks.length =
      some (pool'.store, calls))
    (htasks : pool'.tasks = pool.tasks ++ calls.map (platform env).spawn) :
    LocksMatch env pool' := by
  have hcalls : pool'.calls = pool.calls ++ calls := by
    simp [Pool.calls, htasks, Function.comp_def, System.spawn]
  have hlength : pool.calls.length = pool.tasks.length := by simp [Pool.calls]
  have hlocked : ∀ job ∈ pool.store.jobs, ∀ token,
      job.state = .active token →
      pool'.calls[token]? = some
        (.processJob job.id token job.payload (job.attemptsMade + 1)) := by
    intro job hjob token hactive
    have hget := h.locked job hjob token hactive
    rw [hcalls, List.getElem?_append_left
      (List.getElem?_eq_some_iff.mp hget).1]
    exact hget
  rcases Event.apply_cases happly with
    ⟨clock, hstore, rfl⟩ | ⟨position, job, hget, hwaiting, hstore, rfl⟩ |
    ⟨position, job, held, hget, hactive, hstore, rfl⟩
  · refine ⟨?_, ?_, ?_⟩
    · rw [hcalls, List.append_nil]
      exact h.token
    · rw [hstore]
      exact h.attempts
    · rw [hstore]
      exact hlocked
  · refine ⟨?_, hstore ▸ attempts_of_setJobState h.attempts hget, ?_⟩
    · intro index jobId token payload attempts hcall
      rw [hcalls, List.getElem?_append] at hcall
      split at hcall
      · exact h.token index jobId token payload attempts hcall
      · rename_i hge
        have hindex : index - pool.calls.length = 0 := by
          by_contra hne
          rw [List.getElem?_eq_none (by simp; omega)] at hcall
          cases hcall
        rw [hindex] at hcall
        cases hcall
        omega
    · rw [hstore]
      intro other hother token hactive
      rcases mem_setJobState hother with hold | rfl
      · exact hlocked other hold token hactive
      · cases hactive
        rw [hcalls, ← hlength]
        simp
  · refine ⟨?_, hstore ▸ attempts_of_setJobState h.attempts hget, ?_⟩
    · rw [hcalls, List.append_nil]
      exact h.token
    · rw [hstore]
      intro other hother token hactive'
      rcases mem_setJobState hother with hold | rfl
      · exact hlocked other hold token hactive'
      · cases hactive'

section Reachable

variable {ok : Platform → Step → Prop}

theorem uses_of_reach (h : (platform env).Reach ok init.boot pool) :
    ∀ task ∈ pool.tasks, task.prog.Uses (task.call.mayAttempt env) := by
  have hbody : ∀ call, ((platform env).body call).Uses (call.mayAttempt env) :=
    body_uses
  exact System.Reach.uses hbody rfl h

theorem locksMatch_of_reach (hinit : init.Unlocked env)
    (h : (platform env).Reach ok init.boot pool) : LocksMatch env pool := by
  refine System.Reach.invariant (I := LocksMatch env) ?_ ?_ ?_ ?_ ?_ h
  · refine ⟨?_, hinit.attempts, ?_⟩
    · intro index jobId token payload attempts hget
      simp [Pool.calls, Store.boot] at hget
    · intro job hjob token hactive
      exact absurd hactive (hinit.unlocked job hjob token)
  · exact fun _ _ _ hlocks _ hclient => hlocks.start hclient
  · intro pool pool' index task op next value hreach hlocks _ hdone
    exact hlocks.done
      (uses_of_reach hreach task (List.mem_of_getElem? hdone.at_index)) hdone
  · exact fun _ _ _ _ _ _ _ _ hlocks _ hraised => hlocks.raised hraised
  · exact fun _ _ _ _ _ hlocks _ happly htasks => hlocks.event happly htasks

/-- What is known of the payloads of the jobs and of their deliveries. -/
structure PayloadsKnown (P : Store → JobPayload → Prop) (pool : Platform) :
    Prop where
  jobs : ∀ job ∈ pool.store.jobs, P pool.store job.payload
  calls : ∀ task ∈ pool.tasks, ∀ jobId token payload attempts,
    task.call = .processJob jobId token payload attempts →
    P pool.store payload

theorem payload_of_effect {op : Op} {store : Store} {job : QueueJob}
    (hjob : job ∈ (op.effect store).jobs) :
    (∃ old ∈ store.jobs, old.payload = job.payload) ∨
      ∃ jobId payload attempts, op = .queueAdd jobId payload attempts ∧
        job.payload = payload := by
  have hsettled : ∀ (jobId : Id) (token : Nat) (settle : QueueJob → QueueJob),
      (∀ job, (settle job).payload = job.payload) →
      job ∈ store.jobs.map (QueueJob.settled jobId token settle) →
      ∃ old ∈ store.jobs, old.payload = job.payload := by
    intro jobId token settle hpayload hmem
    obtain ⟨old, hold, rfl⟩ := List.mem_map.mp hmem
    refine ⟨old, hold, ?_⟩
    rw [QueueJob.settled]
    split
    · rw [hpayload]
    · rfl
  cases hwrites : op.writesJobs with
  | false =>
      rw [effect_jobs hwrites] at hjob
      exact .inl ⟨job, hjob, rfl⟩
  | true =>
      cases op with
      | queueAdd jobId payload attempts =>
          rcases List.mem_append.mp hjob with hold | hnew
          · exact .inl ⟨job, hold, rfl⟩
          · obtain rfl := List.mem_singleton.mp hnew
            exact .inr ⟨jobId, payload, attempts, rfl, rfl⟩
      | moveToCompleted jobId token =>
          exact .inl (hsettled jobId token QueueJob.complete (fun _ => rfl) hjob)
      | moveToFailed jobId token =>
          exact .inl (hsettled jobId token QueueJob.retryOrFail (fun _ => rfl)
            hjob)
      | _ => cases hwrites

theorem payload_of_setJobState {store : Store} {position : Nat}
    {job other : QueueJob} {state : QueueJobState}
    (hget : store.jobs[position]? = some job)
    (h : other ∈ (store.setJobState position job state).jobs) :
    ∃ old ∈ store.jobs, old.payload = other.payload := by
  rcases mem_setJobState h with hbefore | rfl
  · exact ⟨other, hbefore, rfl⟩
  · exact ⟨job, List.mem_of_getElem? hget, rfl⟩

theorem payload_of_event {event : Event} {store store' : Store} {token : Nat}
    {calls : List Call} (h : event.apply store token = some (store', calls))
    {job : QueueJob} (hjob : job ∈ store'.jobs) :
    ∃ old ∈ store.jobs, old.payload = job.payload := by
  rcases Event.apply_cases h with
    ⟨elapsed, rfl, -⟩ | ⟨position, waiting, hget, -, rfl, -⟩ |
    ⟨position, active, held, hget, -, rfl, -⟩
  · exact ⟨job, hjob, rfl⟩
  · exact payload_of_setJobState hget hjob
  · exact payload_of_setJobState hget hjob

theorem payload_of_delivered {event : Event} {store store' : Store}
    {token token' : Nat} {calls : List Call} {jobId : Id} {payload : JobPayload}
    {attempts : Nat} (h : event.apply store token = some (store', calls))
    (hcall : Call.processJob jobId token' payload attempts ∈ calls) :
    ∃ job ∈ store.jobs, job.payload = payload := by
  rcases Event.apply_calls h with rfl | ⟨position, job, -, hget, rfl⟩
  · cases hcall
  · obtain ⟨-, -, rfl, -⟩ := Call.processJob.inj (List.mem_singleton.mp hcall)
    exact ⟨job, List.mem_of_getElem? hget, rfl⟩

section Payloads

variable {P : Store → JobPayload → Prop} {index : Nat}
  {task : Task Op.Res Failure Answer Call} {op : Op}
  {next : Except Failure (Op.Res op) → Prog Op.Res Failure Answer}

theorem PayloadsKnown.done {value : Op.Res op}
    (heffect : ∀ store payload, P store payload → P (op.effect store) payload)
    (hadd : ∀ jobId payload attempts, op = .queueAdd jobId payload attempts →
      P pool.store payload)
    (h : PayloadsKnown P pool)
    (hdone : (platform env).Done pool pool' index task op next value) :
    PayloadsKnown P pool' := by
  have hstore : pool'.store = op.effect pool.store := effect_of_done hdone
  refine ⟨fun job hjob => ?_, fun other hother jobId token payload attempts
    hcall => ?_⟩
  · rw [hstore] at hjob ⊢
    refine heffect pool.store _ ?_
    rcases payload_of_effect hjob with ⟨old, hold, hsame⟩ |
      ⟨jobId, payload, attempts, heq, hpayload⟩
    · rw [← hsame]
      exact h.jobs old hold
    · rw [hpayload]
      exact hadd jobId payload attempts heq
  · rw [hstore]
    refine heffect pool.store _ ?_
    rw [hdone.tasks] at hother
    rcases List.mem_or_eq_of_mem_set hother with hbefore | rfl
    · exact h.calls other hbefore jobId token payload attempts hcall
    · exact h.calls task (List.mem_of_getElem? hdone.at_index) jobId token
        payload attempts hcall

theorem PayloadsKnown.raised {error : Failure} (h : PayloadsKnown P pool)
    (hraised : System.Raised pool pool' index task op next error) :
    PayloadsKnown P pool' := by
  refine ⟨hraised.store ▸ h.jobs, fun other hother jobId token payload attempts
    hcall => ?_⟩
  rw [hraised.store]
  rw [hraised.tasks] at hother
  rcases List.mem_or_eq_of_mem_set hother with hbefore | rfl
  · exact h.calls other hbefore jobId token payload attempts hcall
  · exact h.calls task (List.mem_of_getElem? hraised.at_index) jobId token
      payload attempts hcall

theorem PayloadsKnown.event {event : Event} {calls : List Call}
    (hkept : ∀ payload, P pool.store payload → P pool'.store payload)
    (h : PayloadsKnown P pool)
    (happly : event.apply pool.store pool.tasks.length =
      some (pool'.store, calls))
    (htasks : pool'.tasks = pool.tasks ++ calls.map (platform env).spawn) :
    PayloadsKnown P pool' := by
  refine ⟨fun job hjob => ?_, fun task htask jobId token payload attempts
    hcall => ?_⟩
  · obtain ⟨old, hold, hsame⟩ := payload_of_event happly hjob
    rw [← hsame]
    exact hkept _ (h.jobs old hold)
  · rw [htasks] at htask
    rcases List.mem_append.mp htask with hbefore | hnew
    · exact hkept _ (h.calls task hbefore jobId token payload attempts hcall)
    · obtain ⟨call, hmem, rfl⟩ := List.mem_map.mp hnew
      obtain rfl : call = .processJob jobId token payload attempts := hcall
      obtain ⟨job, hjob, rfl⟩ := payload_of_delivered happly hmem
      exact hkept _ (h.jobs job hjob)

end Payloads

/-- What is known of a payload when it is queued, and is not undone. -/
theorem payloads_of_reach {P : Store → JobPayload → Prop}
    (hinit : ∀ job ∈ init.jobs, P init job.payload)
    (heffect : ∀ (op : Op) store payload, P store payload →
      P (op.effect store) payload)
    (hevent : ∀ (store : Store) clock jobs payload, P store payload →
      P { store with clock := clock, jobs := jobs } payload)
    (hadd : ∀ (pool pool' : Platform) index task jobId payload attempts next
      value, (platform env).Reach ok init.boot pool →
      (platform env).Done pool pool' index task
        (.queueAdd jobId payload attempts) next value → P pool.store payload)
    (h : (platform env).Reach ok init.boot pool) : PayloadsKnown P pool := by
  refine h.invariant (I := PayloadsKnown P) ?_ ?_ ?_ ?_ ?_
  · exact ⟨hinit, fun task htask => absurd htask List.not_mem_nil⟩
  · intro pool call _ hold _ hclient
    refine ⟨hold.jobs, fun task htask jobId token payload attempts hcall => ?_⟩
    rcases List.mem_append.mp htask with hbefore | hnew
    · exact hold.calls task hbefore jobId token payload attempts hcall
    · obtain rfl := List.mem_singleton.mp hnew
      obtain rfl : call = .processJob jobId token payload attempts := hcall
      cases hclient
  · intro pool pool' index task op next value hreach hold _ hdone
    refine hold.done (heffect op) (fun jobId payload attempts heq => ?_) hdone
    subst heq
    exact hadd _ _ _ _ _ _ _ _ _ hreach hdone
  · exact fun _ _ _ _ _ _ _ _ hold _ hraised => hold.raised hraised
  · intro pool pool' event calls _ hold _ henv htasks
    obtain ⟨clock, jobs, hstore⟩ := Event.apply_store henv
    refine hold.event (fun payload => ?_) henv htasks
    rw [hstore]
    exact hevent pool.store clock jobs payload

end Reachable

end SyncBridge
