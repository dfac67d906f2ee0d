import SyncBridge.Deliveries
import SyncBridge.Foundation.Custody

/-!
# Custody of what jobs are about

Webhook events and sync runs live alike: a call makes a row pending, writes its
final status or puts a job for it on the queue, and a delivery of the job takes
it over.  A failed attempt gives the row back to the queue while attempts
remain.
-/

namespace SyncBridge

open SyncBridge.Foundation SyncBridge.Foundation.Prog

/-- A kind of row that jobs are about. -/
structure Subject where
  ofJob : JobPayload → Option Id
  pending : Store → Id → Prop
  /-- The row that the operation made pending. -/
  opened : (op : Op) → op.Res → Option Id
  /-- The row that the operation gives a final status. -/
  finished : Op → Option Id

structure Subject.Lawful (env : Env) (S : Subject) : Prop where
  step : ∀ op store value store', exec env op store = .ok (value, store') →
    ∀ id, S.pending store' id →
      S.opened op value = some id ∨
        S.pending store id ∧ S.finished op ≠ some id
  frame : ∀ store clock jobs id,
    S.pending { store with clock := clock, jobs := jobs } id →
      S.pending store id

def QueueJobState.isOpen : QueueJobState → Bool
  | .waiting => true
  | .active _ => true
  | _ => false

def handedOver (env : Env) (call : Call) : Op → Option JobPayload
  | .queueAdd _ payload _ => some payload
  | .moveToFailed _ _ =>
      match call with
      | .processJob _ _ payload attempts =>
          if attempts < env.defaultAttempts then some payload else none
      | _ => none
  | _ => none

namespace Subject

variable (S : Subject)

def owedAtStart : Call → List Id
  | .processJob _ _ payload _ => (S.ofJob payload).toList
  | _ => []

def owedAfter (env : Env) (call : Call) (owed : List Id) (op : Op)
    (value : op.Res) : List Id :=
  match S.opened op value with
  | some id => id :: owed
  | none =>
      match handedOver env call op with
      | some payload => owed.filter fun id => S.ofJob payload ≠ some id
      | none =>
          match S.finished op with
          | some finished => owed.filter fun id => finished ≠ id
          | none => owed

def owed (env : Env) : Monitor Op.Res Call (List Id) where
  init := S.owedAtStart
  note := S.owedAfter env
  guard _ _ _ := True
  facts _ _ _ _ := True

def Queued (store : Store) (id : Id) : Prop :=
  ∃ job ∈ store.jobs, job.state = .waiting ∧ S.ofJob job.payload = some id

structure Sound (env : Env) (pool : Platform) : Prop where
  locks : LocksMatch env pool
  uses : ∀ task ∈ pool.tasks, task.prog.Uses (task.call.mayAttempt env)

variable {S} {env : Env} {pool pool' : Platform}

theorem queued_of_queueAdd {store : Store} {jobId id : Id}
    {payload : JobPayload} {attempts : Nat} (h : S.ofJob payload = some id) :
    S.Queued ((Op.queueAdd jobId payload attempts).effect store) id :=
  ⟨_, List.mem_append_right _ (List.mem_singleton_self _), rfl, h⟩

theorem queued_of_moveToFailed {index : Nat}
    {task : Task Op.Res Failure Answer Call} {jobId token id : Id}
    {next : Except Failure Unit → Body Answer} {value : Unit}
    {payload : JobPayload} (hsound : Sound env pool)
    (hdone : (platform env).Done pool pool' index task
      (.moveToFailed jobId token) next value)
    (hhanded : handedOver env task.call (.moveToFailed jobId token) =
      some payload)
    (h : S.ofJob payload = some id) : S.Queued pool'.store id := by
  have huses := hsound.uses task (List.mem_of_getElem? hdone.at_index)
  rw [hdone.awaits] at huses
  obtain ⟨payload', attempts, hcall⟩ := huses.1
  simp only [handedOver, hcall] at hhanded
  split at hhanded
  · rename_i hremain
    obtain rfl := Option.some.inj hhanded
    obtain ⟨job, hjob, rfl, hactive⟩ := exec_moveToFailed (exec_of_done hdone)
    have hown : pool.calls[index]? =
        some (.processJob job.id token payload' attempts) := by
      simp [Pool.calls, hdone.at_index, hcall]
    have htoken := hsound.locks.token index _ _ _ _ hown
    have hlocked := hsound.locks.locked job hjob token hactive
    rw [htoken, hown] at hlocked
    cases hlocked
    refine ⟨job.retryOrFail, ?_, ?_, h⟩
    · rw [effect_of_done hdone]
      refine List.mem_map.mpr ⟨job, hjob, ?_⟩
      simp [QueueJob.settled, hactive]
    · simp [QueueJob.retryOrFail, hsound.locks.attempts job hjob, hremain]
  · cases hhanded

theorem queued_of_handedOver {index : Nat}
    {task : Task Op.Res Failure Answer Call} {op : Op}
    {next : Except Failure op.Res → Body Answer} {value : op.Res}
    {payload : JobPayload} {id : Id} (hsound : Sound env pool)
    (hdone : (platform env).Done pool pool' index task op next value)
    (hhanded : handedOver env task.call op = some payload)
    (h : S.ofJob payload = some id) : S.Queued pool'.store id := by
  cases op with
  | queueAdd jobId added attempts =>
      obtain rfl : added = payload := Option.some.inj hhanded
      rw [effect_of_done hdone]
      exact queued_of_queueAdd h
  | moveToFailed jobId token =>
      exact queued_of_moveToFailed hsound hdone hhanded h
  | _ => cases hhanded

theorem Queued.exec {op : Op} {store store' : Store} {value : op.Res} {id : Id}
    (h : S.Queued store id) (hexec : exec env op store = .ok (value, store')) :
    S.Queued store' id := by
  obtain ⟨job, hjob, hwaiting, hsubject⟩ := h
  rw [exec_effect hexec]
  have hsettled : ∀ jobId token settle,
      job ∈ store.jobs.map (QueueJob.settled jobId token settle) := by
    intro jobId token settle
    refine List.mem_map.mpr ⟨job, hjob, ?_⟩
    simp [QueueJob.settled, hwaiting]
  cases hop : op.writesJobs with
  | false => exact ⟨job, by rwa [effect_jobs hop], hwaiting, hsubject⟩
  | true =>
      cases op with
      | queueAdd _ _ _ =>
          exact ⟨job, List.mem_append_left _ hjob, hwaiting, hsubject⟩
      | moveToCompleted jobId token =>
          exact ⟨job, hsettled jobId token _, hwaiting, hsubject⟩
      | moveToFailed jobId token =>
          exact ⟨job, hsettled jobId token _, hwaiting, hsubject⟩
      | _ => cases hop

theorem Queued.event {event : Event} {store store' : Store} {token : Nat}
    {calls : List Call} {id : Id} (h : S.Queued store id)
    (happly : event.apply store token = some (store', calls)) :
    S.Queued store' id ∨ ∃ call ∈ calls, id ∈ S.owedAtStart call := by
  obtain ⟨job, hjob, hwaiting, hsubject⟩ := h
  obtain ⟨place, hplace⟩ := List.mem_iff_getElem?.mp hjob
  have hother : ∀ position other state, store.jobs[position]? = some other →
      other ≠ job →
      job ∈ (store.setJobState position other state).jobs := by
    intro position other state hget hne
    rw [List.mem_iff_getElem?]
    refine ⟨place, ?_⟩
    rw [Store.setJobState, List.getElem?_set_ne]
    · exact hplace
    · rintro rfl
      exact hne (Option.some.inj (hget.symm.trans hplace))
  rcases Event.apply_cases happly with
    ⟨clock, rfl, -⟩ | ⟨position, other, hget, -, rfl, rfl⟩ |
    ⟨position, other, held, hget, hactive, rfl, -⟩
  · exact .inl ⟨job, hjob, hwaiting, hsubject⟩
  · by_cases heq : other = job
    · subst heq
      exact .inr ⟨_, List.mem_singleton_self _, by simp [owedAtStart, hsubject]⟩
    · exact .inl ⟨job, hother position other _ hget heq, hwaiting, hsubject⟩
  · refine .inl ⟨job, hother position other _ hget ?_, hwaiting, hsubject⟩
    rintro rfl
    rw [hwaiting] at hactive
    cases hactive

theorem custody (hlawful : S.Lawful env) :
    Custody (platform env) (S.owed env) S.pending S.Queued (Sound env) where
  started := by
    intro call id howed
    cases call with
    | processJob jobId token payload attempts => cases payload <;> rfl
    | _ => cases howed
  done := by
    intro pool pool' index task op next value hsound hdone id hpending
    have hstep := hlawful.step op pool.store value pool'.store
      (exec_of_done hdone) id hpending
    by_cases howed : id ∈ (S.owed env).state task
    · show id ∈ S.owedAfter env task.call ((S.owed env).state task) op value ∨ _
      simp only [owedAfter]
      split
      · exact .inl (List.mem_cons_of_mem _ howed)
      · rename_i hopened
        have hbefore := hstep.resolve_left (by simp [hopened])
        split
        · rename_i payload hhanded
          by_cases hsubject : S.ofJob payload = some id
          · exact .inr ⟨hbefore.1, fun _ =>
              queued_of_handedOver hsound hdone hhanded hsubject⟩
          · exact .inl (List.mem_filter.mpr ⟨howed, by simpa using hsubject⟩)
        · split
          · rename_i finished hfinished
            refine .inl (List.mem_filter.mpr ⟨howed, ?_⟩)
            have hne := hbefore.2
            rw [hfinished] at hne
            simpa using hne
          · exact .inl howed
    · rcases hstep with hopened | ⟨hbefore, -⟩
      · left
        show id ∈ S.owedAfter env task.call ((S.owed env).state task) op value
        simp [owedAfter, hopened]
      · exact .inr ⟨hbefore, fun h => absurd h howed⟩
  kept := fun _ _ _ _ hexec _ hqueued => hqueued.exec hexec
  event := by
    intro event store token store' calls happly id hpending
    refine ⟨?_, fun hqueued => hqueued.event happly⟩
    obtain ⟨clock, jobs, rfl⟩ := Event.apply_store happly
    exact hlawful.frame _ _ _ _ hpending

/-- While no call ends with a debt, every pending row is about to be seen to. -/
theorem attended (hlawful : S.Lawful env) {init : Store}
    (hunlocked : init.Unlocked env) (hnone : ∀ id, ¬ S.pending init id)
    (h : (platform env).Reach (fun pool action =>
      ¬ Abandons (platform env) (S.owed env) S.pending pool action)
      init.boot pool) :
    ∀ id, S.pending pool.store id → Attended (S.owed env) S.Queued pool id :=
  (custody hlawful).attended
    (fun _ hpool => ⟨locksMatch_of_reach hunlocked hpool, uses_of_reach hpool⟩)
    hnone h

end Subject

end SyncBridge
