import SyncBridge.Intake.Idempotency
import SyncBridge.QueueCustody

/-!
# No event is lost behind a duplicate

A sender that is told `duplicate` does not deliver again, so the stored event
must be on its way: finished, queued, or in the hands of a call.  Intake stores
the event and queues the job in separate steps, and a failure between them
leaves an event that nobody has.  Unless a call ends that way, the answer
`duplicate` is safe.
-/

namespace SyncBridge

open SyncBridge.Foundation SyncBridge.Foundation.Prog

/-! ## Webhook events as the subject of jobs -/

def JobPayload.webhookEventId? : JobPayload → Option Id
  | .processWebhookEvent payload => some payload.webhookEventId
  | .executeSyncRun _ => none

def Store.EventReceived (store : Store) (id : Id) : Prop :=
  Table.Has WebhookEvent.id (fun row => row.status = .received) id
    store.webhookEvents

instance (store : Store) (id : Id) : Decidable (store.EventReceived id) := by
  unfold Store.EventReceived
  infer_instance

def Op.eventOpened : (op : Op) → op.Res → Option Id
  | .webhookEventCreate _, event => some event.id
  | .webhookEventUpdate id data, _ =>
      if data.status = .received then some id else none
  | _, _ => none

def Op.eventFinished : Op → Option Id
  | .webhookEventUpdate id data =>
      if data.status = .received then none else some id
  | _ => none

def eventSubject : Subject where
  ofJob := JobPayload.webhookEventId?
  pending := Store.EventReceived
  opened := Op.eventOpened
  finished := Op.eventFinished

theorem eventFinished_eq_none {op : Op} (hop : op.writesWebhookEvents = false) :
    op.eventFinished = none := by
  cases op with
  | webhookEventUpdate _ _ => cases hop
  | _ => rfl

theorem eventSubject_lawful (env : Env) : eventSubject.Lawful env where
  step := by
    intro op store value store' hexec id hpending
    have hstore := exec_effect hexec
    cases hop : op.writesWebhookEvents with
    | false =>
        have hevents : store'.webhookEvents = store.webhookEvents := by
          rw [hstore, effect_webhookEvents hop]
        refine .inr ⟨?_, ?_⟩
        · simpa [eventSubject, Store.EventReceived, hevents] using hpending
        · show op.eventFinished ≠ some id
          rw [eventFinished_eq_none hop]
          exact nofun
    | true =>
        subst hstore
        cases op with
        | webhookEventCreate data =>
            obtain ⟨-, rfl⟩ := exec_webhookEventCreate hexec
            rcases Table.has_append_singleton hpending with ⟨hnew, -⟩ | hold
            · exact .inl (congrArg some hnew)
            · exact .inr ⟨hold, (Option.some_ne_none id).symm⟩
        | webhookEventUpdate written data =>
            have hid : ∀ row, (data.apply row).id = row.id := fun _ => rfl
            rcases Table.has_modify hid hpending with ⟨rfl, _, hstatus⟩ | ⟨hold, hne⟩
            · exact .inl (if_pos hstatus)
            · refine .inr ⟨hold, ?_⟩
              simp only [eventSubject, Op.eventFinished]
              split
              · exact nofun
              · simpa using hne
        | _ => cases hop
  frame _ _ _ _ h := h

/-! ## The answer `duplicate` -/

def WebhookEventStatus.isFinal : WebhookEventStatus → Bool
  | .received => false
  | _ => true

def Store.EventQueued (store : Store) (id : Id) : Prop :=
  ∃ job ∈ store.jobs, job.state.isOpen = true ∧
    job.payload.webhookEventId? = some id

/-- The call has not ended, and it took the event on: it stored it, set it back
to `RECEIVED` or was started for a job about it, and since then it has neither
written a final status nor put a job for it on the queue. -/
def HandlesEvent (env : Env) (task : Task Op.Res Failure Answer Call)
    (id : Id) : Prop :=
  task.prog.finished = false ∧ id ∈ (eventSubject.owed env).state task

/-- Whoever was told `duplicate` was told so of an event that is finished, is
queued or is being handled. -/
def DuplicatesAttended (env : Env) (pool : Platform) : Prop :=
  ∀ task ∈ pool.tasks, ∀ params answer, task.call = .receiveEvent params →
    task.prog = .ret (.webhook answer) → answer.duplicate = true →
    ∃ row ∈ pool.store.webhookEvents, row.id = answer.eventId ∧
      (row.status.isFinal = true ∨ pool.store.EventQueued row.id ∨
        ∃ other ∈ pool.tasks, HandlesEvent env other row.id)

/-- The step ends a call that took on an event still `RECEIVED`: it throws, or
it gives the job up for good. -/
def LosesEvent (env : Env) (pool : Platform) (step : Step) : Prop :=
  Abandons (platform env) (eventSubject.owed env) Store.EventReceived pool step

instance (env : Env) (pool : Platform) (step : Step) :
    Decidable (LosesEvent env pool step) := by
  unfold LosesEvent
  infer_instance

theorem duplicates_attended {env : Env} {init : Store} {pool : Platform}
    (hunlocked : init.Unlocked env) (hnone : ∀ id, ¬ init.EventReceived id)
    (h : (platform env).Reach (fun pool step => ¬ LosesEvent env pool step)
      init.boot pool) : DuplicatesAttended env pool := by
  intro task htask params answer hcall hprog hduplicate
  have hreachable : Reachable env init pool := h.mono fun _ _ _ => trivial
  have haccepts := accepted_of_reachable hreachable task htask
  rw [hprog, Monitor.accepts_ret] at haccepts
  obtain ⟨found, hfound, hid⟩ := haccepts params hcall hduplicate
  obtain ⟨-, -, -, -, row, hrow, -, hrowid⟩ :=
    storedUnder_of_found hreachable task htask found hfound
  refine ⟨row, hrow, hrowid.trans hid, ?_⟩
  cases hstatus : row.status with
  | received =>
      right
      rcases Subject.attended (eventSubject_lawful env) hunlocked hnone h row.id
          ⟨row, hrow, rfl, hstatus⟩ with
        ⟨job, hjob, hwaiting, hsubject⟩ | ⟨other, hother, hrunning, howes⟩
      · exact .inl ⟨job, hjob, by rw [hwaiting]; rfl, hsubject⟩
      · exact .inr ⟨other, hother, hrunning, howes⟩
  | _ => exact .inl rfl

/-- An answered delivery followed by another one. -/
theorem duplicates_attended_of_redelivery :
    ∃ pool, (platform (Sample.env .async)).runWhere
        (fun pool step => ¬ LosesEvent (Sample.env .async) pool step)
        Sample.store.boot
        [.start (.receiveEvent Sample.delivery),
         .run 0, .run 0, .run 0, .run 0, .run 0, .run 0, .run 0, .run 0,
         .start (.receiveEvent Sample.delivery), .run 1, .run 1] =
          some pool ∧
      DuplicatesAttended (Sample.env .async) pool := by
  have hruns : ((platform (Sample.env .async)).runWhere
      (fun pool step => ¬ LosesEvent (Sample.env .async) pool step)
      Sample.store.boot
      [.start (.receiveEvent Sample.delivery),
       .run 0, .run 0, .run 0, .run 0, .run 0, .run 0, .run 0, .run 0,
       .start (.receiveEvent Sample.delivery), .run 1, .run 1]).isSome =
        true := by decide
  obtain ⟨pool, hrun⟩ := Option.isSome_iff_exists.mp hruns
  refine ⟨pool, hrun, duplicates_attended (unlocked_of_no_jobs rfl)
    ?_ (System.reach_of_runWhere hrun)⟩
  rintro id ⟨row, hrow, -⟩
  cases hrow

/-! ## The answer `duplicate` for an event that nobody has -/

def lostEventRun : List Step :=
  [.start (.receiveEvent Sample.delivery), .run 0, .run 0, .run 0,
   .fail 0 (.error "audit log unavailable"),
   .start (.receiveEvent Sample.delivery), .run 1, .run 1]

def lostEvent (pool : Platform) : Bool :=
  (pool.tasks.any fun task =>
    match task.call, answerOf task with
    | .receiveEvent _, some (.webhook answer) => answer.duplicate
    | _, _ => false) &&
  (pool.tasks.all fun task => task.prog.finished) &&
  pool.store.jobs.isEmpty &&
  pool.store.webhookEvents.all fun row => row.status = .received

theorem not_duplicatesAttended_of_lostEvent {env : Env} {pool : Platform}
    (h : lostEvent pool = true) : ¬ DuplicatesAttended env pool := by
  simp only [lostEvent, Bool.and_eq_true, List.any_eq_true, List.all_eq_true,
    List.isEmpty_iff, decide_eq_true_eq] at h
  obtain ⟨⟨⟨⟨task, htask, hanswer⟩, hfinished⟩, hjobs⟩, hreceived⟩ := h
  split at hanswer
  · rename_i params answer hcall hprog
    intro hattended
    obtain ⟨row, hrow, -, hfinal | ⟨job, hjob, -⟩ | ⟨other, hother, hruns, -⟩⟩ :=
      hattended task htask params answer hcall (prog_of_answerOf hprog) hanswer
    · rw [hreceived row hrow] at hfinal
      cases hfinal
    · rw [hjobs] at hjob
      cases hjob
    · rw [hfinished other hother] at hruns
      cases hruns
  · cases hanswer

theorem duplicates_attended_fails :
    ∃ pool, Reachable (Sample.env .async) Sample.store pool ∧
      ¬ DuplicatesAttended (Sample.env .async) pool := by
  have hruns : ((platform (Sample.env .async)).run Sample.store.boot
      lostEventRun).any lostEvent = true := by decide
  obtain ⟨pool, hrun, hlost⟩ := (Option.any_eq_true _ _).mp hruns
  exact ⟨pool, System.reach_of_run hrun,
    not_duplicatesAttended_of_lostEvent hlost⟩

end SyncBridge
