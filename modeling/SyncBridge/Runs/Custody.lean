import SyncBridge.QueueCustody
import SyncBridge.Sample

/-!
# No sync run is orphaned

A run that stays `QUEUED` or `RUNNING` with nobody working on it blocks its
pipeline, because the scheduler sees an active run for ever.  Manual and webhook
runs are executed without a handler that would write `FAILED`, and a queued run
is stored before its job is, so an exception can orphan a run.  Unless a call
ends that way, every active run is queued or in the hands of a call.
-/

namespace SyncBridge

open SyncBridge.Foundation SyncBridge.Foundation.Prog

/-! ## Sync runs as the subject of jobs -/

def JobPayload.syncRunId? : JobPayload → Option Id
  | .executeSyncRun payload => some payload.syncRunId
  | .processWebhookEvent _ => none

def Store.RunActive (store : Store) (id : Id) : Prop :=
  Table.Has SyncRun.id (fun row => row.status.isActive = true) id
    store.syncRuns

instance (store : Store) (id : Id) : Decidable (store.RunActive id) := by
  unfold Store.RunActive
  infer_instance

def Op.runOpened : (op : Op) → op.Res → Option Id
  | .syncRunCreate data, run => if data.status.isActive then some run.id else none
  | .syncRunUpdate id data, _ => if data.status.isActive then some id else none
  | _, _ => none

def Op.runFinished : Op → Option Id
  | .syncRunUpdate id data => if data.status.isActive then none else some id
  | _ => none

def runSubject : Subject where
  ofJob := JobPayload.syncRunId?
  pending := Store.RunActive
  opened := Op.runOpened
  finished := Op.runFinished

theorem runFinished_eq_none {op : Op} (hop : op.writesSyncRuns = false) :
    op.runFinished = none := by
  cases op with
  | syncRunUpdate _ _ => cases hop
  | _ => rfl

theorem runSubject_lawful (env : Env) : runSubject.Lawful env where
  step := by
    intro op store value store' hexec id hpending
    have hstore := exec_effect hexec
    cases hop : op.writesSyncRuns with
    | false =>
        have hruns : store'.syncRuns = store.syncRuns := by
          rw [hstore, effect_syncRuns hop]
        refine .inr ⟨?_, ?_⟩
        · simpa [runSubject, Store.RunActive, hruns] using hpending
        · show op.runFinished ≠ some id
          rw [runFinished_eq_none hop]
          exact nofun
    | true =>
        subst hstore
        cases op with
        | syncRunCreate data =>
            have hrun : value = (store.createSyncRun data).1 :=
              (congrArg Prod.fst (Except.ok.inj hexec)).symm
            subst hrun
            rcases Table.has_append_singleton hpending with
              ⟨hnew, hactive⟩ | hold
            · exact .inl ((if_pos hactive).trans (congrArg some hnew))
            · exact .inr ⟨hold, (Option.some_ne_none id).symm⟩
        | syncRunUpdate written data =>
            have hid : ∀ row, (data.apply row).id = row.id := fun _ => rfl
            rcases Table.has_modify hid hpending with ⟨rfl, _, hactive⟩ | ⟨hold, hne⟩
            · exact .inl (if_pos hactive)
            · refine .inr ⟨hold, ?_⟩
              simp only [runSubject, Op.runFinished]
              split
              · exact nofun
              · simpa using hne
        | _ => cases hop
  frame _ _ _ _ h := h

/-! ## Active runs -/

def Store.RunQueued (store : Store) (id : Id) : Prop :=
  ∃ job ∈ store.jobs, job.state.isOpen = true ∧
    job.payload.syncRunId? = some id

/-- The call has not ended, and it took the run on: it stored it, set it to
`RUNNING` or was started for a job about it, and since then it has neither
written a final status nor put a job for it on the queue. -/
def HandlesRun (env : Env) (task : Task Op.Res Failure Answer Call) (id : Id) :
    Prop :=
  task.prog.finished = false ∧ id ∈ (runSubject.owed env).state task

def RunsAttended (env : Env) (pool : Platform) : Prop :=
  ∀ row ∈ pool.store.syncRuns, row.status.isActive = true →
    pool.store.RunQueued row.id ∨ ∃ task ∈ pool.tasks, HandlesRun env task row.id

/-- The step ends a call that took on a run still active: it throws, or it
gives the job up for good. -/
def LosesRun (env : Env) (pool : Platform) (step : Step) : Prop :=
  Abandons (platform env) (runSubject.owed env) Store.RunActive pool step

instance (env : Env) (pool : Platform) (step : Step) :
    Decidable (LosesRun env pool step) := by
  unfold LosesRun
  infer_instance

theorem runs_attended {env : Env} {init : Store} {pool : Platform}
    (hunlocked : init.Unlocked env) (hnone : ∀ id, ¬ init.RunActive id)
    (h : (platform env).Reach (fun pool step => ¬ LosesRun env pool step)
      init.boot pool) : RunsAttended env pool := by
  intro row hrow hactive
  rcases Subject.attended (runSubject_lawful env) hunlocked hnone h row.id
      ⟨row, hrow, rfl, hactive⟩ with
    ⟨job, hjob, hwaiting, hsubject⟩ | ⟨task, htask, hrunning, howes⟩
  · exact .inl ⟨job, hjob, by rw [hwaiting]; rfl, hsubject⟩
  · exact .inr ⟨task, htask, hrunning, howes⟩

def manualRun : Call :=
  .createForPipeline Sample.pipeline.id ⟨none, none, none⟩ Sample.operator

theorem runs_attended_of_delivery :
    ∃ pool, (platform (Sample.env .async)).runWhere
        (fun pool step => ¬ LosesRun (Sample.env .async) pool step)
        Sample.store.boot
        ([.start manualRun] ++ List.replicate 7 (.run 0) ++
          [.env (.deliver 0)] ++ List.replicate 16 (.run 1)) = some pool ∧
      RunsAttended (Sample.env .async) pool := by
  have hruns : ((platform (Sample.env .async)).runWhere
      (fun pool step => ¬ LosesRun (Sample.env .async) pool step)
      Sample.store.boot
      ([.start manualRun] ++ List.replicate 7 (.run 0) ++
        [.env (.deliver 0)] ++ List.replicate 16 (.run 1))).isSome = true := by
    decide
  obtain ⟨pool, hrun⟩ := Option.isSome_iff_exists.mp hruns
  refine ⟨pool, hrun, runs_attended (unlocked_of_no_jobs rfl) ?_
    (System.reach_of_runWhere hrun)⟩
  rintro id ⟨row, hrow, -⟩
  cases hrow

/-! ## A run that nobody works on -/

def orphanedRun : List Step :=
  [.start manualRun, .run 0, .run 0, .run 0, .run 0,
   .fail 0 (.error "audit log unavailable")]

def orphaned (pool : Platform) : Bool :=
  (pool.store.syncRuns.any fun row => row.status.isActive) &&
  (pool.tasks.all fun task => task.prog.finished) &&
  pool.store.jobs.isEmpty

theorem not_runsAttended_of_orphaned {env : Env} {pool : Platform}
    (h : orphaned pool = true) : ¬ RunsAttended env pool := by
  simp only [orphaned, Bool.and_eq_true, List.any_eq_true, List.all_eq_true,
    List.isEmpty_iff] at h
  obtain ⟨⟨⟨row, hrow, hactive⟩, hfinished⟩, hjobs⟩ := h
  intro hattended
  obtain ⟨job, hjob, -⟩ | ⟨task, htask, hruns, -⟩ := hattended row hrow hactive
  · rw [hjobs] at hjob
    cases hjob
  · rw [hfinished task htask] at hruns
    cases hruns

theorem runs_attended_fails :
    ∃ pool, Reachable (Sample.env .sync) Sample.store pool ∧
      ¬ RunsAttended (Sample.env .sync) pool := by
  have hruns : ((platform (Sample.env .sync)).run Sample.store.boot
      orphanedRun).any orphaned = true := by decide
  obtain ⟨pool, hrun, horphaned⟩ := (Option.any_eq_true _ _).mp hruns
  exact ⟨pool, System.reach_of_run hrun,
    not_runsAttended_of_orphaned horphaned⟩

end SyncBridge
