import SyncBridge.Foundation.Lookups
import SyncBridge.Runs.Custody

/-!
# Runs of archived pipelines

A run is created for a pipeline that the call has looked up before: by its
identifier, or among the active pipelines of the connector of an event.  Only
the second look is a test of the status, and neither is repeated at the insert.
-/

namespace SyncBridge

open SyncBridge.Foundation SyncBridge.Foundation.Prog

def Store.archived (store : Store) (pipelineId : Id) : Bool :=
  (Table.find SyncPipeline.id pipelineId store.pipelines).any fun row =>
    row.status = .archived

def Op.looksUpPipelines : Op → Bool
  | .pipelineFindUnique _ => true
  | .pipelineFindActive _ => true
  | _ => false

def runLookup : Lookup Op.Res Id where
  looks op := op.looksUpPipelines = true
  acts pipelineId
    | .syncRunCreate data => data.pipelineId = pipelineId
    | _ => False
  shows pipelineId
    | .pipelineFindUnique _, found => ∃ row, found = some row ∧
        row.id = pipelineId
    | .pipelineFindActive _, rows => ∃ row ∈ rows, row.id = pipelineId
    | _, _ => False

/-! ## The bodies -/

section Bodies

variable {env : Env}

abbrev LooksFirst {α : Type} (body : Body α) : Prop :=
  runLookup.ActsOn (fun _ => False) body

theorem looksFirst_await {op : Op}
    (hop : ∀ data, op ≠ .syncRunCreate data) : LooksFirst (await op) := by
  refine Lookup.actsOn_await fun pipelineId hacts => ?_
  cases op with
  | syncRunCreate data => exact hop data rfl
  | _ => exact hacts

theorem looksFirst_quiet :
    Quiet fun {_} (body : Body _) => LooksFirst body where
  toCompositional := Lookup.compositional_actsOn runLookup
  op op hop := looksFirst_await fun data heq => by
    rw [heq] at hop
    cases hop

def Op.onBehalf (pipelineId : Id) (op : Op) : Prop :=
  ¬ runLookup.looks op ∧ ∀ id, runLookup.acts id op → id = pipelineId

theorem onBehalf_of_processesFor {pipelineId : Id} {op : Op}
    (h : op.processesFor pipelineId) : op.onBehalf pipelineId := by
  cases op with
  | syncRunCreate data => exact ⟨Bool.false_ne_true, fun _ hid => hid ▸ h.1⟩
  | pipelineFindUnique _ | pipelineFindActive _ => cases h
  | _ => exact ⟨Bool.false_ne_true, fun _ hacts => hacts.elim⟩

theorem onBehalf_now {pipelineId : Id} :
    currentTime.Uses (Op.onBehalf pipelineId) :=
  (uses_await _).mpr ⟨Bool.false_ne_true, fun _ hacts => hacts.elim⟩

theorem onBehalf_log {pipelineId : Id} {action entityType entityId : String}
    {metadata : Record} {actor : AuditActor} :
    (AuditService.log action entityType entityId metadata actor).Uses
      (Op.onBehalf pipelineId) :=
  (uses_await _).mpr ⟨Bool.false_ne_true, fun _ hacts => hacts.elim⟩

theorem onBehalf_create {data : NewSyncRun} :
    (await (.syncRunCreate data)).Uses (Op.onBehalf data.pipelineId) :=
  (uses_await _).mpr ⟨Bool.false_ne_true, fun _ hacts => hacts.symm⟩

theorem createRunFromPipeline_onBehalf {pipeline : SyncPipeline}
    {options : CreateRunOptions} :
    runLookup.ActsOn (fun id => id = pipeline.id)
      (SyncRunsService.createRunFromPipeline env pipeline options) := by
  have hwrite : ∀ {op : Op}, (∀ data, op ≠ .syncRunCreate data) →
      LooksFirst (await op) := looksFirst_await
  simp only [SyncRunsService.createRunFromPipeline]
  split
  · refine Lookup.actsOn_bind onBehalf_create fun syncRun => ?_
    refine Lookup.ActsOn.anywhere ?_
    refine looksFirst_quiet.bind (hwrite (by simp)) fun backgroundJob => ?_
    refine looksFirst_quiet.bind (enqueueJob_rule looksFirst_quiet
      (hwrite (by simp))) fun _ => ?_
    exact looksFirst_quiet.bind (log_rule looksFirst_quiet) fun _ =>
      looksFirst_quiet.bind (log_rule looksFirst_quiet) fun _ =>
        looksFirst_quiet.ret _
  · refine Lookup.actsOn_bind onBehalf_now fun startedAt => ?_
    refine Lookup.actsOn_bind onBehalf_create fun initialRun => ?_
    refine Lookup.ActsOn.anywhere ?_
    refine looksFirst_quiet.bind (log_rule looksFirst_quiet) fun _ => ?_
    refine looksFirst_quiet.bind (processRunRecords_rule looksFirst_quiet
      (fun _ _ _ => hwrite (by simp)) fun _ _ => hwrite (by simp))
      fun summary => ?_
    refine looksFirst_quiet.bind (currentTime_rule looksFirst_quiet)
      fun finishedAt => ?_
    refine looksFirst_quiet.bind (hwrite (by simp)) fun completedRun => ?_
    refine looksFirst_quiet.bind (hwrite (by simp)) fun _ => ?_
    exact looksFirst_quiet.bind (log_rule looksFirst_quiet) fun _ =>
      looksFirst_quiet.bind (log_rule looksFirst_quiet) fun _ =>
        looksFirst_quiet.ret _

theorem looksFirst_findUnique {α : Type} {pipelineId : Id}
    {rest : Option SyncPipeline → Body α}
    (hnone : LooksFirst (rest none))
    (hsome : ∀ pipeline, runLookup.ActsOn (fun id => id = pipeline.id)
      (rest (some pipeline))) :
    LooksFirst ((await (.pipelineFindUnique pipelineId)).bind rest) := by
  refine Lookup.actsOn_look rfl (fun _ => id) fun found => ?_
  cases found with
  | none => exact hnone.anywhere
  | some pipeline =>
      exact (hsome pipeline).mono fun id hid => ⟨pipeline, rfl, hid.symm⟩

theorem createForPipeline_looksFirst {pipelineId : Id} {dto : CreateSyncRunDto}
    {user : AuthenticatedUser} :
    LooksFirst (SyncRunsService.createForPipeline env pipelineId dto user) := by
  simp only [SyncRunsService.createForPipeline, PipelinesService.findOne,
    PipelinesService.getById, bind_eq, pure_eq, ret_bind, Prog.bind_assoc]
  refine looksFirst_findUnique (looksFirst_quiet.throw _) fun pipeline => ?_
  simp only [orNotFound, ret_bind]
  refine Lookup.actsOn_bind (uses_ofExcept _) fun _ => ?_
  exact Lookup.actsOn_bind onBehalf_log fun _ => createRunFromPipeline_onBehalf

theorem createScheduledForPipeline_looksFirst {pipelineId : Id}
    {actor : AuditActor} :
    LooksFirst (SyncRunsService.createScheduledForPipeline env pipelineId
      actor) := by
  simp only [SyncRunsService.createScheduledForPipeline,
    PipelinesService.getById, bind_eq, Prog.bind_assoc]
  exact looksFirst_findUnique (looksFirst_quiet.throw _) fun pipeline =>
    createRunFromPipeline_onBehalf

theorem finishEvent_looksFirst {eventId : Id} {status : WebhookEventStatus}
    {errorMessage : Option String} :
    LooksFirst (WebhooksService.finishEvent eventId status errorMessage) :=
  looksFirst_quiet.bind (currentTime_rule looksFirst_quiet) fun _ =>
    looksFirst_await (by simp)

theorem processWebhookEventNow_looksFirst {eventId : Id} {actor : AuditActor} :
    LooksFirst (WebhooksService.processWebhookEventNow env eventId actor) := by
  have quiet := looksFirst_quiet
  simp only [WebhooksService.processWebhookEventNow, bind_eq]
  refine quiet.await rfl fun _ => quiet.bind (orNotFound_rule quiet)
    fun event => quiet.bind ?_ fun connector => ?_
  · simp only [WebhooksService.findEventConnector]
    split
    · exact quiet.op _ rfl
    · exact quiet.ret _
  cases connector with
  | none =>
      exact quiet.bind finishEvent_looksFirst fun _ =>
        quiet.bind (log_rule quiet) fun _ => quiet.ret _
  | some connector =>
      refine Lookup.actsOn_look rfl (fun _ => id) fun pipelines => ?_
      split
      · refine Lookup.ActsOn.anywhere ?_
        exact quiet.bind finishEvent_looksFirst fun _ =>
          quiet.bind (log_rule quiet) fun _ => quiet.ret _
      · refine Lookup.actsOn_bind (Uses.foldlM (fun totals pipeline hmem =>
          processPipeline_uses.mono fun op hop => ?_) {}) fun totals => ?_
        · obtain ⟨hlooks, hacts⟩ := onBehalf_of_processesFor hop
          exact ⟨hlooks, fun id hid => ⟨pipeline, hmem, (hacts id hid).symm⟩⟩
        · refine Lookup.ActsOn.anywhere ?_
          exact quiet.bind finishEvent_looksFirst fun _ =>
            quiet.bind (log_rule quiet) fun _ => quiet.ret _

theorem body_looksFirst (call : Call) : LooksFirst (call.body env) := by
  have quiet := looksFirst_quiet
  refine body_rule_of_starts call quiet.toCompositional (fun op hop => ?_)
    (fun _ _ _ => createForPipeline_looksFirst)
    (fun _ _ _ => createScheduledForPipeline_looksFirst)
    (fun _ _ _ _ _ => ?_) fun _ _ _ => processWebhookEventNow_looksFirst
  · refine looksFirst_await fun data heq => ?_
    rw [heq] at hop
    exact hop
  · exact processQueuedSyncRun_rule quiet
      (fun _ _ _ => looksFirst_await (by simp))
      (fun _ _ => looksFirst_await (by simp))
      (fun _ _ => looksFirst_await (by simp))
      fun _ _ => looksFirst_await (by simp)

end Bodies

/-! ## Runs -/

/-- The step looks a pipeline up that is archived, and the call can go on to
create a run of it. -/
def PassesArchived (pool : Platform) : Step → Prop
  | .run index => ∃ task pipelineId next row,
      pool.tasks[index]? = some task ∧
      task.prog = .call (.pipelineFindUnique pipelineId) next ∧
      Table.find SyncPipeline.id pipelineId pool.store.pipelines = some row ∧
      row.status = .archived ∧
      runLookup.MayAct pipelineId (next (.ok (some row)))
  | _ => False

/-- The step archives a pipeline that some call has looked up and can still
create a run of. -/
def ArchivesInUse (pool : Platform) : Step → Prop
  | .run index => ∃ task pipelineId data next, pool.tasks[index]? = some task ∧
      task.prog = .call (.pipelineUpdate pipelineId data) next ∧
      data.status = some .archived ∧
      ∃ other ∈ pool.tasks, runLookup.MayAct pipelineId other.prog
  | _ => False

structure Heedful (pool : Platform) (step : Step) : Prop where
  passes : ¬ PassesArchived pool step
  archives : ¬ ArchivesInUse pool step

/-- Between the two pools a run of an archived pipeline has been inserted. -/
def RunsArchived (pool pool' : Platform) : Prop :=
  ∃ run ∈ pool'.store.syncRuns,
    (∀ old ∈ pool.store.syncRuns, old.id ≠ run.id) ∧
      pool.store.archived run.pipelineId = true

def Store.runnable (store : Store) (pipelineId : Id) : Prop :=
  ∃ row, Table.find SyncPipeline.id pipelineId store.pipelines = some row ∧
    row.status ≠ .archived

section Runs

variable {env : Env} {init : Store} {pool pool' : Platform}

theorem not_archived_of_runnable {store : Store} {pipelineId : Id}
    (h : store.runnable pipelineId) : store.archived pipelineId = false := by
  obtain ⟨row, hrow, hstatus⟩ := h
  simp [Store.archived, hrow, hstatus]

theorem runnable_of_mem {store : Store} {row : SyncPipeline}
    (hkeyed : Table.Keyed SyncPipeline.id store.nextId store.pipelines)
    (hmem : row ∈ store.pipelines) (hstatus : row.status ≠ .archived) :
    store.runnable row.id := by
  cases hfind : Table.find SyncPipeline.id row.id store.pipelines with
  | none => exact absurd rfl (Table.find_eq_none.mp hfind row hmem)
  | some found =>
      obtain rfl := hkeyed.eq_of_key (Table.find_mem hfind) hmem
        (Table.find_key hfind)
      exact ⟨found, hfind, hstatus⟩

/-- Only the write of the status makes a pipeline archived. -/
theorem runnable_effect {op : Op} {store : Store} {pipelineId : Id}
    (h : store.runnable pipelineId)
    (hop : ∀ data, op = .pipelineUpdate pipelineId data →
      data.status ≠ some .archived) : (op.effect store).runnable pipelineId := by
  obtain ⟨row, hrow, hstatus⟩ := h
  cases hwrites : op.writesPipelines with
  | false =>
      rw [Store.runnable, effect_pipelines hwrites]
      exact ⟨row, hrow, hstatus⟩
  | true =>
      cases op with
      | pipelineCreate data => exact ⟨row, Table.find_append hrow, hstatus⟩
      | pipelineUpdate id data =>
          have hkey : ∀ row, (data.apply row).id = row.id := fun _ => rfl
          have hwritten : Table.find SyncPipeline.id pipelineId
              (Table.modify SyncPipeline.id id data.apply store.pipelines) =
                some (if row.id = id then data.apply row else row) := by
            rw [Table.find_modify hkey, hrow]
            rfl
          refine ⟨_, hwritten, ?_⟩
          split
          · rename_i hid
            have hdata := hop data (by rw [← hid, Table.find_key hrow])
            have happly : (data.apply row).status =
                data.status.getD row.status := rfl
            rw [happly]
            cases hgiven : data.status with
            | none => exact hstatus
            | some status =>
                rintro rfl
                exact hdata hgiven
          · exact hstatus
      | _ => cases hwrites

theorem keyed_of_reach {ok : Platform → Step → Prop}
    (hkeyed : Table.Keyed SyncPipeline.id init.nextId init.pipelines)
    (h : (platform env).Reach ok init.boot pool) :
    Table.Keyed SyncPipeline.id pool.store.nextId pool.store.pipelines := by
  have huses : ∀ call, ((platform env).body call).Uses (fun _ => True) :=
    fun call => uses_of_forall (fun _ => trivial) _
  refine h.keeps (J := fun store =>
      Table.Keyed SyncPipeline.id store.nextId store.pipelines)
    huses ?_ ?_ rfl hkeyed
  · intro call op store value store' _ hexec hstore
    rw [exec_effect hexec]
    exact keyed_pipelines hstore
  · intro event store count store' calls henv hstore
    obtain ⟨clock, jobs, rfl⟩ := Event.apply_store henv
    exact hstore

theorem runLookup_fits
    (hkeyed : Table.Keyed SyncPipeline.id init.nextId init.pipelines) :
    runLookup.Fits (platform env) Heedful init.boot Store.runnable where
  body := body_looksFirst
  shown := by
    intro pool pool' index task op next value pipelineId hreach hok hdone
      hlooks hshown hacts
    have hexec := exec_of_done hdone
    rw [effect_of_done hdone]
    cases op with
    | pipelineFindUnique id =>
        obtain ⟨row, rfl, hid⟩ := hshown
        have hrow := exec_pipelineFindUnique hexec
        obtain rfl : id = pipelineId := (Table.find_key hrow.symm).symm.trans hid
        refine ⟨row, hrow.symm, fun harchived => hok.passes ?_⟩
        exact ⟨task, id, next, row, hdone.at_index, hdone.awaits, hrow.symm,
          harchived, hacts⟩
    | pipelineFindActive sourceConnectorId =>
        obtain ⟨row, hrow, rfl⟩ := hshown
        obtain ⟨hmem, -, hactive⟩ := exec_pipelineFindActive hexec hrow
        refine runnable_of_mem (keyed_of_reach hkeyed hreach) hmem ?_
        rw [hactive]
        decide
    | _ => cases hlooks
  kept := by
    intro pool pool' index task op next value pipelineId _ hok hdone hacts hfit
    rw [effect_of_done hdone]
    refine runnable_effect hfit fun data hop hdata => ?_
    subst hop
    exact hok.archives ⟨task, pipelineId, data, next, hdone.at_index,
      hdone.awaits, hdata, hacts⟩
  event := by
    intro event store count store' calls henv pipelineId hfit
    obtain ⟨clock, jobs, rfl⟩ := Event.apply_store henv
    exact hfit

theorem new_run_created {op : Op} {store : Store} {run : SyncRun}
    (hrun : run ∈ (op.effect store).syncRuns)
    (hnew : ∀ old ∈ store.syncRuns, old.id ≠ run.id) :
    ∃ data, op = .syncRunCreate data ∧ data.pipelineId = run.pipelineId := by
  rcases syncRuns_of_effect hrun with hold | ⟨data, rfl, rfl⟩ |
    ⟨data, old, hold, rfl, rfl⟩
  · exact absurd rfl (hnew run hold)
  · exact ⟨data, rfl, rfl⟩
  · exact absurd rfl (hnew old hold)

/-- No run is created of a pipeline that is archived. -/
theorem archived_pipelines_not_run
    (hkeyed : Table.Keyed SyncPipeline.id init.nextId init.pipelines)
    (h : (platform env).Reach Heedful init.boot pool) {step : Step}
    (hstep : (platform env).step pool step = some pool') :
    ¬ RunsArchived pool pool' := by
  rintro ⟨run, hrun, hnew, harchived⟩
  have hsame : pool'.store.syncRuns ≠ pool.store.syncRuns := by
    intro heq
    rw [heq] at hrun
    exact hnew run hrun rfl
  cases step with
  | start call =>
      obtain ⟨-, rfl⟩ := System.step_start hstep
      exact hsame rfl
  | run index =>
      rcases System.step_run hstep with
        ⟨task, op, next, value, hdone⟩ | ⟨_, _, _, _, hraised, -⟩
      · rw [effect_of_done hdone] at hrun
        obtain ⟨data, rfl, hdata⟩ := new_run_created hrun hnew
        have hacts : runLookup.MayAct run.pipelineId task.prog := by
          rw [hdone.awaits]
          exact .inl hdata
        have hfit := (runLookup_fits hkeyed).invariant rfl h task
          (List.mem_of_getElem? hdone.at_index) _ hacts
        rw [not_archived_of_runnable hfit] at harchived
        cases harchived
      · exact hsame (by rw [hraised.store])
  | fail index failure =>
      obtain ⟨_, _, _, hraised, -⟩ := System.step_fail hstep
      exact hsame (by rw [hraised.store])
  | env event =>
      obtain ⟨calls, henv, -⟩ := System.step_env hstep
      obtain ⟨clock, jobs, hstore⟩ := Event.apply_store henv
      exact hsame (by rw [hstore])

end Runs

/-! ## A pipeline that is archived -/

def plain (pool : Platform) (step : Step) : Bool :=
  match step with
  | .run index =>
      match pool.tasks[index]? with
      | some ⟨_, _, .call (.pipelineFindUnique pipelineId) _⟩ =>
          !pool.store.archived pipelineId
      | some ⟨_, _, .call (.pipelineUpdate _ data) _⟩ =>
          data.status != some .archived
      | _ => true
  | _ => true

theorem heedful_of_plain {pool : Platform} {step : Step}
    (h : plain pool step = true) : Heedful pool step := by
  constructor
  · intro hpasses
    cases step with
    | run index =>
        obtain ⟨⟨call, trace, prog⟩, pipelineId, next, row, hget, rfl, hrow,
          hstatus, -⟩ := hpasses
        simp [plain, hget, Store.archived, hrow, hstatus] at h
    | _ => exact hpasses
  · intro harchives
    cases step with
    | run index =>
        obtain ⟨⟨call, trace, prog⟩, pipelineId, data, next, hget, rfl, hdata,
          -⟩ := harchives
        simp [plain, hget, hdata] at h
    | _ => exact harchives

def setPipelineStatus (status : PipelineStatus) : Call :=
  .updateStatus Sample.pipeline.id status Sample.operator

/-- The pipeline is paused, and its run is about to be inserted. -/
theorem archived_pipelines_not_run_of_paused :
    ∃ pool pool', (platform (Sample.env .async)).runWhere
        (fun pool step => plain pool step = true) Sample.store.boot
        ([.start (setPipelineStatus .paused)] ++ List.replicate 3 (.run 0) ++
          [.start manualRun, .run 1, .run 1]) = some pool ∧
      (platform (Sample.env .async)).step pool (.run 1) = some pool' ∧
      pool'.store.syncRuns.length = 1 ∧ ¬ RunsArchived pool pool' := by
  have hruns : ((platform (Sample.env .async)).runWhere
      (fun pool step => plain pool step = true) Sample.store.boot
      ([.start (setPipelineStatus .paused)] ++ List.replicate 3 (.run 0) ++
        [.start manualRun, .run 1, .run 1])).any (fun pool =>
          ((platform (Sample.env .async)).step pool (.run 1)).any fun pool' =>
            pool'.store.syncRuns.length = 1) = true := by
    decide +kernel
  obtain ⟨pool, hrun, hnext⟩ := (Option.any_eq_true _ _).mp hruns
  obtain ⟨pool', hstep, hlength⟩ := (Option.any_eq_true _ _).mp hnext
  exact ⟨pool, pool', hrun, hstep, by simpa using hlength,
    archived_pipelines_not_run Sample.keyed_store
      ((System.reach_of_runWhere hrun).mono fun _ _ => heedful_of_plain) hstep⟩

def insertsArchived (pool pool' : Platform) : Bool :=
  pool'.store.syncRuns.any fun run =>
    (pool.store.syncRuns.all fun old => old.id != run.id) &&
      pool.store.archived run.pipelineId

/-- A manual run of a pipeline that has been archived. -/
theorem archived_pipelines_not_run_fails :
    ∃ pool pool', Reachable (Sample.env .async) Sample.store pool ∧
      (platform (Sample.env .async)).step pool (.run 1) = some pool' ∧
      RunsArchived pool pool' := by
  have hruns : ((platform (Sample.env .async)).run Sample.store.boot
      ([.start (setPipelineStatus .archived)] ++ List.replicate 3 (.run 0) ++
        [.start manualRun, .run 1, .run 1])).any (fun pool =>
          ((platform (Sample.env .async)).step pool (.run 1)).any
            (insertsArchived pool)) = true := by
    decide +kernel
  obtain ⟨pool, hrun, hnext⟩ := (Option.any_eq_true _ _).mp hruns
  obtain ⟨pool', hstep, hinserts⟩ := (Option.any_eq_true _ _).mp hnext
  obtain ⟨run, hmem, hboth⟩ := List.any_eq_true.mp hinserts
  obtain ⟨hnew, harchived⟩ := Bool.and_eq_true_iff.mp hboth
  refine ⟨pool, pool', System.reach_of_run hrun, hstep, run, hmem, ?_,
    harchived⟩
  intro old hold
  simpa using List.all_eq_true.mp hnew old hold

end SyncBridge
