import SyncBridge.Foundation.Confinement
import SyncBridge.Sample
import SyncBridge.Services.Reads

/-!
# What a reader can tell

Every read of a `USER` is confined to the rows that the user owns: in a store
with these rows alone it answers as it does in the whole one.  So two stores
that agree on them answer all reads of the user alike, whatever else is in them.
-/

namespace SyncBridge

open SyncBridge.Foundation

/-! ## Ownership -/

namespace Store

variable (owner : Id) (store : Store)

def ownedConnectors : List Connector :=
  store.connectors.filter fun connector => connector.ownerId = owner

def ownedPipelines : List SyncPipeline :=
  store.pipelines.filter fun pipeline => pipeline.ownerId = owner

def ownsRun (run : SyncRun) : Bool :=
  (store.ownedPipelines owner).any fun pipeline => pipeline.id = run.pipelineId

def ownedRuns : List SyncRun := store.syncRuns.filter (store.ownsRun owner)

def ownsEvent (event : WebhookEvent) : Bool :=
  (store.ownedConnectors owner).any fun connector =>
    event.connectorId = some connector.id

def ownedEvents : List WebhookEvent :=
  store.webhookEvents.filter (store.ownsEvent owner)

def ownsJob (job : BackgroundJob) : Bool :=
  (job.entityType = "sync_run" &&
    (store.ownedRuns owner).any fun run => run.id = job.entityId) ||
  (job.entityType = "webhook_event" &&
    (store.ownedEvents owner).any fun event => event.id = job.entityId)

def ownedJobs : List BackgroundJob :=
  store.backgroundJobs.filter (store.ownsJob owner)

def ownedPart : Store where
  clock := 0
  nextId := 0
  connectors := store.ownedConnectors owner
  pipelines := store.ownedPipelines owner
  syncRuns := store.ownedRuns owner
  backgroundJobs := store.ownedJobs owner
  webhookEvents := store.ownedEvents owner
  syncedRecords := []
  auditLogs := []
  jobs := []
  pollLocks _ := {}

end Store

structure AgreeFor (owner : Id) (store store' : Store) : Prop where
  connectors : store.ownedConnectors owner = store'.ownedConnectors owner
  pipelines : store.ownedPipelines owner = store'.ownedPipelines owner
  syncRuns : store.ownedRuns owner = store'.ownedRuns owner
  webhookEvents : store.ownedEvents owner = store'.ownedEvents owner
  backgroundJobs : store.ownedJobs owner = store'.ownedJobs owner

theorem AgreeFor.ownedPart {owner : Id} {store store' : Store}
    (h : AgreeFor owner store store') :
    store.ownedPart owner = store'.ownedPart owner := by
  simp only [Store.ownedPart, h.connectors, h.pipelines, h.syncRuns,
    h.webhookEvents, h.backgroundJobs]

def BackgroundJobType.entityType : BackgroundJobType → String
  | .syncRun => "sync_run"
  | .webhookProcessing => "webhook_event"

/-- Primary keys are unique, foreign keys lead to a row, and the type of a job is
the one of its entity. -/
structure Store.Intact (store : Store) : Prop where
  connectorIds : (store.connectors.map Connector.id).Nodup
  pipelineIds : (store.pipelines.map SyncPipeline.id).Nodup
  syncRunIds : (store.syncRuns.map SyncRun.id).Nodup
  webhookEventIds : (store.webhookEvents.map WebhookEvent.id).Nodup
  backgroundJobIds : (store.backgroundJobs.map BackgroundJob.id).Nodup
  sourceConnector : ∀ pipeline ∈ store.pipelines,
    ∃ connector ∈ store.connectors, connector.id = pipeline.sourceConnectorId
  pipeline : ∀ run ∈ store.syncRuns,
    ∃ pipeline ∈ store.pipelines, pipeline.id = run.pipelineId
  connector : ∀ event ∈ store.webhookEvents, ∀ id,
    event.connectorId = some id →
    ∃ connector ∈ store.connectors, connector.id = id
  entityType : ∀ job ∈ store.backgroundJobs,
    job.entityType = job.type.entityType

/-! ## The relations of owned rows -/

section Relations

variable {owner : Id} {store : Store}

theorem ownedPart_pipelineOf (h : store.Intact) (run : SyncRun) :
    (store.ownedPart owner).pipelineOf run =
      (store.pipelineOf run).filter fun pipeline => pipeline.ownerId = owner :=
  Table.find_filter h.pipelineIds

theorem ownedPart_connectorOf (h : store.Intact) (event : WebhookEvent) :
    (store.ownedPart owner).connectorOf event =
      (store.connectorOf event).filter fun connector =>
        connector.ownerId = owner := by
  cases hconnector : event.connectorId with
  | none => simp [Store.connectorOf, hconnector]
  | some id =>
      simp only [Store.connectorOf, hconnector, Option.bind_some]
      exact Table.find_filter h.connectorIds

theorem ownsRun_eq (h : store.Intact) (run : SyncRun) :
    store.ownsRun owner run = (store.pipelineOf run).any fun pipeline =>
      pipeline.ownerId = owner :=
  Table.any_filter h.pipelineIds

theorem ownsEvent_eq (h : store.Intact) (event : WebhookEvent) :
    store.ownsEvent owner event = (store.connectorOf event).any fun connector =>
      connector.ownerId = owner := by
  cases hconnector : event.connectorId with
  | none => simp [Store.ownsEvent, Store.connectorOf, hconnector]
  | some id =>
      simp only [Store.ownsEvent, Store.connectorOf, hconnector,
        Option.bind_some, Option.some.injEq, eq_comm (a := id)]
      exact Table.any_filter h.connectorIds

theorem ownsRun_iff (h : store.Intact) {run : SyncRun} :
    store.ownsRun owner run = true ↔
      (store.pipelineOf run).map SyncPipeline.ownerId = some owner := by
  rw [ownsRun_eq h]
  cases store.pipelineOf run <;> simp

theorem ownsEvent_iff (h : store.Intact) {event : WebhookEvent} :
    store.ownsEvent owner event = true ↔
      (store.connectorOf event).map Connector.ownerId = some owner := by
  rw [ownsEvent_eq h]
  cases store.connectorOf event <;> simp

theorem pipelineOf_owned (h : store.Intact) {run : SyncRun}
    (hrun : store.ownsRun owner run = true) :
    (store.ownedPart owner).pipelineOf run = store.pipelineOf run := by
  rw [ownedPart_pipelineOf h]
  exact filter_of_any (by rwa [← ownsRun_eq h])

theorem connectorOf_owned (h : store.Intact) {event : WebhookEvent}
    (hevent : store.ownsEvent owner event = true) :
    (store.ownedPart owner).connectorOf event = store.connectorOf event := by
  rw [ownedPart_connectorOf h]
  exact filter_of_any (by rwa [← ownsEvent_eq h])

end Relations

/-! ## The reads of a user -/

/-- In the owned part alone the user is answered as in the whole store. -/
abbrev OwnedOnly {α : Type} (user : AuthenticatedUser)
    (query : Store → Except Failure α) : Prop :=
  Confined Store.Intact (Store.ownedPart user.sub) query

section Reads

variable {env : Env} {order : LatestFirst} {user : AuthenticatedUser}
  {store : Store}

theorem connector_findOne_answer (huser : user.role = .user) {id : Id} :
    (alone env (ConnectorsService.findOne id user) store).toOption =
      (Table.find Connector.id id store.connectors).filter fun connector =>
        connector.ownerId = user.sub := by
  cases hfind : Table.find Connector.id id store.connectors with
  | none =>
      simp [alone, ConnectorsService.findOne, ConnectorsService.getById,
        Machine.eval, machine, exec, Prog.await, hfind, orNotFound,
        Except.toOption]
  | some connector =>
      by_cases howner : connector.ownerId = user.sub <;>
        simp [alone, ConnectorsService.findOne, ConnectorsService.getById,
          ConnectorsService.assertCanAccess, Machine.eval, machine, exec,
          Prog.await, Prog.ofExcept, hfind, orNotFound, howner,
          isPrivileged_user huser, Except.toOption, Option.filter_some]

theorem pipeline_findOne_answer (huser : user.role = .user) {id : Id} :
    (alone env (PipelinesService.findOne id user) store).toOption =
      (Table.find SyncPipeline.id id store.pipelines).filter fun pipeline =>
        pipeline.ownerId = user.sub := by
  cases hfind : Table.find SyncPipeline.id id store.pipelines with
  | none =>
      simp [alone, PipelinesService.findOne, PipelinesService.getById,
        Machine.eval, machine, exec, Prog.await, hfind, orNotFound,
        Except.toOption]
  | some pipeline =>
      by_cases howner : pipeline.ownerId = user.sub <;>
        simp [alone, PipelinesService.findOne, PipelinesService.getById,
          PipelinesService.assertCanAccess, Machine.eval, machine, exec,
          Prog.await, Prog.ofExcept, hfind, orNotFound, howner,
          isPrivileged_user huser, Except.toOption, Option.filter_some]

theorem accessibleEvent_answer (huser : user.role = .user) {id : Id} :
    (alone env (WebhooksService.getAccessibleEvent id user) store).toOption =
      (Table.find WebhookEvent.id id store.webhookEvents).filter fun event =>
        (store.connectorOf event).any fun connector =>
          connector.ownerId = user.sub := by
  cases hfind : Table.find WebhookEvent.id id store.webhookEvents with
  | none =>
      simp [alone, WebhooksService.getAccessibleEvent, Machine.eval, machine,
        exec, Prog.await, hfind, orNotFound, Except.toOption]
  | some event =>
      have hevent : alone env (WebhooksService.getAccessibleEvent id user)
          store = if (store.connectorOf event).map Connector.ownerId !=
              some user.sub then
            .error (.forbidden "You do not have access to this webhook event")
          else .ok event := by
        simp only [alone, WebhooksService.getAccessibleEvent, Machine.eval,
          machine, exec, Prog.await, hfind, orNotFound, Prog.bind_eq,
          Prog.call_bind, Prog.ret_bind, Option.map_some,
          isPrivileged_user huser, Store.connectorOf]
        split <;> simp_all [Machine.eval]
      rw [hevent, Option.filter_some]
      cases store.connectorOf event with
      | none => rfl
      | some connector =>
          by_cases howner : connector.ownerId = user.sub <;>
            simp [howner, Except.toOption]

theorem connector_findOne_confined (huser : user.role = .user) {id : Id} :
    OwnedOnly user (alone env (ConnectorsService.findOne id user)) := by
  intro store hgood
  rw [connector_findOne_answer huser, connector_findOne_answer huser,
    show (store.ownedPart user.sub).connectors = store.ownedConnectors user.sub
      from rfl, Store.ownedConnectors, Table.find_filter hgood.connectorIds,
    Option.filter_filter]
  simp

theorem pipeline_findOne_confined (huser : user.role = .user) {id : Id} :
    OwnedOnly user (alone env (PipelinesService.findOne id user)) := by
  intro store hgood
  rw [pipeline_findOne_answer huser, pipeline_findOne_answer huser,
    show (store.ownedPart user.sub).pipelines = store.ownedPipelines user.sub
      from rfl, Store.ownedPipelines, Table.find_filter hgood.pipelineIds,
    Option.filter_filter]
  simp

theorem accessibleEvent_confined (huser : user.role = .user) {id : Id} :
    OwnedOnly user (alone env (WebhooksService.getAccessibleEvent id user)) := by
  intro store hgood
  rw [accessibleEvent_answer huser, accessibleEvent_answer huser,
    show (store.ownedPart user.sub).webhookEvents =
      store.ownedEvents user.sub from rfl, Store.ownedEvents,
    Table.find_filter hgood.webhookEventIds, Option.filter_filter]
  congr 1
  funext event
  rw [ownsEvent_eq hgood, ownedPart_connectorOf hgood]
  cases store.connectorOf event with
  | none => rfl
  | some connector =>
      by_cases howner : connector.ownerId = user.sub <;>
        simp [howner, Option.filter_some]

theorem run_findById_answer (huser : user.role = .user) {id : Id} :
    (SyncRunsService.findById id user store).toOption =
      (Table.find SyncRun.id id store.syncRuns).bind fun run =>
        ((store.pipelineOf run).filter fun pipeline =>
          pipeline.ownerId = user.sub).map fun pipeline => (run, pipeline) := by
  simp only [SyncRunsService.findById, isPrivileged_user huser]
  cases Table.find SyncRun.id id store.syncRuns with
  | none => rfl
  | some run =>
      simp only [foundOr, Option.bind_some]
      cases hpipeline : store.pipelineOf run with
      | none => simp [bind, Except.bind, hpipeline, Except.toOption]
      | some pipeline =>
          by_cases howner : pipeline.ownerId = user.sub <;>
            simp [bind, Except.bind, pure, Except.pure, hpipeline, howner,
              Except.toOption, Option.filter_some]

theorem run_findById_confined (huser : user.role = .user) {id : Id} :
    OwnedOnly user (SyncRunsService.findById id user) := by
  intro store hgood
  rw [run_findById_answer huser, run_findById_answer huser,
    show (store.ownedPart user.sub).syncRuns = store.ownedRuns user.sub
      from rfl, Store.ownedRuns, Table.find_filter hgood.syncRunIds]
  cases Table.find SyncRun.id id store.syncRuns with
  | none => rfl
  | some run =>
      rw [Option.filter_some, ownsRun_eq hgood, Option.bind_some]
      simp only [ownedPart_pipelineOf hgood]
      cases hpipeline : store.pipelineOf run with
      | none => rfl
      | some pipeline =>
          by_cases howner : pipeline.ownerId = user.sub <;>
            simp [hpipeline, howner, Option.filter_some]

/-! ### Lists -/

theorem PageQuery.paged_congr {status ρ α : Type} {query : PageQuery status}
    {column : ρ → Time} {view view' : ρ → α} {rows : List ρ}
    (h : ∀ row ∈ rows, view row = view' row) :
    query.paged order column view rows = query.paged order column view' rows := by
  simp only [PageQuery.paged, Page.mk.injEq, and_true]
  refine List.map_congr_left fun row hrow => h row ?_
  exact order.perm.subset
    (List.mem_of_mem_drop (List.mem_of_mem_take hrow))

theorem findAll_connectors_confined (huser : user.role = .user) :
    OwnedOnly user fun store => .ok (ConnectorsService.findAll order user store) := by
  refine confined_ok fun store _ => ?_
  simp only [ConnectorsService.findAll, isPrivileged_user huser, Bool.false_or]
  exact congrArg _ (filter_filter_of_imp fun _ _ howner => howner).symm

theorem findAll_pipelines_confined (huser : user.role = .user) :
    OwnedOnly user fun store => .ok (PipelinesService.findAll order user store) := by
  refine confined_ok fun store _ => ?_
  simp only [PipelinesService.findAll, isPrivileged_user huser, Bool.false_or]
  exact congrArg _ (filter_filter_of_imp fun _ _ howner => howner).symm

theorem alone_bind_ret {α β : Type} {body : Body α} {f : α → β} :
    alone env (body.bind fun value => .ret (f value)) store =
      alone env body store >>= fun value => .ok (f value) := by
  simp only [alone, Machine.eval_bind]
  split
  · rename_i heval
    rw [heval]
    rfl
  · rename_i heval
    rw [heval]
    rfl

theorem schedule_confined (huser : user.role = .user) {pipelineId : Id} :
    OwnedOnly user
      (alone env (SchedulerService.getPipelineSchedule pipelineId user)) := by
  have hanswer : ∀ store, alone env
      (SchedulerService.getPipelineSchedule pipelineId user) store =
        alone env (PipelinesService.findOne pipelineId user) store >>=
          fun pipeline => .ok (SchedulerService.toScheduleResponse pipeline) :=
    fun store => alone_bind_ret
  intro store hgood
  rw [hanswer, hanswer]
  exact (pipeline_findOne_confined huser).map _ store hgood

theorem ownedIds_part :
    PipelinesService.ownedIds user (store.ownedPart user.sub) =
      PipelinesService.ownedIds user store :=
  congrArg (List.map SyncPipeline.id)
    (filter_filter_of_imp fun _ _ howner => howner)

theorem ownsRun_contains {run : SyncRun} :
    store.ownsRun user.sub run =
      (PipelinesService.ownedIds user store).contains run.pipelineId := by
  rw [Bool.eq_iff_iff]
  simp [Store.ownsRun, PipelinesService.ownedIds, Store.ownedPipelines,
    and_assoc]

theorem owned_runs_filter {q : SyncRun → Bool}
    (h : ∀ run, q run = true →
      (PipelinesService.ownedIds user store).contains run.pipelineId = true) :
    (store.ownedPart user.sub).syncRuns.filter q = store.syncRuns.filter q :=
  filter_filter_of_imp fun run _ hq => ownsRun_contains.trans (h run hq)

theorem view_owned (hgood : store.Intact) {run : SyncRun}
    (hrun : (PipelinesService.ownedIds user store).contains run.pipelineId =
      true) {α : Type} (select : SyncPipeline → α) :
    (run, (store.pipelineOf run).map select) =
      (run, ((store.ownedPart user.sub).pipelineOf run).map select) := by
  rw [pipelineOf_owned hgood (ownsRun_contains.trans hrun)]

theorem owned_of_findOne (huser : user.role = .user) {id : Id}
    {pipeline : SyncPipeline}
    (h : alone env (PipelinesService.findOne id user) store = .ok pipeline) :
    (PipelinesService.ownedIds user store).contains id = true := by
  have hanswer := @pipeline_findOne_answer env user store huser id
  rw [h] at hanswer
  obtain ⟨hfind, howner⟩ := Option.filter_eq_some_iff.mp hanswer.symm
  rw [List.contains_iff_mem, ← Table.find_key hfind]
  exact List.mem_map_of_mem
    (List.mem_filter.mpr ⟨Table.find_mem hfind, howner⟩)

theorem listByPipeline_confined (huser : user.role = .user) {pipelineId : Id} :
    OwnedOnly user (SyncRunsService.listByPipeline order env pipelineId user) := by
  refine (pipeline_findOne_confined huser).bind
    fun store pipeline hgood hfound => ?_
  have howned := owned_of_findOne huser hfound
  have hselected : ∀ run : SyncRun, decide (run.pipelineId = pipelineId) = true →
      (PipelinesService.ownedIds user store).contains run.pipelineId = true := by
    intro run hrun
    rwa [of_decide_eq_true hrun]
  rw [owned_runs_filter hselected]
  refine congrArg some (List.map_congr_left fun run hrun => ?_)
  have hmem := List.mem_filter.mp (order.perm.subset hrun)
  exact view_owned hgood (hselected run hmem.2) _

theorem listAll_confined (huser : user.role = .user)
    {query : ListSyncRunsQueryDto} :
    OwnedOnly user fun store => .ok (SyncRunsService.listAll order query user store) := by
  refine confined_ok fun store hgood => ?_
  simp only [SyncRunsService.listAll, isPrivileged_user huser, ownedIds_part,
    Bool.false_eq_true, if_false]
  split
  · rfl
  · rw [owned_runs_filter]
    · refine PageQuery.paged_congr fun run hrun => ?_
      have hselected := (List.mem_filter.mp hrun).2
      exact view_owned hgood (Bool.and_eq_true_iff.mp hselected).2 _
    · intro run hrun
      exact (Bool.and_eq_true_iff.mp hrun).2

/-! ### Jobs -/

theorem jobOf_owned {entityType : String} {entityId : Id}
    (h : ∀ job : BackgroundJob, job.entityType = entityType →
      job.entityId = entityId → store.ownsJob user.sub job = true) :
    (store.ownedPart user.sub).jobOf order entityType entityId =
      store.jobOf order entityType entityId := by
  simp only [Store.jobOf]
  rw [show (store.ownedPart user.sub).backgroundJobs =
    store.ownedJobs user.sub from rfl, Store.ownedJobs, filter_filter_of_imp]
  intro job _ hjob
  simp only [Bool.and_eq_true, decide_eq_true_eq] at hjob
  exact h job hjob.1 hjob.2

theorem ownsJob_iff (hgood : store.Intact) {job : BackgroundJob}
    (htype : job.entityType = job.type.entityType) :
    store.ownsJob user.sub job = true ↔
      JobStatusService.entityOwner job.entityId store job.type =
        some user.sub := by
  cases hjob : job.type with
  | syncRun =>
      have hkind : job.entityType = "sync_run" := by rw [htype, hjob]; rfl
      simp only [Store.ownsJob, hkind, Store.ownedRuns,
        Table.any_filter hgood.syncRunIds, JobStatusService.entityOwner]
      cases Table.find SyncRun.id job.entityId store.syncRuns with
      | none => simp
      | some run => simp [ownsRun_iff hgood]
  | webhookProcessing =>
      have hkind : job.entityType = "webhook_event" := by rw [htype, hjob]; rfl
      simp only [Store.ownsJob, hkind, Store.ownedEvents,
        Table.any_filter hgood.webhookEventIds, JobStatusService.entityOwner]
      cases Table.find WebhookEvent.id job.entityId store.webhookEvents with
      | none => simp
      | some event => simp [ownsEvent_iff hgood]

theorem entityOwner_part (hgood : store.Intact) {entityId : Id}
    {jobType : BackgroundJobType} :
    JobStatusService.entityOwner entityId (store.ownedPart user.sub) jobType =
      some user.sub ↔
    JobStatusService.entityOwner entityId store jobType = some user.sub := by
  cases jobType with
  | syncRun =>
      simp only [JobStatusService.entityOwner]
      rw [show (store.ownedPart user.sub).syncRuns = store.ownedRuns user.sub
        from rfl, Store.ownedRuns, Table.find_filter hgood.syncRunIds]
      cases Table.find SyncRun.id entityId store.syncRuns with
      | none => simp
      | some run =>
          rw [Option.filter_some]
          split
          · rename_i howned
            simp [pipelineOf_owned hgood howned]
          · rename_i howned
            rw [ownsRun_iff hgood] at howned
            simp [howned]
  | webhookProcessing =>
      simp only [JobStatusService.entityOwner]
      rw [show (store.ownedPart user.sub).webhookEvents =
        store.ownedEvents user.sub from rfl, Store.ownedEvents,
        Table.find_filter hgood.webhookEventIds]
      cases Table.find WebhookEvent.id entityId store.webhookEvents with
      | none => simp
      | some event =>
          rw [Option.filter_some]
          split
          · rename_i howned
            simp [connectorOf_owned hgood howned]
          · rename_i howned
            rw [ownsEvent_iff hgood] at howned
            simp [howned]

theorem jobOfRun_confined (huser : user.role = .user) {syncRunId : Id} :
    OwnedOnly user (JobStatusService.getBySyncRunId order syncRunId user) := by
  refine (run_findById_confined huser).bind fun store found hgood hfound => ?_
  rw [jobOf_owned]
  intro job htype hid
  have hanswer := @run_findById_answer user store huser syncRunId
  rw [hfound] at hanswer
  obtain ⟨run, hrun, hview⟩ := Option.bind_eq_some_iff.mp hanswer.symm
  obtain ⟨pipeline, hpipeline, -⟩ := Option.map_eq_some_iff.mp hview
  obtain ⟨hfirst, howner⟩ := Option.filter_eq_some_iff.mp hpipeline
  have howned : store.ownsRun user.sub run = true := by
    rw [ownsRun_eq hgood, hfirst]
    exact howner
  simp [Store.ownsJob, htype, hid, Store.ownedRuns,
    Table.any_filter hgood.syncRunIds, hrun, howned]

theorem owned_of_accessible (huser : user.role = .user) (hgood : store.Intact)
    {id : Id} {event : WebhookEvent}
    (h : alone env (WebhooksService.getAccessibleEvent id user) store =
      .ok event) :
    Table.find WebhookEvent.id id store.webhookEvents = some event ∧
      store.ownsEvent user.sub event = true := by
  have hanswer := @accessibleEvent_answer env user store huser id
  rw [h] at hanswer
  obtain ⟨hfind, howner⟩ := Option.filter_eq_some_iff.mp hanswer.symm
  exact ⟨hfind, (ownsEvent_eq hgood event).trans howner⟩

theorem eventJob_confined (huser : user.role = .user) {id : Id} :
    OwnedOnly user (WebhooksService.getEventJob order env id user) := by
  refine (accessibleEvent_confined huser).bind
    fun store event hgood hfound => ?_
  rw [jobOf_owned]
  intro job htype hid
  obtain ⟨hevent, howned⟩ := owned_of_accessible huser hgood hfound
  simp [Store.ownsJob, htype, hid, Store.ownedEvents,
    Table.any_filter hgood.webhookEventIds, hevent, howned]

theorem job_getById_answer (huser : user.role = .user) {jobId : Id} :
    (JobStatusService.getById jobId user store).toOption =
      ((Table.find BackgroundJob.id jobId store.backgroundJobs).filter fun job =>
        JobStatusService.entityOwner job.entityId store job.type =
          some user.sub).map toPublicJob := by
  simp only [JobStatusService.getById, JobStatusService.assertCanAccessJob,
    isPrivileged_user huser, Bool.false_eq_true, if_false]
  cases Table.find BackgroundJob.id jobId store.backgroundJobs with
  | none => rfl
  | some job =>
      by_cases howner : JobStatusService.entityOwner job.entityId store
          job.type = some user.sub <;>
        simp [foundOr, bind, Except.bind, pure, Except.pure, howner,
          Except.toOption, Option.filter_some]

theorem job_getById_confined (huser : user.role = .user) {jobId : Id} :
    OwnedOnly user (JobStatusService.getById jobId user) := by
  intro store hgood
  rw [job_getById_answer huser, job_getById_answer huser,
    show (store.ownedPart user.sub).backgroundJobs = store.ownedJobs user.sub
      from rfl, Store.ownedJobs, Table.find_filter hgood.backgroundJobIds]
  cases hfind : Table.find BackgroundJob.id jobId store.backgroundJobs with
  | none => rfl
  | some job =>
      have hiff := @ownsJob_iff user store hgood job
        (hgood.entityType job (Table.find_mem hfind))
      simp only [Option.filter_some, entityOwner_part hgood]
      by_cases howner : JobStatusService.entityOwner job.entityId store
          job.type = some user.sub
      · simp [hiff.mpr howner, howner]
      · have hother : store.ownsJob user.sub job = false := by
          rw [Bool.eq_false_iff]
          exact fun howned => howner (hiff.mp howned)
        simp [hother, howner]

/-! ### Events -/

theorem getEventById_confined (huser : user.role = .user) {id : Id} :
    OwnedOnly user (WebhooksService.getEventById env id user) := by
  refine (accessibleEvent_confined huser).bind
    fun store event hgood hfound => ?_
  rw [connectorOf_owned hgood (owned_of_accessible huser hgood hfound).2]

theorem owned_events_filter (hgood : store.Intact) {q : WebhookEvent → Bool} :
    ((store.ownedPart user.sub).webhookEvents.filter fun event => q event &&
      ((store.ownedPart user.sub).connectorOf event).any fun connector =>
        connector.ownerId = user.sub) =
      store.webhookEvents.filter fun event => q event &&
        (store.connectorOf event).any fun connector =>
          connector.ownerId = user.sub := by
  have hsame : ∀ event, ((store.ownedPart user.sub).connectorOf event).any
      (fun connector => connector.ownerId = user.sub) =
        (store.connectorOf event).any fun connector =>
          connector.ownerId = user.sub := by
    intro event
    rw [ownedPart_connectorOf hgood]
    cases store.connectorOf event with
    | none => rfl
    | some connector =>
        by_cases howner : connector.ownerId = user.sub <;>
          simp [howner, Option.filter_some]
  simp only [hsame]
  refine filter_filter_of_imp fun event _ hselected => ?_
  exact (ownsEvent_eq hgood event).trans (Bool.and_eq_true_iff.mp hselected).2

theorem listEvents_confined (huser : user.role = .user)
    {query : ListWebhookEventsQueryDto} :
    OwnedOnly user fun store =>
      .ok (WebhooksService.listEvents order query user store) := by
  refine confined_ok fun store hgood => ?_
  simp only [WebhooksService.listEvents, isPrivileged_user huser,
    Bool.false_or, owned_events_filter hgood]
  refine PageQuery.paged_congr fun event hevent => ?_
  have hselected := (List.mem_filter.mp hevent).2
  have howned := (ownsEvent_eq hgood event).trans
    (Bool.and_eq_true_iff.mp hselected).2
  rw [connectorOf_owned hgood howned]

/-! ### The dashboard -/

theorem idString_ne_none (id : Id) : idString id ≠ "__none__" := by
  intro heq
  have hdigit : '_' ∈ (Nat.toDigits 10 id) := by
    rw [← Nat.toList_repr, show id.repr = "__none__" from heq]
    decide
  exact absurd (Nat.isDigit_of_mem_toDigits (by decide) (by decide) hdigit)
    (by decide)

theorem contains_of_pipelineFilter {pipelineIds : List Id} {run : SyncRun}
    (h : DashboardService.pipelineFilter pipelineIds run = true) :
    pipelineIds.contains run.pipelineId = true := by
  simp only [DashboardService.pipelineFilter] at h
  split at h
  · exact h
  · exact absurd (of_decide_eq_true h) (idString_ne_none run.id)

theorem summaryOf_congr {store' : Store} {connectors : List Connector}
    {pipelines : List SyncPipeline} {runs : List SyncRun}
    {events : List WebhookEvent}
    (hruns : ∀ run ∈ runs, store.pipelineOf run = store'.pipelineOf run)
    (hevents : ∀ event ∈ events,
      store.connectorOf event = store'.connectorOf event) :
    DashboardService.summaryOf order store connectors pipelines runs events =
      DashboardService.summaryOf order store' connectors pipelines runs events := by
  simp only [DashboardService.summaryOf, Summary.mk.injEq, true_and]
  constructor
  · refine List.map_congr_left fun run hrun => ?_
    rw [hruns run (order.perm.subset (List.mem_of_mem_take hrun))]
  · refine List.map_congr_left fun event hevent => ?_
    rw [hevents event (order.perm.subset (List.mem_of_mem_take hevent))]

theorem summary_confined (huser : user.role = .user) :
    OwnedOnly user fun store => .ok (DashboardService.getSummary order user store) := by
  refine confined_ok fun store hgood => ?_
  have hevents := @owned_events_filter user store hgood fun _ => true
  simp only [Bool.true_and] at hevents
  simp only [DashboardService.getSummary, isPrivileged_user huser,
    Bool.false_eq_true, if_false, ownedIds_part]
  rw [hevents, owned_runs_filter fun _ => contains_of_pipelineFilter]
  have hconnectors : ((store.ownedPart user.sub).connectors.filter
      fun connector => connector.ownerId = user.sub) =
        store.connectors.filter fun connector => connector.ownerId = user.sub :=
    filter_filter_of_imp fun _ _ howner => howner
  have hpipelines : ((store.ownedPart user.sub).pipelines.filter
      fun pipeline => pipeline.ownerId = user.sub) =
        store.pipelines.filter fun pipeline => pipeline.ownerId = user.sub :=
    filter_filter_of_imp fun _ _ howner => howner
  rw [hconnectors, hpipelines]
  refine summaryOf_congr (fun run hrun => ?_) fun event hevent => ?_
  · have hselected := contains_of_pipelineFilter (List.mem_filter.mp hrun).2
    exact (pipelineOf_owned hgood (ownsRun_contains.trans hselected)).symm
  · have howned := (List.mem_filter.mp hevent).2
    exact (connectorOf_owned hgood
      ((ownsEvent_eq hgood event).trans howned)).symm

end Reads

/-! ## All reads -/

inductive ReadCall where
  | connectors
  | connector (id : Id)
  | pipelines
  | pipeline (id : Id)
  | pipelineSchedule (pipelineId : Id)
  | runsOfPipeline (pipelineId : Id)
  | runs (query : ListSyncRunsQueryDto)
  | run (id : Id)
  | events (query : ListWebhookEventsQueryDto)
  | event (id : Id)
  | eventJob (id : Id)
  | job (id : Id)
  | jobOfRun (syncRunId : Id)
  | summary

abbrev ReadCall.Res : ReadCall → Type
  | .connectors => List Connector
  | .connector _ => Connector
  | .pipelines => List SyncPipeline
  | .pipeline _ => SyncPipeline
  | .pipelineSchedule _ => ScheduleResponse
  | .runsOfPipeline _ => List (SyncRun × Option SelectedPipeline)
  | .runs _ => Page (SyncRun × Option SelectedOwnedPipeline)
  | .run _ => SyncRun × SyncPipeline
  | .events _ => Page (WebhookEvent × Option SelectedOwnedConnector)
  | .event _ => WebhookEvent × Option SelectedOwnedConnector
  | .eventJob _ => BackgroundJob
  | .job _ => BackgroundJob
  | .jobOfRun _ => BackgroundJob
  | .summary => Summary

def ReadCall.answer (env : Env) (order : LatestFirst) (user : AuthenticatedUser) :
    (call : ReadCall) → Store → Except Failure call.Res
  | .connectors, store => .ok (ConnectorsService.findAll order user store)
  | .connector id, store => alone env (ConnectorsService.findOne id user) store
  | .pipelines, store => .ok (PipelinesService.findAll order user store)
  | .pipeline id, store => alone env (PipelinesService.findOne id user) store
  | .pipelineSchedule pipelineId, store =>
      alone env (SchedulerService.getPipelineSchedule pipelineId user) store
  | .runsOfPipeline pipelineId, store =>
      SyncRunsService.listByPipeline order env pipelineId user store
  | .runs query, store => .ok (SyncRunsService.listAll order query user store)
  | .run id, store => SyncRunsService.findById id user store
  | .events query, store => .ok (WebhooksService.listEvents order query user store)
  | .event id, store => WebhooksService.getEventById env id user store
  | .eventJob id, store => WebhooksService.getEventJob order env id user store
  | .job id, store => JobStatusService.getById id user store
  | .jobOfRun syncRunId, store =>
      JobStatusService.getBySyncRunId order syncRunId user store
  | .summary, store => .ok (DashboardService.getSummary order user store)

theorem answer_confined {env : Env} {order : LatestFirst} {user : AuthenticatedUser}
    (huser : user.role = .user) (call : ReadCall) :
    OwnedOnly user (call.answer env order user) := by
  cases call with
  | connectors => exact findAll_connectors_confined huser
  | connector id => exact connector_findOne_confined huser
  | pipelines => exact findAll_pipelines_confined huser
  | pipeline id => exact pipeline_findOne_confined huser
  | pipelineSchedule pipelineId => exact schedule_confined huser
  | runsOfPipeline pipelineId => exact listByPipeline_confined huser
  | runs query => exact listAll_confined huser
  | run id => exact run_findById_confined huser
  | events query => exact listEvents_confined huser
  | event id => exact getEventById_confined huser
  | eventJob id => exact eventJob_confined huser
  | job id => exact job_getById_confined huser
  | jobOfRun syncRunId => exact jobOfRun_confined huser
  | summary => exact summary_confined huser

/-- A user learns nothing of what others own: in two stores that agree on the
user's rows each read answers alike, or fails in both. -/
theorem reads_of_owned {env : Env} {order : LatestFirst} {user : AuthenticatedUser}
    {store store' : Store} (huser : user.role = .user) (h : store.Intact)
    (h' : store'.Intact) (hagree : AgreeFor user.sub store store')
    (call : ReadCall) :
    (call.answer env order user store).toOption =
      (call.answer env order user store').toOption :=
  (answer_confined huser call).noninterference h h' hagree.ownedPart

/-! ## A neighbour -/

instance latestFirst_total {ρ : Type} (column : ρ → Time) :
    Std.Total fun left right => column right ≤ column left :=
  ⟨fun _ _ => Int.le_total _ _⟩

instance latestFirst_trans {ρ : Type} (column : ρ → Time) :
    IsTrans ρ fun left right => column right ≤ column left :=
  ⟨fun _ _ _ hfirst hsecond => Int.le_trans hsecond hfirst⟩

def LatestFirst.stable : LatestFirst where
  apply column rows :=
    rows.insertionSort fun left right => column right ≤ column left
  perm := List.perm_insertionSort _ _
  sorted _ rows := List.pairwise_insertionSort _ rows

namespace Neighbour

def reader : AuthenticatedUser := ⟨1, .user⟩

def syncRun (id pipelineId : Id) : SyncRun where
  id := id
  pipelineId := pipelineId
  status := .success
  triggerType := .manual
  recordsReceived := 0
  recordsProcessed := 0
  recordsFailed := 0
  errorMessage := none
  startedAt := some 0
  finishedAt := some 0
  createdAt := 0

def ownStore : Store :=
  { Sample.store with syncRuns := [syncRun 4 3] }

def sharedStore : Store :=
  { ownStore with
    connectors := [{ Sample.connector with id := 5, ownerId := 9 },
      Sample.connector]
    pipelines := [Sample.pipeline,
      { Sample.pipeline with id := 6, sourceConnectorId := 5, ownerId := 9 }]
    syncRuns := [syncRun 7 6, syncRun 4 3] }

theorem intact_ownStore : ownStore.Intact := by
  constructor <;> decide

theorem intact_sharedStore : sharedStore.Intact := by
  constructor <;> decide

theorem agreeFor_stores : AgreeFor 1 ownStore sharedStore := by
  constructor <;> rfl

end Neighbour

open Neighbour in
/-- The run of the neighbour is not to be had, and does not count. -/
theorem reads_of_owned_of_neighbour :
    (ReadCall.answer (Sample.env .sync) .stable reader (.run 7) ownStore).toOption =
        (ReadCall.answer (Sample.env .sync) .stable reader (.run 7)
          sharedStore).toOption ∧
      (ReadCall.answer (Sample.env .sync) .stable reader .summary ownStore).toOption =
        (ReadCall.answer (Sample.env .sync) .stable reader .summary
          sharedStore).toOption :=
  ⟨reads_of_owned rfl intact_ownStore intact_sharedStore agreeFor_stores _,
    reads_of_owned rfl intact_ownStore intact_sharedStore agreeFor_stores _⟩

end SyncBridge
