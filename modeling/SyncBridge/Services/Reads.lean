import SyncBridge.Services.Connectors
import SyncBridge.Services.Scheduler
import SyncBridge.Services.Webhooks
import SyncBridge.Store.Effects

/-!
# Reads

The service functions that write nothing, as functions of the store in which
their queries are answered.
-/

namespace SyncBridge

open SyncBridge.Foundation

/-- The answer of a body that runs alone and meets no failure from outside. -/
def alone (env : Env) {α : Type} (body : Body α) (store : Store) :
    Except Failure α :=
  ((machine env).eval body store).1

/-! ## Queries -/

/-- How a query answers `orderBy: { column: 'desc' }`.  The database leaves it
open which of the rows of equal dates come first. -/
structure LatestFirst where
  apply : {ρ : Type} → (ρ → Time) → List ρ → List ρ
  perm : ∀ {ρ : Type} {column : ρ → Time} {rows : List ρ},
    (apply column rows).Perm rows
  sorted : ∀ {ρ : Type} (column : ρ → Time) (rows : List ρ),
    (apply column rows).Pairwise fun earlier later =>
      column later ≤ column earlier

variable (order : LatestFirst)

def foundOr {α : Type} (message : String) : Option α → Except Failure α
  | some value => .ok value
  | none => .error (.notFound message)

/-- The query of a paged list, as its validation lets it through. -/
structure PageQuery (status : Type) where
  page : Option { page : Nat // 1 ≤ page }
  limit : Option { limit : Nat // 1 ≤ limit ∧ limit ≤ 100 }
  status : Option status

abbrev ListSyncRunsQueryDto := PageQuery SyncRunStatus

abbrev ListWebhookEventsQueryDto := PageQuery WebhookEventStatus

structure Page (α : Type) where
  items : List α
  page : Nat
  limit : Nat
  total : Nat

namespace PageQuery

variable {status ρ α : Type} (query : PageQuery status)

def pageOr : Nat := (query.page.map Subtype.val).getD 1

def limitOr : Nat := (query.limit.map Subtype.val).getD 20

def statusFilter [DecidableEq status] (value : status) : Bool :=
  query.status.all (value = ·)

def paged (column : ρ → Time) (view : ρ → α) (rows : List ρ) : Page α where
  items := (((order.apply column rows).drop
    ((query.pageOr - 1) * query.limitOr)).take query.limitOr).map view
  page := query.pageOr
  limit := query.limitOr
  total := rows.length

end PageQuery

namespace Store

variable (store : Store)

def pipelineOf (run : SyncRun) : Option SyncPipeline :=
  Table.find SyncPipeline.id run.pipelineId store.pipelines

def connectorOf (event : WebhookEvent) : Option Connector :=
  event.connectorId.bind fun connectorId =>
    Table.find Connector.id connectorId store.connectors

def jobOf (entityType : String) (entityId : Id) : Option BackgroundJob :=
  (order.apply BackgroundJob.createdAt (store.backgroundJobs.filter fun job =>
    job.entityType = entityType && job.entityId = entityId)).head?

end Store

/-! ## Connectors and pipelines -/

namespace ConnectorsService

def findAll (user : AuthenticatedUser) (store : Store) : List Connector :=
  order.apply Connector.createdAt (store.connectors.filter fun connector =>
    isPrivileged user.role || connector.ownerId = user.sub)

end ConnectorsService

namespace PipelinesService

def findAll (user : AuthenticatedUser) (store : Store) : List SyncPipeline :=
  order.apply SyncPipeline.createdAt (store.pipelines.filter fun pipeline =>
    isPrivileged user.role || pipeline.ownerId = user.sub)

def ownedIds (user : AuthenticatedUser) (store : Store) : List Id :=
  (store.pipelines.filter fun pipeline => pipeline.ownerId = user.sub).map
    SyncPipeline.id

end PipelinesService

namespace SchedulerService

def getPipelineSchedule (pipelineId : Id) (user : AuthenticatedUser) :
    Body ScheduleResponse := do
  let pipeline ← PipelinesService.findOne pipelineId user
  pure (toScheduleResponse pipeline)

end SchedulerService

/-! ## Runs -/

structure SelectedPipeline where
  id : Id
  name : String
  targetName : String

structure SelectedOwnedPipeline extends SelectedPipeline where
  ownerId : Id

def SyncPipeline.select (pipeline : SyncPipeline) : SelectedPipeline :=
  ⟨pipeline.id, pipeline.name, pipeline.targetName⟩

def SyncPipeline.selectOwned (pipeline : SyncPipeline) :
    SelectedOwnedPipeline :=
  ⟨pipeline.select, pipeline.ownerId⟩

namespace SyncRunsService

variable (env : Env)

def listByPipeline (pipelineId : Id) (user : AuthenticatedUser)
    (store : Store) :
    Except Failure (List (SyncRun × Option SelectedPipeline)) := do
  let _ ← alone env (PipelinesService.findOne pipelineId user) store
  let rows := store.syncRuns.filter fun run => run.pipelineId = pipelineId
  pure ((order.apply SyncRun.createdAt rows).map fun run =>
    (run, (store.pipelineOf run).map SyncPipeline.select))

def listAll (query : ListSyncRunsQueryDto) (user : AuthenticatedUser)
    (store : Store) : Page (SyncRun × Option SelectedOwnedPipeline) :=
  let view := fun run =>
    (run, (store.pipelineOf run).map SyncPipeline.selectOwned)
  if isPrivileged user.role then
    query.paged order SyncRun.createdAt view
      (store.syncRuns.filter fun run => query.statusFilter run.status)
  else
    let pipelineIds := PipelinesService.ownedIds user store
    if pipelineIds.length = 0 then ⟨[], query.pageOr, query.limitOr, 0⟩
    else query.paged order SyncRun.createdAt view
      (store.syncRuns.filter fun run =>
        query.statusFilter run.status && pipelineIds.contains run.pipelineId)

/-- What a relation without its row fails with. -/
def inconsistentQuery : Failure :=
  .error "Inconsistent query result"

def findById (id : Id) (user : AuthenticatedUser) (store : Store) :
    Except Failure (SyncRun × SyncPipeline) := do
  let run ← foundOr "Sync run not found"
    (Table.find SyncRun.id id store.syncRuns)
  match store.pipelineOf run with
  | none => .error inconsistentQuery
  | some pipeline =>
      if !isPrivileged user.role && pipeline.ownerId != user.sub then
        .error (.forbidden "You do not have access to this sync run")
      else pure (run, pipeline)

end SyncRunsService

/-! ## Jobs -/

/-- A job as the interface shows it: with metadata in any case. -/
def toPublicJob (job : BackgroundJob) : BackgroundJob :=
  { job with
    metadataJson := match job.metadataJson with
      | none => some (.obj [])
      | some .null => some (.obj [])
      | some metadata => some metadata }

namespace JobStatusService

def entityOwner (entityId : Id) (store : Store) :
    BackgroundJobType → Option Id
  | .syncRun => (Table.find SyncRun.id entityId store.syncRuns).bind
      fun run => (store.pipelineOf run).map SyncPipeline.ownerId
  | .webhookProcessing =>
      (Table.find WebhookEvent.id entityId store.webhookEvents).bind
        fun event => (store.connectorOf event).map Connector.ownerId

def assertCanAccessJob (entityId : Id) (jobType : BackgroundJobType)
    (user : AuthenticatedUser) (store : Store) : Except Failure Unit :=
  if isPrivileged user.role then .ok ()
  else if entityOwner entityId store jobType ≠ some user.sub then
    .error (.forbidden "You do not have access to this job")
  else .ok ()

def getById (jobId : Id) (user : AuthenticatedUser) (store : Store) :
    Except Failure BackgroundJob := do
  let job ← foundOr "Background job not found"
    (Table.find BackgroundJob.id jobId store.backgroundJobs)
  assertCanAccessJob job.entityId job.type user store
  pure (toPublicJob job)

def getBySyncRunId (syncRunId : Id) (user : AuthenticatedUser)
    (store : Store) : Except Failure BackgroundJob := do
  let _ ← SyncRunsService.findById syncRunId user store
  let job ← foundOr "Background job not found for sync run"
    (store.jobOf order "sync_run" syncRunId)
  pure (toPublicJob job)

end JobStatusService

/-! ## Webhook events -/

structure SelectedConnector where
  id : Id
  name : String

structure SelectedOwnedConnector extends SelectedConnector where
  ownerId : Id

def Connector.select (connector : Connector) : SelectedConnector :=
  ⟨connector.id, connector.name⟩

def Connector.selectOwned (connector : Connector) : SelectedOwnedConnector :=
  ⟨connector.select, connector.ownerId⟩

namespace WebhooksService

/-- The headers are redacted once more. -/
def serializeEvent (event : WebhookEvent)
    (connector : Option SelectedOwnedConnector) :
    WebhookEvent × Option SelectedOwnedConnector :=
  ({ event with
    headersJson := match event.headersJson with
      | .obj headers => .obj (redactHeaders headers)
      | _ => .null }, connector)

def listEvents (query : ListWebhookEventsQueryDto) (user : AuthenticatedUser)
    (store : Store) : Page (WebhookEvent × Option SelectedOwnedConnector) :=
  let view := fun event => serializeEvent event
    ((store.connectorOf event).map Connector.selectOwned)
  query.paged order WebhookEvent.receivedAt view
    (store.webhookEvents.filter fun event =>
      query.statusFilter event.status && (isPrivileged user.role ||
        (store.connectorOf event).any fun connector =>
          connector.ownerId = user.sub))

def getEventById (env : Env) (id : Id) (user : AuthenticatedUser)
    (store : Store) :
    Except Failure (WebhookEvent × Option SelectedOwnedConnector) := do
  let event ← alone env (getAccessibleEvent id user) store
  pure (serializeEvent event
    ((store.connectorOf event).map Connector.selectOwned))

def getEventJob (env : Env) (id : Id) (user : AuthenticatedUser)
    (store : Store) : Except Failure BackgroundJob := do
  let _ ← alone env (getAccessibleEvent id user) store
  let job ← foundOr "Background job not found for webhook event"
    (store.jobOf order "webhook_event" id)
  pure (toPublicJob job)

end WebhooksService

/-! ## The dashboard -/

structure Summary where
  connectorsCount : Nat
  pipelinesCount : Nat
  syncRunsCount : Nat
  webhookEventsCount : Nat
  failedRunsCount : Nat
  latestRuns : List (SyncRun × Option SelectedPipeline)
  latestWebhookEvents : List (WebhookEvent × Option SelectedConnector)

namespace DashboardService

/-- Without pipelines the filter asks for an identifier that no run has. -/
def pipelineFilter (pipelineIds : List Id) (run : SyncRun) : Bool :=
  if pipelineIds.length > 0 then pipelineIds.contains run.pipelineId
  else idString run.id = "__none__"

def summaryOf (store : Store) (connectors : List Connector)
    (pipelines : List SyncPipeline) (runs : List SyncRun)
    (events : List WebhookEvent) : Summary where
  connectorsCount := connectors.length
  pipelinesCount := pipelines.length
  syncRunsCount := runs.length
  webhookEventsCount := events.length
  failedRunsCount := (runs.filter fun run => run.status = .failed).length
  latestRuns := ((order.apply SyncRun.createdAt runs).take 5).map fun run =>
    (run, (store.pipelineOf run).map SyncPipeline.select)
  latestWebhookEvents :=
    ((order.apply WebhookEvent.receivedAt events).take 5).map fun event =>
      (event, (store.connectorOf event).map Connector.select)

def getSummary (user : AuthenticatedUser) (store : Store) : Summary :=
  if isPrivileged user.role then
    summaryOf order store store.connectors store.pipelines store.syncRuns
      store.webhookEvents
  else
    let pipelineIds := PipelinesService.ownedIds user store
    summaryOf order store
      (store.connectors.filter fun connector => connector.ownerId = user.sub)
      (store.pipelines.filter fun pipeline => pipeline.ownerId = user.sub)
      (store.syncRuns.filter (pipelineFilter pipelineIds))
      (store.webhookEvents.filter fun event =>
        (store.connectorOf event).any fun connector =>
          connector.ownerId = user.sub)

end DashboardService

end SyncBridge
