import SyncBridge.Store

/-!
# Audit log, job queue and access to pipelines

The services that the sync runs, the webhooks and the scheduler share.
-/

namespace SyncBridge

open SyncBridge.Foundation

variable (env : Env)

def isPrivileged (role : UserRole) : Bool :=
  role = .operator || role = .admin

theorem isPrivileged_user {user : AuthenticatedUser} (h : user.role = .user) :
    isPrivileged user.role = false := by
  rw [h]
  rfl

def nonEmpty (text : Option String) : Option String :=
  text.filter fun text => !text.isEmpty

namespace AuditService

def log (action entityType entityId : String) (metadata : Record)
    (actor : AuditActor) : Body Unit :=
  await (.auditLogCreate {
    action := action
    entityType := entityType
    entityId := entityId
    metadataJson := .obj metadata
    actorId := actor.map AuthenticatedUser.sub })

end AuditService

namespace JobsService

def isAsyncMode : Bool := env.queueMode = .async

/-- Outside production nothing takes jobs off a queue, so none is created. -/
def hasQueue : Bool := isAsyncMode env && !env.isTestEnv

def enqueueJob (payload : JobPayload) (jobId : Id) : Body Id :=
  if !isAsyncMode env then
    throw (.error "Queue mode is sync. Async enqueue is not enabled.")
  else if !hasQueue env then
    pure jobId
  else
    await (.queueAdd jobId payload env.defaultAttempts)

def enqueueExecuteSyncRunJob (payload : ExecuteSyncRunJobPayload) : Body Id :=
  enqueueJob env (.executeSyncRun payload) payload.backgroundJobId

def enqueueProcessWebhookEventJob (payload : ProcessWebhookEventJobPayload) :
    Body Id :=
  enqueueJob env (.processWebhookEvent payload) payload.backgroundJobId

end JobsService

namespace ConnectorsService

def getById (id : Id) : Body Connector := do
  let connector ← await (.connectorFindUnique id)
  orNotFound "Connector not found" connector

end ConnectorsService

namespace PipelinesService

def getById (id : Id) : Body SyncPipeline := do
  let pipeline ← await (.pipelineFindUnique id)
  orNotFound "Pipeline not found" pipeline

def assertCanAccess (pipeline : SyncPipeline) (user : AuthenticatedUser) :
    Except Failure Unit :=
  if !isPrivileged user.role && pipeline.ownerId != user.sub then
    .error (.forbidden "You do not have access to this pipeline")
  else .ok ()

def findOne (id : Id) (user : AuthenticatedUser) : Body SyncPipeline := do
  let pipeline ← getById id
  Prog.ofExcept (assertCanAccess pipeline user)
  pure pipeline

end PipelinesService

end SyncBridge
