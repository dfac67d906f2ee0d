import SyncBridge.Access.ReadAccess
import SyncBridge.Foundation.Knowledge
import SyncBridge.Services.Footprint
import SyncBridge.Store.History

/-!
# What rows refer to

Most references between rows are checked nowhere: a run names its pipeline, a
job its entity and an audit entry whatever it is about.  A call has seen the
row before it writes a reference to it, and rows stay.
-/

namespace SyncBridge

open SyncBridge.Foundation SyncBridge.Foundation.Prog

/-- A row that exists, with some of the columns that are written once. -/
inductive Fact where
  | connector (id : Id)
  | pipeline (id : Id)
  | syncRun (id pipelineId : Id) (triggerType : SyncRunTriggerType)
  | webhookEvent (id : Id)
  | backgroundJob (id : Id) (type : BackgroundJobType) (entityId : Id)
  | syncedRecord (id : Id)

def Fact.entity : Fact → String × Id
  | .connector id => ("connector", id)
  | .pipeline id => ("pipeline", id)
  | .syncRun id _ _ => ("sync_run", id)
  | .webhookEvent id => ("webhook_event", id)
  | .backgroundJob id _ _ => ("background_job", id)
  | .syncedRecord id => ("synced_record", id)

def Store.Holds (store : Store) : Fact → Prop
  | .connector id => ∃ row ∈ store.connectors, row.id = id
  | .pipeline id => ∃ row ∈ store.pipelines, row.id = id
  | .syncRun id pipelineId triggerType => ∃ row ∈ store.syncRuns,
      row.id = id ∧ row.pipelineId = pipelineId ∧ row.triggerType = triggerType
  | .webhookEvent id => ∃ row ∈ store.webhookEvents, row.id = id
  | .backgroundJob id type entityId => ∃ row ∈ store.backgroundJobs,
      row.id = id ∧ row.type = type ∧ row.entityId = entityId
  | .syncedRecord id => ∃ row ∈ store.syncedRecords, row.id = id

def Store.facts (store : Store) : Set Fact := {fact | store.Holds fact}

theorem exists_of_prefix {ρ β : Type} {f : ρ → β} {rows later : List ρ}
    {row : ρ} (h : rows.map f <+: later.map f) (hrow : row ∈ rows) :
    ∃ row' ∈ later, f row' = f row := by
  have hmem : f row ∈ later.map f := h.subset (List.mem_map_of_mem hrow)
  obtain ⟨row', hrow', heq⟩ := List.mem_map.mp hmem
  exact ⟨row', hrow', heq⟩

theorem Store.Continues.facts {store later : Store}
    (h : store.Continues later) : store.facts ⊆ later.facts := by
  intro fact hfact
  cases fact with
  | connector id =>
      obtain ⟨row, hrow, rfl⟩ := hfact
      obtain ⟨row', hrow', heq⟩ := exists_of_prefix h.connectors hrow
      exact ⟨row', hrow', congrArg Prod.fst heq⟩
  | pipeline id =>
      obtain ⟨row, hrow, rfl⟩ := hfact
      obtain ⟨row', hrow', heq⟩ := exists_of_prefix h.pipelines hrow
      exact ⟨row', hrow', congrArg Prod.fst heq⟩
  | syncRun id pipelineId triggerType =>
      obtain ⟨row, hrow, rfl, rfl, rfl⟩ := hfact
      obtain ⟨row', hrow', heq⟩ := exists_of_prefix h.syncRuns hrow
      simp only [SyncRun.identity, Prod.mk.injEq] at heq
      exact ⟨row', hrow', heq.1, heq.2.1, heq.2.2.1⟩
  | webhookEvent id =>
      obtain ⟨row, hrow, rfl⟩ := hfact
      obtain ⟨row', hrow', heq⟩ := exists_of_prefix h.webhookEvents hrow
      exact ⟨row', hrow', congrArg Prod.fst heq⟩
  | backgroundJob id type entityId =>
      obtain ⟨row, hrow, rfl, rfl, rfl⟩ := hfact
      obtain ⟨row', hrow', heq⟩ := exists_of_prefix h.backgroundJobs hrow
      simp only [BackgroundJob.identity, Prod.mk.injEq] at heq
      exact ⟨row', hrow', heq.1, heq.2.1, heq.2.2.2.1⟩
  | syncedRecord id =>
      obtain ⟨row, hrow, rfl⟩ := hfact
      exact ⟨row, h.syncedRecords.subset hrow, rfl⟩

/-! ## References -/

/-- The `sourceType` of the records of a run.  A scheduled run has no records. -/
def SyncRunTriggerType.sourceType : SyncRunTriggerType → Option String
  | .manual => some "MANUAL"
  | .webhook => some "WEBHOOK"
  | .scheduled => none

namespace JobPayload

def backgroundJobId : JobPayload → Id
  | .executeSyncRun payload => payload.backgroundJobId
  | .processWebhookEvent payload => payload.backgroundJobId

def refs : JobPayload → Set Fact
  | .executeSyncRun payload =>
      {.backgroundJob payload.backgroundJobId .syncRun payload.syncRunId,
       .syncRun payload.syncRunId payload.pipelineId payload.triggerType,
       .pipeline payload.pipelineId}
  | .processWebhookEvent payload =>
      {.backgroundJob payload.backgroundJobId .webhookProcessing
         payload.webhookEventId,
       .webhookEvent payload.webhookEventId}

/-- Only manual runs are queued with records, and no run of a webhook is
queued. -/
def Suits : JobPayload → Prop
  | .executeSyncRun payload => payload.triggerType ≠ .webhook ∧
      (payload.triggerType = .scheduled → payload.mockRecords = [])
  | .processWebhookEvent _ => True

end JobPayload

def BackgroundJobType.Concerns (entityId : Id) (known : Set Fact) :
    BackgroundJobType → Prop
  | .syncRun => ∃ pipelineId triggerType,
      .syncRun entityId pipelineId triggerType ∈ known
  | .webhookProcessing => .webhookEvent entityId ∈ known

/-- The polling cycles are audited under the name of the scheduler. -/
def NamesEntity (known : Set Fact) (entityType entityId : String) : Prop :=
  (entityType = "scheduler" ∧ entityId = "default") ∨
    ∃ fact ∈ known, entityType = fact.entity.1 ∧
      entityId = idString fact.entity.2

theorem BackgroundJobType.Concerns.mono {type : BackgroundJobType}
    {entityId : Id} {known seen : Set Fact} (hsubset : known ⊆ seen)
    (h : type.Concerns entityId known) : type.Concerns entityId seen := by
  cases type with
  | syncRun =>
      obtain ⟨pipelineId, triggerType, hknown⟩ := h
      exact ⟨pipelineId, triggerType, hsubset hknown⟩
  | webhookProcessing => exact hsubset h

theorem NamesEntity.mono {entityType entityId : String} {known seen : Set Fact}
    (hsubset : known ⊆ seen) (h : NamesEntity known entityType entityId) :
    NamesEntity seen entityType entityId := by
  rcases h with hscheduler | ⟨fact, hknown, hentity⟩
  · exact .inl hscheduler
  · exact .inr ⟨fact, hsubset hknown, hentity⟩

/-- The rows that an operation writes references to are known. -/
def Op.Refers : Op → Set Fact → Prop
  | .pipelineCreate data, known => .connector data.sourceConnectorId ∈ known
  | .pipelineUpdate _ data, known => ∀ sourceConnectorId,
      data.sourceConnectorId = some sourceConnectorId →
      .connector sourceConnectorId ∈ known
  | .syncRunCreate data, known => .pipeline data.pipelineId ∈ known
  | .syncedRecordCreate data, known => ∃ triggerType : SyncRunTriggerType,
      .syncRun data.syncRunId data.pipelineId triggerType ∈ known ∧
        triggerType.sourceType = some data.sourceType
  | .webhookEventCreate data, known => ∀ connectorId,
      data.connectorId = some connectorId →
      connectorId = data.sourceConnectorRef ∧ .connector connectorId ∈ known
  | .backgroundJobCreate data, known =>
      data.entityType = data.type.entityType ∧
        data.type.Concerns data.entityId known
  | .queueAdd jobId payload _, known => payload.backgroundJobId = jobId ∧
      payload.Suits ∧ payload.refs ⊆ known
  | .auditLogCreate data, known =>
      NamesEntity known data.entityType data.entityId
  | _, _ => True

theorem refers_mono {op : Op} {known seen : Set Fact} (hsubset : known ⊆ seen)
    (h : op.Refers known) : op.Refers seen := by
  cases op with
  | pipelineCreate data => exact hsubset h
  | pipelineUpdate id data => exact fun id hid => hsubset (h id hid)
  | syncRunCreate data => exact hsubset h
  | syncedRecordCreate data =>
      obtain ⟨triggerType, hknown, hsource⟩ := h
      exact ⟨triggerType, hsubset hknown, hsource⟩
  | webhookEventCreate data =>
      exact fun id hid => ⟨(h id hid).1, hsubset (h id hid).2⟩
  | backgroundJobCreate data => exact ⟨h.1, h.2.mono hsubset⟩
  | queueAdd jobId payload attempts =>
      exact ⟨h.1, h.2.1, h.2.2.trans hsubset⟩
  | auditLogCreate data => exact h.mono hsubset
  | _ => trivial

def Op.shows : (op : Op) → op.Res → Set Fact
  | .connectorCreate _, row => {.connector row.id}
  | .connectorFindUnique _, some row => {.connector row.id}
  | .pipelineCreate _, row => {.pipeline row.id}
  | .pipelineFindUnique _, some row => {.pipeline row.id}
  | .pipelineFindActive _, rows =>
      {fact | ∃ row ∈ rows, fact = .pipeline row.id}
  | .pipelineFindDue _, rows =>
      {fact | ∃ row ∈ rows, fact = .pipeline row.id}
  | .syncRunCreate data, row =>
      {.syncRun row.id data.pipelineId data.triggerType}
  | .syncRunUpdate _ _, row =>
      {.syncRun row.id row.pipelineId row.triggerType}
  | .backgroundJobCreate data, row =>
      {.backgroundJob row.id data.type data.entityId}
  | .webhookEventFindFirst _ _, some row => {.webhookEvent row.id}
  | .webhookEventCreate _, row => {.webhookEvent row.id}
  | .webhookEventFindUnique _, some row => {.webhookEvent row.id}
  | .webhookEventFindUniqueWithConnector _, some (row, _) =>
      {.webhookEvent row.id}
  | .syncedRecordCreate _, row => {.syncedRecord row.id}
  | _, _ => ∅

def Op.answers : (op : Op) → op.Res → Prop
  | .connectorFindUnique id, some row => row.id = id
  | .pipelineFindUnique id, some row => row.id = id
  | .syncRunFindUnique id, some row => row.id = id
  | .backgroundJobFindUnique id, some row => row.id = id
  | .webhookEventFindUnique id, some row => row.id = id
  | .webhookEventFindUniqueWithConnector id, some (row, _) => row.id = id
  | _, _ => True

def Call.given : Call → Set Fact
  | .processJob _ _ payload _ => payload.refs
  | _ => ∅

def Call.Suits : Call → Prop
  | .processJob _ _ payload _ => payload.Suits
  | _ => True

/-! ## Rows that are looked up -/

section LookedUp

variable {φ α : Type} {K : Knowledge Op.Res Call φ} {call : Call}
  {known : Set φ} {learned : α → Set φ} {id : Id}

theorem informed_getById {rest : SyncPipeline → Body α}
    (hanswers : ∀ op value, K.facts op value → Op.answers op value)
    (hneeds : K.needs call (.pipelineFindUnique id) known)
    (hrest : ∀ row : SyncPipeline, row.id = id →
      K.Informed call (known ∪ K.shows call (.pipelineFindUnique id) (some row))
        learned (rest row)) :
    K.Informed call known learned
      ((PipelinesService.getById id).bind rest) := by
  simp only [PipelinesService.getById, bind_eq, bind_assoc]
  refine Knowledge.informed_await_bind hneeds fun found hfound => ?_
  cases found with
  | none => exact Knowledge.informed_throw _
  | some row => exact hrest row (hanswers (.pipelineFindUnique id) _ hfound)

theorem informed_connector_getById {rest : Connector → Body α}
    (hanswers : ∀ op value, K.facts op value → Op.answers op value)
    (hneeds : K.needs call (.connectorFindUnique id) known)
    (hrest : ∀ row : Connector, row.id = id →
      K.Informed call (known ∪ K.shows call (.connectorFindUnique id) (some row))
        learned (rest row)) :
    K.Informed call known learned
      ((ConnectorsService.getById id).bind rest) := by
  simp only [ConnectorsService.getById, bind_eq, bind_assoc]
  refine Knowledge.informed_await_bind hneeds fun found hfound => ?_
  cases found with
  | none => exact Knowledge.informed_throw _
  | some row => exact hrest row (hanswers (.connectorFindUnique id) _ hfound)

end LookedUp

def references : Knowledge Op.Res Call Fact where
  given := Call.given
  shows _ := Op.shows
  needs _ := Op.Refers
  facts := Op.answers
  needs_mono := refers_mono

end SyncBridge
