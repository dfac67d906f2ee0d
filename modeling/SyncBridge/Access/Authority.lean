import SyncBridge.Access.WebhookData
import SyncBridge.Integrity.References

/-!
# Who may change what

Connectors and the configuration of pipelines are changed by their owners and
by privileged users, and nobody else starts manual runs.  The permission is
checked on a row read some operations before the write.  It is not out of date
then: rows keep their owners.
-/

namespace SyncBridge

open SyncBridge.Foundation SyncBridge.Foundation.Prog
open SyncBridge.Foundation.Knowledge

/-! ## Permissions -/

/-- The user on whose permission a call rests.  Intake, the poller and the
workers act on nobody's. -/
def Call.requester : Call → Option AuthenticatedUser
  | .receiveEvent _ => none
  | .retryEvent _ user => some user
  | .processEvent _ user => some user
  | .createForPipeline _ _ user => some user
  | .triggerPipelineSchedule _ user => some user
  | .runPollingCycle _ => none
  | .createConnector _ user => some user
  | .updateConnector _ _ user => some user
  | .updateConnectorStatus _ _ user => some user
  | .createPipeline _ user => some user
  | .updatePipeline _ _ user => some user
  | .updateStatus _ _ user => some user
  | .updatePipelineSchedule _ _ user => some user
  | .processJob _ _ _ _ => none

def Call.MayActFor (call : Call) (owner : Id) : Prop :=
  ∃ user, call.requester = some user ∧
    (isPrivileged user.role = true ∨ user.sub = owner)

theorem mayActFor_iff {call : Call} {owner : Id} :
    call.MayActFor owner ↔ (call.requester.any fun user =>
      isPrivileged user.role || user.sub = owner) = true := by
  simp [Call.MayActFor, Option.any_eq_true]

instance (call : Call) (owner : Id) : Decidable (call.MayActFor owner) :=
  decidable_of_iff _ mayActFor_iff.symm

inductive Ownership where
  | connector (id owner : Id)
  | pipeline (id owner : Id)

def Store.Owned (store : Store) : Ownership → Prop
  | .connector id owner => store.connectorOwner id = some owner
  | .pipeline id owner => store.pipelineOwner id = some owner

def PipelineData.KeepsConfig (data : PipelineData) : Prop :=
  ∃ nextRunAt lastRunAt cursorJson, data = {
    nextRunAt := nextRunAt
    lastRunAt := lastRunAt
    cursorJson := cursorJson }

def Call.MayWrite (call : Call) (row : Id → Ownership) (known : Set Ownership) :
    Prop :=
  ∃ owner, row owner ∈ known ∧ call.MayActFor owner

def Op.Permitted (call : Call) : Op → Set Ownership → Prop
  | .connectorCreate data, _ => call.MayActFor data.ownerId
  | .connectorUpdate id _, known => call.MayWrite (.connector id) known
  | .pipelineCreate data, known => call.MayActFor data.ownerId ∧
      call.MayWrite (.connector data.sourceConnectorId) known
  | .pipelineUpdate id data, known => data.KeepsConfig ∨
      call.MayWrite (.pipeline id) known ∧ ∀ sourceConnectorId,
        data.sourceConnectorId = some sourceConnectorId →
        call.MayWrite (.connector sourceConnectorId) known
  | .syncRunCreate data, known => data.triggerType = .manual →
      call.MayWrite (.pipeline data.pipelineId) known
  | _, _ => True

def Op.showsOwner : (op : Op) → op.Res → Set Ownership
  | .connectorFindUnique _, some row => {.connector row.id row.ownerId}
  | .pipelineFindUnique _, some row => {.pipeline row.id row.ownerId}
  | _, _ => ∅

theorem mayWrite_mono {call : Call} {row : Id → Ownership}
    {known seen : Set Ownership} (hsubset : known ⊆ seen)
    (h : call.MayWrite row known) : call.MayWrite row seen := by
  obtain ⟨owner, hknown, hmay⟩ := h
  exact ⟨owner, hsubset hknown, hmay⟩

theorem permitted_mono {call : Call} {op : Op} {known seen : Set Ownership}
    (hsubset : known ⊆ seen) (h : op.Permitted call known) :
    op.Permitted call seen := by
  cases op with
  | connectorCreate data => exact h
  | connectorUpdate id data => exact mayWrite_mono hsubset h
  | pipelineCreate data => exact ⟨h.1, mayWrite_mono hsubset h.2⟩
  | pipelineUpdate id data =>
      refine h.imp_right fun hmay => ⟨mayWrite_mono hsubset hmay.1, ?_⟩
      exact fun id hid => mayWrite_mono hsubset (hmay.2 id hid)
  | syncRunCreate data =>
      exact fun htype => mayWrite_mono hsubset (h htype)
  | _ => trivial

def authority : Knowledge Op.Res Call Ownership where
  given _ := ∅
  shows _ := Op.showsOwner
  needs := Op.Permitted
  facts := Op.answers
  needs_mono := permitted_mono

/-! ## Every call checks what it changes -/

section Bodies

variable {env : Env} {call : Call} {known : Set Ownership}

abbrev Permits (call : Call) (known : Set Ownership) {α : Type}
    (body : Body α) : Prop :=
  authority.Safe call known body

theorem permits_await {op : Op} (hneeds : op.Permitted call known) :
    Permits call known (await op) :=
  (informed_await (K := authority) hneeds).safe

theorem permits_pass {α : Type} {op : Op} {rest : op.Res → Body α}
    (hneeds : op.Permitted call known)
    (hrest : ∀ value, Permits call known (rest value)) :
    Permits call known ((Prog.await op).bind rest) :=
  (permits_await hneeds).seq hrest

theorem quiet_permits (call : Call) (known : Set Ownership) :
    Quiet fun {_} (body : Body _) => Permits call known body where
  toCompositional := compositional_safe authority call known
  op op hop := by
    refine permits_await ?_
    cases op <;> trivial

theorem keepsConfig_ofRun {data : PipelineData} (h : data.OfRun) :
    data.KeepsConfig := by
  rcases h with ⟨time, rfl⟩ | ⟨cursorValue, rfl⟩
  · exact ⟨none, some time, none, rfl⟩
  · exact ⟨none, none, some (.obj cursorValue), rfl⟩

theorem permits_ofRun (id : Id) (data : PipelineData) (h : data.OfRun) :
    Permits call known (await (.pipelineUpdate id data)) :=
  permits_await (.inl (keepsConfig_ofRun h))

theorem permits_nextRunAt (id : Id) (nextRunAt : Option Time) :
    Permits call known
      (await (.pipelineUpdate id { nextRunAt := some nextRunAt })) :=
  permits_await (.inl ⟨some nextRunAt, none, none, rfl⟩)

/-! ### Calls of users -/

variable {user : AuthenticatedUser}

theorem mayActFor_of_pipeline {pipeline : SyncPipeline}
    (hcall : call.requester = some user)
    (h : PipelinesService.assertCanAccess pipeline user = .ok ()) :
    call.MayActFor pipeline.ownerId := by
  refine ⟨user, hcall, ?_⟩
  by_contra hneither
  obtain ⟨hplain, hother⟩ := not_or.mp hneither
  rw [Bool.not_eq_true] at hplain
  simp [PipelinesService.assertCanAccess, hplain, Ne.symm hother] at h

theorem mayActFor_of_connector {connector : Connector}
    (hcall : call.requester = some user)
    (h : ConnectorsService.assertCanAccess connector user = .ok ()) :
    call.MayActFor connector.ownerId := by
  refine ⟨user, hcall, ?_⟩
  by_contra hneither
  obtain ⟨hplain, hother⟩ := not_or.mp hneither
  rw [Bool.not_eq_true] at hplain
  simp [ConnectorsService.assertCanAccess, hplain, Ne.symm hother] at h

theorem mayActFor_of_ownConnector {connector : Connector}
    (hcall : call.requester = some user)
    (h : PipelinesService.assertOwnConnector connector user = .ok ()) :
    call.MayActFor connector.ownerId := by
  refine ⟨user, hcall, ?_⟩
  by_contra hneither
  obtain ⟨hplain, hother⟩ := not_or.mp hneither
  rw [Bool.not_eq_true] at hplain
  simp [PipelinesService.assertOwnConnector, hplain, Ne.symm hother] at h

theorem findOne_permits {α : Type} {id : Id} {rest : SyncPipeline → Body α}
    (hcall : call.requester = some user)
    (hrest : ∀ (row : SyncPipeline) (seen : Set Ownership), row.id = id →
      call.MayWrite (.pipeline id) seen → Permits call seen (rest row)) :
    Permits call known ((PipelinesService.findOne id user).bind rest) := by
  simp only [PipelinesService.findOne, bind_eq, bind_assoc, pure_eq, ret_bind]
  refine informed_getById (K := authority) (fun _ _ h => h) trivial
    fun row hid => ?_
  refine informed_ofExcept_bind fun _ haccess => hrest row _ hid ?_
  subst hid
  exact ⟨row.ownerId, .inr rfl, mayActFor_of_pipeline hcall haccess⟩

theorem connector_findOne_permits {α : Type} {id : Id}
    {rest : Connector → Body α} (hcall : call.requester = some user)
    (hrest : ∀ (row : Connector) (seen : Set Ownership), row.id = id →
      call.MayWrite (.connector id) seen → Permits call seen (rest row)) :
    Permits call known ((ConnectorsService.findOne id user).bind rest) := by
  simp only [ConnectorsService.findOne, bind_eq, bind_assoc, pure_eq, ret_bind]
  refine informed_connector_getById (K := authority) (fun _ _ h => h) trivial
    fun row hid => ?_
  refine informed_ofExcept_bind fun _ haccess => hrest row _ hid ?_
  subst hid
  exact ⟨row.ownerId, .inr rfl, mayActFor_of_connector hcall haccess⟩

theorem createConnector_permits {dto : CreateConnectorDto}
    (hcall : call.requester = some user) :
    Permits call known (ConnectorsService.create dto user) := by
  have quiet := quiet_permits call known
  simp only [ConnectorsService.create, bind_eq]
  refine informed_ofExcept_bind fun _ _ => ?_
  refine permits_pass ⟨user, hcall, .inr rfl⟩ fun connector => ?_
  exact (log_rule quiet).seq fun _ => safe_ret _

theorem updateConnector_permits {id : Id} {dto : UpdateConnectorDto}
    (hcall : call.requester = some user) :
    Permits call known (ConnectorsService.update id dto user) := by
  simp only [ConnectorsService.update, bind_eq]
  refine connector_findOne_permits hcall fun row seen hid hmay => ?_
  refine informed_ofExcept_bind fun _ _ => ?_
  refine permits_pass hmay fun updated => ?_
  split
  · split
    · exact (log_rule (quiet_permits call seen)).seq fun _ => safe_ret _
    · exact safe_ret _
  · exact safe_ret _

theorem updateConnectorStatus_permits {id : Id} {status : ConnectorStatus}
    (hcall : call.requester = some user) :
    Permits call known (ConnectorsService.updateStatus id status user) := by
  simp only [ConnectorsService.updateStatus, bind_eq]
  refine connector_findOne_permits hcall fun row seen hid hmay => ?_
  refine permits_pass hmay fun updated => ?_
  exact (log_rule (quiet_permits call seen)).seq fun _ => safe_ret _

theorem getConnector_permits {α : Type} {id : Id} {rest : Body α}
    (hcall : call.requester = some user)
    (hrest : ∀ seen : Set Ownership, known ⊆ seen →
      call.MayWrite (.connector id) seen → Permits call seen rest) :
    Permits call known ((ConnectorsService.getById id).bind fun connector =>
      (Prog.ofExcept (PipelinesService.assertOwnConnector connector user)).bind
        fun _ => rest) := by
  refine informed_connector_getById (K := authority) (fun _ _ h => h) trivial
    fun row hid => ?_
  refine informed_ofExcept_bind fun _ haccess =>
    hrest _ Set.subset_union_left ?_
  subst hid
  exact ⟨row.ownerId, .inr rfl, mayActFor_of_ownConnector hcall haccess⟩

theorem createPipeline_permits {dto : CreatePipelineDto}
    (hcall : call.requester = some user) :
    Permits call known (PipelinesService.create env dto user) := by
  simp only [PipelinesService.create, bind_eq]
  refine informed_ofExcept_bind fun _ _ => ?_
  refine getConnector_permits hcall fun seen _ hmay => ?_
  refine permits_pass ⟨⟨user, hcall, .inr rfl⟩, hmay⟩ fun pipeline => ?_
  exact (log_rule (quiet_permits call seen)).seq fun _ => safe_ret _

theorem checkConnector_permits {α : Type} {dto : UpdatePipelineDto}
    {rest : Body α} (hcall : call.requester = some user)
    (hrest : ∀ seen : Set Ownership, known ⊆ seen →
      (∀ id, dto.sourceConnectorId = some id →
        call.MayWrite (.connector id) seen) → Permits call seen rest) :
    Permits call known
      ((match dto.sourceConnectorId with
        | some sourceConnectorId =>
            (ConnectorsService.getById sourceConnectorId).bind fun connector =>
              Prog.ofExcept (PipelinesService.assertOwnConnector connector user)
        | none => .ret () : Body Unit).bind fun _ => rest) := by
  cases hgiven : dto.sourceConnectorId with
  | none =>
      refine hrest known subset_rfl fun id hid => ?_
      cases hgiven.symm.trans hid
  | some sourceConnectorId =>
      simp only [Prog.bind_assoc]
      refine getConnector_permits hcall fun seen hsubset hmay =>
        hrest seen hsubset fun id hid => ?_
      obtain rfl := Option.some.inj (hgiven.symm.trans hid)
      exact hmay

theorem checkUpdate_permits {α : Type} {dto : UpdatePipelineDto}
    {rest : Body α} (hcall : call.requester = some user)
    (hrest : ∀ seen : Set Ownership, known ⊆ seen →
      (∀ id, dto.sourceConnectorId = some id →
        call.MayWrite (.connector id) seen) → Permits call seen rest) :
    Permits call known ((PipelinesService.checkUpdate env dto user).bind
      fun _ => rest) := by
  simp only [PipelinesService.checkUpdate, bind_eq, pure_eq]
  cases dto.mappingJson with
  | none => exact checkConnector_permits hcall hrest
  | some mappingJson =>
      simp only [Prog.bind_assoc]
      exact informed_ofExcept_bind fun _ _ => checkConnector_permits hcall hrest

theorem updatePipeline_permits {id : Id} {dto : UpdatePipelineDto}
    (hcall : call.requester = some user) :
    Permits call known (PipelinesService.update env id dto user) := by
  simp only [PipelinesService.update, bind_eq]
  refine findOne_permits hcall fun row seen hid hmay => ?_
  refine checkUpdate_permits hcall fun seen' hsubset hconnector => ?_
  refine permits_pass (.inr ⟨mayWrite_mono hsubset hmay, hconnector⟩)
    fun updated => ?_
  split
  · split
    · exact (log_rule (quiet_permits call seen')).seq fun _ => safe_ret _
    · exact safe_ret _
  · exact safe_ret _

theorem updateStatus_permits {id : Id} {status : PipelineStatus}
    (hcall : call.requester = some user) :
    Permits call known (PipelinesService.updateStatus id status user) := by
  simp only [PipelinesService.updateStatus, bind_eq]
  refine findOne_permits hcall fun row seen hid hmay => ?_
  refine permits_pass (.inr ⟨hmay, fun _ h => by cases h⟩) fun updated => ?_
  exact (log_rule (quiet_permits call seen)).seq fun _ => safe_ret _

theorem updatePipelineSchedule_permits {id : Id}
    {dto : UpdatePipelineScheduleDto} (hcall : call.requester = some user) :
    Permits call known
      (SchedulerService.updatePipelineSchedule env id dto user) := by
  simp only [SchedulerService.updatePipelineSchedule, bind_eq]
  refine findOne_permits hcall fun row seen hid hmay => ?_
  have quiet := quiet_permits call seen
  subst hid
  refine informed_ofExcept_bind fun _ _ => ?_
  refine permits_pass trivial fun baseTime => ?_
  refine informed_ofExcept_bind fun nextRunAt _ => ?_
  refine permits_pass (.inr ⟨hmay, fun _ h => by cases h⟩) fun updated => ?_
  refine (log_rule quiet).seq fun _ => ?_
  split
  · exact (log_rule quiet).seq fun _ => safe_ret _
  · exact safe_ret _

theorem createRunFromPipeline_permits {pipeline : SyncPipeline}
    {options : CreateRunOptions}
    (hmay : options.triggerType = .manual →
      call.MayWrite (.pipeline pipeline.id) known) :
    Permits call known
      (SyncRunsService.createRunFromPipeline env pipeline options) := by
  refine createRunFromPipeline_rule (quiet_permits call known) permits_ofRun
    (fun _ _ => permits_await trivial) (fun _ _ => permits_await trivial)
    (fun _ _ => permits_await trivial) (fun _ _ => permits_await trivial)
    fun data hpipeline htype => permits_await fun hmanual => ?_
  rw [hpipeline]
  exact hmay (htype.symm.trans hmanual)

theorem createForPipeline_permits {id : Id} {dto : CreateSyncRunDto}
    (hcall : call.requester = some user) :
    Permits call known
      (SyncRunsService.createForPipeline env id dto user) := by
  simp only [SyncRunsService.createForPipeline, bind_eq]
  refine findOne_permits hcall fun row seen hid hmay => ?_
  subst hid
  exact (log_rule (quiet_permits call seen)).seq
    fun _ => createRunFromPipeline_permits fun _ => hmay

/-! ### Other calls -/

theorem createScheduledForPipeline_permits (id : Id) (actor : AuditActor) :
    Permits call known
      (SyncRunsService.createScheduledForPipeline env id actor) := by
  refine createScheduledForPipeline_rule (quiet_permits call known)
    fun pipeline options htype => createRunFromPipeline_permits fun hmanual => ?_
  cases htype.symm.trans hmanual

theorem processWebhookEventNow_permits (eventId : Id) (actor : AuditActor) :
    Permits call known
      (WebhooksService.processWebhookEventNow env eventId actor) := by
  have quiet := quiet_permits call known
  refine processWebhookEventNow_rule quiet (fun _ _ _ _ => ?_)
    fun _ _ _ => permits_await trivial
  refine processPipeline_rule quiet
    (fun _ _ => permits_ofRun _ _ ofRun_lastRunAt)
    (fun _ _ => permits_await trivial) (fun _ _ => permits_await trivial)
    fun data htype => permits_await fun hmanual => ?_
  cases htype.symm.trans hmanual

theorem processQueuedSyncRun_permits {payload : ExecuteSyncRunJobPayload}
    {attempts : Nat} :
    Permits call known
      (SyncRunsService.processQueuedSyncRun env payload attempts) :=
  processQueuedSyncRun_rule (quiet_permits call known) permits_ofRun
    (fun _ _ => permits_await trivial) (fun _ _ => permits_await trivial)
    fun _ _ => permits_await trivial

theorem body_permits (call : Call) :
    Permits call known (call.body env) := by
  have quiet := quiet_permits call known
  cases call with
  | receiveEvent params =>
      refine quiet.bind ?_ fun _ => quiet.ret _
      exact receiveEvent_rule quiet (fun _ => processWebhookEventNow_permits)
        (fun _ _ => permits_await trivial) (fun _ _ => permits_await trivial)
        (fun _ _ => permits_await trivial) fun _ => permits_await trivial
  | retryEvent id user =>
      refine quiet.bind ?_ fun _ => quiet.ret _
      exact retryEvent_rule quiet (fun _ => processWebhookEventNow_permits)
        (fun _ _ _ => permits_await trivial) (fun _ _ => permits_await trivial)
        fun _ _ => permits_await trivial
  | processEvent id user =>
      refine quiet.bind ?_ fun _ => quiet.ret _
      exact processEvent_rule quiet (fun _ => processWebhookEventNow_permits)
        (fun _ _ _ => permits_await trivial) (fun _ _ => permits_await trivial)
        fun _ _ => permits_await trivial
  | createForPipeline id dto user =>
      exact (createForPipeline_permits rfl).seq fun _ => safe_ret _
  | triggerPipelineSchedule id user =>
      refine quiet.bind ?_ fun _ => quiet.ret _
      exact triggerPipelineSchedule_rule quiet
        createScheduledForPipeline_permits fun _ => permits_await trivial
  | runPollingCycle worker =>
      refine quiet.bind ?_ fun _ => quiet.ret _
      exact runPollingCycle_rule quiet createScheduledForPipeline_permits
        (fun _ => permits_await trivial) permits_nextRunAt
        (fun _ => permits_await trivial) (permits_await trivial)
  | createConnector dto user =>
      exact (createConnector_permits rfl).seq fun _ => safe_ret _
  | updateConnector id dto user =>
      exact (updateConnector_permits rfl).seq fun _ => safe_ret _
  | updateConnectorStatus id status user =>
      exact (updateConnectorStatus_permits rfl).seq fun _ => safe_ret _
  | createPipeline dto user =>
      exact (createPipeline_permits rfl).seq fun _ => safe_ret _
  | updatePipeline id dto user =>
      exact (updatePipeline_permits rfl).seq fun _ => safe_ret _
  | updateStatus id status user =>
      exact (updateStatus_permits rfl).seq fun _ => safe_ret _
  | updatePipelineSchedule id dto user =>
      exact (updatePipelineSchedule_permits rfl).seq fun _ => safe_ret _
  | processJob jobId token payload attempts =>
      refine quiet.bind ?_ fun _ => quiet.ret _
      refine deliverJob_rule quiet (fun _ _ => processQueuedSyncRun_permits)
        (fun _ _ => ?_) (permits_await trivial) (permits_await trivial)
      exact processQueuedWebhookEvent_rule quiet processWebhookEventNow_permits
        (fun _ _ _ => permits_await trivial) fun _ _ => permits_await trivial

end Bodies

/-! ## What others leave alone -/

def SyncPipeline.config (row : SyncPipeline) : SyncPipeline :=
  { row with
    nextRunAt := none
    lastRunAt := none
    cursorJson := none }

/-- What the owner has configured is as it was, and nobody has added to it. -/
structure Store.Untouched (owner : Id) (store later : Store) : Prop where
  connectors : ∀ id row, Table.find Connector.id id store.connectors = some row →
    row.ownerId = owner → Table.find Connector.id id later.connectors = some row
  pipelines : ∀ id row,
    Table.find SyncPipeline.id id store.pipelines = some row →
    row.ownerId = owner → ∃ row',
      Table.find SyncPipeline.id id later.pipelines = some row' ∧
        row'.config = row.config
  ownConnectors : ∀ row ∈ later.connectors, row.ownerId = owner →
    ∃ old ∈ store.connectors, old.id = row.id
  ownPipelines : ∀ row ∈ later.pipelines, row.ownerId = owner →
    ∃ old ∈ store.pipelines, old.id = row.id
  /-- No pipeline has got a connector of the owner as its source. -/
  sources : ∀ row ∈ later.pipelines,
    store.connectorOwner row.sourceConnectorId = some owner →
    ∃ old ∈ store.pipelines, old.id = row.id ∧
      old.sourceConnectorId = row.sourceConnectorId
  runs : ∀ run ∈ later.syncRuns, run.triggerType = .manual →
    store.pipelineOwner run.pipelineId = some owner →
    ∃ old ∈ store.syncRuns, old.id = run.id

section Stores

variable {init store store' : Store} {owner : Id} {op : Op} {call : Call}
  {known : Set Ownership}

theorem Store.Untouched.refl (store : Store) :
    store.Untouched owner store where
  connectors _ _ hfind _ := hfind
  pipelines _ row hfind _ := ⟨row, hfind, rfl⟩
  ownConnectors row hrow _ := ⟨row, hrow, rfl⟩
  ownPipelines row hrow _ := ⟨row, hrow, rfl⟩
  sources row hrow _ := ⟨row, hrow, rfl, rfl⟩
  runs run hrun _ _ := ⟨run, hrun, rfl⟩

theorem mayActFor_of_writeConnector {id : Id}
    (hknown : ∀ fact ∈ known, store.Owned fact)
    (hmay : call.MayWrite (.connector id) known)
    (howner : store.connectorOwner id = some owner) : call.MayActFor owner := by
  obtain ⟨other, hmem, hact⟩ := hmay
  have hother : store.connectorOwner id = some other := hknown _ hmem
  rwa [Option.some.inj (howner.symm.trans hother)]

theorem mayActFor_of_writePipeline {id : Id}
    (hknown : ∀ fact ∈ known, store.Owned fact)
    (hmay : call.MayWrite (.pipeline id) known)
    (howner : store.pipelineOwner id = some owner) : call.MayActFor owner := by
  obtain ⟨other, hmem, hact⟩ := hmay
  have hother : store.pipelineOwner id = some other := hknown _ hmem
  rwa [Option.some.inj (howner.symm.trans hother)]

theorem ownerId_of_config {row row' : SyncPipeline}
    (h : row'.config = row.config) : row'.ownerId = row.ownerId := by
  have howners : row'.config.ownerId = row.config.ownerId := by rw [h]
  exact howners

theorem Store.Untouched.connectorOwner (h : init.Untouched owner store) {id : Id}
    (howner : init.connectorOwner id = some owner) :
    store.connectorOwner id = some owner := by
  obtain ⟨row, hfind, hrow⟩ := Option.map_eq_some_iff.mp howner
  rw [Store.connectorOwner, h.connectors id row hfind hrow, Option.map_some, hrow]

theorem Store.Untouched.pipelineOwner (h : init.Untouched owner store) {id : Id}
    (howner : init.pipelineOwner id = some owner) :
    store.pipelineOwner id = some owner := by
  obtain ⟨row, hfind, hrow⟩ := Option.map_eq_some_iff.mp howner
  obtain ⟨row', hfind', hconfig⟩ := h.pipelines id row hfind hrow
  rw [Store.pipelineOwner, hfind', Option.map_some, ownerId_of_config hconfig,
    hrow]

theorem config_apply {data : PipelineData} (h : data.KeepsConfig)
    (row : SyncPipeline) : (data.apply row).config = row.config := by
  obtain ⟨nextRunAt, lastRunAt, cursorJson, rfl⟩ := h
  rfl

theorem untouched_effect (h : init.Untouched owner store)
    (hcall : ¬ call.MayActFor owner) (hpermitted : op.Permitted call known)
    (hknown : ∀ fact ∈ known, store.Owned fact) :
    init.Untouched owner (op.effect store) where
  connectors id row hfind hrow := by
    have hnow := h.connectors id row hfind hrow
    cases hop : op.writesConnectors with
    | false => rwa [effect_connectors hop]
    | true =>
        cases op with
        | connectorCreate data => exact Table.find_append hnow
        | connectorUpdate written data =>
            have hkey : ∀ row, (ConnectorData.apply data row).id = row.id :=
              fun _ => rfl
            simp only [Op.effect, Table.find_modify hkey, hnow, Option.map_some]
            split
            · rename_i hid
              subst hid
              have howner : store.connectorOwner row.id = some owner := by
                rw [Store.connectorOwner, Table.find_key hnow, hnow,
                  Option.map_some, hrow]
              exact absurd
                (mayActFor_of_writeConnector hknown hpermitted howner) hcall
            · rfl
        | _ => cases hop
  pipelines id row hfind hrow := by
    obtain ⟨row', hnow, hconfig⟩ := h.pipelines id row hfind hrow
    cases hop : op.writesPipelines with
    | false => exact ⟨row', by rwa [effect_pipelines hop], hconfig⟩
    | true =>
        cases op with
        | pipelineCreate data => exact ⟨row', Table.find_append hnow, hconfig⟩
        | pipelineUpdate written data =>
            have hkey : ∀ row, (PipelineData.apply data row).id = row.id :=
              fun _ => rfl
            simp only [Op.effect, Table.find_modify hkey, hnow, Option.map_some]
            split
            · rename_i hid
              subst hid
              rcases hpermitted with hkeeps | ⟨hmay, -⟩
              · exact ⟨_, rfl, (config_apply hkeeps row').trans hconfig⟩
              · have howner : store.pipelineOwner row'.id = some owner := by
                  rw [Store.pipelineOwner, Table.find_key hnow, hnow,
                    Option.map_some, ownerId_of_config hconfig, hrow]
                exact absurd
                  (mayActFor_of_writePipeline hknown hmay howner) hcall
            · exact ⟨row', rfl, hconfig⟩
        | _ => cases hop
  ownConnectors row hrow howner := by
    rcases connectors_of_effect hrow with hold | ⟨data, rfl, rfl⟩ |
      ⟨data, old, hold, rfl, rfl⟩
    · exact h.ownConnectors row hold howner
    · have hmay : call.MayActFor data.ownerId := hpermitted
      exact absurd (howner ▸ hmay) hcall
    · exact h.ownConnectors old hold howner
  ownPipelines row hrow howner := by
    rcases pipelines_of_effect hrow with hold | ⟨data, rfl, rfl⟩ |
      ⟨data, old, hold, rfl, rfl⟩
    · exact h.ownPipelines row hold howner
    · have hmay : call.MayActFor data.ownerId := hpermitted.1
      exact absurd (howner ▸ hmay) hcall
    · exact h.ownPipelines old hold howner
  sources row hrow hsource := by
    have hnow := h.connectorOwner hsource
    rcases pipelines_of_effect hrow with hold | ⟨data, rfl, rfl⟩ |
      ⟨data, old, hold, rfl, rfl⟩
    · exact h.sources row hold hsource
    · exact absurd (mayActFor_of_writeConnector hknown hpermitted.2 hnow) hcall
    · cases hgiven : data.sourceConnectorId with
      | none =>
          have hsame : (data.apply old).sourceConnectorId =
              old.sourceConnectorId := by
            simp [PipelineData.apply, hgiven]
          rw [hsame] at hsource ⊢
          exact h.sources old hold hsource
      | some sourceConnectorId =>
          have hsame : (data.apply old).sourceConnectorId =
              sourceConnectorId := by
            simp [PipelineData.apply, hgiven]
          rcases hpermitted with ⟨nextRunAt, lastRunAt, cursorJson, rfl⟩ |
            ⟨-, hconnector⟩
          · cases hgiven
          · rw [hsame] at hnow
            exact absurd (mayActFor_of_writeConnector hknown
              (hconnector sourceConnectorId hgiven) hnow) hcall
  runs run hrun htype howner := by
    have hnow := h.pipelineOwner howner
    rcases syncRuns_of_effect hrun with hold | ⟨data, rfl, rfl⟩ |
      ⟨data, old, hold, rfl, rfl⟩
    · exact h.runs run hold htype howner
    · exact absurd (mayActFor_of_writePipeline hknown (hpermitted htype) hnow)
        hcall
    · exact h.runs old hold htype howner

end Stores

/-! ## Runs of the platform -/

section Runs

variable {env : Env} {init : Store} {pool : Platform}
  {ok : Platform → Step → Prop}

theorem owned_effect {op : Op} {store : Store} {fact : Ownership}
    (h : store.Owned fact) : (op.effect store).Owned fact := by
  cases fact with
  | connector id owner => exact connectorOwner_effect h
  | pipeline id owner => exact pipelineOwner_effect h

theorem owned_of_shown {op : Op} {store store' : Store} {value : op.Res}
    {fact : Ownership} (hexec : exec env op store = .ok (value, store'))
    (hshown : fact ∈ op.showsOwner value) : store.Owned fact := by
  cases op with
  | connectorFindUnique id =>
      have hfound := exec_connectorFindUnique hexec
      cases value with
      | none => exact hshown.elim
      | some row =>
          obtain rfl := hshown
          have hid : row.id = id := Table.find_key hfound.symm
          show store.connectorOwner row.id = some row.ownerId
          rw [Store.connectorOwner, hid, ← hfound, Option.map_some]
  | pipelineFindUnique id =>
      have hfound := exec_pipelineFindUnique hexec
      cases value with
      | none => exact hshown.elim
      | some row =>
          obtain rfl := hshown
          have hid : row.id = id := Table.find_key hfound.symm
          show store.pipelineOwner row.id = some row.ownerId
          rw [Store.pipelineOwner, hid, ← hfound, Option.map_some]
  | _ => exact hshown.elim

theorem authority_sound :
    authority.Sound (platform env) (fun _ => True)
      (fun fact store => store.Owned fact) (fun _ => True) where
  body call _ := body_permits call
  starts _ _ := ⟨trivial, rfl⟩
  facts _ _ _ _ hexec := answers_of_exec hexec
  stays _ _ _ _ _ hexec hfact := by
    rw [exec_effect hexec]
    exact owned_effect hfact
  shown _ _ _ _ _ _ hexec _ hshown := by
    rw [exec_effect hexec]
    exact owned_effect (owned_of_shown hexec hshown)
  keeps _ _ _ _ _ _ _ _ _ _ := trivial
  event _ _ _ _ _ hevent _ := by
    obtain ⟨clock, jobs, rfl⟩ := Event.apply_store hevent
    exact ⟨trivial, fun fact hfact => by cases fact <;> exact hfact,
      fun _ _ => ⟨trivial, fun _ hfact => hfact.elim⟩⟩

/-- Nobody but the owner and privileged users changes what the owner has
configured, whatever else goes on and however old the rows are that have been
checked. -/
theorem config_changed_by_owner {owner : Id}
    (h : (platform env).Reach ok init.boot pool)
    (hothers : ∀ call ∈ pool.calls, ¬ call.MayActFor owner) :
    init.Untouched owner pool.store := by
  revert hothers
  refine h.invariant (I := fun pool =>
    (∀ call ∈ pool.calls, ¬ call.MayActFor owner) →
      init.Untouched owner pool.store) ?_ ?_ ?_ ?_ ?_
  · exact fun _ => .refl init
  · intro pool call _ hkept _ _ hothers
    exact hkept fun other hother => hothers other (by
      simp only [Pool.calls, List.map_append]
      exact List.mem_append_left _ hother)
  · intro pool pool' index task op next value hreach hkept _ hdone hothers
    rw [hdone.calls] at hothers
    obtain ⟨known, hneeds, hknown⟩ :=
      authority_sound.needs_of_done rfl trivial hreach hdone
    have hcall := hothers task.call
      (List.mem_map_of_mem (List.mem_of_getElem? hdone.at_index))
    rw [effect_of_done hdone]
    exact untouched_effect (hkept hothers) hcall hneeds hknown
  · intro pool pool' index task op next error _ hkept _ hraised hothers
    rw [hraised.calls] at hothers
    rw [hraised.store]
    exact hkept hothers
  · intro pool pool' event calls _ hkept _ hevent htasks hothers
    have hbefore := hkept fun other hother => hothers other (by
      simp only [Pool.calls, htasks, List.map_append]
      exact List.mem_append_left _ hother)
    obtain ⟨clock, jobs, hstore⟩ := Event.apply_store hevent
    rw [hstore]
    exact { hbefore with }

end Runs

/-! ## Another user and the poller -/

def othersAct : List Step :=
  [.start (.createConnector ⟨"Forms", .webhook, []⟩ ⟨7, .user⟩),
   .start (.updateStatus 3 .paused ⟨7, .user⟩),
   .env (.tick 60000),
   .start (.runPollingCycle 0)] ++
  List.replicate 2 (.run 0) ++ [.run 1] ++ List.replicate 14 (.run 2)

theorem config_changed_by_owner_of_others :
    ∃ pool, (platform (Sample.env .async)).run Sample.store.boot othersAct =
        some pool ∧
      pool.store.connectors.length = 2 ∧ pool.store.syncRuns.length = 1 ∧
      Sample.store.Untouched 1 pool.store := by
  have hruns : ((platform (Sample.env .async)).run Sample.store.boot
      othersAct).any (fun pool => pool.store.connectors.length = 2 ∧
        pool.store.syncRuns.length = 1 ∧
        ∀ call ∈ pool.calls, ¬ call.MayActFor 1) = true := by
    decide +kernel
  obtain ⟨pool, hrun, hchecked⟩ := (Option.any_eq_true _ _).mp hruns
  obtain ⟨hconnectors, hsyncRuns, hothers⟩ := of_decide_eq_true hchecked
  exact ⟨pool, hrun, hconnectors, hsyncRuns,
    config_changed_by_owner (System.reach_of_run hrun) hothers⟩

end SyncBridge
