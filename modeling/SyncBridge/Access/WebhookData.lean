import SyncBridge.Foundation.Rely
import SyncBridge.Sample
import SyncBridge.Services.Footprint

/-!
# Webhook data stays with its owner

The processing of an event trusts `sourceConnectorId` of the pipelines it finds.
That a pipeline and its connector have one owner is checked where a pipeline is
created or pointed to another connector, on rows read some operations earlier.
The check is not out of date when the write lands: owners never change.
-/

namespace SyncBridge

open SyncBridge.Foundation SyncBridge.Foundation.Prog

/-! ## Owners -/

def Store.connectorOwner (store : Store) (id : Id) : Option Id :=
  (Table.find Connector.id id store.connectors).map Connector.ownerId

def Store.pipelineOwner (store : Store) (id : Id) : Option Id :=
  (Table.find SyncPipeline.id id store.pipelines).map SyncPipeline.ownerId

section Owners

variable {op : Op} {store : Store} {id owner : Id}

theorem connectorOwner_effect (h : store.connectorOwner id = some owner) :
    (op.effect store).connectorOwner id = some owner := by
  cases hop : op.writesConnectors with
  | false => rwa [Store.connectorOwner, effect_connectors hop]
  | true =>
      obtain ⟨row, hrow, rfl⟩ := Option.map_eq_some_iff.mp h
      cases op with
      | connectorCreate data =>
          exact congrArg (Option.map Connector.ownerId) (Table.find_append hrow)
      | connectorUpdate written data =>
          have hkey : ∀ row, (ConnectorData.apply data row).id = row.id :=
            fun _ => rfl
          simp only [Store.connectorOwner, Op.effect, Table.find_modify hkey,
            hrow, Option.map_some]
          split <;> rfl
      | _ => cases hop

theorem pipelineOwner_effect (h : store.pipelineOwner id = some owner) :
    (op.effect store).pipelineOwner id = some owner := by
  cases hop : op.writesPipelines with
  | false => rwa [Store.pipelineOwner, effect_pipelines hop]
  | true =>
      obtain ⟨row, hrow, rfl⟩ := Option.map_eq_some_iff.mp h
      cases op with
      | pipelineCreate data =>
          exact congrArg (Option.map SyncPipeline.ownerId)
            (Table.find_append hrow)
      | pipelineUpdate written data =>
          have hkey : ∀ row, (PipelineData.apply data row).id = row.id :=
            fun _ => rfl
          simp only [Store.pipelineOwner, Op.effect, Table.find_modify hkey,
            hrow, Option.map_some]
          split <;> rfl
      | _ => cases hop

def Store.Addressed (store : Store) (event : WebhookEvent) : Prop :=
  ∃ row ∈ store.webhookEvents, row.id = event.id ∧
    row.sourceConnectorRef = event.sourceConnectorRef

theorem addressed_effect {event : WebhookEvent} (h : store.Addressed event) :
    (op.effect store).Addressed event := by
  obtain ⟨row, hrow, hid, hconnector⟩ := h
  cases hop : op.writesWebhookEvents with
  | false => exact ⟨row, by rwa [effect_webhookEvents hop], hid, hconnector⟩
  | true =>
      cases op with
      | webhookEventCreate data =>
          exact ⟨row, List.mem_append_left _ hrow, hid, hconnector⟩
      | webhookEventUpdate written data =>
          refine ⟨_, Table.mem_modify.mpr ⟨row, hrow, rfl⟩, ?_⟩
          split
          · exact ⟨hid, hconnector⟩
          · exact ⟨hid, hconnector⟩
      | _ => cases hop

end Owners

/-! ## What a call has seen -/

structure OwnersSeen where
  connectors : List (Id × Id) := []
  pipelines : List (Id × Id) := []
  event : Option WebhookEvent := none

def SyncPipeline.withOwner (row : SyncPipeline) : Id × Id := (row.id, row.ownerId)

def OwnersSeen.note (seen : OwnersSeen) : (op : Op) → op.Res → OwnersSeen
  | .connectorFindUnique _, some row =>
      { seen with connectors := (row.id, row.ownerId) :: seen.connectors }
  | .pipelineFindUnique _, some row =>
      { seen with pipelines := row.withOwner :: seen.pipelines }
  | .pipelineFindActive _, rows =>
      { seen with
        pipelines := rows.map SyncPipeline.withOwner ++ seen.pipelines }
  | .webhookEventFindUnique _, found => { seen with event := found }
  | _, _ => seen

def OwnersSeen.Delivers (seen : OwnersSeen) (pipelineId : Id) : Prop :=
  ∃ event owner, seen.event = some event ∧
    (event.sourceConnectorRef, owner) ∈ seen.connectors ∧
    (pipelineId, owner) ∈ seen.pipelines

/-- Rows are connected where the call has seen that they have one owner. -/
def ownersGuard (seen : OwnersSeen) : Op → Prop
  | .pipelineCreate data =>
      (data.sourceConnectorId, data.ownerId) ∈ seen.connectors
  | .pipelineUpdate id data => ∀ sourceConnectorId,
      data.sourceConnectorId = some sourceConnectorId →
      ∃ owner, (sourceConnectorId, owner) ∈ seen.connectors ∧
        (id, owner) ∈ seen.pipelines
  | .webhookEventCreate data => ∀ connectorId,
      data.connectorId = some connectorId → connectorId = data.sourceConnectorRef
  | .syncRunCreate data =>
      data.triggerType = .webhook → seen.Delivers data.pipelineId
  | .syncedRecordCreate data =>
      data.sourceType = "WEBHOOK" → seen.Delivers data.pipelineId
  | _ => True

def ownersFacts (seen : OwnersSeen) : (op : Op) → op.Res → Prop
  | .connectorFindUnique id, some row => row.id = id
  | .pipelineFindUnique id, some row => row.id = id
  | .pipelineFindActive connectorId, rows => ∀ row ∈ rows, ∀ owner,
      (connectorId, owner) ∈ seen.connectors → row.ownerId = owner
  | .webhookEventFindUnique _, some event => ∀ connectorId,
      event.connectorId = some connectorId →
      connectorId = event.sourceConnectorRef
  | _, _ => True

def owners : Monitor Op.Res Call OwnersSeen where
  init _ := {}
  note _ := OwnersSeen.note
  guard _ := ownersGuard
  facts _ := ownersFacts

/-! ## Every call looks before it connects -/

variable {env : Env} {call : Call}

abbrev Looks (call : Call) {α : Type} (body : Body α) : Prop :=
  owners.Keeps call (fun _ => True) body

theorem looks_op {op : Op} (h : ∀ seen, ownersGuard seen op) :
    Looks call (await op) :=
  .of_uses ((uses_await op).mpr fun seen _ => ⟨h seen, fun _ => trivial⟩)

theorem looks_quiet : Quiet fun {_} (body : Body _) => Looks call body where
  toCompositional := Monitor.compositional_keeps owners call _
  op op hop := by
    refine looks_op fun seen => ?_
    cases op with
    | pipelineCreate _ | pipelineUpdate _ _ | webhookEventCreate _
    | syncRunCreate _ | syncedRecordCreate _ => cases hop
    | _ => trivial

theorem looks_ofRun (id : Id) (data : PipelineData)
    (h : PipelineData.OfRun data) : Looks call (await (.pipelineUpdate id data)) := by
  refine looks_op fun seen sourceConnectorId hconnector => ?_
  rcases h with ⟨time, rfl⟩ | ⟨cursorValue, rfl⟩ <;> cases hconnector

theorem looks_manual (data : NewSyncedRecord) (h : data.sourceType = "MANUAL") :
    Looks call (await (.syncedRecordCreate data)) := by
  refine looks_op fun seen hwebhook => ?_
  rw [h] at hwebhook
  exact absurd hwebhook (by decide)

/-! ### Pipelines -/

def Call.byUser : Call → Bool
  | .receiveEvent _ => true
  | .retryEvent _ user => user.role = .user
  | .processEvent _ user => user.role = .user
  | .createForPipeline _ _ user => user.role = .user
  | .triggerPipelineSchedule _ user => user.role = .user
  | .runPollingCycle _ => true
  | .createConnector _ user => user.role = .user
  | .updateConnector _ _ user => user.role = .user
  | .updateConnectorStatus _ _ user => user.role = .user
  | .createPipeline _ user => user.role = .user
  | .updatePipeline _ _ user => user.role = .user
  | .updateStatus _ _ user => user.role = .user
  | .updatePipelineSchedule _ _ user => user.role = .user
  | .processJob _ _ _ _ => true

theorem ownerId_of_assertOwnConnector {connector : Connector}
    {user : AuthenticatedUser} (huser : user.role = .user)
    (h : PipelinesService.assertOwnConnector connector user = .ok ()) :
    connector.ownerId = user.sub := by
  simp only [PipelinesService.assertOwnConnector, isPrivileged_user huser] at h
  by_contra hother
  simp [hother] at h

theorem ownerId_of_assertCanAccess {pipeline : SyncPipeline}
    {user : AuthenticatedUser} (huser : user.role = .user)
    (h : PipelinesService.assertCanAccess pipeline user = .ok ()) :
    pipeline.ownerId = user.sub := by
  simp only [PipelinesService.assertCanAccess, isPrivileged_user huser] at h
  by_contra hother
  simp [hother] at h

theorem createPipeline_looks {dto : CreatePipelineDto}
    {user : AuthenticatedUser} (huser : user.role = .user) :
    Looks call (PipelinesService.create env dto user) := by
  simp only [PipelinesService.create, ConnectorsService.getById, bind_eq,
    bind_assoc]
  refine ⟨fun seen _ => Monitor.accepts_ofExcept_bind (fun _ _ => ?_)
    fun _ => trivial⟩
  refine Monitor.accepts_await_bind.mpr
    ⟨trivial, fun found hfacts => ?_, fun _ _ => trivial⟩
  cases found with
  | none => trivial
  | some connector =>
      refine Monitor.accepts_ofExcept_bind (fun _ hown => ?_) fun _ => trivial
      refine Monitor.accepts_await_bind.mpr
        ⟨?_, fun pipeline _ => ?_, fun _ _ => trivial⟩
      · have hid : connector.id = dto.sourceConnectorId := hfacts
        have howner := ownerId_of_assertOwnConnector huser hown
        show (_, _) ∈ (connector.id, connector.ownerId) :: seen.connectors
        simp [hid, howner]
      · exact (looks_quiet.bind (log_rule looks_quiet) fun _ =>
          looks_quiet.ret _).accepts _ trivial

theorem checkUpdate_accepts {dto : UpdatePipelineDto} {user : AuthenticatedUser}
    {seen : OwnersSeen} (huser : user.role = .user) :
    owners.Accepts call
      (fun seen' result => seen.pipelines ⊆ seen'.pipelines ∧
        (result = .ok () → ∀ sourceConnectorId,
          dto.sourceConnectorId = some sourceConnectorId →
          (sourceConnectorId, user.sub) ∈ seen'.connectors))
      (PipelinesService.checkUpdate env dto user) seen := by
  have hsubset : seen.pipelines ⊆ seen.pipelines := List.Subset.refl _
  have hconnector : ∀ sourceConnectorId,
      owners.Accepts call
        (fun seen' result => seen.pipelines ⊆ seen'.pipelines ∧
          (result = .ok () → ∀ connectorId,
            some sourceConnectorId = some connectorId →
            (connectorId, user.sub) ∈ seen'.connectors))
        (do
          let connector ← ConnectorsService.getById sourceConnectorId
          Prog.ofExcept (PipelinesService.assertOwnConnector connector user))
        seen := by
    intro sourceConnectorId
    simp only [ConnectorsService.getById, bind_eq, bind_assoc]
    refine Monitor.accepts_await_bind.mpr
      ⟨trivial, fun found hfacts => ?_, fun _ _ => ⟨hsubset, nofun⟩⟩
    cases found with
    | none => exact ⟨hsubset, nofun⟩
    | some connector =>
        refine Monitor.accepts_ofExcept.mpr ⟨hsubset, ?_⟩
        rintro hown connectorId ⟨⟩
        have hid : connector.id = sourceConnectorId := hfacts
        have howner := ownerId_of_assertOwnConnector huser hown
        show (_, _) ∈ (connector.id, connector.ownerId) :: seen.connectors
        simp [hid, howner]
  rcases dto with ⟨_, _, _ | sourceConnectorId, _, _ | mappingJson, _⟩
  · exact ⟨hsubset, fun _ _ hgiven => nomatch hgiven⟩
  · refine Monitor.accepts_ofExcept_bind (fun _ _ => ?_)
      fun _ => ⟨hsubset, nofun⟩
    exact ⟨hsubset, fun _ _ hgiven => nomatch hgiven⟩
  · exact hconnector sourceConnectorId
  · exact Monitor.accepts_ofExcept_bind (fun _ _ => hconnector sourceConnectorId)
      fun _ => ⟨hsubset, nofun⟩

theorem updatePipeline_looks {id : Id} {dto : UpdatePipelineDto}
    {user : AuthenticatedUser} (huser : user.role = .user) :
    Looks call (PipelinesService.update env id dto user) := by
  simp only [PipelinesService.update, PipelinesService.findOne,
    PipelinesService.getById, bind_eq, bind_assoc, pure_eq, ret_bind]
  refine ⟨fun seen _ => Monitor.accepts_await_bind.mpr
    ⟨trivial, fun found hfacts => ?_, fun _ _ => trivial⟩⟩
  cases found with
  | none => trivial
  | some existing =>
      refine Monitor.accepts_ofExcept_bind (fun _ haccess => ?_) fun _ => trivial
      have hid : existing.id = id := hfacts
      have howner := ownerId_of_assertCanAccess huser haccess
      refine Monitor.accepts_bind.mpr ((checkUpdate_accepts huser).mono ?_)
      rintro seen' (error | done) ⟨hsubset, hchecked⟩
      · trivial
      · refine Monitor.accepts_await_bind.mpr
          ⟨?_, fun updated _ => ?_, fun _ _ => trivial⟩
        · intro sourceConnectorId hgiven
          refine ⟨user.sub, hchecked rfl sourceConnectorId hgiven, hsubset ?_⟩
          show (_, _) ∈ existing.withOwner :: seen.pipelines
          simp [SyncPipeline.withOwner, hid, howner]
        · refine Monitor.Keeps.accepts (I := fun _ => True) ?_ _ trivial
          split
          · split
            · exact looks_quiet.bind (log_rule looks_quiet) fun _ =>
                looks_quiet.ret _
            · exact looks_quiet.ret _
          · exact looks_quiet.ret _

/-! ### Events -/

theorem processForPipelines_looks {event : WebhookEvent} {connector : Connector}
    {pipelines : List SyncPipeline} {actor : AuditActor} {seen : OwnersSeen}
    (hevent : seen.event = some event)
    (hconnector : (event.sourceConnectorRef, connector.ownerId) ∈ seen.connectors)
    (hpipelines : ∀ row ∈ pipelines, (row.id, connector.ownerId) ∈ seen.pipelines) :
    owners.Accepts call (fun _ _ => True)
      (WebhooksService.processForPipelines env event connector pipelines actor)
      seen := by
  have hloop : owners.Keeps call (fun seen' => seen' = seen)
      (pipelines.foldlM (WebhooksService.processPipeline env event actor) {}) := by
    refine .foldlM (fun totals pipeline hmem => ?_) _
    refine .of_uses (processPipeline_uses.mono ?_)
    intro op hop seen' hseen
    rw [hseen]
    have hdelivers : seen.Delivers pipeline.id :=
      ⟨event, connector.ownerId, hevent, hconnector, hpipelines pipeline hmem⟩
    cases op with
    | now | transform _ _ | auditLogCreate _ | syncRunUpdate _ _ =>
        exact ⟨trivial, fun _ => rfl⟩
    | syncRunCreate data =>
        obtain ⟨hpipeline, -⟩ := hop
        exact ⟨fun _ => hpipeline ▸ hdelivers, fun _ => rfl⟩
    | syncedRecordCreate data =>
        obtain ⟨hpipeline, -⟩ := hop
        exact ⟨fun _ => hpipeline ▸ hdelivers, fun _ => rfl⟩
    | pipelineUpdate id data =>
        obtain ⟨-, time, rfl⟩ := hop
        exact ⟨fun _ hgiven => (nomatch hgiven), fun _ => rfl⟩
    | _ => cases hop
  simp only [WebhooksService.processForPipelines, bind_eq]
  refine Monitor.accepts_bind.mpr ((hloop.accepts seen rfl).mono ?_)
  rintro _ (error | totals) rfl
  · trivial
  · refine Monitor.Keeps.accepts (I := fun _ => True) ?_ _ trivial
    exact looks_quiet.bind (finishEvent_rule looks_quiet (fun _ _ _ =>
      looks_op fun _ => trivial) fun _ => consistent_processed) fun _ =>
        looks_quiet.bind (log_rule looks_quiet) fun _ => looks_quiet.ret _

theorem processWebhookEventNow_looks {eventId : Id} {actor : AuditActor} :
    Looks call (WebhooksService.processWebhookEventNow env eventId actor) := by
  have hupdate : ∀ id data, data.Consistent →
      Looks call (await (.webhookEventUpdate id data)) :=
    fun _ _ _ => looks_op fun _ => trivial
  have hfail : ∀ {event},
      Looks call (WebhooksService.failWithoutConnector event actor) :=
    looks_quiet.bind (finishEvent_rule looks_quiet hupdate
      fun _ => consistent_failed) fun _ =>
        looks_quiet.bind (log_rule looks_quiet) fun _ => looks_quiet.ret _
  have hignore : ∀ {event connector},
      Looks call (WebhooksService.ignoreWithoutPipelines event connector actor) :=
    looks_quiet.bind (finishEvent_rule looks_quiet hupdate
      fun _ => consistent_ignored) fun _ =>
        looks_quiet.bind (log_rule looks_quiet) fun _ => looks_quiet.ret _
  simp only [WebhooksService.processWebhookEventNow, bind_eq]
  refine ⟨fun seen _ => Monitor.accepts_await_bind.mpr
    ⟨trivial, fun found haddress => ?_, fun _ _ => trivial⟩⟩
  cases found with
  | none => trivial
  | some event =>
      simp only [orNotFound, ret_bind, WebhooksService.findEventConnector]
      split
      · rename_i connectorId hgiven
        refine Monitor.accepts_await_bind.mpr
          ⟨trivial, fun connector hfacts => ?_, fun _ _ => trivial⟩
        cases connector with
        | none => exact hfail.accepts _ trivial
        | some connector =>
            have hid : connector.id = event.sourceConnectorRef :=
              (show connector.id = connectorId from hfacts).trans
                (haddress connectorId hgiven)
            refine Monitor.accepts_await_bind.mpr
              ⟨trivial, fun pipelines howners => ?_, fun _ _ => trivial⟩
            split
            · exact hignore.accepts _ trivial
            · refine processForPipelines_looks rfl ?_ fun row hrow => ?_
              · show (_, _) ∈ (connector.id, connector.ownerId) :: seen.connectors
                simp [hid]
              · have howner : row.ownerId = connector.ownerId :=
                  howners row hrow _ List.mem_cons_self
                refine List.mem_append_left _ (List.mem_map.mpr ⟨row, hrow, ?_⟩)
                simp [SyncPipeline.withOwner, howner]
      · exact hfail.accepts _ trivial

theorem receiveEvent_looks {params : ReceiveEventParams}
    (hadd : ∀ jobId event, Looks call (await (.queueAdd jobId
      (.processWebhookEvent event) env.defaultAttempts))) :
    Looks call (WebhooksService.receiveEvent env params) := by
  simp only [WebhooksService.receiveEvent, bind_eq]
  refine looks_quiet.bind (looks_quiet.ofExcept _) fun _ => ?_
  refine looks_quiet.bind ?_ fun existing => ?_
  · cases WebhooksService.getIdempotencyKey params.headers with
    | none => exact looks_quiet.ret _
    | some idempotencyKey => exact looks_op fun _ => trivial
  · cases existing with
    | some existing =>
        exact looks_quiet.bind (log_rule looks_quiet) fun _ => looks_quiet.ret _
    | none =>
        refine ⟨fun seen _ => Monitor.accepts_await_bind.mpr
          ⟨trivial, fun connector hfacts => ?_, fun _ _ => trivial⟩⟩
        refine Monitor.accepts_await_bind.mpr
          ⟨?_, fun event _ => ?_, fun _ _ => trivial⟩
        · intro connectorId hgiven
          obtain ⟨row, rfl, rfl⟩ := Option.map_eq_some_iff.mp hgiven
          exact hfacts
        · exact (handleReceived_rule looks_quiet
            (fun _ _ _ => processWebhookEventNow_looks)
            (fun _ _ => looks_op fun _ => trivial) hadd).accepts _ trivial

theorem sourceConnectorId_of_edits {id : Id} {data : PipelineData}
    (hcall : ∀ id dto user, call ≠ .updatePipeline id dto user)
    (h : call.edits id data) : data.sourceConnectorId = none := by
  cases call with
  | updatePipeline id dto user => exact absurd rfl (hcall id dto user)
  | updateStatus _ _ _ =>
      obtain ⟨-, rfl⟩ := h
      rfl
  | updatePipelineSchedule _ _ _ =>
      obtain ⟨schedule, pipeline, nextRunAt, rfl⟩ := h
      rfl
  | runPollingCycle _ =>
      obtain ⟨nextRunAt, rfl⟩ := h
      rfl
  | _ => exact h.elim

theorem body_looks (h : call.byUser = true) : Looks call (call.body env) := by
  have hadd : ∀ jobId payload, Looks call
      (await (.queueAdd jobId payload env.defaultAttempts)) :=
    fun _ _ => looks_op fun _ => trivial
  have hupdate : ∀ id data, Looks call (await (.syncRunUpdate id data)) :=
    fun _ _ => looks_op fun _ => trivial
  have hother : (∀ params, call ≠ .receiveEvent params) →
      (∀ dto user, call ≠ .createPipeline dto user) →
      (∀ id dto user, call ≠ .updatePipeline id dto user) →
      Looks call (call.body env) := by
    intro hreceive hcreate hrepoint
    refine body_rule call looks_quiet.toCompositional (fun op hop => ?_) ?_ ?_ ?_
    · refine looks_op fun seen => ?_
      cases op with
      | pipelineCreate data =>
          obtain ⟨dto, user, hcall, -⟩ := hop
          exact absurd hcall (hcreate dto user)
      | webhookEventCreate data =>
          obtain ⟨params, -, hcall, -⟩ := hop
          exact absurd hcall (hreceive params)
      | pipelineUpdate id data =>
          intro sourceConnectorId hgiven
          rw [sourceConnectorId_of_edits hrepoint hop.1] at hgiven
          cases hgiven
      | syncRunCreate _ | syncedRecordCreate _ => cases hop
      | _ => trivial
    · intro pipeline options htype _
      refine createRunFromPipeline_rule looks_quiet looks_ofRun hupdate
        looks_manual (fun _ _ => looks_op fun _ => trivial) hadd
        fun data _ hdata => looks_op fun seen hwebhook => ?_
      exact absurd (hdata.symm.trans hwebhook) htype
    · exact fun _ _ _ _ _ => processQueuedSyncRun_rule looks_quiet looks_ofRun
        hupdate looks_manual fun _ _ => looks_op fun _ => trivial
    · exact fun _ _ _ => processWebhookEventNow_looks
  cases call with
  | createPipeline dto user =>
      exact (createPipeline_looks (by simpa [Call.byUser] using h)).bind
        fun _ => .ret _
  | updatePipeline id dto user =>
      exact (updatePipeline_looks (by simpa [Call.byUser] using h)).bind
        fun _ => .ret _
  | receiveEvent params =>
      exact (receiveEvent_looks fun _ _ => hadd _ _).bind fun _ => .ret _
  | _ =>
      exact hother (fun _ h => nomatch h) (fun _ _ h => nomatch h)
        fun _ _ _ h => nomatch h

/-! ## What a call has seen stays true -/

structure OwnersSeen.TrueOf (seen : OwnersSeen) (store : Store) : Prop where
  connectors : ∀ id owner, (id, owner) ∈ seen.connectors →
    store.connectorOwner id = some owner
  pipelines : ∀ id owner, (id, owner) ∈ seen.pipelines →
    store.pipelineOwner id = some owner
  event : ∀ event, seen.event = some event → store.Addressed event

/-- Pipelines have the owner of their connector, and events that know their
connector are addressed to it. -/
structure OwnersAgree (store : Store) : Prop where
  keys : Table.Keyed SyncPipeline.id store.nextId store.pipelines
  pipelines : ∀ pipeline ∈ store.pipelines,
    store.connectorOwner pipeline.sourceConnectorId = some pipeline.ownerId
  events : ∀ event ∈ store.webhookEvents, ∀ connectorId,
    event.connectorId = some connectorId →
    connectorId = event.sourceConnectorRef

section Steps

variable {op : Op} {store store' : Store} {value : op.Res} {seen : OwnersSeen}

theorem OwnersSeen.TrueOf.effect (h : seen.TrueOf store) :
    seen.TrueOf (op.effect store) where
  connectors id owner hmem := connectorOwner_effect (h.connectors id owner hmem)
  pipelines id owner hmem := pipelineOwner_effect (h.pipelines id owner hmem)
  event event hevent := addressed_effect (h.event event hevent)

theorem pipelineOwner_of_mem {row : SyncPipeline} (hstore : OwnersAgree store)
    (hrow : row ∈ store.pipelines) :
    store.pipelineOwner row.id = some row.ownerId := by
  have hsome : (Table.find SyncPipeline.id row.id store.pipelines).isSome :=
    List.find?_isSome.mpr ⟨row, hrow, by simp⟩
  obtain ⟨found, hfound⟩ := Option.isSome_iff_exists.mp hsome
  have hsame := hstore.keys.eq_of_key (Table.find_mem hfound) hrow
    (Table.find_key hfound)
  rw [Store.pipelineOwner, hfound, hsame]
  rfl

theorem owners_facts (hexec : exec env op store = .ok (value, store'))
    (hstore : OwnersAgree store) (hseen : seen.TrueOf store) :
    ownersFacts seen op value := by
  cases op with
  | connectorFindUnique id =>
      obtain rfl := exec_connectorFindUnique hexec
      cases hfound : Table.find Connector.id id store.connectors with
      | none => trivial
      | some row => exact Table.find_key hfound
  | pipelineFindUnique id =>
      obtain rfl := exec_pipelineFindUnique hexec
      cases hfound : Table.find SyncPipeline.id id store.pipelines with
      | none => trivial
      | some row => exact Table.find_key hfound
  | pipelineFindActive connectorId =>
      intro row hrow owner howner
      obtain ⟨hmem, hconnector, -⟩ := exec_pipelineFindActive hexec hrow
      have hpipeline := hstore.pipelines row hmem
      rw [hconnector, hseen.connectors _ _ howner] at hpipeline
      exact (Option.some.inj hpipeline).symm
  | webhookEventFindUnique id =>
      obtain rfl := exec_webhookEventFindUnique hexec
      cases hfound : Table.find WebhookEvent.id id store.webhookEvents with
      | none => trivial
      | some event => exact hstore.events event (Table.find_mem hfound)
  | _ => trivial

theorem OwnersSeen.TrueOf.note (h : seen.TrueOf store)
    (hexec : exec env op store = .ok (value, store'))
    (hstore : OwnersAgree store) : (seen.note op value).TrueOf store' := by
  rw [exec_effect hexec]
  cases op with
  | connectorFindUnique id =>
      obtain rfl := exec_connectorFindUnique hexec
      cases hfound : Table.find Connector.id id store.connectors with
      | none => exact h
      | some row =>
          refine ⟨fun other owner hmem => ?_, h.pipelines, h.event⟩
          rcases List.mem_cons.mp hmem with hnew | hold
          · cases hnew
            rw [Table.find_key hfound]
            exact congrArg (Option.map Connector.ownerId) hfound
          · exact h.connectors other owner hold
  | pipelineFindUnique id =>
      obtain rfl := exec_pipelineFindUnique hexec
      cases hfound : Table.find SyncPipeline.id id store.pipelines with
      | none => exact h
      | some row =>
          refine ⟨h.connectors, fun other owner hmem => ?_, h.event⟩
          rcases List.mem_cons.mp hmem with hnew | hold
          · cases hnew
            exact pipelineOwner_of_mem hstore (Table.find_mem hfound)
          · exact h.pipelines other owner hold
  | pipelineFindActive connectorId =>
      refine ⟨h.connectors, fun other owner hmem => ?_, h.event⟩
      rcases List.mem_append.mp hmem with hnew | hold
      · obtain ⟨row, hrow, hpair⟩ := List.mem_map.mp hnew
        cases hpair
        exact pipelineOwner_of_mem hstore (exec_pipelineFindActive hexec hrow).1
      · exact h.pipelines other owner hold
  | webhookEventFindUnique id =>
      obtain rfl := exec_webhookEventFindUnique hexec
      refine ⟨h.connectors, h.pipelines, fun event hevent => ?_⟩
      exact ⟨event, Table.find_mem hevent, rfl, rfl⟩
  | _ => exact h.effect

theorem ownersAgree_effect (hstore : OwnersAgree store)
    (hseen : seen.TrueOf store) (hguard : ownersGuard seen op) :
    OwnersAgree (op.effect store) := by
  refine ⟨keyed_pipelines hstore.keys, ?_, ?_⟩
  · cases hop : op.writesPipelines with
    | false =>
        intro row hrow
        rw [effect_pipelines hop] at hrow
        exact connectorOwner_effect (hstore.pipelines row hrow)
    | true =>
        cases op with
        | pipelineCreate data =>
            intro row hrow
            refine @connectorOwner_effect (.pipelineCreate data) _ _ _ ?_
            rcases List.mem_append.mp hrow with hold | hnew
            · exact hstore.pipelines row hold
            · obtain rfl := List.mem_singleton.mp hnew
              exact hseen.connectors _ _ hguard
        | pipelineUpdate id data =>
            refine Table.forall_modify hstore.pipelines ?_
            intro row hrow hid hbefore
            show store.connectorOwner
              (data.sourceConnectorId.getD row.sourceConnectorId) = _
            cases hgiven : data.sourceConnectorId with
            | none => exact hbefore
            | some sourceConnectorId =>
                obtain ⟨owner, hconnector, hpipeline⟩ :=
                  hguard sourceConnectorId hgiven
                have hread := hseen.pipelines _ _ hpipeline
                rw [← hid, pipelineOwner_of_mem hstore hrow] at hread
                exact (hseen.connectors _ _ hconnector).trans hread.symm
        | _ => cases hop
  · cases hop : op.writesWebhookEvents with
    | false =>
        rw [effect_webhookEvents hop]
        exact hstore.events
    | true =>
        cases op with
        | webhookEventCreate data =>
            intro row hrow
            rcases List.mem_append.mp hrow with hold | hnew
            · exact hstore.events row hold
            · obtain rfl := List.mem_singleton.mp hnew
              exact hguard
        | webhookEventUpdate id data =>
            exact Table.forall_modify hstore.events fun row _ _ hbefore => hbefore
        | _ => cases hop

end Steps

/-! ## Runs of the platform -/

def ByUsers (_ : Platform) : Step → Prop
  | .start call => call.byUser = true
  | _ => True

instance (pool : Platform) : DecidablePred (ByUsers pool)
  | .start call => inferInstanceAs (Decidable (call.byUser = true))
  | .run _ | .fail _ _ | .env _ => inferInstanceAs (Decidable True)

def SawTrue (store : Store) (task : Task Op.Res Failure Answer Call) : Prop :=
  ∀ older, older <:+ task.trace → (owners.after task.call older).TrueOf store

theorem sawTrue_spawn {store : Store} {call : Call} :
    SawTrue store ((platform env).spawn call) := by
  intro older hsuffix
  obtain rfl := List.suffix_nil.mp hsuffix
  constructor
  · exact fun _ _ hmem => nomatch hmem
  · exact fun _ _ hmem => nomatch hmem
  · exact fun _ hevent => nomatch hevent

theorem owners_rely {init : Store} :
    Monitor.Rely owners (platform env) ByUsers init.boot
      (fun call => call.byUser = true) OwnersAgree SawTrue
      (fun _ _ _ => True) where
  body call hcall := (body_looks hcall).accepts _ trivial
  start _ _ _ _ hok _ := ⟨hok, sawTrue_spawn⟩
  done := by
    intro pool pool' index task op next value _ hold _ hdone hguard
    have hsaw := hold.knows task (List.mem_of_getElem? hdone.at_index)
    have hnow := hsaw task.trace (List.suffix_refl _)
    have hexec := exec_of_done hdone
    rw [effect_of_done hdone] at hexec ⊢
    refine ⟨owners_facts hexec hold.store hnow,
      ownersAgree_effect hold.store hnow hguard, ?_, ?_⟩
    · intro older hsuffix
      rcases List.suffix_cons_iff.mp hsuffix with rfl | hbefore
      · exact hnow.note hexec hold.store
      · exact (hsaw older hbefore).effect
    · exact fun _ _ _ _ hother older hsuffix => (hother older hsuffix).effect
  raised _ _ _ task _ _ _ _ hold _ hraised _ :=
    ⟨trivial, hold.knows task (List.mem_of_getElem? hraised.at_index)⟩
  event := by
    intro pool pool' event calls _ hold _ henv
    obtain ⟨clock, jobs, hstore⟩ := Event.apply_store henv
    rw [hstore]
    refine ⟨⟨hold.store.keys, hold.store.pipelines, hold.store.events⟩,
      fun task htask older hsuffix => ?_, fun call hcall => ⟨?_, sawTrue_spawn⟩⟩
    · have hsaw := hold.knows task htask older hsuffix
      exact ⟨hsaw.connectors, hsaw.pipelines, hsaw.event⟩
    · rcases Event.apply_cases henv with ⟨_, _, rfl⟩ | ⟨_, _, _, _, _, rfl⟩ |
        ⟨_, _, _, _, _, _, rfl⟩
      · cases hcall
      · obtain rfl := List.mem_singleton.mp hcall
        rfl
      · cases hcall

def lastEvent : List (Σ op, Op.Res op) → Option WebhookEvent
  | [] => none
  | ⟨.webhookEventFindUnique _, found⟩ :: _ => found
  | _ :: trace => lastEvent trace

theorem event_after (call : Call) (trace : List (Σ op, Op.Res op)) :
    (owners.after call trace).event = lastEvent trace := by
  induction trace with
  | nil => rfl
  | cons entry trace ih =>
      obtain ⟨op, value⟩ := entry
      cases op with
      | webhookEventFindUnique id => rfl
      | connectorFindUnique id =>
          cases value with
          | none => exact ih
          | some row => exact ih
      | pipelineFindUnique id =>
          cases value with
          | none => exact ih
          | some row => exact ih
      | _ => exact ih

inductive StoresRun (row : SyncRun) : (Σ op, Op.Res op) → Prop
  | mk {data : NewSyncRun} {run : SyncRun} (hid : run.id = row.id)
      (hpipeline : data.pipelineId = row.pipelineId)
      (htrigger : data.triggerType = row.triggerType) :
      StoresRun row ⟨.syncRunCreate data, run⟩

inductive StoresRecord (row : SyncedRecord) : (Σ op, Op.Res op) → Prop
  | mk {data : NewSyncedRecord} {record : SyncedRecord} (hid : record.id = row.id)
      (hpipeline : data.pipelineId = row.pipelineId)
      (hsource : data.sourceType = row.sourceType) :
      StoresRecord row ⟨.syncedRecordCreate data, record⟩

def PerformedFor (pool : Platform) (event : WebhookEvent)
    (performed : (Σ op, Op.Res op) → Prop) : Prop :=
  ∃ task ∈ pool.tasks, ∃ entry older, entry :: older <:+ task.trace ∧
    performed entry ∧ (lastEvent older).map WebhookEvent.id = some event.id

def Store.SameOwner (store : Store) (pipelineId connectorId : Id) : Prop :=
  ∃ owner, store.pipelineOwner pipelineId = some owner ∧
    store.connectorOwner connectorId = some owner

structure WebhookDataOwned (pool : Platform) : Prop where
  pipelines : ∀ pipeline ∈ pool.store.pipelines,
    pool.store.connectorOwner pipeline.sourceConnectorId =
      some pipeline.ownerId
  syncRuns : ∀ run ∈ pool.store.syncRuns, run.triggerType = .webhook →
    ∃ event ∈ pool.store.webhookEvents,
      PerformedFor pool event (StoresRun run) ∧
      pool.store.SameOwner run.pipelineId event.sourceConnectorRef
  syncedRecords : ∀ record ∈ pool.store.syncedRecords,
    record.sourceType = "WEBHOOK" →
    ∃ event ∈ pool.store.webhookEvents,
      PerformedFor pool event (StoresRecord record) ∧
      pool.store.SameOwner record.pipelineId event.sourceConnectorRef

structure Store.IsEmpty (store : Store) : Prop where
  connectors : store.connectors = []
  pipelines : store.pipelines = []
  syncRuns : store.syncRuns = []
  backgroundJobs : store.backgroundJobs = []
  webhookEvents : store.webhookEvents = []
  syncedRecords : store.syncedRecords = []
  jobs : store.jobs = []

theorem ownersAgree_of_isEmpty {store : Store} (h : store.IsEmpty) :
    OwnersAgree store := by
  refine ⟨?_, ?_, ?_⟩
  · rw [h.pipelines]
    exact ⟨List.nodup_nil, fun _ hrow => nomatch hrow⟩
  · simp [h.pipelines]
  · simp [h.webhookEvents]

section Interleavings

variable {init : Store} {pool : Platform}

theorem syncRuns_made (hinit : init.syncRuns = [])
    (h : (platform env).Reach ByUsers init.boot pool) :
    ∀ run ∈ pool.store.syncRuns,
      ∃ task ∈ pool.tasks, ∃ entry ∈ task.trace, StoresRun run entry := by
  refine h.rows_made (R := Store.syncRuns) ?_ ?_ hinit
  · intro op store value store' hexec row hrow
    rw [exec_effect hexec] at hrow
    rcases syncRuns_of_effect hrow with hold | ⟨data, rfl, rfl⟩ |
      ⟨data, old, hold, rfl, rfl⟩
    · exact .inr ⟨row, hold, fun _ hmade => hmade⟩
    · obtain rfl := congrArg Prod.fst (Except.ok.inj hexec)
      exact .inl ⟨rfl, rfl, rfl⟩
    · refine .inr ⟨old, hold, ?_⟩
      rintro _ ⟨hid, hpipeline, htrigger⟩
      exact ⟨hid, hpipeline, htrigger⟩
  · intro event store count store' calls henv
    obtain ⟨clock, jobs, rfl⟩ := Event.apply_store henv
    rfl

theorem syncedRecords_made (hinit : init.syncedRecords = [])
    (h : (platform env).Reach ByUsers init.boot pool) :
    ∀ record ∈ pool.store.syncedRecords,
      ∃ task ∈ pool.tasks, ∃ entry ∈ task.trace, StoresRecord record entry := by
  refine h.rows_made (R := Store.syncedRecords) ?_ ?_ hinit
  · intro op store value store' hexec row hrow
    rw [exec_effect hexec] at hrow
    rcases syncedRecords_of_effect hrow with hold | ⟨data, rfl, rfl⟩
    · exact .inr ⟨row, hold, fun _ hmade => hmade⟩
    · obtain rfl := congrArg Prod.fst (Except.ok.inj hexec)
      exact .inl ⟨rfl, rfl, rfl⟩
  · intro event store count store' calls henv
    obtain ⟨clock, jobs, rfl⟩ := Event.apply_store henv
    rfl

/-- What the processing of an event stores belongs to the owner of the connector
that the event is addressed to. -/
theorem sameOwner_of_performed {performed : (Σ op, Op.Res op) → Prop}
    {pipelineId : Id} (hinit : init.IsEmpty)
    (h : (platform env).Reach ByUsers init.boot pool)
    (hguard : ∀ seen entry, performed entry → ownersGuard seen entry.1 →
      seen.Delivers pipelineId)
    (hmade : ∃ task ∈ pool.tasks, ∃ entry ∈ task.trace, performed entry) :
    ∃ event ∈ pool.store.webhookEvents, PerformedFor pool event performed ∧
      pool.store.SameOwner pipelineId event.sourceConnectorRef := by
  have hholds : ∀ pool, (platform env).Reach ByUsers init.boot pool →
      owners.Holds (fun call => call.byUser = true) OwnersAgree SawTrue
        (fun _ _ _ => True) pool := fun _ hreach =>
    owners_rely.holds rfl (ownersAgree_of_isEmpty hinit) hreach
  obtain ⟨task, htask, entry, hentry, hperformed⟩ := hmade
  obtain ⟨newer, older, htrace⟩ := List.append_of_mem hentry
  have hsuffix : entry :: older <:+ task.trace := ⟨newer, htrace.symm⟩
  have hguarded : owners.Guarded task.call task.trace :=
    Monitor.guarded_of_accepts (Q := fun _ _ _ => True)
      (fun pool hreach => (hholds pool hreach).accepts) rfl h task htask
  obtain ⟨event, owner, hevent, hconnector, hpipeline⟩ :=
    hguard _ _ hperformed (hguarded entry older hsuffix)
  have htrue := (hholds pool h).knows task htask older
    ((List.suffix_cons entry older).trans hsuffix)
  obtain ⟨row, hrow, hid, haddress⟩ := htrue.event event hevent
  refine ⟨row, hrow, ⟨task, htask, entry, older, hsuffix, hperformed, ?_⟩,
    owner, htrue.pipelines _ _ hpipeline, ?_⟩
  · rw [← event_after task.call, hevent, hid]
    rfl
  · rw [haddress]
    exact htrue.connectors _ _ hconnector

/-- Users connect their own rows only, and events are processed for the
pipelines of the connector they are addressed to; so webhook data stays with the
owner, whatever the interleaving. -/
theorem webhook_data_owned (hinit : init.IsEmpty)
    (h : (platform env).Reach ByUsers init.boot pool) :
    WebhookDataOwned pool where
  pipelines := (owners_rely.holds rfl (ownersAgree_of_isEmpty hinit)
    h).store.pipelines
  syncRuns := by
    intro run hrun hwebhook
    refine sameOwner_of_performed hinit h ?_
      (syncRuns_made hinit.syncRuns h run hrun)
    rintro seen _ ⟨-, hpipeline, htrigger⟩ hguard
    exact hpipeline ▸ hguard (htrigger.trans hwebhook)
  syncedRecords := by
    intro record hrecord hwebhook
    refine sameOwner_of_performed hinit h ?_
      (syncedRecords_made hinit.syncedRecords h record hrecord)
    rintro seen _ ⟨-, hpipeline, hsource⟩ hguard
    exact hpipeline ▸ hguard (hsource.trans hwebhook)

end Interleavings

/-! ## One user -/

def setUp : List Step :=
  [.start (.createConnector ⟨"Webhooks", .webhook, []⟩ ⟨1, .user⟩),
   .run 0, .run 0,
   .start (.createPipeline ⟨"Contacts", none, 10, "contacts", []⟩ ⟨1, .user⟩),
   .run 1, .run 1, .run 1,
   .start (.receiveEvent { Sample.delivery with connectorId := 10 })] ++
  List.replicate 23 (.run 2)

def Sample.emptyStore : Store :=
  { Sample.store with connectors := [], pipelines := [] }

theorem webhook_data_owned_of_setUp :
    ∃ pool, (platform (Sample.env .sync)).runWhere ByUsers
        Sample.emptyStore.boot setUp = some pool ∧
      (pool.store.syncRuns.any fun run => run.triggerType = .webhook) = true ∧
      WebhookDataOwned pool := by
  have hruns : ((platform (Sample.env .sync)).runWhere ByUsers
      Sample.emptyStore.boot setUp).any (fun pool =>
        pool.store.syncRuns.any fun run => run.triggerType = .webhook) =
          true := by
    decide +kernel
  obtain ⟨pool, hrun, hwebhook⟩ := (Option.any_eq_true _ _).mp hruns
  refine ⟨pool, hrun, hwebhook, webhook_data_owned ?_
    (System.reach_of_runWhere hrun)⟩
  exact ⟨rfl, rfl, rfl, rfl, rfl, rfl, rfl⟩

end SyncBridge
