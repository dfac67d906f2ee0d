import SyncBridge.Services.Footprint
import SyncBridge.Sample

/-!
# The columns of webhook events

Every write to an event sets its status, its error message and its processing
time together, and no write touches what intake has stored.
-/

namespace SyncBridge

open SyncBridge.Foundation SyncBridge.Foundation.Prog

/-- The status tells whether the event has a processing time and whether it has
an error message. -/
structure WebhookEvent.Consistent (row : WebhookEvent) : Prop where
  received : row.status = .received ↔ row.processedAt = none
  failed : row.status = .failed ↔ row.errorMessage.isSome = true

structure WebhookEvent.OfIntake (params : ReceiveEventParams)
    (row : WebhookEvent) : Prop where
  payload : row.payloadJson =
    .obj (WebhooksService.sanitizePayload params.payload)
  headers : row.headersJson = .obj (WebhooksService.redactHeaders params.headers)
  key : row.idempotencyKey = WebhooksService.getIdempotencyKey params.headers
  connector : row.sourceConnectorRef = params.connectorId

def WebhookEvent.StoredBy (row : WebhookEvent) (entry : Σ op : Op, op.Res) :
    Prop :=
  ∃ data event, entry = ⟨.webhookEventCreate data, event⟩ ∧
    row.id = event.id ∧ row.payloadJson = data.payloadJson ∧
    row.headersJson = data.headersJson ∧
    row.idempotencyKey = data.idempotencyKey ∧
    row.sourceConnectorRef = data.sourceConnectorRef

def Call.fillsEvents (call : Call) : Op → Prop
  | .webhookEventCreate data => ∃ params connector,
      call = .receiveEvent params ∧
        data = WebhooksService.receivedEvent params connector
  | .webhookEventUpdate _ data => data.Consistent
  | _ => True

variable {env : Env}

theorem fillsEvents_of_outside {call : Call} {op : Op}
    (h : call.mayAttemptOutside env op) : call.fillsEvents op := by
  cases op with
  | webhookEventCreate data =>
      obtain ⟨params, connector, hcall, hdata⟩ := h
      exact ⟨params, connector, hcall, hdata⟩
  | webhookEventUpdate id data => exact h.2
  | _ => trivial

theorem fillsEvents_of_run {call : Call} {op : Op} (h : op.ofRun) :
    call.fillsEvents op := by
  cases op with
  | webhookEventCreate _ | webhookEventUpdate _ _ => exact h.elim
  | _ => trivial

theorem body_fillsEvents (env : Env) (call : Call) :
    (call.body env).Uses call.fillsEvents :=
  body_uses_of (fun _ => fillsEvents_of_outside) fun _ => fillsEvents_of_run

section Reached

variable {init : Store} {pool : Platform}

theorem consistent_exec {call : Call} {op : Op} {store store' : Store}
    {value : op.Res} (hallowed : call.fillsEvents op)
    (hexec : exec env op store = .ok (value, store'))
    (hold : ∀ row ∈ store.webhookEvents, row.Consistent) :
    ∀ row ∈ store'.webhookEvents, row.Consistent := by
  intro row hrow
  rw [exec_effect hexec] at hrow
  rcases webhookEvents_of_effect hrow with hbefore | ⟨data, rfl, rfl⟩ |
    ⟨data, old, hmem, rfl, rfl⟩
  · exact hold row hbefore
  · obtain ⟨params, connector, -, rfl⟩ := hallowed
    constructor
    · exact ⟨fun _ => rfl, fun _ => rfl⟩
    · constructor <;> intro h <;> cases h
  · exact ⟨hallowed.received, hallowed.failed⟩

theorem webhookEvents_made (hinit : init.webhookEvents = [])
    (h : Reachable env init pool) :
    ∀ row ∈ pool.store.webhookEvents,
      ∃ task ∈ pool.tasks, ∃ entry ∈ task.trace, row.StoredBy entry := by
  refine h.rows_made (R := Store.webhookEvents) ?_ ?_ hinit
  · intro op store value store' hexec row hrow
    rw [exec_effect hexec] at hrow
    rcases webhookEvents_of_effect hrow with hold | ⟨data, rfl, rfl⟩ |
      ⟨data, old, hold, rfl, rfl⟩
    · exact .inr ⟨row, hold, fun _ hmade => hmade⟩
    · have hcreate : exec env (.webhookEventCreate data) store =
        .ok (value, store') := hexec
      obtain ⟨-, rfl⟩ := exec_webhookEventCreate hcreate
      exact .inl ⟨data, _, rfl, rfl, rfl, rfl, rfl, rfl⟩
    · exact .inr ⟨old, hold, fun entry hmade => hmade⟩
  · intro event store count store' calls henv
    obtain ⟨clock, jobs, rfl⟩ := Event.apply_store henv
    rfl

/-- Whatever calls, deliveries and failures there are, an event is `RECEIVED`
exactly as long as it has no processing time and `FAILED` exactly as long as it
has an error message, and it keeps what its intake has stored. -/
theorem webhook_columns_consistent (hinit : init.webhookEvents = [])
    (h : Reachable env init pool) :
    ∀ row ∈ pool.store.webhookEvents, row.Consistent ∧
      ∃ task ∈ pool.tasks, ∃ params connector event,
        task.call = .receiveEvent params ∧
        ⟨.webhookEventCreate (WebhooksService.receivedEvent params connector),
          event⟩ ∈ task.trace ∧
        row.id = event.id ∧ row.OfIntake params := by
  intro row hrow
  constructor
  · refine h.keeps (J := fun store : Store =>
      ∀ row ∈ store.webhookEvents, row.Consistent) (body_fillsEvents env)
      (fun _ _ _ _ _ hop hexec => consistent_exec hop hexec) ?_ rfl ?_ row hrow
    · intro event store count store' calls henv
      obtain ⟨clock, jobs, rfl⟩ := Event.apply_store henv
      exact id
    · simp [Store.boot, hinit]
  · obtain ⟨task, htask, entry, hentry, data, event, rfl, hid, hpayload,
      hheaders, hkey, hconnector⟩ := webhookEvents_made hinit h row hrow
    obtain ⟨params, connector, hcall, rfl⟩ :=
      h.used (body_fillsEvents env) rfl task htask _ hentry
    exact ⟨task, htask, params, connector, event, hcall, hentry, hid,
      ⟨hpayload, hheaders, hkey, hconnector⟩⟩

end Reached

/-- An event that is delivered to a worker and processed. -/
theorem webhook_columns_consistent_of_delivery :
    ∃ pool, (platform (Sample.env .async)).run Sample.store.boot
        ([.start (.receiveEvent Sample.delivery)] ++
          List.replicate 8 (.run 0) ++ [.env (.deliver 0)] ++
          List.replicate 28 (.run 1)) = some pool ∧
      (pool.store.webhookEvents.any fun row => row.status = .processed &&
        row.processedAt.isSome) = true ∧
      ∀ row ∈ pool.store.webhookEvents, row.Consistent := by
  have hruns : ((platform (Sample.env .async)).run Sample.store.boot
      ([.start (.receiveEvent Sample.delivery)] ++
        List.replicate 8 (.run 0) ++ [.env (.deliver 0)] ++
        List.replicate 28 (.run 1))).any (fun pool =>
      pool.store.webhookEvents.any fun row => row.status = .processed &&
        row.processedAt.isSome) = true := by
    decide +kernel
  obtain ⟨pool, hrun, hprocessed⟩ := (Option.any_eq_true _ _).mp hruns
  exact ⟨pool, hrun, hprocessed, fun row hrow =>
    (webhook_columns_consistent rfl (System.reach_of_run hrun) row hrow).1⟩

end SyncBridge
