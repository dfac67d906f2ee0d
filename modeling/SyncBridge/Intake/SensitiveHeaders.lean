import SyncBridge.Foundation.Relabelling
import SyncBridge.Sample
import SyncBridge.Services.Reads

/-!
# Sensitive headers

Intake reads the headers twice, once with the sensitive ones redacted and once
for the idempotency key, which is none of them.  So a call does with redacted
headers what it does with its own, and their values show nowhere.
-/

namespace SyncBridge

open SyncBridge.Foundation

namespace WebhooksService

def SameButSensitive (headers headers' : Record) : Prop :=
  List.Forall₂ (fun header header' => header.1 = header'.1 ∧
    (sensitiveHeaders.contains (toLowerCase header.1) = false →
      header.2 = header'.2)) headers headers'

section Headers

variable {headers headers' : Record} {name : String} {value : Json}

theorem redactHeaders_sensitive
    (h : sensitiveHeaders.contains (toLowerCase name) = true) :
    redactHeaders ((name, value) :: headers) =
      (name, .str "REDACTED") :: redactHeaders headers := by
  simp only [redactHeaders, List.map_cons, h, if_true]

theorem redactHeaders_plain
    (h : sensitiveHeaders.contains (toLowerCase name) = false) :
    redactHeaders ((name, value) :: headers) =
      (name, value) :: redactHeaders headers := by
  simp only [redactHeaders, List.map_cons, h, Bool.false_eq_true, if_false]

theorem redactHeaders_redactHeaders :
    redactHeaders (redactHeaders headers) = redactHeaders headers := by
  induction headers with
  | nil => rfl
  | cons header headers ih =>
      obtain ⟨name, value⟩ := header
      cases hname : sensitiveHeaders.contains (toLowerCase name) with
      | true =>
          rw [redactHeaders_sensitive hname, redactHeaders_sensitive hname, ih]
      | false => rw [redactHeaders_plain hname, redactHeaders_plain hname, ih]

theorem getIdempotencyKey_redactHeaders :
    getIdempotencyKey (redactHeaders headers) = getIdempotencyKey headers := by
  induction headers with
  | nil => rfl
  | cons header headers ih =>
      obtain ⟨name, value⟩ := header
      cases hname : sensitiveHeaders.contains (toLowerCase name) with
      | true =>
          have hother : toLowerCase name ≠ "x-syncbridge-event-id" := by
            intro heq
            rw [heq] at hname
            revert hname
            decide
          rw [redactHeaders_sensitive hname]
          simp [getIdempotencyKey, hother, ih]
      | false =>
          rw [redactHeaders_plain hname]
          simp only [getIdempotencyKey, ih]

theorem SameButSensitive.redactHeaders_eq
    (h : SameButSensitive headers headers') :
    redactHeaders headers = redactHeaders headers' := by
  induction h with
  | nil => rfl
  | @cons header header' headers headers' hheader _ ih =>
      obtain ⟨name, value⟩ := header
      obtain ⟨name', value'⟩ := header'
      obtain ⟨hsame, hvalue⟩ := hheader
      obtain rfl : name = name' := hsame
      cases hname : sensitiveHeaders.contains (toLowerCase name) with
      | true =>
          rw [redactHeaders_sensitive hname, redactHeaders_sensitive hname, ih]
      | false =>
          obtain rfl : value = value' := hvalue hname
          rw [redactHeaders_plain hname, redactHeaders_plain hname, ih]

end Headers

def redactParams (params : ReceiveEventParams) : ReceiveEventParams :=
  { params with headers := redactHeaders params.headers }

section Intake

variable {env : Env} {params : ReceiveEventParams}

theorem ignoreDuplicate_redactParams :
    ignoreDuplicate (redactParams params) = ignoreDuplicate params := by
  funext existing
  simp only [ignoreDuplicate, redactParams, getIdempotencyKey_redactHeaders]

theorem receivedEvent_redactParams :
    receivedEvent (redactParams params) = receivedEvent params := by
  funext connector
  simp only [receivedEvent, redactParams, getIdempotencyKey_redactHeaders,
    redactHeaders_redactHeaders]

theorem handleReceived_redactParams :
    handleReceived env (redactParams params) = handleReceived env params := by
  funext event
  simp only [handleReceived, redactParams, getIdempotencyKey_redactHeaders]

/-- Intake does with the redacted headers what it does with all of them. -/
theorem receiveEvent_redactParams :
    receiveEvent env (redactParams params) = receiveEvent env params := by
  rw [receiveEvent, ignoreDuplicate_redactParams, receivedEvent_redactParams,
    handleReceived_redactParams, receiveEvent]
  simp only [redactParams, getIdempotencyKey_redactHeaders]

end Intake

structure SameRequest (params params' : ReceiveEventParams) : Prop where
  connectorId : params.connectorId = params'.connectorId
  payload : params.payload = params'.payload
  actor : params.actor = params'.actor
  headers : SameButSensitive params.headers params'.headers

theorem SameRequest.redactParams_eq {params params' : ReceiveEventParams}
    (h : SameRequest params params') :
    redactParams params = redactParams params' := by
  simp only [redactParams, h.connectorId, h.payload, h.actor,
    h.headers.redactHeaders_eq]

end WebhooksService

open WebhooksService

/-- The same step, or intake of requests that differ in sensitive headers. -/
inductive Step.SameButSensitive : Step → Step → Prop
  | same (step : Step) : SameButSensitive step step
  | receiveEvent {params params' : ReceiveEventParams} :
      SameRequest params params' →
      SameButSensitive (.start (.receiveEvent params))
        (.start (.receiveEvent params'))

def Call.redact : Call → Call
  | .receiveEvent params => .receiveEvent (redactParams params)
  | call => call

theorem renames_redact (env : Env) : (platform env).Renames Call.redact where
  body call := by
    cases call with
    | receiveEvent params =>
        exact congrArg (Answer.webhook <$> ·) receiveEvent_redactParams
    | _ => rfl
  starts call := by cases call <;> rfl
  env event store number store' calls h := by
    rcases Event.apply_calls h with rfl | ⟨_, _, _, _, rfl⟩
    · rfl
    · rfl

theorem rename_eq_of_same {steps steps' : List Step}
    (h : List.Forall₂ Step.SameButSensitive steps steps') :
    steps.map (Action.rename Call.redact) =
      steps'.map (Action.rename Call.redact) := by
  induction h with
  | nil => rfl
  | @cons step step' steps steps' hstep _ ih =>
      rw [List.map_cons, List.map_cons, ih]
      cases hstep with
      | same => rfl
      | receiveEvent hparams =>
          simp only [Action.rename, Call.redact, hparams.redactParams_eq]

/-- Runs that differ in the values of sensitive headers end together, with the
same store, the same operations of every call and the same answer or failure of
it, and the same events to read. -/
theorem sensitive_headers_influence_nothing (env : Env) (pool : Platform)
    {steps steps' : List Step}
    (h : List.Forall₂ Step.SameButSensitive steps steps') :
    ((platform env).run pool steps).isSome =
        ((platform env).run pool steps').isSome ∧
      ∀ final final', (platform env).run pool steps = some final →
        (platform env).run pool steps' = some final' →
        final.store = final'.store ∧
        final.tasks.map Task.trace = final'.tasks.map Task.trace ∧
        final.tasks.map Task.prog = final'.tasks.map Task.prog ∧
        (∀ order query user, listEvents order query user final.store =
          listEvents order query user final'.store) ∧
        ∀ id user, getEventById env id user final.store =
          getEventById env id user final'.store := by
  have hruns := @System.Renames.run_eq _ _ _ _ _ _ _ _ _ pool
    (renames_redact env) _ _ (rename_eq_of_same h)
  constructor
  · simpa using congrArg Option.isSome hruns
  · intro final final' hfinal hfinal'
    rw [hfinal, hfinal'] at hruns
    have hsame : final.rename Call.redact = final'.rename Call.redact :=
      Option.some.inj hruns
    have hstore : (final.rename Call.redact).store =
        (final'.rename Call.redact).store := by rw [hsame]
    have htasks : (final.rename Call.redact).tasks =
        (final'.rename Call.redact).tasks := by rw [hsame]
    rw [Pool.rename_store, Pool.rename_store] at hstore
    rw [Pool.rename, Pool.rename] at htasks
    have htraces := congrArg (List.map Task.trace) htasks
    have hprogs := congrArg (List.map Task.prog) htasks
    rw [List.map_map, List.map_map] at htraces hprogs
    exact ⟨hstore, htraces, hprogs, fun order query user => by rw [hstore],
      fun id user => by rw [hstore]⟩

def requestUnder (credential : String) : ReceiveEventParams :=
  ⟨2, .obj [], [("Authorization", .str credential)], none⟩

theorem sameRequest_requestUnder (credential credential' : String) :
    SameRequest (requestUnder credential) (requestUnder credential') where
  connectorId := rfl
  payload := rfl
  actor := rfl
  headers := by
    have hsensitive :
        sensitiveHeaders.contains (toLowerCase "Authorization") = true := by
      decide
    exact .cons ⟨rfl, fun hplain =>
      absurd (hsensitive.symm.trans hplain) (by decide)⟩ .nil

def intakeUnder (credential : String) : List Step :=
  .start (.receiveEvent (requestUnder credential)) ::
    List.replicate 22 (.run 0)

theorem sameButSensitive_intakeUnder (credential credential' : String) :
    List.Forall₂ Step.SameButSensitive (intakeUnder credential)
      (intakeUnder credential') :=
  .cons (.receiveEvent (sameRequest_requestUnder credential credential'))
    (List.forall₂_same.mpr fun _ _ => .same _)

/-- Under two credentials the event is stored and processed alike. -/
theorem sensitive_headers_influence_nothing_of_credentials :
    ∃ final final', (platform (Sample.env .sync)).run Sample.store.boot
        (intakeUnder "a") = some final ∧
      (platform (Sample.env .sync)).run Sample.store.boot
        (intakeUnder "b") = some final' ∧
      (final.store.webhookEvents.length = 1 ∧
        final.store.syncedRecords.length = 1 ∧
        ∀ task ∈ final.tasks, task.prog.finished = true) ∧
      final.store = final'.store ∧
      final.tasks.map Task.prog = final'.tasks.map Task.prog := by
  obtain ⟨hends, hsame⟩ := sensitive_headers_influence_nothing
    (Sample.env .sync) Sample.store.boot (sameButSensitive_intakeUnder "a" "b")
  have hruns : ((platform (Sample.env .sync)).run Sample.store.boot
      (intakeUnder "a")).any (fun final =>
        final.store.webhookEvents.length = 1 ∧
        final.store.syncedRecords.length = 1 ∧
        ∀ task ∈ final.tasks, task.prog.finished = true) = true := by
    decide +kernel
  obtain ⟨final, hfinal, hchecked⟩ := (Option.any_eq_true _ _).mp hruns
  rw [hfinal, Option.isSome_some] at hends
  obtain ⟨final', hfinal'⟩ := Option.isSome_iff_exists.mp hends.symm
  obtain ⟨hstore, -, hprogs, -⟩ := hsame final final' hfinal hfinal'
  exact ⟨final, final', hfinal, hfinal', of_decide_eq_true hchecked, hstore,
    hprogs⟩

end SyncBridge
