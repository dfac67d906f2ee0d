import SyncBridge.Foundation.Rely
import SyncBridge.Foundation.Windows
import SyncBridge.Intake.Idempotency

/-!
# Answers to redeliveries

Intake answers `duplicate` when its lookup finds the event.  A call whose lookup
comes before the insertion of another call, and whose own insertion comes after
it, meets the unique constraint instead and fails.  As long as no two calls with
one key are between lookup and insertion together, every delivery is answered.
-/

namespace SyncBridge

open SyncBridge.Foundation SyncBridge.Foundation.Prog

/-! ## Deliveries of one event -/

def Call.carries (sourceConnectorRef : Id) (idempotencyKey : String) :
    Call → Bool
  | .receiveEvent params =>
      params.connectorId = sourceConnectorRef &&
        WebhooksService.getIdempotencyKey params.headers = some idempotencyKey
  | _ => false

def Call.fits (env : Env) : Call → Bool
  | .receiveEvent params =>
      (WebhooksService.assertPayloadSize env
        (WebhooksService.sanitizePayload params.payload)).isOk
  | _ => true

def Op.createsEvent : Op → Bool
  | .webhookEventCreate _ => true
  | _ => false

section Check

variable (sourceConnectorRef : Id) (idempotencyKey : String)

def keyCheck : CheckThenAct Op.Res Call Unit where
  finds _
    | .webhookEventFindFirst connectorRef key, none =>
        if connectorRef = sourceConnectorRef ∧ key = idempotencyKey then some ()
        else none
    | _, _ => none
  acts _
    | .webhookEventCreate data =>
        if data.sourceConnectorRef = sourceConnectorRef ∧
          data.idempotencyKey = some idempotencyKey then some ()
        else none
    | _ => none
  facts _ _ := True

def Store.HasKey (store : Store) : Prop :=
  ∃ id, store.StoredUnder sourceConnectorRef idempotencyKey id

variable {sourceConnectorRef idempotencyKey}

theorem keyCheck_silent {call : Call} {ledger : Ledger Unit} {op : Op}
    (hop : op.looksForKey = false) :
    (keyCheck sourceConnectorRef idempotencyKey).monitor.Silent call ledger
      op := by
  refine CheckThenAct.silent (fun value => ?_) ?_
  · cases op <;> first | rfl | cases hop
  · cases op <;> first | rfl | cases hop

theorem body_keyCheck (env : Env) (call : Call) :
    (keyCheck sourceConnectorRef idempotencyKey).monitor.Accepts call
      (fun _ _ => True) (call.body env) ⟨[], []⟩ := by
  by_cases hcall : ∃ params, call = .receiveEvent params
  · obtain ⟨params, rfl⟩ := hcall
    have hcreate : ∀ ledger : Ledger Unit,
        (params.connectorId = sourceConnectorRef ∧
          WebhooksService.getIdempotencyKey params.headers =
            some idempotencyKey → () ∈ ledger.free) →
        (keyCheck sourceConnectorRef idempotencyKey).monitor.Accepts
          (.receiveEvent params) (fun _ _ => True)
          (do
            let connector ← await (.connectorFindUnique params.connectorId)
            let event ← await (.webhookEventCreate
              (WebhooksService.receivedEvent params connector))
            WebhooksService.handleReceived env params event) ledger := by
      intro ledger hfree
      refine Monitor.accepts_silent_bind
        ((uses_await _).mpr (keyCheck_silent rfl)) (fun connector => ?_)
        fun _ => trivial
      refine Monitor.accepts_await_bind.mpr
        ⟨fun _ hacts => ?_, fun event _ => ?_, fun _ _ => trivial⟩
      · refine hfree ?_
        by_contra hother
        simp [keyCheck, WebhooksService.receivedEvent, hother] at hacts
      · exact (Monitor.accepts_of_silent (handleReceived_silent fun _ hop =>
          keyCheck_silent hop)).mono fun _ _ _ => trivial
    simp only [Call.body, map_eq]
    refine Monitor.accepts_bind.mpr (Monitor.Accepts.mono (Q := fun _ _ => True)
      ?_ ?_)
    · rintro ledger (error | answer) - <;> trivial
    · simp only [WebhooksService.receiveEvent, bind_eq]
      refine Monitor.accepts_ofExcept_bind (fun _ _ => ?_) fun _ => trivial
      cases hkey : WebhooksService.getIdempotencyKey params.headers with
      | none =>
          refine hcreate _ ?_
          rintro ⟨-, hnone⟩
          rw [hkey] at hnone
          cases hnone
      | some key =>
          refine Monitor.accepts_await_bind.mpr
            ⟨fun _ hacts => (by cases hacts), fun found _ => ?_,
              fun _ _ => trivial⟩
          cases found with
          | some existing =>
              refine (Monitor.accepts_of_silent ?_).mono fun _ _ _ => trivial
              exact Uses.await (keyCheck_silent rfl) fun _ => trivial
          | none =>
              refine hcreate _ ?_
              rintro ⟨hconnector, hsame⟩
              obtain rfl : key = idempotencyKey :=
                Option.some.inj (hkey.symm.trans hsame)
              simp [CheckThenAct.monitor, CheckThenAct.noteFree, keyCheck,
                hconnector]
  · refine (Monitor.accepts_of_silent ((body_uses call).mono ?_)).mono
      fun _ _ _ => trivial
    intro op hop
    refine keyCheck_silent ?_
    cases op <;> first | rfl | exact absurd hop hcall

theorem keyCheck_singleUse (env : Env) :
    CheckThenAct.SingleUse (keyCheck sourceConnectorRef idempotencyKey)
      (platform env) fun store _ =>
        store.HasKey sourceConnectorRef idempotencyKey where
  apart call op value key hacts := by
    cases op <;> first | rfl | cases hacts
  acts call op store value store' key hexec hacts := by
    have heffect : store' = op.effect store := @exec_effect env _ _ _ _ hexec
    cases op with
    | webhookEventCreate data =>
        simp only [keyCheck] at hacts
        split at hacts
        · rename_i hdata
          rw [heffect]
          refine ⟨_, _, List.mem_append_right _ (List.mem_singleton_self _),
            ?_, rfl⟩
          simp [WebhookEvent.keyed, hdata]
        · cases hacts
    | _ => cases hacts
  keeps op store value store' key hexec := by
    rintro ⟨id, hstored⟩
    exact ⟨id, hstored.exec hexec⟩
  event event store count store' calls key henv hstored := by
    obtain ⟨clock, jobs, rfl⟩ := Event.apply_store henv
    exact hstored
  finds call op store value store' key hexec hfinds := by
    cases op with
    | webhookEventFindFirst connectorRef key =>
        have hfirst := @exec_webhookEventFindFirst env _ _ _ _ _ hexec
        cases value with
        | some row => cases hfinds
        | none =>
            simp only [keyCheck] at hfinds
            split at hfinds
            · rename_i hsame
              obtain ⟨rfl, rfl⟩ := hsame
              rintro ⟨id, row, hrow, hkeyed, -⟩
              exact List.find?_eq_none.mp hfirst.symm row hrow hkeyed
            · cases hfinds
    | _ => cases hfinds

end Check

/-! ## Answers -/

structure Answering where
  created : Option WebhookEvent := none
  found : Option WebhookEvent := none

def Answering.note (state : Answering) : (op : Op) → op.Res → Answering
  | .webhookEventCreate _, event => { state with created := some event }
  | .webhookEventFindFirst _ _, found => { state with found := found }
  | _, _ => state

section Answers

variable (sourceConnectorRef : Id) (idempotencyKey : String)

/-- Deliveries look for their own key and create their own row, and no operation
of a delivery under the key fails. -/
def answering : Monitor Op.Res Call Answering where
  init _ := {}
  note _ := Answering.note
  guard call _
    | .webhookEventFindFirst connectorRef key => ∃ params,
        call = .receiveEvent params ∧ connectorRef = params.connectorId ∧
          WebhooksService.getIdempotencyKey params.headers = some key
    | .webhookEventCreate data => ∃ params connector,
        call = .receiveEvent params ∧
          data = WebhooksService.receivedEvent params connector
    | _ => True
  facts _ state
    | .webhookEventFindUnique id, found => ∀ row, state.created = some row →
        row.id = id → found.isSome = true
    | _, _ => True
  fails call _ _ := call.carries sourceConnectorRef idempotencyKey = false

/-- A delivery under the key answers with the row that it has created, or with
`duplicate` and the row that it has found. -/
def Answers (call : Call) (state : Answering) (result : Except Failure Answer) :
    Prop :=
  call.carries sourceConnectorRef idempotencyKey = true →
    ∃ answer row, result = .ok (.webhook answer) ∧ answer.eventId = row.id ∧
      (state.created = some row ∧ answer.duplicate = false ∨
        state.created = none ∧ state.found = some row ∧
          answer.duplicate = true)

variable {sourceConnectorRef idempotencyKey} {env : Env} {call : Call}
  {state : Answering}

theorem answers_of_fails {error : Failure}
    (h : call.carries sourceConnectorRef idempotencyKey = false) :
    Answers sourceConnectorRef idempotencyKey call state (.error error) := by
  intro hcarries
  rw [h] at hcarries
  cases hcarries

theorem answering_silent {op : Op} (hop : op.looksForKey = false) :
    (answering sourceConnectorRef idempotencyKey).Silent call state op := by
  cases op with
  | webhookEventFindFirst _ _ | webhookEventCreate _ => cases hop
  | _ => exact ⟨trivial, fun _ => rfl⟩

theorem answering_quiet :
    AllowsQuiet ((answering sourceConnectorRef idempotencyKey).Silent call
      state) := by
  refine allowsQuiet fun op hop => answering_silent ?_
  cases op <;> first | rfl | cases hop

/-! ### Processing throws nothing of its own -/

theorem failWebhookRun_neverThrows {eventId pipelineId syncRunId : Id}
    {externalId message : String} {errorCount : Nat} {actor : AuditActor} :
    (WebhooksService.failWebhookRun eventId pipelineId syncRunId externalId
      message errorCount actor).NeverThrows := by
  refine (neverThrows_await _).bind fun finishedAt => ?_
  refine (neverThrows_await _).bind fun _ => ?_
  refine (neverThrows_await _).bind fun lastRunAt => ?_
  refine (neverThrows_await _).bind fun _ => ?_
  exact (neverThrows_await _).bind fun _ =>
    (neverThrows_await _).bind fun _ => trivial

theorem storeWebhookRecord_neverThrows {eventId pipelineId syncRunId : Id}
    {externalId : String} {payload normalized : Record} {actor : AuditActor} :
    (WebhooksService.storeWebhookRecord eventId pipelineId syncRunId externalId
      payload normalized actor).NeverThrows := by
  refine (neverThrows_await _).bind fun syncedRecord => ?_
  refine (neverThrows_await _).bind fun finishedAt => ?_
  refine (neverThrows_await _).bind fun _ => ?_
  refine (neverThrows_await _).bind fun lastRunAt => ?_
  refine (neverThrows_await _).bind fun _ => ?_
  exact (neverThrows_await _).bind fun _ => (neverThrows_await _).bind fun _ =>
    (neverThrows_await _).bind fun _ => trivial

theorem processPipeline_neverThrows {event : WebhookEvent} {actor : AuditActor}
    {totals : WebhooksService.Totals} {pipeline : SyncPipeline} :
    (WebhooksService.processPipeline env event actor totals
      pipeline).NeverThrows := by
  refine (neverThrows_await _).bind fun startedAt => ?_
  refine (neverThrows_await _).bind fun syncRun => ?_
  refine (neverThrows_await _).bind fun _ => ?_
  refine ThrowsOnly.bind ?_ fun _ => trivial
  simp only [WebhooksService.processWebhookForPipeline]
  split
  · exact failWebhookRun_neverThrows
  · refine (neverThrows_await _).bind fun transformed => ?_
    split
    · exact failWebhookRun_neverThrows
    · exact storeWebhookRecord_neverThrows

theorem finishEvent_neverThrows {eventId : Id} {status : WebhookEventStatus}
    {errorMessage : Option String} :
    (WebhooksService.finishEvent eventId status errorMessage).NeverThrows :=
  (neverThrows_await _).bind fun _ => neverThrows_await _

theorem processFound_neverThrows {event : WebhookEvent} {actor : AuditActor} :
    (do
      match ← WebhooksService.findEventConnector event with
      | none => WebhooksService.failWithoutConnector event actor
      | some connector =>
          let pipelines ← await (.pipelineFindActive connector.id)
          if pipelines.isEmpty then
            WebhooksService.ignoreWithoutPipelines event connector actor
          else
            WebhooksService.processForPipelines env event connector pipelines
              actor : Body WebhookProcessingSummary).NeverThrows := by
  refine ThrowsOnly.bind ?_ fun connector => ?_
  · simp only [WebhooksService.findEventConnector]
    split
    · exact neverThrows_await _
    · trivial
  · cases connector with
    | none =>
        exact finishEvent_neverThrows.bind fun _ =>
          (neverThrows_await _).bind fun _ => trivial
    | some connector =>
        refine (neverThrows_await _).bind fun pipelines => ?_
        split
        · exact finishEvent_neverThrows.bind fun _ =>
            (neverThrows_await _).bind fun _ => trivial
        · refine (ThrowsOnly.foldlM (fun _ _ _ =>
            processPipeline_neverThrows) _).bind fun totals => ?_
          exact finishEvent_neverThrows.bind fun _ =>
            (neverThrows_await _).bind fun _ => trivial

theorem queueProcessing_neverThrows {eventId connectorId : Id}
    {status : WebhookEventStatus} {metadata : Record}
    {action message : String} {actor : AuditActor}
    (hasync : env.queueMode = .async) :
    (WebhooksService.queueProcessing env eventId connectorId status metadata
      action message actor).NeverThrows := by
  refine (neverThrows_await _).bind fun backgroundJob => ?_
  refine ThrowsOnly.bind ?_ fun _ => ?_
  · simp only [JobsService.enqueueProcessWebhookEventJob,
      JobsService.enqueueJob, JobsService.isAsyncMode, hasync, decide_true,
      Bool.not_true, Bool.false_eq_true, if_false]
    split
    · trivial
    · exact neverThrows_await _
  · exact (neverThrows_await _).bind fun _ =>
      (neverThrows_await _).bind fun _ => trivial

theorem queueProcessing_returns {eventId connectorId : Id}
    {status : WebhookEventStatus} {metadata : Record}
    {action message : String} {actor : AuditActor} :
    (WebhooksService.queueProcessing env eventId connectorId status metadata
      action message actor).Returns
        fun answer => answer.eventId = eventId ∧ answer.duplicate = false :=
  Returns.bind fun _ => Returns.bind fun _ => Returns.bind fun _ =>
    Returns.bind fun _ => ⟨rfl, rfl⟩

/-! ### Every delivery is answered -/

section Handled

variable {event : WebhookEvent}
  (hfails : ∀ op, ¬ (answering sourceConnectorRef idempotencyKey).fails call
    state op)

include hfails

theorem queueProcessing_answers {connectorId : Id}
    {status : WebhookEventStatus} {metadata : Record}
    {action message : String} {actor : AuditActor}
    (hasync : env.queueMode = .async) :
    (answering sourceConnectorRef idempotencyKey).Accepts call
      (fun state' result => state' = state ∧ ∃ answer, result = .ok answer ∧
        answer.eventId = event.id ∧ answer.duplicate = false)
      (WebhooksService.queueProcessing env event.id connectorId status metadata
        action message actor) state := by
  refine ((Monitor.accepts_of_neverThrows hfails
    (queueProcessing_neverThrows hasync) ?_).and_returns
      queueProcessing_returns).mono ?_
  · exact queueProcessing_rule answering_quiet
      (fun _ _ => (uses_await _).mpr (answering_silent rfl))
      fun _ _ => (uses_await _).mpr (answering_silent rfl)
  · rintro _ _ ⟨⟨rfl, answer, rfl⟩, hvalue⟩
    exact ⟨rfl, answer, rfl, hvalue answer rfl⟩

theorem processInline_answers {actor : AuditActor}
    (hcreated : state.created = some event) :
    (answering sourceConnectorRef idempotencyKey).Accepts call
      (fun state' result => state' = state ∧ ∃ answer, result = .ok answer ∧
        answer.eventId = event.id ∧ answer.duplicate = false)
      (WebhooksService.processInline env event.id actor) state := by
  have huses : (WebhooksService.processWebhookEventNow env event.id actor).Uses
      ((answering sourceConnectorRef idempotencyKey).Silent call state) :=
    processWebhookEventNow_silent fun _ hop => answering_silent hop
  refine Monitor.accepts_bind.mpr (Monitor.Accepts.mono
    (Q := fun state' result => state' = state ∧ ∃ summary, result = .ok summary)
    ?_ ?_)
  · rintro _ _ ⟨rfl, summary, rfl⟩
    refine Monitor.accepts_await_bind.mpr
      ⟨trivial, fun updated _ => ?_, fun hraises => absurd hraises (hfails _)⟩
    exact ⟨rfl, _, rfl, rfl, rfl⟩
  · have hrest := ((uses_await_bind _ _).mp huses).2
    refine Monitor.accepts_await_bind.mpr
      ⟨trivial, fun found hfound => ?_, fun hraises => absurd hraises (hfails _)⟩
    cases found with
    | none => exact absurd (hfound event hcreated rfl) nofun
    | some found =>
        exact Monitor.accepts_of_neverThrows hfails processFound_neverThrows
          (hrest (some found))

end Handled

theorem handleReceived_answers {params : ReceiveEventParams}
    {event : WebhookEvent} (hcreated : state.created = some event) :
    (answering sourceConnectorRef idempotencyKey).Accepts
      (.receiveEvent params)
      (fun state' result => Answers sourceConnectorRef idempotencyKey
        (.receiveEvent params) state' (result.map Answer.webhook))
      (WebhooksService.handleReceived env params event) state := by
  set call : Call := .receiveEvent params
  cases hcarries : call.carries sourceConnectorRef idempotencyKey with
  | false =>
      have hsilent : (WebhooksService.handleReceived env params event).Uses
          ((answering sourceConnectorRef idempotencyKey).Silent call state) :=
        handleReceived_silent fun op hop => answering_silent hop
      refine (Monitor.accepts_of_silent hsilent).mono fun _ _ _ hother => ?_
      rw [hcarries] at hother
      cases hother
  | true =>
      have hfails : ∀ op, ¬ (answering sourceConnectorRef idempotencyKey).fails
          call state op :=
        fun op hother => absurd (hcarries.symm.trans hother) nofun
      have hanswer : ∀ (state' : Answering) (result : Except Failure WebhookAnswer),
          (state' = state ∧ ∃ answer, result = .ok answer ∧
            answer.eventId = event.id ∧ answer.duplicate = false) →
          Answers sourceConnectorRef idempotencyKey call state'
            (result.map Answer.webhook) := by
        rintro _ _ ⟨rfl, answer, rfl, hid, hnew⟩ _
        exact ⟨answer, event, rfl, hid, .inl ⟨hcreated, hnew⟩⟩
      refine Monitor.accepts_await_bind.mpr
        ⟨trivial, fun _ _ => ?_, fun hraises => absurd hraises (hfails _)⟩
      split
      · rename_i hasync
        exact (queueProcessing_answers hfails
          (by simpa [JobsService.isAsyncMode] using hasync)).mono hanswer
      · exact (processInline_answers hfails hcreated).mono hanswer

theorem receiveEvent_answers {params : ReceiveEventParams}
    (hfits : Call.carries sourceConnectorRef idempotencyKey
      (.receiveEvent params) = true →
      Call.fits env (.receiveEvent params) = true) :
    (answering sourceConnectorRef idempotencyKey).Accepts
      (.receiveEvent params)
      (fun state result => Answers sourceConnectorRef idempotencyKey
        (.receiveEvent params) state (result.map Answer.webhook))
      (WebhooksService.receiveEvent env params) {} := by
  have herror : ∀ {op : Op} {state : Answering} {error : Failure},
      (answering sourceConnectorRef idempotencyKey).fails
        (.receiveEvent params) state op →
      Answers sourceConnectorRef idempotencyKey (.receiveEvent params) state
        (Except.error error) := fun hfails => answers_of_fails hfails
  have hcreate : ∀ state : Answering,
      (answering sourceConnectorRef idempotencyKey).Accepts
      (.receiveEvent params)
      (fun state result => Answers sourceConnectorRef idempotencyKey
        (.receiveEvent params) state (result.map Answer.webhook))
      (do
        let connector ← await (.connectorFindUnique params.connectorId)
        let event ← await (.webhookEventCreate
          (WebhooksService.receivedEvent params connector))
        WebhooksService.handleReceived env params event) state := by
    intro state
    refine Monitor.accepts_await_bind.mpr
      ⟨trivial, fun connector _ => ?_, fun hfails _ => herror hfails⟩
    refine Monitor.accepts_await_bind.mpr
      ⟨⟨params, connector, rfl, rfl⟩, fun event _ => ?_,
        fun hfails _ => herror hfails⟩
    exact handleReceived_answers rfl
  simp only [WebhooksService.receiveEvent, bind_eq]
  rw [Monitor.accepts_bind, Monitor.accepts_ofExcept]
  cases hcheck : WebhooksService.assertPayloadSize env
      (WebhooksService.sanitizePayload params.payload) with
  | error failure =>
      intro hcarries
      have hok := hfits hcarries
      rw [Call.fits, hcheck] at hok
      cases hok
  | ok _ =>
    rw [Monitor.seq_ok]
    cases hkey : WebhooksService.getIdempotencyKey params.headers with
    | none => exact hcreate _
    | some key =>
        refine Monitor.accepts_await_bind.mpr
          ⟨⟨params, rfl, rfl, hkey⟩, fun found _ => ?_,
            fun hfails _ => herror hfails⟩
        cases found with
        | none => exact hcreate _
        | some existing =>
            refine Monitor.accepts_await_bind.mpr
              ⟨trivial, fun _ _ => ?_, fun hfails _ => herror hfails⟩
            exact fun _ => ⟨_, existing, rfl, rfl, .inr ⟨rfl, rfl, rfl⟩⟩

theorem body_answers
    (hfits : call.carries sourceConnectorRef idempotencyKey = true →
      call.fits env = true) :
    (answering sourceConnectorRef idempotencyKey).Accepts call
      (Answers sourceConnectorRef idempotencyKey call) (call.body env) {} := by
  by_cases hcall : ∃ params, call = .receiveEvent params
  · obtain ⟨params, rfl⟩ := hcall
    simp only [Call.body, map_eq]
    refine Monitor.accepts_bind.mpr ((receiveEvent_answers hfits).mono ?_)
    rintro state (error | answer) hanswers
    · exact hanswers
    · exact hanswers
  · refine (Monitor.accepts_of_silent ((body_uses call).mono ?_)).mono ?_
    · intro op hop
      refine answering_silent ?_
      cases op <;> first | rfl | exact absurd hop hcall
    · intro _ _ _ hcarries
      cases call with
      | receiveEvent params => exact absurd ⟨params, rfl⟩ hcall
      | _ => cases hcarries

end Answers

/-! ## Interleavings -/

section Interleavings

variable (env : Env) (sourceConnectorRef : Id) (idempotencyKey : String)

/-- An operation of a delivery under the key fails for another reason than the
unique constraint, or its payload is too large. -/
def OtherFailure (pool : Platform) : Step → Prop
  | .start begun => begun.carries sourceConnectorRef idempotencyKey = true ∧
      begun.fits env = false
  | .run index =>
      match pool.tasks[index]? with
      | some ⟨acting, _, .call op _⟩ =>
          acting.carries sourceConnectorRef idempotencyKey = true ∧
            op.createsEvent = false ∧ (exec env op pool.store).isOk = false
      | _ => False
  | .fail index _ => ∃ task, pool.tasks[index]? = some task ∧
      task.call.carries sourceConnectorRef idempotencyKey = true
  | .env _ => False

/-- The step lets a delivery find the key free while another one is between its
lookup and its insertion. -/
def LooksTogether (pool : Platform) (step : Step) : Prop :=
  (keyCheck sourceConnectorRef idempotencyKey).Overlaps (platform env) pool step

/-- One delivery is answered as new and the others as duplicates of it. -/
structure AnsweredOnce (pool : Platform) : Prop where
  none_fails : ∀ task ∈ pool.tasks,
    task.call.carries sourceConnectorRef idempotencyKey = true →
    ∀ failure, task.prog ≠ .throw failure
  answers : (∃ task ∈ pool.tasks,
      task.call.carries sourceConnectorRef idempotencyKey = true) →
    (∀ task ∈ pool.tasks,
      task.call.carries sourceConnectorRef idempotencyKey = true →
      task.prog.finished = true) →
    ∃ (index : Nat) (first : Task Op.Res Failure Answer Call)
      (answer : WebhookAnswer), pool.tasks[index]? = some first ∧
      first.call.carries sourceConnectorRef idempotencyKey = true ∧
      answerOf first = some (.webhook answer) ∧ answer.duplicate = false ∧
      ∀ (position : Nat) (other : Task Op.Res Failure Answer Call),
        position ≠ index → pool.tasks[position]? = some other →
        other.call.carries sourceConnectorRef idempotencyKey = true →
        ∃ again : WebhookAnswer, answerOf other = some (.webhook again) ∧
          again.duplicate = true ∧ again.eventId = answer.eventId

variable {env sourceConnectorRef idempotencyKey} {init : Store}
  {pool pool' : Platform}

abbrev TakesTurns (env : Env) (sourceConnectorRef : Id) (idempotencyKey : String)
    (pool : Platform) (step : Step) : Prop :=
  ¬ OtherFailure env sourceConnectorRef idempotencyKey pool step ∧
    ¬ LooksTogether env sourceConnectorRef idempotencyKey pool step

structure Remembers (sourceConnectorRef : Id) (idempotencyKey : String)
    (store : Store) (task : Task Op.Res Failure Answer Call) : Prop where
  stored : ∀ row, ((answering sourceConnectorRef idempotencyKey).state
      task).created = some row →
    ∃ stored ∈ store.webhookEvents, stored.id = row.id
  created : task.call.carries sourceConnectorRef idempotencyKey = true →
    ∀ row, ((answering sourceConnectorRef idempotencyKey).state task).created =
      some row → store.StoredUnder sourceConnectorRef idempotencyKey row.id
  found : task.call.carries sourceConnectorRef idempotencyKey = true →
    ∀ row, ((answering sourceConnectorRef idempotencyKey).state task).found =
      some row → store.StoredUnder sourceConnectorRef idempotencyKey row.id
  acted : (keyCheck sourceConnectorRef idempotencyKey).HasActed () task ↔
    task.call.carries sourceConnectorRef idempotencyKey = true ∧
      ((answering sourceConnectorRef idempotencyKey).state
        task).created.isSome = true

theorem remembers_spawn {store : Store} {call : Call} :
    Remembers sourceConnectorRef idempotencyKey store
      ((platform env).spawn call) where
  stored _ hrow := nomatch hrow
  created _ _ hrow := nomatch hrow
  found _ _ hrow := nomatch hrow
  acted := by
    refine ⟨fun hacted => absurd hacted (CheckThenAct.not_hasActed_spawn _), ?_⟩
    rintro ⟨-, hnone⟩
    cases hnone

theorem Remembers.exec {store store' : Store} {op : Op} {value : op.Res}
    {task : Task Op.Res Failure Answer Call}
    (h : Remembers sourceConnectorRef idempotencyKey store task)
    (hexec : exec env op store = .ok (value, store')) :
    Remembers sourceConnectorRef idempotencyKey store' task where
  stored row hrow := by
    obtain ⟨stored, hmem, hid⟩ := h.stored row hrow
    rw [exec_effect hexec]
    cases hop : op.writesWebhookEvents with
    | false => exact ⟨stored, by rwa [effect_webhookEvents hop], hid⟩
    | true =>
        cases op with
        | webhookEventCreate data =>
            exact ⟨stored, List.mem_append_left _ hmem, hid⟩
        | webhookEventUpdate written data =>
            refine ⟨_, Table.mem_modify.mpr ⟨stored, hmem, rfl⟩, ?_⟩
            split
            · exact hid
            · exact hid
        | _ => cases hop
  created hcarries row hrow := (h.created hcarries row hrow).exec hexec
  found hcarries row hrow := (h.found hcarries row hrow).exec hexec
  acted := h.acted

theorem carries_receiveEvent {params : ReceiveEventParams} :
    (Call.receiveEvent params).carries sourceConnectorRef idempotencyKey = true ↔
      params.connectorId = sourceConnectorRef ∧
        WebhooksService.getIdempotencyKey params.headers =
          some idempotencyKey := by
  simp [Call.carries]

section Done

variable {index : Nat} {task : Task Op.Res Failure Answer Call}

theorem Remembers.quiet {op : Op} {next : Except Failure op.Res → Body Answer}
    {value : op.Res}
    (h : Remembers sourceConnectorRef idempotencyKey pool.store task)
    (hdone : (platform env).Done pool pool' index task op next value)
    (hop : op.looksForKey = false) :
    Remembers sourceConnectorRef idempotencyKey pool'.store
      ⟨task.call, ⟨op, value⟩ :: task.trace, next (.ok value)⟩ := by
  have hkept := h.exec (exec_of_done hdone)
  have hnote : (answering sourceConnectorRef idempotencyKey).state
      (⟨task.call, ⟨op, value⟩ :: task.trace, next (.ok value)⟩ :
        Task Op.Res Failure Answer Call) =
      (answering sourceConnectorRef idempotencyKey).state task :=
    (answering_silent hop).2 value
  have hacts : (keyCheck sourceConnectorRef idempotencyKey).acts task.call
      op = none := by
    cases op <;> first | rfl | cases hop
  refine ⟨?_, ?_, ?_, ?_⟩
  · rw [hnote]
    exact hkept.stored
  · rw [hnote]
    exact hkept.created
  · rw [hnote]
    exact hkept.found
  · rw [hnote, CheckThenAct.hasActed_cons, hacts, h.acted]
    simp

theorem Remembers.lookup {params : ReceiveEventParams} {key : String}
    {next : Except Failure (Option WebhookEvent) → Body Answer}
    {value : Option WebhookEvent}
    (h : Remembers sourceConnectorRef idempotencyKey pool.store task)
    (hdone : (platform env).Done pool pool' index task
      (.webhookEventFindFirst params.connectorId key) next value)
    (hcall : task.call = .receiveEvent params)
    (hkey : WebhooksService.getIdempotencyKey params.headers = some key) :
    Remembers sourceConnectorRef idempotencyKey pool'.store
      ⟨task.call, ⟨.webhookEventFindFirst params.connectorId key, value⟩ ::
        task.trace, next (.ok value)⟩ := by
  have hkept := h.exec (exec_of_done hdone)
  have hfirst := exec_webhookEventFindFirst (exec_of_done hdone)
  refine ⟨hkept.stored, hkept.created, fun hcarries row hrow => ?_, ?_⟩
  · rw [hcall, carries_receiveEvent] at hcarries
    obtain ⟨rfl, hpair⟩ := hcarries
    obtain rfl := Option.some.inj (hkey.symm.trans hpair)
    obtain rfl : value = some row := hrow
    rw [effect_of_done hdone]
    exact ⟨row, List.mem_of_find?_eq_some hfirst.symm,
      List.find?_some hfirst.symm, rfl⟩
  · rw [CheckThenAct.hasActed_cons]
    exact ⟨fun hacted => h.acted.mp (hacted.resolve_left nofun),
      fun hacted => .inr (h.acted.mpr hacted)⟩

theorem acts_create_iff {params : ReceiveEventParams} {call : Call}
    {connector : Option Connector} :
    (keyCheck sourceConnectorRef idempotencyKey).acts call
        (.webhookEventCreate
          (WebhooksService.receivedEvent params connector)) = some () ↔
      params.connectorId = sourceConnectorRef ∧
        WebhooksService.getIdempotencyKey params.headers =
          some idempotencyKey := by
  simp [keyCheck, WebhooksService.receivedEvent]

theorem Remembers.create {params : ReceiveEventParams}
    {connector : Option Connector}
    {next : Except Failure WebhookEvent → Body Answer} {value : WebhookEvent}
    (h : Remembers sourceConnectorRef idempotencyKey pool.store task)
    (hdone : (platform env).Done pool pool' index task (.webhookEventCreate
      (WebhooksService.receivedEvent params connector)) next value)
    (hcall : task.call = .receiveEvent params) :
    Remembers sourceConnectorRef idempotencyKey pool'.store
      ⟨task.call, ⟨.webhookEventCreate
        (WebhooksService.receivedEvent params connector), value⟩ :: task.trace,
        next (.ok value)⟩ := by
  have hkept := h.exec (exec_of_done hdone)
  obtain ⟨-, rfl⟩ := exec_webhookEventCreate (exec_of_done hdone)
  have hmem : (pool.store.createWebhookEvent
      (WebhooksService.receivedEvent params connector)).1 ∈
        pool'.store.webhookEvents := by
    rw [effect_of_done hdone]
    exact List.mem_append_right _ (List.mem_singleton_self _)
  refine ⟨?_, ?_, hkept.found, ?_⟩
  · rintro row ⟨⟩
    exact ⟨_, hmem, rfl⟩
  · rintro hcarries row ⟨⟩
    rw [hcall, carries_receiveEvent] at hcarries
    refine ⟨_, hmem, ?_, rfl⟩
    simp [WebhookEvent.keyed, Store.createWebhookEvent,
      WebhooksService.receivedEvent, hcarries]
  · rw [CheckThenAct.hasActed_cons, acts_create_iff, hcall, carries_receiveEvent]
    refine ⟨fun hacted => ⟨?_, rfl⟩, fun hcarries => .inl hcarries.1⟩
    rcases hacted with hnow | hbefore
    · exact hnow
    · have hcarries := (h.acted.mp hbefore).1
      rwa [hcall, carries_receiveEvent] at hcarries

theorem Remembers.done {op : Op} {next : Except Failure op.Res → Body Answer}
    {value : op.Res}
    (h : Remembers sourceConnectorRef idempotencyKey pool.store task)
    (hdone : (platform env).Done pool pool' index task op next value)
    (hguard : (answering sourceConnectorRef idempotencyKey).guard task.call
      ((answering sourceConnectorRef idempotencyKey).state task) op) :
    Remembers sourceConnectorRef idempotencyKey pool'.store
      ⟨task.call, ⟨op, value⟩ :: task.trace, next (.ok value)⟩ := by
  cases op with
  | webhookEventFindFirst connectorRef key =>
      obtain ⟨params, hcall, rfl, hkey⟩ := hguard
      exact h.lookup hdone hcall hkey
  | webhookEventCreate data =>
      obtain ⟨params, connector, hcall, rfl⟩ := hguard
      exact h.create hdone hcall
  | _ => exact h.quiet hdone rfl

end Done

theorem keyCheck_accepts {ok : Platform → Step → Prop}
    (h : (platform env).Reach ok init.boot pool) : ∀ task ∈ pool.tasks,
      (keyCheck sourceConnectorRef idempotencyKey).monitor.Accepts task.call
        (fun _ _ => True) task.prog
        ((keyCheck sourceConnectorRef idempotencyKey).monitor.state task) :=
  Monitor.accepts_of_reach (Q := fun _ _ _ => True)
    (fun _ _ _ _ _ _ _ => trivial) (fun _ _ _ _ => trivial)
    (body_keyCheck env) rfl h

theorem keyCheck_actedOnce
    (h : (platform env).Reach
      (TakesTurns env sourceConnectorRef idempotencyKey) init.boot pool) :
    CheckThenAct.ActedOnce (keyCheck sourceConnectorRef idempotencyKey)
      (fun store _ => store.HasKey sourceConnectorRef idempotencyKey) ()
      pool := by
  refine CheckThenAct.actedOnce (Q := fun _ _ _ => True)
    (keyCheck_singleUse env) (fun _ _ hturns => hturns.2) ?_ rfl h ()
  exact fun _ hreach => keyCheck_accepts hreach

theorem acted_of_hasKey {ok : Platform → Step → Prop}
    (hnone : ¬ init.HasKey sourceConnectorRef idempotencyKey)
    (h : (platform env).Reach ok init.boot pool)
    (hkey : pool.store.HasKey sourceConnectorRef idempotencyKey) :
    ∃ task ∈ pool.tasks,
      (keyCheck sourceConnectorRef idempotencyKey).HasActed () task := by
  have hmade := h.rows_made
    (R := fun store : Store => store.webhookEvents.filter
      (WebhookEvent.keyed sourceConnectorRef idempotencyKey))
    (P := fun _ entry => ∀ call,
      (keyCheck sourceConnectorRef idempotencyKey).acts call entry.1 = some ())
    ?_ ?_ ?_
  · obtain ⟨id, row, hrow, hkeyed, -⟩ := hkey
    obtain ⟨task, htask, entry, hentry, hacts⟩ :=
      hmade row (List.mem_filter.mpr ⟨hrow, hkeyed⟩)
    exact ⟨task, htask, CheckThenAct.acted_iff.mpr ⟨entry, hentry, hacts _⟩⟩
  · intro op store value store' hexec row hrow
    obtain ⟨hmem, hkeyed⟩ := List.mem_filter.mp hrow
    rw [exec_effect hexec] at hmem
    rcases webhookEvents_of_effect hmem with hold | ⟨data, rfl, rfl⟩ |
      ⟨data, old, hold, rfl, rfl⟩
    · exact .inr ⟨row, List.mem_filter.mpr ⟨hold, hkeyed⟩, fun _ h => h⟩
    · obtain ⟨hconnector, hkey⟩ := Bool.and_eq_true_iff.mp hkeyed
      exact .inl fun call =>
        if_pos ⟨of_decide_eq_true hconnector, of_decide_eq_true hkey⟩
    · exact .inr ⟨old, List.mem_filter.mpr ⟨hold, hkeyed⟩, fun _ h => h⟩
  · intro event store count store' calls henv
    obtain ⟨clock, jobs, rfl⟩ := Event.apply_store henv
    rfl
  · rw [List.filter_eq_nil_iff]
    exact fun row hrow hkeyed => hnone ⟨row.id, row, hrow, hkeyed, rfl⟩

/-- Between lookup and insertion nothing is stored under the key. -/
theorem not_hasKey_of_inWindow
    (hnone : ¬ init.HasKey sourceConnectorRef idempotencyKey)
    (h : (platform env).Reach
      (TakesTurns env sourceConnectorRef idempotencyKey) init.boot pool)
    {task : Task Op.Res Failure Answer Call} (htask : task ∈ pool.tasks)
    (hinside : (keyCheck sourceConnectorRef idempotencyKey).InWindow () task) :
    ¬ pool.store.HasKey sourceConnectorRef idempotencyKey := by
  intro hkey
  have hacted := acted_of_hasKey hnone h hkey
  exact ((keyCheck_actedOnce h).closed hacted).2 task htask hinside

theorem hasKey_of_violates {params : ReceiveEventParams}
    {connector : Option Connector} {store : Store} {error : Failure}
    (hpair : params.connectorId = sourceConnectorRef ∧
      WebhooksService.getIdempotencyKey params.headers = some idempotencyKey)
    (hexec : (platform env).exec (.webhookEventCreate
      (WebhooksService.receivedEvent params connector)) store = .error error) :
    store.HasKey sourceConnectorRef idempotencyKey := by
  obtain ⟨rfl, hkey⟩ := hpair
  have hviolates : violatesUnique
      (WebhooksService.receivedEvent params connector)
      store.webhookEvents = true := by
    by_contra hunique
    simp only [platform, exec, if_neg hunique] at hexec
    cases hexec
  simp only [violatesUnique, Bool.and_eq_true, List.any_eq_true] at hviolates
  obtain ⟨-, row, hrow, hsame⟩ := hviolates
  refine ⟨row.id, row, hrow, ?_, rfl⟩
  simpa [WebhookEvent.keyed, WebhooksService.receivedEvent, hkey] using hsame

/-- While the deliveries take turns, none of them fails: the key it inserts is
free, and other failures are left out. -/
theorem not_carries_of_raised {index : Nat}
    {task : Task Op.Res Failure Answer Call} {op : Op}
    {next : Except Failure op.Res → Body Answer} {error : Failure}
    (hnone : ¬ init.HasKey sourceConnectorRef idempotencyKey)
    (hreach : (platform env).Reach
      (TakesTurns env sourceConnectorRef idempotencyKey) init.boot pool)
    (hcause : TakesTurns env sourceConnectorRef idempotencyKey pool (.run index) ∧
        (platform env).exec op pool.store = .error error ∨
      TakesTurns env sourceConnectorRef idempotencyKey pool
        (.fail index error) ∧ (platform env).fallible op = true)
    (hraised : System.Raised pool pool' index task op next error)
    (hguard : (answering sourceConnectorRef idempotencyKey).guard task.call
      ((answering sourceConnectorRef idempotencyKey).state task) op) :
    task.call.carries sourceConnectorRef idempotencyKey = false := by
  have hmem := List.mem_of_getElem? hraised.at_index
  by_contra hcarries
  rw [Bool.not_eq_false] at hcarries
  rcases hcause with ⟨hok, hexec⟩ | ⟨hok, -⟩
  · by_cases hcreate : ∃ data, op = .webhookEventCreate data
    · -- The call is between its lookup and its insertion.
      obtain ⟨data, rfl⟩ := hcreate
      obtain ⟨params, connector, hcall, rfl⟩ := hguard
      have hpair := hcarries
      rw [hcall, carries_receiveEvent] at hpair
      have hacts : (keyCheck sourceConnectorRef idempotencyKey).acts task.call
          (.webhookEventCreate
            (WebhooksService.receivedEvent params connector)) = some () :=
        acts_create_iff.mpr hpair
      refine not_hasKey_of_inWindow hnone hreach hmem
        (CheckThenAct.inWindow_of_acts (keyCheck_accepts hreach task hmem)
          hraised.awaits hacts) ?_
      exact hasKey_of_violates hpair hexec
    · refine hok.1 ?_
      obtain ⟨call, trace, prog⟩ := task
      obtain rfl := hraised.awaits
      simp only [OtherFailure, hraised.at_index]
      refine ⟨hcarries, ?_, ?_⟩
      · cases op with
        | webhookEventCreate data => exact absurd ⟨data, rfl⟩ hcreate
        | _ => rfl
      · have hexec : exec env op pool.store = .error error := hexec
        rw [hexec]
        rfl
  · exact hok.1 ⟨task, hraised.at_index, hcarries⟩

theorem takesTurns_rely (hnone : ¬ init.HasKey sourceConnectorRef idempotencyKey) :
    Monitor.Rely (answering sourceConnectorRef idempotencyKey) (platform env)
      (TakesTurns env sourceConnectorRef idempotencyKey) init.boot
      (fun call => call.carries sourceConnectorRef idempotencyKey = true →
        call.fits env = true) (fun _ => True)
      (Remembers sourceConnectorRef idempotencyKey)
      (Answers sourceConnectorRef idempotencyKey) where
  body call hfits := body_answers hfits
  start pool call _ _ hok _ := by
    refine ⟨fun hcarries => ?_, remembers_spawn⟩
    by_contra hlarge
    exact hok.1 ⟨hcarries, by simpa using hlarge⟩
  done := by
    intro pool pool' index task op next value _ hold _ hdone hguard
    have hknows := hold.knows task (List.mem_of_getElem? hdone.at_index)
    refine ⟨?_, trivial, hknows.done hdone hguard,
      fun _ _ _ _ hother => hother.exec (exec_of_done hdone)⟩
    cases op with
    | webhookEventFindUnique id =>
        rintro row hcreated rfl
        obtain ⟨stored, hmem, hid⟩ := hknows.stored row hcreated
        obtain rfl := exec_webhookEventFindUnique (exec_of_done hdone)
        exact List.find?_isSome.mpr ⟨stored, hmem, by simp [hid]⟩
    | _ => trivial
  raised := by
    intro pool pool' index task op next error hreach hold hcause hraised hguard
    have hmem := List.mem_of_getElem? hraised.at_index
    have hknows := hold.knows task hmem
    exact ⟨not_carries_of_raised hnone hreach hcause hraised hguard,
      hknows.stored, hknows.created, hknows.found, hknows.acted⟩
  event := by
    intro pool pool' event calls _ hold _ henv
    obtain ⟨clock, jobs, hstore⟩ := Event.apply_store henv
    rw [hstore]
    refine ⟨trivial, fun task htask => ?_, fun call hcall => ⟨?_, remembers_spawn⟩⟩
    · have hknows := hold.knows task htask
      exact ⟨hknows.stored, hknows.created, hknows.found, hknows.acted⟩
    · intro hcarries
      rcases Event.apply_cases henv with ⟨_, _, rfl⟩ | ⟨_, _, _, _, _, rfl⟩ |
        ⟨_, _, _, _, _, _, rfl⟩
      · cases hcall
      · obtain rfl := List.mem_singleton.mp hcall
        cases hcarries
      · cases hcall

theorem storedUnder_unique {store : Store} {first second : Id}
    (hunique : store.KeysUnique)
    (hfirst : store.StoredUnder sourceConnectorRef idempotencyKey first)
    (hsecond : store.StoredUnder sourceConnectorRef idempotencyKey second) :
    first = second := by
  obtain ⟨row, hrow, hkeyed, rfl⟩ := hfirst
  obtain ⟨row', hrow', hkeyed', rfl⟩ := hsecond
  have hone := hunique sourceConnectorRef idempotencyKey
  rw [List.countP_eq_length_filter] at hone
  have hmem := List.mem_filter.mpr ⟨hrow, hkeyed⟩
  have hmem' := List.mem_filter.mpr ⟨hrow', hkeyed'⟩
  generalize store.webhookEvents.filter _ = rows at hone hmem hmem'
  rcases rows with _ | ⟨only, _ | ⟨second, rest⟩⟩
  · cases hmem
  · rw [List.mem_singleton.mp hmem, List.mem_singleton.mp hmem']
  · simp at hone

theorem answered_of_ended {task : Task Op.Res Failure Answer Call}
    (hholds : (answering sourceConnectorRef idempotencyKey).Holds
      (fun call => call.carries sourceConnectorRef idempotencyKey = true →
        call.fits env = true) (fun _ => True)
      (Remembers sourceConnectorRef idempotencyKey)
      (Answers sourceConnectorRef idempotencyKey) pool)
    (htask : task ∈ pool.tasks)
    (hcarries : task.call.carries sourceConnectorRef idempotencyKey = true)
    (hended : task.prog.finished = true) : ∃ answer : WebhookAnswer,
      answerOf task = some (.webhook answer) ∧
      pool.store.StoredUnder sourceConnectorRef idempotencyKey
        answer.eventId ∧
      (answer.duplicate = false ↔
        (keyCheck sourceConnectorRef idempotencyKey).HasActed () task) := by
  have haccepts := hholds.accepts task htask
  have hknows := hholds.knows task htask
  cases hprog : task.prog with
  | call op next =>
      rw [hprog] at hended
      cases hended
  | throw failure =>
      rw [hprog] at haccepts
      obtain ⟨answer, row, hvalue, -⟩ := haccepts hcarries
      cases hvalue
  | ret value =>
      rw [hprog] at haccepts
      obtain ⟨answer, row, hvalue, hid, hrow⟩ := haccepts hcarries
      cases hvalue
      refine ⟨answer, by simp [answerOf, hprog], ?_, ?_⟩
      · rw [hid]
        rcases hrow with ⟨hcreated, -⟩ | ⟨-, hfound, -⟩
        · exact hknows.created hcarries row hcreated
        · exact hknows.found hcarries row hfound
      · rw [hknows.acted]
        rcases hrow with ⟨hcreated, hnew⟩ | ⟨hcreated, -, hagain⟩
        · simp [hcarries, hcreated, hnew]
        · simp [hcreated, hagain]

/-- While no two deliveries are between lookup and insertion together, one is
answered as new and every other one as a duplicate of it. -/
theorem redeliveries_answered (hinit : init.KeysUnique)
    (hnone : ¬ init.HasKey sourceConnectorRef idempotencyKey)
    (h : (platform env).Reach
      (TakesTurns env sourceConnectorRef idempotencyKey) init.boot pool) :
    AnsweredOnce sourceConnectorRef idempotencyKey pool := by
  have hholds := (takesTurns_rely hnone).holds rfl trivial h
  have hunique : pool.store.KeysUnique :=
    keysUnique_of_reachable hinit (h.mono fun _ _ _ => trivial)
  constructor
  · intro task htask hcarries failure hprog
    have haccepts := hholds.accepts task htask
    rw [hprog] at haccepts
    obtain ⟨answer, row, hvalue, -⟩ := haccepts hcarries
    cases hvalue
  · rintro ⟨some, hsome, hcarriesSome⟩ hended
    obtain ⟨_, -, hstored, -⟩ :=
      answered_of_ended hholds hsome hcarriesSome
        (hended some hsome hcarriesSome)
    obtain ⟨first, hfirst, hacted⟩ := acted_of_hasKey hnone h ⟨_, hstored⟩
    obtain ⟨hcarries, -⟩ := (hholds.knows first hfirst).acted.mp hacted
    obtain ⟨answer, hanswered, hunder, hnew⟩ :=
      answered_of_ended hholds hfirst hcarries (hended first hfirst hcarries)
    obtain ⟨index, hindex⟩ := List.mem_iff_getElem?.mp hfirst
    refine ⟨index, first, answer, hindex, hcarries, hanswered, hnew.mpr hacted, ?_⟩
    intro position other hne hposition hcarriesOther
    have hother := List.mem_of_getElem? hposition
    obtain ⟨again, hagain, hunder', hnew'⟩ :=
      answered_of_ended hholds hother hcarriesOther
        (hended other hother hcarriesOther)
    refine ⟨again, hagain, ?_, storedUnder_unique hunique hunder' hunder⟩
    by_contra hnot
    have hacted' := hnew'.mp (by simpa using hnot)
    exact hne ((keyCheck_actedOnce h).one position index other first hposition
      hindex hacted' hacted)

end Interleavings

/-! ## Two deliveries -/

def noOtherFailure (pool : Platform) (step : Step) : Bool :=
  match step with
  | .start begun => begun.fits (Sample.env .async)
  | .run index =>
      match pool.tasks[index]? with
      | some ⟨_, _, .call op _⟩ =>
          op.createsEvent || (exec (Sample.env .async) op pool.store).isOk
      | _ => true
  | .fail _ _ => false
  | .env _ => true

theorem not_otherFailure {pool : Platform} {step : Step}
    {sourceConnectorRef : Id} {idempotencyKey : String}
    (h : noOtherFailure pool step = true) :
    ¬ OtherFailure (Sample.env .async) sourceConnectorRef idempotencyKey pool
      step := by
  intro hother
  cases step with
  | start begun =>
      rw [noOtherFailure, hother.2] at h
      cases h
  | run index =>
      simp only [OtherFailure] at hother
      split at hother
      · rename_i hget
        simp only [noOtherFailure, hget, hother.2.1, hother.2.2] at h
        cases h
      · exact hother
  | fail index error => cases h
  | env event => exact hother

/-- The second delivery comes after the first. -/
theorem redeliveries_answered_of_two :
    ∃ pool, (platform (Sample.env .async)).runWhere
        (fun pool step => (pool.alone step && noOtherFailure pool step) = true)
        Sample.store.boot
        ([.start (.receiveEvent Sample.delivery)] ++ List.replicate 8 (.run 0) ++
          [.start (.receiveEvent Sample.delivery), .run 1, .run 1]) =
            some pool ∧
      (pool.tasks.all fun task => task.prog.finished) = true ∧
      AnsweredOnce 2 "evt-1" pool := by
  have hruns : ((platform (Sample.env .async)).runWhere
      (fun pool step => (pool.alone step && noOtherFailure pool step) = true)
      Sample.store.boot
      ([.start (.receiveEvent Sample.delivery)] ++ List.replicate 8 (.run 0) ++
        [.start (.receiveEvent Sample.delivery), .run 1, .run 1])).any
          (fun pool => pool.tasks.all fun task => task.prog.finished) = true := by
    decide +kernel
  obtain ⟨pool, hrun, hended⟩ := (Option.any_eq_true _ _).mp hruns
  refine ⟨pool, hrun, hended, redeliveries_answered ?_ ?_
    ((System.reach_of_runWhere hrun).mono fun pool step h => ?_)⟩
  · intro sourceConnectorRef idempotencyKey
    simp [Sample.store]
  · rintro ⟨id, row, hrow, -⟩
    cases hrow
  · obtain ⟨halone, hfails⟩ := Bool.and_eq_true_iff.mp h
    exact ⟨not_otherFailure hfails, CheckThenAct.not_overlaps_of_alone halone⟩

def failsOnConstraint (pool : Platform) : Bool :=
  pool.tasks.any fun task =>
    task.call.carries 2 "evt-1" && match task.prog with
      | .throw failure => failure = uniqueViolation
      | _ => false

def lookTogether : List Step :=
  [.start (.receiveEvent Sample.delivery),
   .start (.receiveEvent Sample.delivery),
   .run 0, .run 1, .run 0, .run 1, .run 0, .run 1]

theorem redeliveries_answered_fails :
    ∃ pool, (platform (Sample.env .async)).Reach
        (fun pool step => ¬ OtherFailure (Sample.env .async) 2 "evt-1" pool step)
        Sample.store.boot pool ∧
      ¬ AnsweredOnce 2 "evt-1" pool := by
  have hruns : ((platform (Sample.env .async)).runWhere
      (fun pool step => noOtherFailure pool step = true) Sample.store.boot
      lookTogether).any failsOnConstraint = true := by
    decide +kernel
  obtain ⟨pool, hrun, hfails⟩ := (Option.any_eq_true _ _).mp hruns
  refine ⟨pool, (System.reach_of_runWhere hrun).mono fun _ _ => not_otherFailure,
    fun hanswered => ?_⟩
  obtain ⟨task, htask, hthrows⟩ := List.any_eq_true.mp hfails
  obtain ⟨hcarries, hthrows⟩ := Bool.and_eq_true_iff.mp hthrows
  split at hthrows
  · rename_i failure hprog
    exact hanswered.none_fails task htask hcarries failure hprog
  · cases hthrows

end SyncBridge
