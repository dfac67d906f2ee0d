import SyncBridge.Access.WebhookData
import SyncBridge.Foundation.Rely
import SyncBridge.Intake.Duplicates

/-!
# Events that have been finalized

`processEvent` and `retryEvent` look at the status of an event and write it
later, and a delivery never looks at it.  An event stays as it was finalized as
long as nobody who has read it before is still going to write for it.
-/

namespace SyncBridge

open SyncBridge.Foundation SyncBridge.Foundation.Prog

def WebhookEventStatus.isFinalized : WebhookEventStatus → Bool
  | .processed | .ignored => true
  | .received | .failed => false

def Store.eventStatus (store : Store) (eventId : Id) :
    Option WebhookEventStatus :=
  (Table.find WebhookEvent.id eventId store.webhookEvents).map
    WebhookEvent.status

def Store.finalized (store : Store) (eventId : Id) : Bool :=
  (store.eventStatus eventId).any WebhookEventStatus.isFinalized

def Call.delivers (eventId : Id) : Call → Bool
  | .processJob _ _ (.processWebhookEvent payload) _ =>
      payload.webhookEventId = eventId
  | _ => false

def Op.touches (eventId : Id) : Op → Bool
  | .webhookEventUpdate id _ => id = eventId
  | .syncRunCreate data => data.triggerType = .webhook
  | .syncedRecordCreate data => data.sourceType = "WEBHOOK"
  | _ => false

def Op.movesJob : Op → Bool
  | .moveToCompleted _ _ => true
  | .moveToFailed _ _ => true
  | _ => false

/-! ## The monitor of the handling -/

/-- Which event the call has read last, whether it has read the event as one to
be handled, and whether it has written the outcome of its handling. -/
structure Handling where
  reading : Option Id := none
  passed : Bool := false
  settled : Bool := false

namespace Handling

def note (eventId : Id) (call : Call) (state : Handling) :
    (op : Op) → op.Res → Handling
  | .webhookEventFindUnique id, found => { state with
      reading := found.map WebhookEvent.id
      passed := state.passed ||
        (call.delivers eventId && id = eventId && found.isSome) }
  | .webhookEventFindUniqueWithConnector id, found => { state with
      passed := state.passed ||
        (id = eventId && found.any fun row => !row.1.status.isFinalized) }
  -- A client writes the status once; a delivery may write `FAILED` again.
  | .webhookEventUpdate id data, _ => { state with
      settled := state.settled ||
        (id = eventId && (data.status.isFinalized || !call.delivers eventId)) }
  | _, _ => state

def Ready (state : Handling) : Prop :=
  state.passed = true ∧ state.settled = false

def Delivered (eventId : Id) (call : Call) (state : Handling) : Prop :=
  call.delivers eventId = true ∧ state.settled = true

end Handling

/-- Who writes for the event has read it and has not settled it, and a delivery
that has settled it does not fail any more. -/
def handling (eventId : Id) : Monitor Op.Res Call Handling where
  init _ := {}
  note := Handling.note eventId
  guard _ state
    | .webhookEventCreate data => data.status = .received
    | .webhookEventUpdate id _ => id = eventId → state.Ready
    | .syncRunCreate data => data.triggerType = .webhook →
        state.reading = some eventId → state.Ready
    | .syncedRecordCreate data => data.sourceType = "WEBHOOK" →
        state.reading = some eventId → state.Ready
    | _ => True
  facts _ _
    | .webhookEventFindUnique id, found =>
        ∀ row, found = some row → row.id = id
    | .webhookEventFindUniqueWithConnector id, found =>
        ∀ row, found = some row → row.1.id = id
    | _, _ => True
  fails call state op :=
    state.Delivered eventId call → op.movesJob = true

def Op.passesBy : Op → Bool
  | .webhookEventFindUnique _ => false
  | .webhookEventFindUniqueWithConnector _ => false
  | .webhookEventCreate _ => false
  | .webhookEventUpdate _ _ => false
  | .syncRunCreate _ => false
  | .syncedRecordCreate _ => false
  | .moveToCompleted _ _ => false
  | .moveToFailed _ _ => false
  | _ => true

section Walk

variable {env : Env} {eventId id : Id} {call : Call} {state : Handling}
  {actor : AuditActor}

theorem handling_silent {op : Op} (hop : op.passesBy = true) :
    (handling eventId).Silent call state op := by
  cases op with
  | webhookEventFindUnique _ | webhookEventFindUniqueWithConnector _
  | webhookEventCreate _ | webhookEventUpdate _ _ | syncRunCreate _
  | syncedRecordCreate _ | moveToCompleted _ _ | moveToFailed _ _ => cases hop
  | _ => exact ⟨trivial, fun _ => rfl⟩

structure Handling.Open (eventId id : Id) (state : Handling) : Prop where
  reading : ∀ other, state.reading = some other → other = id
  ready : id = eventId → state.Ready

def Handling.Live (eventId id : Id) (call : Call) (state : Handling) : Prop :=
  ¬ state.Delivered eventId call → state.Open eventId id

def Within (eventId id : Id) (call : Call) {α : Type} (state : Handling) :
    Except Failure α → Prop
  | .ok _ => state.Live eventId id call
  | .error _ => state.Open eventId id

theorem aftermath_within {α : Type} {body : Body α}
    (hlive : state.Live eventId id call) (hthrows : body.NeverThrows)
    (huses : body.Uses fun op => op.passesBy = true) :
    (handling eventId).Accepts call (Within eventId id call) body state := by
  refine (Monitor.accepts_raising (R := ¬ state.Delivered eventId call) hthrows
    (huses.mono fun op hop =>
      ⟨handling_silent hop, fun hfails hdelivered => ?_⟩)).mono ?_
  · have hmoves := hfails hdelivered
    cases op with
    | moveToCompleted _ _ | moveToFailed _ _ => cases hop
    | _ => cases hmoves
  · rintro _ (failure | value) ⟨rfl, hraised⟩
    · rcases hraised with hfree | ⟨value, hvalue⟩
      · exact hlive hfree
      · cases hvalue
    · exact hlive

theorem log_passesBy {action entityType entityId : String} {metadata : Record} :
    (AuditService.log action entityType entityId metadata actor).Uses
      fun op => op.passesBy = true := (uses_await _).mpr rfl

theorem open_bind {α β : Type} {body : Body α} {rest : α → Body β}
    (hopen : state.Open eventId id)
    (huses : body.Uses ((handling eventId).Silent call state))
    (hrest : ∀ value, (handling eventId).Accepts call (Within eventId id call)
      (rest value) state) :
    (handling eventId).Accepts call (Within eventId id call) (body.bind rest)
      state :=
  Monitor.accepts_silent_bind huses hrest fun _ => hopen

theorem finishEvent_within {α : Type} {status : WebhookEventStatus}
    {errorMessage : Option String} {rest : WebhookEvent → Body α}
    (hcall : call.delivers eventId = decide (id = eventId))
    (hopen : state.Open eventId id)
    (hthrows : ∀ updated, (rest updated).NeverThrows)
    (huses : ∀ updated, (rest updated).Uses fun op => op.passesBy = true) :
    (handling eventId).Accepts call (Within eventId id call)
      ((WebhooksService.finishEvent id status errorMessage).bind rest)
      state := by
  simp only [WebhooksService.finishEvent, bind_eq, Prog.bind_assoc]
  refine open_bind hopen ((uses_await _).mpr (handling_silent rfl))
    fun processedAt => ?_
  refine Monitor.accepts_await_bind.mpr
    ⟨hopen.ready, fun updated _ => ?_, fun _ _ => hopen⟩
  refine aftermath_within ?_ (hthrows updated) (huses updated)
  intro hfree
  refine ⟨hopen.reading, fun hid => ⟨(hopen.ready hid).1, ?_⟩⟩
  by_contra hsettled
  refine hfree ⟨by simp [hcall, hid], ?_⟩
  simpa using hsettled

theorem processForPipelines_within {event : WebhookEvent}
    {connector : Connector} {pipelines : List SyncPipeline}
    (hcall : call.delivers eventId = decide (event.id = eventId))
    (hopen : state.Open eventId event.id) :
    (handling eventId).Accepts call (Within eventId event.id call)
      (WebhooksService.processForPipelines env event connector pipelines actor)
      state := by
  have hpipelines : (pipelines.foldlM
      (WebhooksService.processPipeline env event actor) {}).Uses
        ((handling eventId).Silent call state) := by
    refine Uses.foldlM (fun totals pipeline _ =>
      processPipeline_uses.mono fun op hop => ?_) {}
    have hready : state.reading = some eventId → state.Ready :=
      fun hreading => hopen.ready (hopen.reading _ hreading).symm
    cases op with
    | now | transform _ _ | auditLogCreate _ | syncRunUpdate _ _
    | pipelineUpdate _ _ => exact handling_silent rfl
    | syncRunCreate data => exact ⟨fun _ => hready, fun _ => rfl⟩
    | syncedRecordCreate data => exact ⟨fun _ => hready, fun _ => rfl⟩
    | _ => cases hop
  refine open_bind hopen hpipelines fun totals => ?_
  exact finishEvent_within hcall hopen
    (fun _ => (neverThrows_await _).bind fun _ => trivial)
    fun _ => log_passesBy.bind fun _ => trivial

theorem processWebhookEventNow_within
    (hcall : call.delivers eventId = decide (id = eventId))
    (hopen : state.Open eventId id) :
    (handling eventId).Accepts call (Within eventId id call)
      (WebhooksService.processWebhookEventNow env id actor) state := by
  simp only [WebhooksService.processWebhookEventNow, bind_eq]
  refine Monitor.accepts_await_bind.mpr
    ⟨trivial, fun found hfound => ?_, fun _ _ => hopen⟩
  have hread : ((handling eventId).note call state
      (.webhookEventFindUnique id) found).Open eventId id := by
    refine ⟨fun other hother => ?_, fun hid => ?_⟩
    · obtain ⟨row, hrow, rfl⟩ := Option.map_eq_some_iff.mp hother
      exact hfound row hrow
    · have hready := hopen.ready hid
      exact ⟨by simp [handling, Handling.note, hready.1], hready.2⟩
  generalize (handling eventId).note call state
    (.webhookEventFindUnique id) found = state at hread
  cases found with
  | none => exact hread
  | some event =>
      obtain rfl : event.id = id := hfound event rfl
      have hconnector : (WebhooksService.findEventConnector event).Uses
          ((handling eventId).Silent call state) := by
        simp only [WebhooksService.findEventConnector]
        split
        · exact (uses_await _).mpr (handling_silent rfl)
        · trivial
      simp only [orNotFound, ret_bind]
      refine open_bind hread hconnector fun connector => ?_
      cases connector with
      | none =>
          exact finishEvent_within hcall hread
            (fun _ => (neverThrows_await _).bind fun _ => trivial)
            fun _ => log_passesBy.bind fun _ => trivial
      | some connector =>
          refine open_bind hread ((uses_await _).mpr (handling_silent rfl))
            fun pipelines => ?_
          split
          · exact finishEvent_within hcall hread
              (fun _ => (neverThrows_await _).bind fun _ => trivial)
              fun _ => log_passesBy.bind fun _ => trivial
          · exact processForPipelines_within hcall hread

theorem processQueuedWebhookEvent_handles
    {payload : ProcessWebhookEventJobPayload} {attempts : Nat}
    (hcall : call.delivers eventId =
      decide (payload.webhookEventId = eventId)) :
    (handling eventId).Accepts call (fun _ _ => True)
      (WebhooksService.processQueuedWebhookEvent env payload attempts) {} := by
  have hsilent : ∀ {state : Handling} {α β : Type} {body : Body α}
      {rest : α → Body β}, body.Uses (fun op => op.passesBy = true) →
      (∀ value, (handling eventId).Accepts call (fun _ _ => True) (rest value)
        state) →
      (handling eventId).Accepts call (fun _ _ => True) (body.bind rest)
        state :=
    fun huses hrest => Monitor.accepts_silent_bind
      (huses.mono fun _ hop => handling_silent hop) hrest fun _ => trivial
  simp only [WebhooksService.processQueuedWebhookEvent, bind_eq]
  refine hsilent ((uses_await _).mpr rfl) fun found => ?_
  refine hsilent ?_ fun backgroundJob => ?_
  · cases found <;> trivial
  refine Monitor.accepts_await_bind.mpr
    ⟨trivial, fun found hfound => ?_, fun _ _ => trivial⟩
  cases found with
  | none => trivial
  | some event =>
      have hid : event.id = payload.webhookEventId := hfound event rfl
      simp only [orNotFound, ret_bind]
      -- The first read: from here on the call may write for its event.
      have hopen : ((handling eventId).note call {} (.webhookEventFindUnique
          payload.webhookEventId) (some event)).Open eventId event.id := by
        refine ⟨fun other hother => (Option.some.inj hother).symm,
          fun heq => ?_⟩
        rw [hid] at heq
        exact ⟨by simp [handling, Handling.note, hcall, heq], rfl⟩
      generalize (handling eventId).note call {} (.webhookEventFindUnique
        payload.webhookEventId) (some event) = state at hopen
      rw [← hid] at hcall
      refine hsilent ((uses_await _).mpr rfl) fun startedAt => ?_
      refine hsilent ((uses_await _).mpr rfl) fun _ => ?_
      refine hsilent log_passesBy fun _ => hsilent log_passesBy fun _ => ?_
      refine Monitor.accepts_tryCatch.mpr (Monitor.Accepts.mono
        (Q := Within eventId event.id call) ?_ ?_)
      · rintro state (failure | _) hwithin
        · -- The `catch` block.
          refine hsilent ((uses_await _).mpr rfl) fun finishedAt => ?_
          refine Monitor.accepts_await_bind.mpr
            ⟨hwithin.ready, fun updated _ => ?_, fun _ _ => trivial⟩
          refine hsilent ((uses_await _).mpr rfl) fun _ => ?_
          exact hsilent log_passesBy fun _ =>
            hsilent log_passesBy fun _ => trivial
        · trivial
      · refine Monitor.accepts_bind.mpr
          ((processWebhookEventNow_within hcall hopen).mono ?_)
        rintro state (failure | summary) hwithin
        · exact hwithin
        · refine aftermath_within hwithin ?_ ?_
          · exact (neverThrows_await _).bind fun _ =>
              (neverThrows_await _).bind fun _ => neverThrows_await _
          · exact Uses.await rfl fun _ => Uses.await rfl fun _ => log_passesBy

theorem deliverJob_handles {jobId : Id} {token : Nat} {attempts : Nat}
    {payload : ProcessWebhookEventJobPayload}
    (hcall : call.delivers eventId =
      decide (payload.webhookEventId = eventId)) :
    (handling eventId).Accepts call (fun _ _ => True)
      (deliverJob env jobId token (.processWebhookEvent payload) attempts)
      {} := by
  refine Monitor.accepts_bind.mpr (Monitor.accepts_attempt.mpr
    ((processQueuedWebhookEvent_handles hcall).mono fun state result _ => ?_))
  cases result with
  | ok _ => exact ⟨trivial, fun _ _ => trivial, fun _ _ => trivial⟩
  | error failure => exact ⟨trivial, fun _ _ => trivial, fun _ _ => trivial⟩

/-! ### Clients -/

abbrev Admitted (eventId : Id) (call : Call) {α : Type} (body : Body α) :
    Prop :=
  (handling eventId).Keeps call (fun _ => True) body

theorem admitted_await {op : Op}
    (hop : ∀ state, (handling eventId).guard call state op) :
    Admitted eventId call (await op) :=
  .of_uses ((uses_await op).mpr fun state _ => ⟨hop state, fun _ => trivial⟩)

theorem admitted_quiet : Quiet (Admitted eventId call) where
  toCompositional := Monitor.compositional_keeps _ _ _
  op op hop := by
    refine admitted_await fun state => ?_
    cases op <;> trivial

theorem queueProcessing_admitted {connectorId : Id}
    {status : WebhookEventStatus} {metadata : Record}
    {action message : String} :
    Admitted eventId call (WebhooksService.queueProcessing env id connectorId
      status metadata action message actor) :=
  queueProcessing_rule admitted_quiet
    (fun _ _ => admitted_await fun _ => trivial)
    fun _ _ => admitted_await fun _ => trivial

theorem queueOrProcessEvent_handles {user : AuthenticatedUser} {isRetry : Bool}
    (hasync : env.queueMode = .async) (hready : id = eventId → state.Ready) :
    (handling eventId).Accepts call (fun _ _ => True)
      (WebhooksService.queueOrProcessEvent env id user isRetry) state := by
  refine Monitor.accepts_await_bind.mpr
    ⟨hready, fun updated _ => ?_, fun _ _ => trivial⟩
  have hmode : JobsService.isAsyncMode env = true := by
    simp [JobsService.isAsyncMode, hasync]
  rw [if_pos hmode]
  refine Monitor.Keeps.accepts (I := fun _ => True) ?_ _ trivial
  refine admitted_quiet.await rfl fun found => ?_
  exact admitted_quiet.bind (orNotFound_rule admitted_quiet) fun event =>
    queueProcessing_admitted

theorem getAccessibleEvent_handles {α : Type} {user : AuthenticatedUser}
    {rest : WebhookEvent → Body α}
    (hrest : ∀ event state, (event.id = eventId →
        event.status.isFinalized = false → state.Ready) →
      (handling eventId).Accepts call (fun _ _ => True) (rest event) state) :
    (handling eventId).Accepts call (fun _ _ => True)
      ((WebhooksService.getAccessibleEvent id user).bind rest) {} := by
  simp only [WebhooksService.getAccessibleEvent, bind_eq, Prog.bind_assoc]
  refine Monitor.accepts_await_bind.mpr
    ⟨trivial, fun found hfound => ?_, fun _ _ => trivial⟩
  cases found with
  | none => trivial
  | some found =>
      obtain ⟨event, connector⟩ := found
      have hid : event.id = id := hfound _ rfl
      simp only [orNotFound, ret_bind]
      split
      · trivial
      · refine hrest event _ fun heq hopen => ⟨?_, rfl⟩
        simp [handling, Handling.note, ← hid, heq, hopen]

end Walk

theorem body_handles {env : Env} (hasync : env.queueMode = .async)
    (eventId : Id) (call : Call) :
    (handling eventId).Accepts call (fun _ _ => True) (call.body env) {} := by
  have hbind : ∀ {α : Type} {body : Body α} {answer : α → Answer},
      (handling eventId).Accepts call (fun _ _ => True) body {} →
      (handling eventId).Accepts call (fun _ _ => True)
        (body.bind fun value => .ret (answer value)) {} := by
    refine fun haccepts => Monitor.accepts_bind.mpr (haccepts.mono ?_)
    rintro state (failure | value) - <;> trivial
  cases hprocesses : call.processesEvents with
  | false =>
      refine Monitor.Keeps.accepts (I := fun _ => True) ?_ _ trivial
      refine .of_uses ((body_uses call).mono fun op hop state _ =>
        ⟨?_, fun _ => trivial⟩)
      cases op with
      | webhookEventCreate data =>
          obtain ⟨params, rfl⟩ := hop
          cases hprocesses
      | webhookEventUpdate id data =>
          rw [Call.mayAttempt, hprocesses] at hop
          cases hop
      | syncRunCreate data =>
          intro hwebhook
          rw [hop.2 hwebhook] at hprocesses
          cases hprocesses
      | syncedRecordCreate data =>
          intro hwebhook
          rw [hop hwebhook] at hprocesses
          cases hprocesses
      | _ => trivial
  | true =>
      cases call with
      | receiveEvent params =>
          refine hbind (Monitor.Keeps.accepts (I := fun _ => True) ?_ _ trivial)
          refine receiveEvent_rule admitted_quiet ?_ ?_ ?_ ?_ ?_
          · exact fun hsync => absurd hasync hsync
          · exact fun _ _ => admitted_await fun _ => trivial
          · exact fun _ _ => admitted_await fun _ => trivial
          · exact fun _ _ => admitted_await fun _ => trivial
          · exact fun _ => admitted_await fun _ => rfl
      | retryEvent id user =>
          refine hbind (getAccessibleEvent_handles fun event state hready => ?_)
          split
          · trivial
          · rename_i hfailed
            refine queueOrProcessEvent_handles hasync fun hid => hready hid ?_
            rw [not_not.mp hfailed]
            rfl
      | processEvent id user =>
          refine hbind (getAccessibleEvent_handles fun event state hready => ?_)
          split
          · trivial
          · rename_i hopen
            refine queueOrProcessEvent_handles hasync fun hid => hready hid ?_
            cases hstatus : event.status with
            | received | failed => rfl
            | processed | ignored => simp [hstatus] at hopen
      | processJob jobId token payload attempts =>
          cases payload with
          | processWebhookEvent payload =>
              exact hbind (deliverJob_handles rfl)
          | executeSyncRun payload => cases hprocesses
      | _ => cases hprocesses

/-! ## What was stored for an event -/

def storesFor (eventId : Id) (entry : Σ op, Op.Res op)
    (older : List (Σ op, Op.Res op)) : Bool :=
  (lastEvent older).map WebhookEvent.id = some eventId &&
    match entry.1 with
    | .syncRunCreate data => data.triggerType = .webhook
    | .syncedRecordCreate data => data.sourceType = "WEBHOOK"
    | _ => false

def storedFor (eventId : Id) :
    List (Σ op, Op.Res op) → List (Σ op, Op.Res op)
  | [] => []
  | entry :: older =>
      if storesFor eventId entry older then entry :: storedFor eventId older
      else storedFor eventId older

def rowsFor (eventId : Id) (pool : Platform) : List (Σ op, Op.Res op) :=
  pool.tasks.flatMap fun task => storedFor eventId task.trace

theorem reading_after (eventId : Id) (call : Call)
    (trace : List (Σ op, Op.Res op)) :
    ((handling eventId).after call trace).reading =
      (lastEvent trace).map WebhookEvent.id := by
  induction trace with
  | nil => rfl
  | cons entry trace ih =>
      obtain ⟨op, value⟩ := entry
      cases op <;> first | rfl | exact ih

/-! ## Interleavings -/

section Interleavings

variable (env : Env) (eventId : Id)

/-- The call has read the event as one to be handled, has not settled it, and
there are answers on which it writes for it. -/
structure MayTouch (task : Task Op.Res Failure Answer Call) : Prop where
  ready : ((handling eventId).state task).Ready
  touches : ¬ task.prog.Uses fun op => op.touches eventId = false

/-- The step finalizes the event while another call may still write for it. -/
def Overtakes (pool : Platform) : Step → Prop
  | .run index => ∃ task data next, pool.tasks[index]? = some task ∧
      task.prog = .call (.webhookEventUpdate eventId data) next ∧
      data.status.isFinalized = true ∧
      ∃ other ∈ pool.tasks.eraseIdx index, MayTouch eventId other
  | _ => False

/-- A delivery reads the event although it is finalized. -/
def ReadsFinalized (pool : Platform) : Step → Prop
  | .run index => ∃ task next, pool.tasks[index]? = some task ∧
      task.prog = .call (.webhookEventFindUnique eventId) next ∧
      task.call.delivers eventId = true ∧
      pool.store.finalized eventId = true
  | _ => False

/-- An operation fails of a delivery that has finalized the event, other than
the settling of its job. -/
def FailsDelivered (pool : Platform) (step : Step) : Prop :=
  ∃ index task op next, pool.tasks[index]? = some task ∧
    task.prog = .call op next ∧ op.movesJob = false ∧
    ((handling eventId).state task).Delivered eventId task.call ∧
    ((∃ failure, step = .fail index failure) ∨
      step = .run index ∧ (exec env op pool.store).isOk = false)

/-- No step overtakes a call that works on the event, hands it out again or
fails after it has been finalized. -/
structure Undisturbing (pool : Platform) (step : Step) : Prop where
  overtakes : ¬ Overtakes eventId pool step
  readsFinalized : ¬ ReadsFinalized eventId pool step
  failsDelivered : ¬ FailsDelivered env eventId pool step

/-- The status of the event and what is stored for it are the same. -/
structure StaysFinal (pool later : Platform) : Prop where
  status : later.store.eventStatus eventId = pool.store.eventStatus eventId
  rows : rowsFor eventId later = rowsFor eventId pool

variable {env eventId} {init : Store} {pool pool' : Platform}

section Steps

variable {op : Op} {store : Store}

theorem eventStatus_update {id : Id} {data : WebhookEventData} :
    ((Op.webhookEventUpdate id data).effect store).eventStatus eventId =
      if id = eventId then (store.eventStatus eventId).map fun _ => data.status
      else store.eventStatus eventId := by
  simp only [Store.eventStatus, Op.effect,
    Table.find_modify fun _ => id_apply _ _]
  cases hfound : Table.find WebhookEvent.id eventId store.webhookEvents with
  | none => simp
  | some row =>
      have hid : row.id = eventId := Table.find_key hfound
      by_cases hsame : id = eventId
      · simp [hid, hsame, WebhookEventData.apply]
      · simp [hid, hsame, Ne.symm hsame]

theorem eventStatus_effect {status : WebhookEventStatus}
    (h : store.eventStatus eventId = some status)
    (hop : ∀ data, op ≠ .webhookEventUpdate eventId data) :
    (op.effect store).eventStatus eventId = some status := by
  cases hwrites : op.writesWebhookEvents with
  | false => rwa [Store.eventStatus, effect_webhookEvents hwrites]
  | true =>
      cases op with
      | webhookEventCreate data =>
          obtain ⟨row, hrow, rfl⟩ := Option.map_eq_some_iff.mp h
          exact congrArg (Option.map WebhookEvent.status)
            (Table.find_append hrow)
      | webhookEventUpdate id data =>
          rw [eventStatus_update, if_neg]
          · exact h
          · rintro rfl
            exact hop data rfl
      | _ => cases hwrites

theorem finalized_of_effect
    (hcreate : ∀ data, op = .webhookEventCreate data → data.status = .received)
    (h : (op.effect store).finalized eventId = true) :
    (∃ data, op = .webhookEventUpdate eventId data ∧
      data.status.isFinalized = true) ∨
    store.finalized eventId = true ∧
      ∀ data, op ≠ .webhookEventUpdate eventId data := by
  cases hwrites : op.writesWebhookEvents with
  | false =>
      rw [Store.finalized, Store.eventStatus, effect_webhookEvents hwrites] at h
      refine .inr ⟨h, ?_⟩
      rintro data rfl
      cases hwrites
  | true =>
      cases op with
      | webhookEventCreate data =>
          refine .inr ⟨?_, fun _ => nofun⟩
          have hnew := hcreate data rfl
          simp only [Store.finalized, Store.eventStatus, Op.effect,
            Store.createWebhookEvent, Table.find, List.find?_append] at h ⊢
          cases hfound : store.webhookEvents.find? (·.id = eventId) with
          | some row => simpa [hfound] using h
          | none =>
              by_cases hid : store.nextId = eventId <;>
                simp [hfound, hid, hnew, WebhookEventStatus.isFinalized] at h
      | webhookEventUpdate id data =>
          rw [Store.finalized, eventStatus_update] at h
          split at h
          · rename_i hid
            subst hid
            cases hstatus : store.eventStatus id with
            | none => simp [hstatus] at h
            | some status =>
                rw [hstatus] at h
                exact .inl ⟨data, rfl, h⟩
          · rename_i hid
            refine .inr ⟨h, ?_⟩
            rintro other ⟨⟩
            exact hid rfl
      | _ => cases hwrites

end Steps

def Respects (eventId : Id) (store : Store)
    (task : Task Op.Res Failure Answer Call) : Prop :=
  MayTouch eventId task → store.finalized eventId = false

/-- A call that may write after a step could before, unless the step is the read
that lets it. -/
theorem MayTouch.before {index : Nat} {task : Task Op.Res Failure Answer Call}
    {op : Op} {next : Except Failure op.Res → Body Answer} {value : op.Res}
    (hdone : (platform env).Done pool pool' index task op next value)
    (h : MayTouch eventId
      ⟨task.call, ⟨op, value⟩ :: task.trace, next (.ok value)⟩) :
    MayTouch eventId task ∨
      ((handling eventId).state task).passed = false ∧
        ((handling eventId).note task.call ((handling eventId).state task) op
          value).passed = true := by
  have hready : ((handling eventId).note task.call
      ((handling eventId).state task) op value).Ready := h.ready
  have htouches : ¬ task.prog.Uses fun op => op.touches eventId = false := by
    rw [hdone.awaits]
    exact fun huses => h.touches (huses.2 _)
  have hunsettled : ((handling eventId).state task).settled = false := by
    by_contra hsettled
    have hstays : ∀ (state : Handling), state.settled = true →
        ((handling eventId).note task.call state op value).settled = true := by
      intro state hstate
      cases op with
      | webhookEventUpdate id data =>
          simp [handling, Handling.note, hstate]
      | _ => exact hstate
    have hafter := hstays _ (by simpa using hsettled)
    rw [hready.2] at hafter
    cases hafter
  cases hpassed : ((handling eventId).state task).passed with
  | true => exact .inl ⟨⟨hpassed, hunsettled⟩, htouches⟩
  | false => exact .inr ⟨rfl, hready.1⟩

theorem open_of_passed {index : Nat} {task : Task Op.Res Failure Answer Call}
    {op : Op} {next : Except Failure op.Res → Body Answer} {value : op.Res}
    (hdone : (platform env).Done pool pool' index task op next value)
    (hreads : ¬ ReadsFinalized eventId pool (.run index))
    (hbefore : ((handling eventId).state task).passed = false)
    (hafter : ((handling eventId).note task.call
      ((handling eventId).state task) op value).passed = true) :
    op.writesWebhookEvents = false ∧ pool.store.finalized eventId = false := by
  have hexec := exec_of_done hdone
  generalize (handling eventId).state task = state at hbefore hafter
  cases op with
  | webhookEventFindUnique id =>
      refine ⟨rfl, ?_⟩
      simp only [handling, Handling.note, hbefore, Bool.false_or,
        Bool.and_eq_true, decide_eq_true_eq] at hafter
      obtain ⟨⟨hdelivers, rfl⟩, -⟩ := hafter
      by_contra hfinal
      exact hreads ⟨task, next, hdone.at_index, hdone.awaits, hdelivers,
        by simpa using hfinal⟩
  | webhookEventFindUniqueWithConnector id =>
      refine ⟨rfl, ?_⟩
      have hfound : value = (Table.find WebhookEvent.id id
          pool.store.webhookEvents).map _ :=
        (congrArg Prod.fst (Except.ok.inj hexec)).symm
      simp only [handling, Handling.note, hbefore, Bool.false_or,
        Bool.and_eq_true, decide_eq_true_eq] at hafter
      obtain ⟨rfl, hopen⟩ := hafter
      rw [hfound] at hopen
      cases hrow : Table.find WebhookEvent.id id pool.store.webhookEvents with
      | none => simp [hrow] at hopen
      | some row =>
          simpa [Store.finalized, Store.eventStatus, hrow] using hopen
  | _ =>
      have hsame : state.passed = true := hafter
      rw [hbefore] at hsame
      cases hsame

theorem handling_facts {op : Op} {store store' : Store} {value : op.Res}
    {call : Call} {state : Handling}
    (hexec : exec env op store = .ok (value, store')) :
    (handling eventId).facts call state op value := by
  cases op with
  | webhookEventFindUnique id =>
      obtain rfl := exec_webhookEventFindUnique hexec
      exact fun row hrow => Table.find_key hrow
  | webhookEventFindUniqueWithConnector id =>
      obtain rfl := congrArg Prod.fst (Except.ok.inj hexec)
      intro row hrow
      obtain ⟨event, hevent, rfl⟩ := Option.map_eq_some_iff.mp hrow
      exact Table.find_key hevent
  | _ => trivial

theorem handling_rely (hasync : env.queueMode = .async) :
    Monitor.Rely (handling eventId) (platform env) (Undisturbing env eventId)
      init.boot (fun _ => True) (fun _ => True) (Respects eventId)
      (fun _ _ _ => True) where
  body call _ := body_handles hasync eventId call
  start _ call _ _ _ _ := ⟨trivial, fun htouch => nomatch htouch.ready.1⟩
  done := by
    intro pool pool' index task op next value _ hold hok hdone hguard
    have hmem := List.mem_of_getElem? hdone.at_index
    have hcreate : ∀ data, op = .webhookEventCreate data →
        data.status = .received := by
      rintro data rfl
      exact hguard
    have hcases : pool'.store.finalized eventId = true →
        (∃ data, op = .webhookEventUpdate eventId data ∧
          data.status.isFinalized = true) ∨
        pool.store.finalized eventId = true ∧
          ∀ data, op ≠ .webhookEventUpdate eventId data := by
      rw [effect_of_done hdone]
      exact finalized_of_effect hcreate
    refine ⟨handling_facts (exec_of_done hdone), trivial, fun htouch => ?_,
      fun position other hne hposition hother htouch => ?_⟩
    · by_contra hfinal
      rcases hcases (by simpa using hfinal) with ⟨data, rfl, hdata⟩ |
        ⟨hbefore, hothers⟩
      · -- The write of the final status settles the call.
        have hsettled := htouch.ready.2
        rw [Monitor.state_cons _ _ _ _ _ task.prog] at hsettled
        simp [handling, Handling.note, hdata] at hsettled
      · rcases htouch.before hdone with htouched | ⟨hunread, hread⟩
        · rw [hold.knows task hmem htouched] at hbefore
          cases hbefore
        · have hopen :=
            (open_of_passed hdone hok.readsFinalized hunread hread).2
          rw [hopen] at hbefore
          cases hbefore
    · by_contra hfinal
      rcases hcases (by simpa using hfinal) with ⟨data, rfl, hdata⟩ |
        ⟨hbefore, hothers⟩
      · exact hok.overtakes ⟨task, data, next, hdone.at_index, hdone.awaits,
          hdata, other,
          List.mem_eraseIdx_iff_getElem?.mpr ⟨position, hne, hposition⟩, htouch⟩
      · rw [hother htouch] at hbefore
        cases hbefore
  raised := by
    intro pool pool' index task op next error _ hold hcause hraised _
    have hmem := List.mem_of_getElem? hraised.at_index
    refine ⟨fun hdelivered => ?_, fun htouch => ?_⟩
    · by_contra hmoves
      have hstays : op.movesJob = false := by simpa using hmoves
      rcases hcause with ⟨hok, hexec⟩ | ⟨hok, -⟩
      · refine hok.failsDelivered ⟨index, task, op, next, hraised.at_index,
          hraised.awaits, hstays, hdelivered, .inr ⟨rfl, ?_⟩⟩
        have hfails : exec env op pool.store = .error error := hexec
        rw [hfails]
        rfl
      · exact hok.failsDelivered ⟨index, task, op, next, hraised.at_index,
          hraised.awaits, hstays, hdelivered, .inl ⟨error, rfl⟩⟩
    · refine hold.knows task hmem ⟨htouch.ready, fun huses => htouch.touches ?_⟩
      rw [hraised.awaits] at huses
      exact huses.2 _
  event := by
    intro pool pool' event calls _ hold _ henv
    obtain ⟨clock, jobs, hstore⟩ := Event.apply_store henv
    rw [hstore]
    exact ⟨trivial, fun task htask => hold.knows task htask,
      fun call _ => ⟨trivial, fun htouch => nomatch htouch.ready.1⟩⟩

theorem rowsFor_append (calls : List Call) {tasks : List (Task Op.Res Failure
    Answer Call)} (htasks : pool'.tasks =
      tasks ++ calls.map (platform env).spawn) :
    rowsFor eventId pool' = tasks.flatMap fun task =>
      storedFor eventId task.trace := by
  have hnew : (calls.map (platform env).spawn).flatMap
      (fun task => storedFor eventId task.trace) = [] := by
    simp [System.spawn, storedFor]
  rw [rowsFor, htasks, List.flatMap_append, hnew, List.append_nil]

theorem rowsFor_set {index : Nat} {task task' : Task Op.Res Failure Answer Call}
    (hget : pool.tasks[index]? = some task)
    (htasks : pool'.tasks = pool.tasks.set index task')
    (hsame : storedFor eventId task'.trace = storedFor eventId task.trace) :
    rowsFor eventId pool' = rowsFor eventId pool := by
  simp only [rowsFor, htasks, List.flatMap_def]
  rw [System.map_set_of_eq hget hsame]

theorem not_finalized_of_writes {index : Nat}
    {task : Task Op.Res Failure Answer Call} {op : Op}
    {next : Except Failure op.Res → Body Answer} {value : op.Res}
    (hrespects : Respects eventId pool.store task)
    (hdone : (platform env).Done pool pool' index task op next value)
    (hguard : (handling eventId).guard task.call
      ((handling eventId).state task) op)
    (hwrites : (∃ data, op = .webhookEventUpdate eventId data) ∨
      storesFor eventId ⟨op, value⟩ task.trace = true) :
    pool.store.finalized eventId = false := by
  have hreading : storesFor eventId ⟨op, value⟩ task.trace = true →
      ((handling eventId).state task).reading = some eventId := by
    intro hstores
    rw [Monitor.state_eq_after, reading_after]
    simpa using (Bool.and_eq_true_iff.mp hstores).1
  have htouches : op.touches eventId = true ∧
      ((handling eventId).state task).Ready := by
    rcases hwrites with ⟨data, rfl⟩ | hstores
    · exact ⟨by simp [Op.touches], hguard rfl⟩
    · have hrow := (Bool.and_eq_true_iff.mp hstores).2
      cases op with
      | syncRunCreate data =>
          exact ⟨hrow, hguard (by simpa using hrow) (hreading hstores)⟩
      | syncedRecordCreate data =>
          exact ⟨hrow, hguard (by simpa using hrow) (hreading hstores)⟩
      | _ => cases hrow
  refine hrespects ⟨htouches.2, fun huses => ?_⟩
  rw [hdone.awaits] at huses
  have hnone : op.touches eventId = false := huses.1
  rw [htouches.1] at hnone
  cases hnone

/-- An event that has been finalized stays as it is. -/
theorem finalized_stays_final {later : Platform}
    (hasync : env.queueMode = .async)
    (h : (platform env).Reach (Undisturbing env eventId) init.boot pool)
    (hfinal : pool.store.finalized eventId = true)
    (hlater : (platform env).Reach (Undisturbing env eventId) pool later) :
    StaysFinal eventId pool later := by
  obtain ⟨status, hstatus, hfinalized⟩ := (Option.any_eq_true _ _).mp hfinal
  have hkept : later.store.eventStatus eventId = some status ∧
      rowsFor eventId later = rowsFor eventId pool := by
    refine hlater.invariant (I := fun later =>
      later.store.eventStatus eventId = some status ∧
        rowsFor eventId later = rowsFor eventId pool) ⟨hstatus, rfl⟩ ?_ ?_ ?_ ?_
    · intro now call _ hnow _ _
      exact ⟨hnow.1, (rowsFor_append [call] rfl).trans hnow.2⟩
    · intro now now' index task op next value hreach hnow hok hdone
      have hholds := (handling_rely hasync).holds rfl trivial (h.trans hreach)
      have hmem := List.mem_of_getElem? hdone.at_index
      have haccepts := hholds.accepts task hmem
      rw [hdone.awaits] at haccepts
      have hfinal' : now.store.finalized eventId = true := by
        rw [Store.finalized, hnow.1]
        exact hfinalized
      have hnever : ¬ ((∃ data, op = .webhookEventUpdate eventId data) ∨
          storesFor eventId ⟨op, value⟩ task.trace = true) := by
        intro hwrites
        have hopen := not_finalized_of_writes (hholds.knows task hmem) hdone
          haccepts.1 hwrites
        rw [hfinal'] at hopen
        cases hopen
      obtain ⟨hupdate, hstores⟩ := not_or.mp hnever
      refine ⟨?_, ?_⟩
      · rw [effect_of_done hdone]
        exact eventStatus_effect hnow.1 fun data hop => hupdate ⟨data, hop⟩
      · rw [rowsFor_set hdone.at_index hdone.tasks (if_neg hstores)]
        exact hnow.2
    · intro now now' index task op next error _ hnow _ hraised
      rw [hraised.store]
      exact ⟨hnow.1, (rowsFor_set hraised.at_index hraised.tasks rfl).trans
        hnow.2⟩
    · intro now now' event calls _ hnow _ henv htasks
      obtain ⟨clock, jobs, hstore⟩ := Event.apply_store henv
      rw [hstore]
      exact ⟨hnow.1, (rowsFor_append calls htasks).trans hnow.2⟩
  exact ⟨hkept.1.trans hstatus.symm, hkept.2⟩

end Interleavings

/-! ## One event -/

/-- A condition that can be computed: the calls come one after the other,
nothing fails, and nobody reads the event once it is finalized. -/
def calm (eventId : Id) (pool : Platform) (step : Step) : Bool :=
  pool.alone step && match step with
    | .run index =>
        match pool.tasks[index]? with
        | some ⟨_, _, .call op _⟩ =>
            (exec (Sample.env .async) op pool.store).isOk && match op with
              | .webhookEventFindUnique _ => !pool.store.finalized eventId
              | _ => true
        | _ => true
    | .fail _ _ => false
    | _ => true

theorem undisturbing_of_calm {eventId : Id} {pool : Platform} {step : Step}
    (h : calm eventId pool step = true) :
    Undisturbing (Sample.env .async) eventId pool step := by
  obtain ⟨halone, hcalm⟩ := Bool.and_eq_true_iff.mp h
  constructor
  · intro hovertakes
    cases step with
    | run index =>
        obtain ⟨_, _, _, -, -, -, other, hother, htouch⟩ := hovertakes
        have hended := List.all_eq_true.mp halone other hother
        refine htouch.touches ?_
        cases hprog : other.prog with
        | call op next =>
            rw [hprog] at hended
            cases hended
        | _ => trivial
    | _ => exact hovertakes
  · intro hreads
    cases step with
    | run index =>
        obtain ⟨⟨call, trace, prog⟩, next, hget, rfl, -, hfinal⟩ := hreads
        simp [hget, hfinal] at hcalm
    | _ => exact hreads
  · rintro ⟨index, ⟨call, trace, prog⟩, op, next, hget, rfl, -, -, hfails⟩
    rcases hfails with ⟨failure, rfl⟩ | ⟨rfl, hfails⟩
    · cases hcalm
    · simp [hget, hfails] at hcalm

def handled : List Step :=
  [.start (.receiveEvent Sample.delivery)] ++ List.replicate 8 (.run 0) ++
    [.env (.deliver 0)] ++ List.replicate 28 (.run 1)

/-- Another request to process the event is turned down. -/
theorem finalized_stays_final_of_request :
    ∃ pool later, (platform (Sample.env .async)).runWhere
        (fun pool step => calm 10 pool step = true) Sample.store.boot handled =
          some pool ∧
      (platform (Sample.env .async)).runWhere
        (fun pool step => calm 10 pool step = true) pool
        [.start (.processEvent 10 Sample.operator), .run 2] = some later ∧
      pool.store.eventStatus 10 = some .processed ∧
      (rowsFor 10 pool).length = 2 ∧ StaysFinal 10 pool later := by
  have hruns : ((platform (Sample.env .async)).runWhere
      (fun pool step => calm 10 pool step = true) Sample.store.boot handled).any
        (fun pool => pool.store.eventStatus 10 = some .processed &&
          (rowsFor 10 pool).length = 2 &&
          ((platform (Sample.env .async)).runWhere
            (fun pool step => calm 10 pool step = true) pool
            [.start (.processEvent 10 Sample.operator), .run 2]).isSome) =
              true := by
    decide +kernel
  obtain ⟨pool, hrun, htests⟩ := (Option.any_eq_true _ _).mp hruns
  simp only [Bool.and_eq_true, decide_eq_true_eq] at htests
  obtain ⟨⟨hstatus, hrows⟩, hlater⟩ := htests
  obtain ⟨later, hlater⟩ := Option.isSome_iff_exists.mp hlater
  have hreach : (platform (Sample.env .async)).Reach
      (Undisturbing (Sample.env .async) 10) Sample.store.boot pool :=
    (System.reach_of_runWhere hrun).mono fun _ _ => undisturbing_of_calm
  have hfinal : pool.store.finalized 10 = true := by
    rw [Store.finalized, hstatus]
    rfl
  exact ⟨pool, later, hrun, hlater, hstatus, hrows,
    finalized_stays_final rfl hreach hfinal
      ((System.reach_of_runWhere hlater).mono fun _ _ => undisturbing_of_calm)⟩

/-- The lock of the job runs out before the delivery settles it, and the job is
delivered again. -/
theorem finalized_stays_final_fails :
    ∃ pool later, Reachable (Sample.env .async) Sample.store pool ∧
      pool.store.finalized 10 = true ∧
      (platform (Sample.env .async)).Reach (fun _ _ => True) pool later ∧
      ¬ StaysFinal 10 pool later := by
  have hruns : ((platform (Sample.env .async)).run Sample.store.boot
      ([.start (.receiveEvent Sample.delivery)] ++ List.replicate 8 (.run 0) ++
        [.env (.deliver 0)] ++ List.replicate 23 (.run 1))).any
      (fun pool => pool.store.finalized 10 &&
        ((platform (Sample.env .async)).run pool
          ([.env (.stall 0), .env (.deliver 0)] ++
            List.replicate 11 (.run 2))).any fun later =>
          (rowsFor 10 later).length != (rowsFor 10 pool).length) = true := by
    decide +kernel
  obtain ⟨pool, hrun, htests⟩ := (Option.any_eq_true _ _).mp hruns
  obtain ⟨hfinal, hlater⟩ := Bool.and_eq_true_iff.mp htests
  obtain ⟨later, hlater, hmore⟩ := (Option.any_eq_true _ _).mp hlater
  refine ⟨pool, later, System.reach_of_run hrun, hfinal,
    System.reach_of_run hlater, fun hstays => ?_⟩
  rw [hstays.rows] at hmore
  simp at hmore

end SyncBridge
