import SyncBridge.Foundation.Monitor
import SyncBridge.Sample
import SyncBridge.Services.Footprint

/-!
# Idempotent intake

The check for a stored event and the creation of a new one are separate steps,
and any number of deliveries of one event can pass the check together.  What
remains true in every interleaving rests on the unique constraint: one row for
a connector reference and a key, one call that gets past the creation of it,
and answers that name this row.
-/

namespace SyncBridge

open SyncBridge.Foundation SyncBridge.Foundation.Prog

/-! ## Rows under a key -/

def WebhookEvent.keyed (sourceConnectorRef : Id) (idempotencyKey : String)
    (row : WebhookEvent) : Bool :=
  row.sourceConnectorRef = sourceConnectorRef &&
    row.idempotencyKey = some idempotencyKey

/-- The unique constraint on `(sourceConnectorRef, idempotencyKey)`. -/
def Store.KeysUnique (store : Store) : Prop :=
  ∀ sourceConnectorRef idempotencyKey,
    store.webhookEvents.countP
      (WebhookEvent.keyed sourceConnectorRef idempotencyKey) ≤ 1

def Store.StoredUnder (store : Store) (sourceConnectorRef : Id)
    (idempotencyKey : String) (id : Id) : Prop :=
  ∃ row ∈ store.webhookEvents,
    row.keyed sourceConnectorRef idempotencyKey = true ∧ row.id = id

@[simp] theorem keyed_apply (data : WebhookEventData) (row : WebhookEvent)
    (sourceConnectorRef : Id) (idempotencyKey : String) :
    (data.apply row).keyed sourceConnectorRef idempotencyKey =
      row.keyed sourceConnectorRef idempotencyKey := rfl

@[simp] theorem id_apply (data : WebhookEventData) (row : WebhookEvent) :
    (data.apply row).id = row.id := rfl

theorem violatesUnique_eq_false {data : NewWebhookEvent} {store : Store}
    {idempotencyKey : String}
    (h : violatesUnique data store.webhookEvents = false)
    (hkey : data.idempotencyKey = some idempotencyKey) :
    store.webhookEvents.countP
      (WebhookEvent.keyed data.sourceConnectorRef idempotencyKey) = 0 := by
  rw [List.countP_eq_zero]
  intro row hrow
  simp only [violatesUnique, hkey, Option.isSome_some, Bool.true_and,
    List.any_eq_false] at h
  simpa [WebhookEvent.keyed] using h row hrow

theorem countP_modify {id : Id} {data : WebhookEventData}
    {rows : List WebhookEvent} {sourceConnectorRef : Id}
    {idempotencyKey : String} :
    (Table.modify WebhookEvent.id id data.apply rows).countP
        (WebhookEvent.keyed sourceConnectorRef idempotencyKey) =
      rows.countP (WebhookEvent.keyed sourceConnectorRef idempotencyKey) := by
  simp only [Table.modify, List.countP_map]
  congr 1
  funext row
  by_cases hid : row.id = id <;> simp [hid]

theorem countP_createWebhookEvent {store : Store} {data : NewWebhookEvent}
    {sourceConnectorRef : Id} {idempotencyKey : String} :
    (store.createWebhookEvent data).2.webhookEvents.countP
        (WebhookEvent.keyed sourceConnectorRef idempotencyKey) =
      store.webhookEvents.countP
          (WebhookEvent.keyed sourceConnectorRef idempotencyKey) +
        if data.sourceConnectorRef = sourceConnectorRef ∧
          data.idempotencyKey = some idempotencyKey then 1 else 0 := by
  simp [Store.createWebhookEvent, List.countP_append, WebhookEvent.keyed,
    List.countP_singleton]

section Steps

variable {env : Env} {op : Op} {store store' : Store} {value : op.Res}

/-- The constraint holds after every operation, since a creation that would
break it fails. -/
theorem Store.KeysUnique.exec (h : store.KeysUnique)
    (hexec : exec env op store = .ok (value, store')) : store'.KeysUnique := by
  intro sourceConnectorRef idempotencyKey
  have hold := h sourceConnectorRef idempotencyKey
  rw [exec_effect hexec]
  cases hop : op.writesWebhookEvents with
  | false => rwa [effect_webhookEvents hop]
  | true =>
      cases op with
      | webhookEventCreate data =>
          obtain ⟨hunique, -⟩ := exec_webhookEventCreate hexec
          simp only [Op.effect, countP_createWebhookEvent]
          split
          · rename_i hpair
            have hzero := violatesUnique_eq_false hunique hpair.2
            rw [hpair.1] at hzero
            omega
          · simpa using hold
      | webhookEventUpdate id data =>
          simpa only [Op.effect, countP_modify] using hold
      | _ => cases hop

theorem Store.StoredUnder.exec {sourceConnectorRef id : Id}
    {idempotencyKey : String}
    (h : store.StoredUnder sourceConnectorRef idempotencyKey id)
    (hexec : exec env op store = .ok (value, store')) :
    store'.StoredUnder sourceConnectorRef idempotencyKey id := by
  obtain ⟨row, hrow, hkeyed, hid⟩ := h
  rw [exec_effect hexec]
  cases hop : op.writesWebhookEvents with
  | false => exact ⟨row, by rwa [effect_webhookEvents hop], hkeyed, hid⟩
  | true =>
      cases op with
      | webhookEventCreate data =>
          exact ⟨row, List.mem_append_left _ hrow, hkeyed, hid⟩
      | webhookEventUpdate other data =>
          refine ⟨_, Table.mem_modify.mpr ⟨row, hrow, rfl⟩, ?_⟩
          split <;> simpa using ⟨hkeyed, hid⟩
      | _ => cases hop

end Steps

/-! ## The monitor of intake -/

structure IntakeState where
  created : Bool := false
  found : Option WebhookEvent := none

def IntakeState.note (state : IntakeState) : (op : Op) → op.Res → IntakeState
  | .webhookEventCreate _, _ => { state with created := true }
  | .webhookEventFindFirst _ _, found => { state with found := found }
  | _, _ => state

def Op.isIntake : Op → Bool
  | .webhookEventFindFirst _ _ => true
  | .connectorFindUnique _ => true
  | .webhookEventCreate _ => true
  | .auditLogCreate _ => true
  | _ => false

/-- Only intake looks for its key and creates its row, and it does nothing
beyond intake before the row is created. -/
def intakeGuard (call : Call) (state : IntakeState) : Op → Prop
  | .webhookEventCreate data =>
      ∃ params connector, call = .receiveEvent params ∧
        data = WebhooksService.receivedEvent params connector
  | .webhookEventFindFirst sourceConnectorRef idempotencyKey =>
      ∃ params, call = .receiveEvent params ∧
        sourceConnectorRef = params.connectorId ∧
        WebhooksService.getIdempotencyKey params.headers = some idempotencyKey
  | op => (∃ params, call = .receiveEvent params) →
      op.isIntake = true ∨ state.created = true

def intake : Monitor Op.Res Call IntakeState where
  init _ := {}
  note _ := IntakeState.note
  guard := intakeGuard
  facts _ _ _ _ := True

def NamesFound (call : Call) (state : IntakeState) :
    Except Failure Answer → Prop
  | .ok (.webhook answer) =>
      ∀ params, call = .receiveEvent params → answer.duplicate = true →
        ∃ row, state.found = some row ∧ row.id = answer.eventId
  | _ => True

/-! ## Every call is accepted -/

def Op.looksForKey : Op → Bool
  | .webhookEventFindFirst _ _ => true
  | .webhookEventCreate _ => true
  | _ => false

theorem intake_silent {call : Call} {state : IntakeState} {op : Op}
    (hop : op.looksForKey = false)
    (h : (∃ params, call = .receiveEvent params) →
      op.isIntake = true ∨ state.created = true) :
    intake.Silent call state op := by
  cases op with
  | webhookEventFindFirst _ _ | webhookEventCreate _ => cases hop
  | _ => exact ⟨h, fun _ => rfl⟩

theorem processWebhookEventNow_silent {env : Env} {eventId : Id}
    {actor : AuditActor} {allowed : Op → Prop}
    (h : ∀ op, op.looksForKey = false → allowed op) :
    (WebhooksService.processWebhookEventNow env eventId actor).Uses allowed := by
  have hop : ∀ {op : Op}, op.looksForKey = false → (await op).Uses allowed :=
    fun hop => (uses_await _).mpr (h _ hop)
  have quiet : AllowsQuiet allowed := by
    refine allowsQuiet fun op hquiet => h op ?_
    cases op <;> first | rfl | cases hquiet
  refine processWebhookEventNow_rule quiet
    (fun event actor totals pipeline => ?_) fun _ _ _ => hop rfl
  exact processPipeline_rule quiet (fun _ _ => hop rfl) (fun _ _ => hop rfl)
    (fun _ _ => hop rfl) fun _ _ => hop rfl

theorem handleReceived_silent {env : Env} {params : ReceiveEventParams}
    {event : WebhookEvent} {allowed : Op → Prop}
    (h : ∀ op, op.looksForKey = false → allowed op) :
    (WebhooksService.handleReceived env params event).Uses allowed := by
  have quiet : AllowsQuiet allowed := by
    refine allowsQuiet fun op hquiet => h op ?_
    cases op <;> first | rfl | cases hquiet
  exact handleReceived_rule quiet
    (fun _ _ _ => processWebhookEventNow_silent h)
    (fun _ _ => (uses_await _).mpr (h _ rfl))
    fun _ _ => (uses_await _).mpr (h _ rfl)

section Accepted

variable {env : Env} {params : ReceiveEventParams}

theorem ignoreDuplicate_accepts {existing : WebhookEvent}
    {state : IntakeState} (hfound : state.found = some existing) :
    intake.Accepts (.receiveEvent params)
      (fun state' result => NamesFound (.receiveEvent params) state'
        (result.map Answer.webhook))
      (WebhooksService.ignoreDuplicate params existing) state := by
  refine Monitor.accepts_await_bind.mpr ⟨fun _ => .inl rfl, fun _ _ => ?_, ?_⟩
  · exact fun _ _ _ => ⟨existing, hfound, rfl⟩
  · exact fun _ _ => trivial

theorem handleReceived_returns {event : WebhookEvent} :
    (WebhooksService.handleReceived env params event).Returns
      fun answer => answer.duplicate = false := by
  refine Returns.bind fun _ => ?_
  split
  · exact Returns.bind fun _ => Returns.bind fun _ => Returns.bind fun _ =>
      Returns.bind fun _ => rfl
  · exact Returns.bind fun _ => Returns.bind fun _ => rfl

theorem handleReceived_accepts {event : WebhookEvent} {state : IntakeState}
    (hcreated : state.created = true) :
    intake.Accepts (.receiveEvent params)
      (fun state' result => NamesFound (.receiveEvent params) state'
        (result.map Answer.webhook))
      (WebhooksService.handleReceived env params event) state := by
  have huses : (WebhooksService.handleReceived env params event).Uses
      (intake.Silent (.receiveEvent params) state) :=
    handleReceived_silent fun _ hop => intake_silent hop fun _ => .inr hcreated
  refine ((Monitor.accepts_of_silent huses).and_returns
    handleReceived_returns).mono ?_
  rintro state' (error | answer) ⟨-, hanswer⟩
  · trivial
  · intro _ _ hduplicate
    rw [hanswer answer rfl] at hduplicate
    cases hduplicate

theorem receiveEvent_accepts :
    intake.Accepts (.receiveEvent params)
      (fun state result => NamesFound (.receiveEvent params) state
        (result.map Answer.webhook))
      (WebhooksService.receiveEvent env params) {} := by
  have hcreate : ∀ state, intake.Accepts (.receiveEvent params)
      (fun state result => NamesFound (.receiveEvent params) state
        (result.map Answer.webhook))
      (do
        let connector ← await (.connectorFindUnique params.connectorId)
        let event ← await (.webhookEventCreate
          (WebhooksService.receivedEvent params connector))
        WebhooksService.handleReceived env params event) state := by
    intro state
    refine Monitor.accepts_await_bind.mpr
      ⟨fun _ => .inl rfl, fun connector _ => ?_, fun _ _ => trivial⟩
    refine Monitor.accepts_await_bind.mpr
      ⟨⟨params, connector, rfl, rfl⟩, fun event _ => ?_, fun _ _ => trivial⟩
    exact handleReceived_accepts rfl
  simp only [WebhooksService.receiveEvent, bind_eq]
  rw [Monitor.accepts_bind, Monitor.accepts_ofExcept]
  cases WebhooksService.assertPayloadSize env
      (WebhooksService.sanitizePayload params.payload) with
  | error failure => trivial
  | ok _ =>
      rw [Monitor.seq_ok]
      cases hkey : WebhooksService.getIdempotencyKey params.headers with
      | none => exact hcreate _
      | some idempotencyKey =>
          refine Monitor.accepts_await_bind.mpr
            ⟨⟨params, rfl, rfl, hkey⟩, fun found _ => ?_, fun _ _ => trivial⟩
          cases found with
          | none => exact hcreate _
          | some existing => exact ignoreDuplicate_accepts rfl

end Accepted

theorem body_accepts (env : Env) (call : Call) :
    intake.Accepts call (NamesFound call) (call.body env) {} := by
  by_cases hcall : ∃ params, call = .receiveEvent params
  · obtain ⟨params, rfl⟩ := hcall
    simp only [Call.body, map_eq]
    rw [Monitor.accepts_bind]
    refine receiveEvent_accepts.mono ?_
    rintro state (error | answer) hanswer
    · trivial
    · exact hanswer
  · have hsilent : ∀ op, call.mayAttempt env op →
        intake.Silent call {} op := by
      intro op hop
      refine intake_silent ?_ fun h => absurd h hcall
      cases op <;> first | rfl | exact absurd hop hcall
    refine (Monitor.accepts_of_silent ((body_uses call).mono hsilent)).mono ?_
    rintro state (error | answer) -
    · trivial
    · cases answer with
      | webhook answer => exact fun params heq => absurd ⟨params, heq⟩ hcall
      | _ => trivial

/-! ## Interleavings -/

section Interleavings

variable {env : Env} {init : Store} {pool : Platform}

structure PastCreation (sourceConnectorRef : Id) (idempotencyKey : String)
    (task : Task Op.Res Failure Answer Call) : Prop where
  created : ∃ entry ∈ task.trace, ∃ data, entry.1 = .webhookEventCreate data
  carries : ∃ params, task.call = .receiveEvent params ∧
    params.connectorId = sourceConnectorRef ∧
    WebhooksService.getIdempotencyKey params.headers = some idempotencyKey

def GoesOn (task : Task Op.Res Failure Answer Call) : Prop :=
  ∃ entry ∈ task.trace, entry.1.isIntake = false

theorem created_iff {task : Task Op.Res Failure Answer Call} :
    (intake.state task).created = true ↔
      ∃ entry ∈ task.trace, ∃ data, entry.1 = .webhookEventCreate data := by
  obtain ⟨call, trace, prog⟩ := task
  induction trace with
  | nil => simp [intake]
  | cons entry trace ih =>
      obtain ⟨op, value⟩ := entry
      rw [Monitor.state_cons call op value trace prog prog]
      simp only [List.exists_mem_cons_iff]
      rw [← ih]
      cases op <;> simp [intake, IntakeState.note]

theorem accepted_of_reachable (h : Reachable env init pool) :
    ∀ task ∈ pool.tasks, intake.Accepts task.call (NamesFound task.call)
      task.prog (intake.state task) :=
  Monitor.accepts_of_reach (fun _ _ _ _ _ _ _ => trivial)
    (fun _ _ _ _ => trivial)
    (body_accepts env) rfl h

theorem keysUnique_of_reachable (hinit : init.KeysUnique)
    (h : Reachable env init pool) : pool.store.KeysUnique := by
  refine System.Reach.invariant (I := fun pool => pool.store.KeysUnique) hinit
    ?_ ?_ ?_ ?_ h
  · exact fun _ _ _ hunique _ _ => hunique
  · exact fun _ _ _ _ _ _ _ _ hunique _ hdone => hunique.exec hdone.exec
  · intro pool pool' _ _ _ _ _ _ hunique _ hraised
    rwa [hraised.store]
  · intro pool pool' event calls _ hunique _ henv _
    obtain ⟨clock, jobs, hstore⟩ := Event.apply_store henv
    rw [hstore]
    exact hunique

theorem created_of_goesOn (h : Reachable env init pool) :
    ∀ task ∈ pool.tasks, (∃ params, task.call = .receiveEvent params) →
      GoesOn task → (intake.state task).created = true := by
  refine System.Reach.forall_tasks (P := fun _ task =>
    (∃ params, task.call = .receiveEvent params) →
      GoesOn task → (intake.state task).created = true) ?_ ?_ ?_ ?_ ?_ ?_ h
  · simp [Store.boot]
  · rintro store call - ⟨entry, hentry, -⟩
    cases hentry
  · exact fun _ _ _ _ _ _ hcreated => hcreated
  · exact fun _ _ _ _ _ _ _ hcreated => hcreated
  · rintro pool pool' index task op next value hreach hold hdone hcall
      ⟨entry, hentry, hgoes⟩
    have haccepts := accepted_of_reachable hreach task
      (List.mem_of_getElem? hdone.at_index)
    rw [hdone.awaits, Monitor.accepts_call] at haccepts
    have hbefore : (intake.state task).created = true := by
      rcases List.mem_cons.mp hentry with rfl | hentry
      · have hguard := haccepts.1
        cases op with
        | webhookEventFindFirst _ _ | webhookEventCreate _ => cases hgoes
        | _ => exact (hguard hcall).resolve_left (by simpa using hgoes)
      · exact hold hcall ⟨entry, hentry, hgoes⟩
    rw [created_iff] at hbefore ⊢
    obtain ⟨entry, hentry, hcreate⟩ := hbefore
    exact ⟨entry, List.mem_cons_of_mem _ hentry, hcreate⟩
  · exact fun _ _ _ _ _ _ hcreated _ => hcreated

theorem storedUnder_of_found (h : Reachable env init pool) :
    ∀ task ∈ pool.tasks, ∀ row, (intake.state task).found = some row →
      ∃ params idempotencyKey, task.call = .receiveEvent params ∧
        WebhooksService.getIdempotencyKey params.headers =
          some idempotencyKey ∧
        pool.store.StoredUnder params.connectorId idempotencyKey row.id := by
  refine System.Reach.forall_tasks (P := fun store task =>
    ∀ row, (intake.state task).found = some row →
      ∃ params idempotencyKey, task.call = .receiveEvent params ∧
        WebhooksService.getIdempotencyKey params.headers =
          some idempotencyKey ∧
        store.StoredUnder params.connectorId idempotencyKey row.id)
    ?_ ?_ ?_ ?_ ?_ ?_ h
  · simp [Store.boot]
  · intro store call row hfound
    cases hfound
  · intro op store value store' task hexec hold row hfound
    obtain ⟨params, key, hcall, hkey, hstored⟩ := hold row hfound
    exact ⟨params, key, hcall, hkey, hstored.exec hexec⟩
  · intro event store count store' calls task henv hold row hfound
    obtain ⟨params, key, hcall, hkey, hstored⟩ := hold row hfound
    obtain ⟨clock, jobs, rfl⟩ := Event.apply_store henv
    exact ⟨params, key, hcall, hkey, hstored⟩
  · intro pool pool' index task op next value hreach hold hdone row hfound
    have hkept : (intake.state task).found = some row →
        ∃ params idempotencyKey, task.call = .receiveEvent params ∧
          WebhooksService.getIdempotencyKey params.headers =
            some idempotencyKey ∧
          pool'.store.StoredUnder params.connectorId idempotencyKey row.id := by
      intro hbefore
      obtain ⟨params, key, hcall, hkey, hstored⟩ := hold row hbefore
      exact ⟨params, key, hcall, hkey, hstored.exec hdone.exec⟩
    cases op with
    | webhookEventFindFirst sourceConnectorRef idempotencyKey =>
        have haccepts := accepted_of_reachable hreach task
          (List.mem_of_getElem? hdone.at_index)
        rw [hdone.awaits, Monitor.accepts_call] at haccepts
        obtain ⟨params, hcall, rfl, hkey⟩ := haccepts.1
        have hfirst := exec_webhookEventFindFirst (exec_of_done hdone)
        have hrow : value = some row := hfound
        rw [hrow] at hfirst
        refine ⟨params, idempotencyKey, hcall, hkey, row, ?_, ?_, rfl⟩
        · rw [effect_of_done hdone]
          exact List.mem_of_find?_eq_some hfirst.symm
        · exact List.find?_some hfirst.symm
    | _ => exact hkept hfound
  · exact fun _ _ _ _ _ _ hold _ => hold

variable {sourceConnectorRef : Id} {idempotencyKey : String}

theorem stored_of_pastCreation (h : Reachable env init pool) :
    ∀ task ∈ pool.tasks,
      PastCreation sourceConnectorRef idempotencyKey task →
      ∃ id, pool.store.StoredUnder sourceConnectorRef idempotencyKey id := by
  refine System.Reach.forall_tasks (P := fun store task =>
    PastCreation sourceConnectorRef idempotencyKey task →
      ∃ id, store.StoredUnder sourceConnectorRef idempotencyKey id)
    ?_ ?_ ?_ ?_ ?_ ?_ h
  · simp [Store.boot]
  · rintro store call ⟨⟨entry, hentry, -⟩, -⟩
    cases hentry
  · intro op store value store' task hexec hold hpast
    obtain ⟨id, hstored⟩ := hold hpast
    exact ⟨id, hstored.exec hexec⟩
  · intro event store count store' calls task henv hold hpast
    obtain ⟨clock, jobs, rfl⟩ := Event.apply_store henv
    exact hold hpast
  · rintro pool pool' index task op next value hreach hold hdone
      ⟨⟨entry, hentry, data, hcreate⟩, hcarries⟩
    rcases List.mem_cons.mp hentry with rfl | hentry
    · obtain rfl : op = .webhookEventCreate data := hcreate
      have haccepts := accepted_of_reachable hreach task
        (List.mem_of_getElem? hdone.at_index)
      rw [hdone.awaits, Monitor.accepts_call] at haccepts
      obtain ⟨params, connector, hcall, rfl⟩ := haccepts.1
      obtain ⟨params', hcall', hconnector, hkey⟩ := hcarries
      obtain rfl : params' = params := by
        rw [hcall] at hcall'
        cases hcall'
        rfl
      rw [effect_of_done hdone]
      refine ⟨_, _, List.mem_append_right _ (List.mem_singleton_self _),
        ?_, rfl⟩
      simp [WebhookEvent.keyed, WebhooksService.receivedEvent, hconnector, hkey]
    · obtain ⟨id, hstored⟩ := hold ⟨⟨entry, hentry, data, hcreate⟩, hcarries⟩
      exact ⟨id, hstored.exec hdone.exec⟩
  · exact fun _ _ _ _ _ _ hold _ hpast => hold ⟨hpast.created, hpast.carries⟩

/-- A call that creates the row of the pair now is alone: the rows of all
other calls past the creation would break the constraint. -/
theorem not_pastCreation_of_create {pool pool' : Platform} {index : Nat}
    {task : Task Op.Res Failure Answer Call} {data : NewWebhookEvent}
    {next : Except Failure WebhookEvent → Body Answer} {value : WebhookEvent}
    (hreach : Reachable env init pool)
    (hdone : (platform env).Done pool pool' index task
      (.webhookEventCreate data) next value)
    (hcarries : ∃ params, task.call = .receiveEvent params ∧
      params.connectorId = sourceConnectorRef ∧
      WebhooksService.getIdempotencyKey params.headers = some idempotencyKey) :
    ∀ other ∈ pool.tasks,
      ¬ PastCreation sourceConnectorRef idempotencyKey other := by
  intro other hother hpast
  obtain ⟨id, row, hrow, hkeyed, -⟩ :=
    stored_of_pastCreation hreach other hother hpast
  have haccepts := accepted_of_reachable hreach task
    (List.mem_of_getElem? hdone.at_index)
  rw [hdone.awaits, Monitor.accepts_call] at haccepts
  obtain ⟨params, connector, hcall, rfl⟩ := haccepts.1
  obtain ⟨params', hcall', hconnector, hkey⟩ := hcarries
  obtain rfl : params' = params := by
    rw [hcall] at hcall'
    cases hcall'
    rfl
  obtain ⟨hunique, -⟩ := exec_webhookEventCreate (exec_of_done hdone)
  have hzero := violatesUnique_eq_false hunique hkey
  rw [List.countP_eq_zero] at hzero
  subst hconnector
  exact hzero row hrow hkeyed

theorem pastCreation_unique (h : Reachable env init pool) :
    AtMostOne (PastCreation sourceConnectorRef idempotencyKey) pool.tasks := by
  have hnew : ∀ (calls : List Call),
      ∀ task ∈ calls.map (platform env).spawn,
        ¬ PastCreation sourceConnectorRef idempotencyKey task := by
    rintro calls task htask ⟨⟨entry, hentry, -⟩, -⟩
    obtain ⟨call, -, rfl⟩ := List.mem_map.mp htask
    cases hentry
  refine System.Reach.invariant (I := fun pool =>
    AtMostOne (PastCreation sourceConnectorRef idempotencyKey) pool.tasks)
    .nil ?_ ?_ ?_ ?_ h
  · exact fun pool call _ hold _ _ => hold.append (hnew [call])
  · intro pool pool' index task op next value hreach hold _ hdone
    rw [hdone.tasks]
    by_cases hcreate : ∃ data, op = .webhookEventCreate data
    · obtain ⟨data, rfl⟩ := hcreate
      by_cases hcarries : ∃ params, task.call = .receiveEvent params ∧
          params.connectorId = sourceConnectorRef ∧
          WebhooksService.getIdempotencyKey params.headers =
            some idempotencyKey
      · exact AtMostOne.set_of_none
          (not_pastCreation_of_create hreach hdone hcarries)
      · exact hold.set hdone.at_index fun hpast => absurd hpast.carries hcarries
    · refine hold.set hdone.at_index fun hpast => ⟨?_, hpast.carries⟩
      obtain ⟨entry, hentry, data, hdata⟩ := hpast.created
      rcases List.mem_cons.mp hentry with rfl | hentry
      · exact absurd ⟨data, hdata⟩ hcreate
      · exact ⟨entry, hentry, data, hdata⟩
  · intro pool pool' index task op next error _ hold _ hraised
    rw [hraised.tasks]
    exact hold.set hraised.at_index fun hpast => ⟨hpast.created, hpast.carries⟩
  · intro pool pool' event calls _ hold _ _ htasks
    rw [htasks]
    exact hold.append (hnew calls)

/-- What idempotent intake means for the calls and the rows of a pool. -/
structure IntakeIdempotent (pool : Platform) : Prop where
  one_row : pool.store.KeysUnique
  one_call : ∀ sourceConnectorRef idempotencyKey,
    AtMostOne (PastCreation sourceConnectorRef idempotencyKey) pool.tasks
  goes_on : ∀ task ∈ pool.tasks,
    (∃ params, task.call = .receiveEvent params) → GoesOn task →
      ∃ entry ∈ task.trace, ∃ data, entry.1 = .webhookEventCreate data
  duplicate : ∀ task ∈ pool.tasks, ∀ params answer,
    task.call = .receiveEvent params → task.prog = .ret (.webhook answer) →
    answer.duplicate = true →
      ∃ idempotencyKey,
        WebhooksService.getIdempotencyKey params.headers =
          some idempotencyKey ∧
        pool.store.StoredUnder params.connectorId idempotencyKey
          answer.eventId

/-- From a store that meets the unique constraint, every interleaving keeps one
row for a connector reference and a key, lets one call of the pair past the
creation and answers `duplicate` with the identifier of that row. -/
theorem intake_idempotent (hinit : init.KeysUnique)
    (h : Reachable env init pool) : IntakeIdempotent pool where
  one_row := keysUnique_of_reachable hinit h
  one_call _ _ := pastCreation_unique h
  goes_on task htask hcall hgoes :=
    created_iff.mp (created_of_goesOn h task htask hcall hgoes)
  duplicate := by
    intro task htask params answer hcall hprog hduplicate
    have haccepts := accepted_of_reachable h task htask
    rw [hprog, Monitor.accepts_ret] at haccepts
    obtain ⟨row, hfound, hid⟩ := haccepts params hcall hduplicate
    obtain ⟨params', key, hcall', hkey, hstored⟩ :=
      storedUnder_of_found h task htask row hfound
    obtain rfl : params' = params := by
      rw [hcall] at hcall'
      cases hcall'
      rfl
    exact ⟨key, hkey, hid ▸ hstored⟩

end Interleavings

/-- Two deliveries of one event, one inside the other: the second finds the row
of the first. -/
theorem intake_idempotent_of_two_deliveries :
    ∃ pool, (platform (Sample.env .async)).run Sample.store.boot
        [.start (.receiveEvent Sample.delivery),
         .start (.receiveEvent Sample.delivery),
         .run 0, .run 0, .run 0, .run 1, .run 1] = some pool ∧
      IntakeIdempotent pool := by
  have hruns : ((platform (Sample.env .async)).run Sample.store.boot
      [.start (.receiveEvent Sample.delivery),
       .start (.receiveEvent Sample.delivery),
       .run 0, .run 0, .run 0, .run 1, .run 1]).isSome = true := by decide
  obtain ⟨pool, hrun⟩ := Option.isSome_iff_exists.mp hruns
  refine ⟨pool, hrun, intake_idempotent ?_ (System.reach_of_run hrun)⟩
  intro sourceConnectorRef idempotencyKey
  simp [Sample.store]

end SyncBridge
