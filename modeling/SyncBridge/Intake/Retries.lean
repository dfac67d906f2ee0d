import SyncBridge.Foundation.Rely
import SyncBridge.Sample
import SyncBridge.Services.Footprint

/-!
# Retries of an event

Every attempt to process an event takes up the pipelines of its connector one
by one, from the first.  A pipeline has at most one record under the key of the
event as long as no attempt takes up a pipeline that has one already.
-/

namespace SyncBridge

open SyncBridge.Foundation SyncBridge.Foundation.Prog

def WebhookEvent.recordKey (event : WebhookEvent) : String :=
  event.idempotencyKey.getD (idString event.id)

def Store.recordsUnder (store : Store) (pipelineId : Id) (key : String) : Nat :=
  store.syncedRecords.countP fun row =>
    row.pipelineId = pipelineId && row.externalId = some key

/-! ## The monitor of the attempts -/

/-- Which event the call has read last, and which pipeline it has taken up and
not yet stored the record for. -/
structure Attempt where
  reading : Option Id := none
  pipeline : Option Id := none

def Attempt.note (state : Attempt) : (op : Op) → op.Res → Attempt
  | .webhookEventFindUnique _, found => ⟨found.map WebhookEvent.id, none⟩
  | .syncRunCreate data, _ =>
      if data.triggerType = .webhook then
        { state with pipeline := some data.pipelineId }
      else state
  | .syncedRecordCreate _, _ => { state with pipeline := none }
  | _, _ => state

def attempting : Monitor Op.Res Call Attempt where
  init _ := {}
  note _ := Attempt.note
  guard _ state
    | .syncedRecordCreate data => data.sourceType = "WEBHOOK" →
        state.pipeline = some data.pipelineId
    | _ => True
  facts _ _ _ _ := True

def Op.leavesAttempt : Op → Bool
  | .webhookEventFindUnique _ => false
  | .syncRunCreate _ => false
  | .syncedRecordCreate _ => false
  | _ => true

section Walk

variable {env : Env} {call : Call} {state : Attempt} {actor : AuditActor}

theorem attempting_silent {op : Op} (hop : op.leavesAttempt = true) :
    attempting.Silent call state op := by
  cases op with
  | webhookEventFindUnique _ | syncRunCreate _ | syncedRecordCreate _ =>
      cases hop
  | _ => exact ⟨trivial, fun _ => rfl⟩

theorem attempting_bind {α β : Type} {body : Body α} {rest : α → Body β}
    (hbody : body.Uses fun op => op.leavesAttempt = true)
    (hrest : ∀ value,
      attempting.Accepts call (fun _ _ => True) (rest value) state) :
    attempting.Accepts call (fun _ _ => True) (body.bind rest) state :=
  Monitor.accepts_silent_bind (hbody.mono fun _ hop => attempting_silent hop)
    hrest fun _ => trivial

theorem attempting_of_leaves {α : Type} {body : Body α}
    (hbody : body.Uses fun op => op.leavesAttempt = true) :
    attempting.Accepts call (fun _ _ => True) body state :=
  (Monitor.accepts_of_silent (hbody.mono fun _ hop => attempting_silent hop)).mono
    fun _ _ _ => trivial

theorem processWebhookForPipeline_attempts {eventId pipelineId syncRunId : Id}
    {mappingJson : Json} {payload : Record} {externalId : String}
    (hpipeline : state.pipeline = some pipelineId) :
    attempting.Accepts call (fun _ _ => True)
      (WebhooksService.processWebhookForPipeline env eventId pipelineId
        mappingJson payload externalId syncRunId actor) state := by
  have hnow : currentTime.Uses fun op => op.leavesAttempt = true :=
    (uses_await _).mpr rfl
  have hlog : ∀ action entityType entityId metadata,
      (AuditService.log action entityType entityId metadata actor).Uses
        fun op => op.leavesAttempt = true := fun _ _ _ _ => (uses_await _).mpr rfl
  have hfail : ∀ message errorCount,
      attempting.Accepts call (fun _ _ => True)
        (WebhooksService.failWebhookRun eventId pipelineId syncRunId externalId
          message errorCount actor) state := by
    intro message errorCount
    refine attempting_of_leaves ?_
    refine hnow.bind fun finishedAt => Uses.await rfl fun _ => ?_
    refine hnow.bind fun lastRunAt => Uses.await rfl fun _ => ?_
    exact (hlog _ _ _ _).bind fun _ => (hlog _ _ _ _).bind fun _ => trivial
  simp only [WebhooksService.processWebhookForPipeline]
  split
  · exact hfail _ _
  · refine attempting_bind ((uses_await _).mpr rfl) fun transformed => ?_
    split
    · exact hfail _ _
    · refine Monitor.accepts_await_bind.mpr
        ⟨fun _ => hpipeline, fun row _ => ?_, fun _ _ => trivial⟩
      refine attempting_of_leaves ?_
      refine hnow.bind fun finishedAt => Uses.await rfl fun _ => ?_
      refine hnow.bind fun lastRunAt => Uses.await rfl fun _ => ?_
      exact (hlog _ _ _ _).bind fun _ => (hlog _ _ _ _).bind fun _ =>
        (hlog _ _ _ _).bind fun _ => trivial

theorem processPipeline_attempts {event : WebhookEvent}
    {totals : WebhooksService.Totals} {pipeline : SyncPipeline} :
    attempting.Accepts call (fun _ _ => True)
      (WebhooksService.processPipeline env event actor totals pipeline)
      state := by
  refine attempting_bind ((uses_await _).mpr rfl) fun startedAt => ?_
  refine Monitor.accepts_await_bind.mpr
    ⟨trivial, fun syncRun _ => ?_, fun _ _ => trivial⟩
  refine attempting_bind ((uses_await _).mpr rfl) fun _ => ?_
  refine Monitor.accepts_bind.mpr
    ((processWebhookForPipeline_attempts (by rfl)).mono ?_)
  rintro state (failure | counts) - <;> trivial

abbrev Attempts (call : Call) {α : Type} (body : Body α) : Prop :=
  attempting.Keeps call (fun _ => True) body

theorem attempts_await {op : Op}
    (hop : ∀ data, op = .syncedRecordCreate data →
      data.sourceType = "MANUAL") : Attempts call (await op) := by
  refine .of_uses ((uses_await op).mpr fun state _ => ⟨?_, fun _ => trivial⟩)
  cases op with
  | syncedRecordCreate data =>
      intro hwebhook
      rw [hop data rfl] at hwebhook
      exact absurd hwebhook (by decide)
  | _ => trivial

theorem body_attempts (env : Env) (call : Call) :
    attempting.Accepts call (fun _ _ => True) (call.body env) {} := by
  have hcomp : Compositional fun {_} (body : Body _) => Attempts call body :=
    Monitor.compositional_keeps _ _ _
  have quiet : Quiet fun {_} (body : Body _) => Attempts call body :=
    ⟨hcomp, fun op hop => attempts_await (by rintro data rfl; cases hop)⟩
  have hpipeline : ∀ id data, PipelineData.OfRun data →
      Attempts call (await (.pipelineUpdate id data)) :=
    fun _ _ _ => attempts_await fun _ => nofun
  have hupdate : ∀ id data, Attempts call (await (.syncRunUpdate id data)) :=
    fun _ _ => attempts_await fun _ => nofun
  have hmanual : ∀ data : NewSyncedRecord, data.sourceType = "MANUAL" →
      Attempts call (await (.syncedRecordCreate data)) := by
    refine fun data hdata => attempts_await ?_
    rintro other ⟨⟩
    exact hdata
  have hbody : Attempts call (call.body env) := by
    refine body_rule call hcomp (fun op hop => attempts_await ?_) ?_ ?_ ?_
    · rintro data rfl
      cases hop
    · intro pipeline options _ _
      exact createRunFromPipeline_rule quiet hpipeline hupdate hmanual
        (fun _ _ => attempts_await fun _ => nofun)
        (fun _ _ => attempts_await fun _ => nofun)
        fun _ _ _ => attempts_await fun _ => nofun
    · exact fun _ _ _ _ _ =>
        processQueuedSyncRun_rule quiet hpipeline hupdate hmanual
          fun _ _ => attempts_await fun _ => nofun
    · intro _ eventId actor
      exact processWebhookEventNow_rule quiet
        (fun event actor totals pipeline =>
          ⟨fun state _ => processPipeline_attempts⟩)
        fun _ _ _ => attempts_await fun _ => nofun
  exact hbody.accepts _ trivial

end Walk

/-! ## Interleavings -/

section Interleavings

variable (event : WebhookEvent)

def Attempt.attempts (state : Attempt) : Bool :=
  state.reading = some event.id

def Attempt.owes (state : Attempt) (pipelineId : Id) : Bool :=
  state.attempts event && state.pipeline = some pipelineId

def onRun (pool : Platform) (test : Nat → Attempt → Op → Bool) : Step → Bool
  | .run index =>
      match pool.tasks[index]? with
      | some ⟨caller, trace, .call op next⟩ =>
          test index (attempting.state ⟨caller, trace, .call op next⟩) op
      | _ => false
  | _ => false

/-- An attempt takes up a pipeline that has a record under the key already. -/
def repeats (pool : Platform) : Step → Bool :=
  onRun pool fun _ state op => match op with
    | .syncRunCreate data => state.attempts event &&
        data.triggerType = .webhook &&
        pool.store.recordsUnder data.pipelineId event.recordKey ≠ 0
    | _ => false

/-- Two attempts overlap: one stores the record of a pipeline while another one
that has taken it up is still to store its record. -/
def overlaps (pool : Platform) : Step → Bool :=
  onRun pool fun index _ op => match op with
    | .syncedRecordCreate data => (pool.tasks.eraseIdx index).any fun other =>
        !other.prog.finished &&
          (attempting.state other).owes event data.pipelineId
    | _ => false

/-- Somebody else stores a record under the key of the event. -/
def usesKey (pool : Platform) : Step → Bool :=
  onRun pool fun _ state op => match op with
    | .syncedRecordCreate data => data.externalId = some event.recordKey &&
        !(data.sourceType = "WEBHOOK" && state.attempts event)
    | _ => false

/-- The attempts to process the event do not overlap, its key is its own, and no
attempt starts again with a pipeline that is done. -/
def Resumes (pool : Platform) (step : Step) : Prop :=
  overlaps event pool step = false ∧ usesKey event pool step = false ∧
    repeats event pool step = false

instance (pool : Platform) (step : Step) :
    Decidable (Resumes event pool step) :=
  inferInstanceAs (Decidable (_ ∧ _))

section Steps

variable {op : Op} {store : Store} {pipelineId : Id} {key : String}

theorem recordsUnder_of_leaves (hop : op.writesSyncedRecords = false) :
    (op.effect store).recordsUnder pipelineId key =
      store.recordsUnder pipelineId key := by
  rw [Store.recordsUnder, effect_syncedRecords hop, Store.recordsUnder]

theorem recordsUnder_create {data : NewSyncedRecord} :
    ((Op.syncedRecordCreate data).effect store).recordsUnder pipelineId key =
      store.recordsUnder pipelineId key +
        if data.pipelineId = pipelineId ∧ data.externalId = some key then 1
        else 0 := by
  simp only [Store.recordsUnder, Op.effect, Store.createSyncedRecord,
    List.countP_append, List.countP_singleton, Bool.and_eq_true,
    decide_eq_true_eq]

theorem recordsUnder_effect (hop : ∀ data, op = .syncedRecordCreate data →
      ¬ (data.pipelineId = pipelineId ∧ data.externalId = some key)) :
    (op.effect store).recordsUnder pipelineId key =
      store.recordsUnder pipelineId key := by
  cases hwrites : op.writesSyncedRecords with
  | false => exact recordsUnder_of_leaves hwrites
  | true =>
      cases op with
      | syncedRecordCreate data =>
          rw [recordsUnder_create, if_neg (hop data rfl), Nat.add_zero]
      | _ => cases hwrites

end Steps

variable {event} {env : Env} {init : Store} {pool pool' : Platform}
  {index : Nat} {task : Task Op.Res Failure Answer Call} {op : Op}
  {next : Except Failure op.Res → Body Answer} {value : op.Res}

def FindsNone (event : WebhookEvent) (store : Store)
    (task : Task Op.Res Failure Answer Call) : Prop :=
  task.prog.finished = false → ∀ pipelineId,
    (attempting.state task).owes event pipelineId = true →
      store.recordsUnder pipelineId event.recordKey = 0

theorem owes_of_create {data : NewSyncedRecord}
    {next : Except Failure (Op.Res (.syncedRecordCreate data)) → Body Answer}
    (hget : pool.tasks[index]? = some task)
    (hawaits : task.prog = .call (.syncedRecordCreate data) next)
    (hguard : attempting.guard task.call (attempting.state task)
      (.syncedRecordCreate data))
    (hown : usesKey event pool (.run index) = false)
    (hkey : data.externalId = some event.recordKey) :
    (attempting.state task).owes event data.pipelineId = true := by
  obtain ⟨caller, trace, prog⟩ := task
  obtain rfl := hawaits
  simp only [usesKey, onRun, hget, hkey, decide_true, Bool.true_and,
    Bool.not_eq_eq_eq_not, Bool.not_false, Bool.and_eq_true,
    decide_eq_true_eq] at hown
  have hpipeline := hguard hown.1
  simp [Attempt.owes, hown.2, hpipeline]

theorem findsNone_done
    (hdone : (platform env).Done pool pool' index task op next value)
    (hrepeats : repeats event pool (.run index) = false)
    (hold : FindsNone event pool.store task) :
    FindsNone event pool'.store
      ⟨task.call, ⟨op, value⟩ :: task.trace, next (.ok value)⟩ := by
  intro _ pipelineId howes
  have hunfinished : task.prog.finished = false := by
    rw [hdone.awaits]
    rfl
  rw [effect_of_done hdone]
  have hstays : op.leavesAttempt = true →
      (op.effect pool.store).recordsUnder pipelineId event.recordKey = 0 := by
    intro hop
    have hsame : attempting.note task.call (attempting.state task) op value =
        attempting.state task := (attempting_silent hop).2 value
    rw [recordsUnder_effect]
    · refine hold hunfinished pipelineId ?_
      rw [← hsame]
      exact howes
    · rintro data rfl
      cases hop
  cases op with
  | webhookEventFindUnique id => simp [attempting, Attempt.note, Attempt.owes,
      Monitor.state_cons _ _ _ _ _ task.prog] at howes
  | syncRunCreate data =>
      rw [recordsUnder_of_leaves rfl]
      by_cases hwebhook : data.triggerType = .webhook
      · -- The pipeline is taken up, and has no record.
        have hstate : attempting.state ⟨task.call, ⟨.syncRunCreate data, value⟩
            :: task.trace, next (.ok value)⟩ =
              { attempting.state task with
                pipeline := some data.pipelineId } := if_pos hwebhook
        rw [hstate] at howes
        obtain ⟨hattempts, hpipeline⟩ := Bool.and_eq_true_iff.mp howes
        obtain ⟨caller, trace, prog⟩ := task
        obtain rfl := hdone.awaits
        obtain rfl := Option.some.inj (of_decide_eq_true hpipeline)
        have hattempting : (attempting.state
            (⟨caller, trace, .call (.syncRunCreate data) next⟩ :
              Task Op.Res Failure Answer Call)).attempts event = true :=
          hattempts
        simpa [repeats, onRun, hdone.at_index, hattempting, hwebhook]
          using hrepeats
      · have hstate : attempting.state ⟨task.call, ⟨.syncRunCreate data, value⟩
            :: task.trace, next (.ok value)⟩ = attempting.state task :=
          if_neg hwebhook
        rw [hstate] at howes
        exact hold hunfinished pipelineId howes
  | syncedRecordCreate data => simp [attempting, Attempt.note, Attempt.owes,
      Monitor.state_cons _ _ _ _ _ task.prog] at howes
  | _ => exact hstays rfl

theorem attempts_rely :
    Monitor.Rely attempting (platform env) (Resumes event) init.boot
      (fun _ => True)
      (fun store => ∀ pipelineId,
        store.recordsUnder pipelineId event.recordKey ≤ 1)
      (FindsNone event) (fun _ _ _ => True) where
  body call _ := body_attempts env call
  start _ call _ _ _ _ := ⟨trivial, fun _ _ howes => nomatch howes⟩
  done := by
    rintro pool pool' index task op next value - hold
      ⟨hoverlaps, hown, hrepeats⟩ hdone hguard
    have hmem := List.mem_of_getElem? hdone.at_index
    refine ⟨trivial, fun pipelineId => ?_,
      findsNone_done hdone hrepeats (hold.knows task hmem),
      fun position other hne hposition hother hunfinished pipelineId howes => ?_⟩
    · rw [effect_of_done hdone]
      by_cases hadds : ∃ data, op = .syncedRecordCreate data ∧
          data.pipelineId = pipelineId ∧ data.externalId = some event.recordKey
      · obtain ⟨data, rfl, rfl, hkey⟩ := hadds
        have howes := owes_of_create hdone.at_index hdone.awaits hguard hown hkey
        have hnone := hold.knows task hmem (by rw [hdone.awaits]; rfl) _ howes
        rw [recordsUnder_create, hnone]
        split <;> omega
      · rw [recordsUnder_effect fun data hop hadded =>
          hadds ⟨data, hop, hadded⟩]
        exact hold.store pipelineId
    · rw [effect_of_done hdone, recordsUnder_effect]
      · exact hother hunfinished pipelineId howes
      · rintro data rfl ⟨rfl, hkey⟩
        have hmeets : (pool.tasks.eraseIdx index).any (fun other =>
            !other.prog.finished && (attempting.state other).owes event
              data.pipelineId) = true := by
          refine List.any_eq_true.mpr ⟨other,
            List.mem_eraseIdx_iff_getElem?.mpr ⟨position, hne, hposition⟩, ?_⟩
          simp [hunfinished, howes]
        obtain ⟨caller, trace, prog⟩ := task
        obtain rfl := hdone.awaits
        simp only [overlaps, onRun, hdone.at_index, hmeets] at hoverlaps
        cases hoverlaps
  raised := by
    rintro pool pool' index task op next error - hold - hraised -
    have hmem := List.mem_of_getElem? hraised.at_index
    refine ⟨trivial, fun _ pipelineId howes => ?_⟩
    exact hold.knows task hmem (by rw [hraised.awaits]; rfl) pipelineId howes
  event := by
    rintro pool pool' event calls - hold - henv
    obtain ⟨clock, jobs, hstore⟩ := Event.apply_store henv
    rw [hstore]
    exact ⟨hold.store, hold.knows, fun call _ =>
      ⟨trivial, fun _ _ howes => nomatch howes⟩⟩

/-- A pipeline has at most one record under the key of the event. -/
theorem retries_store_one (hinit : ∀ pipelineId,
      init.recordsUnder pipelineId event.recordKey ≤ 1)
    (h : (platform env).Reach (Resumes event) init.boot pool)
    (pipelineId : Id) :
    pool.store.recordsUnder pipelineId event.recordKey ≤ 1 :=
  (attempts_rely.holds rfl hinit h).store pipelineId

end Interleavings

/-! ## One event -/

def storedEvent : WebhookEvent :=
  (Sample.store.createWebhookEvent
    (WebhooksService.receivedEvent Sample.delivery (some Sample.connector))).1

theorem recordsUnder_sample (pipelineId : Id) (key : String) :
    Sample.store.recordsUnder pipelineId key ≤ 1 := Nat.zero_le 1

def cutAttempt (steps : Nat) : List Step :=
  [.start (.receiveEvent Sample.delivery)] ++ List.replicate 8 (.run 0) ++
    [.env (.deliver 0)] ++ List.replicate steps (.run 1) ++
    [.fail 1 (.error "database unavailable")] ++ List.replicate 6 (.run 1)

/-- The first attempt fails before it stores the record. -/
theorem retries_store_one_of_cut :
    ∃ pool, (platform (Sample.env .async)).runWhere (Resumes storedEvent)
        Sample.store.boot (cutAttempt 12 ++ [.env (.deliver 0)] ++
          List.replicate 28 (.run 2)) = some pool ∧
      storedEvent.id ∈ pool.store.webhookEvents.map WebhookEvent.id ∧
      pool.store.syncedRecords.length = 1 ∧
      pool.store.recordsUnder 3 storedEvent.recordKey ≤ 1 := by
  have hruns : ((platform (Sample.env .async)).runWhere (Resumes storedEvent)
      Sample.store.boot (cutAttempt 12 ++ [.env (.deliver 0)] ++
        List.replicate 28 (.run 2))).any (fun pool =>
          storedEvent.id ∈ pool.store.webhookEvents.map WebhookEvent.id &&
          pool.store.syncedRecords.length = 1) = true := by
    decide +kernel
  obtain ⟨pool, hrun, htests⟩ := (Option.any_eq_true _ _).mp hruns
  simp only [Bool.and_eq_true, decide_eq_true_eq] at htests
  exact ⟨pool, hrun, htests.1, htests.2, retries_store_one
    (fun pipelineId => recordsUnder_sample pipelineId _)
    (System.reach_of_runWhere hrun) 3⟩

/-- The first attempt fails after it has stored the record, and the second one
stores it again. -/
theorem retries_store_one_fails :
    ∃ pool, (platform (Sample.env .async)).Reach (fun pool step =>
        overlaps storedEvent pool step = false ∧
          usesKey storedEvent pool step = false) Sample.store.boot pool ∧
      storedEvent.id ∈ pool.store.webhookEvents.map WebhookEvent.id ∧
      ¬ pool.store.recordsUnder 3 storedEvent.recordKey ≤ 1 := by
  have hruns : ((platform (Sample.env .async)).runWhere (fun pool step =>
        overlaps storedEvent pool step = false ∧
          usesKey storedEvent pool step = false)
      Sample.store.boot (cutAttempt 22 ++ [.env (.deliver 0)] ++
        List.replicate 14 (.run 2))).any (fun pool =>
          storedEvent.id ∈ pool.store.webhookEvents.map WebhookEvent.id &&
          !decide (pool.store.recordsUnder 3 storedEvent.recordKey ≤ 1)) =
            true := by
    decide +kernel
  obtain ⟨pool, hrun, htests⟩ := (Option.any_eq_true _ _).mp hruns
  simp only [Bool.and_eq_true, Bool.not_eq_true', decide_eq_true_eq,
    decide_eq_false_iff_not] at htests
  exact ⟨pool, System.reach_of_runWhere hrun, htests.1, htests.2⟩

end SyncBridge
