import Mathlib.Data.List.Flatten
import SyncBridge.Foundation.Holdings
import SyncBridge.Runs.Counters

/-!
# Redeliveries of a run

Every delivery of the job of a run takes up the records of its payload from the
first and stores a row for each that the cursor lets through.  A record is stored
once as long as no delivery takes up a record that is stored already, or that
another delivery is still to come to.
-/

namespace SyncBridge

open SyncBridge.Foundation SyncBridge.Foundation.Prog

abbrev Element := SyncRunMockRecordPayload × Nat

namespace ExecuteSyncRunJobPayload

variable (payload : ExecuteSyncRunJobPayload)

def elements : List Element := payload.mockRecords.zipIdx

def letThrough (env : Env) (pipeline : SyncPipeline) : List Element :=
  if pipeline.incrementalMode && !payload.ignoreCursor then
    payload.elements.filter fun element =>
      SyncRunsService.shouldProcessRecord env.dates element.1
        (SyncRunsService.normalizeCursorState env.dates pipeline.cursorJson)
  else payload.elements

variable {payload} {env : Env} {pipeline : SyncPipeline} {element : Element}

theorem letThrough_records :
    (payload.letThrough env pipeline).map Prod.fst =
      SyncRunsService.eligibleRecords env pipeline payload.ignoreCursor
        payload.mockRecords := by
  simp only [letThrough, SyncRunsService.eligibleRecords]
  split
  · conv_rhs => rw [← List.zipIdx_map_fst 0 payload.mockRecords]
    rw [List.filter_map]
    rfl
  · exact List.zipIdx_map_fst 0 payload.mockRecords

theorem letThrough_sublist :
    (payload.letThrough env pipeline).Sublist payload.elements := by
  simp only [letThrough]
  split
  · exact List.filter_sublist
  · exact List.Sublist.refl _

theorem nodup_elements : payload.elements.Nodup :=
  List.Nodup.of_map Prod.snd (by
    rw [elements, List.zipIdx_map_snd]
    exact List.nodup_range')

end ExecuteSyncRunJobPayload

/-! ## The monitor of a delivery -/

/-- The elements that a delivery is still to take up, the one it is at and those
that it has stored. -/
structure Passage where
  toCome : List Element := []
  current : Option Element := none
  stored : List Element := []

def Passage.note (env : Env) (payload : ExecuteSyncRunJobPayload)
    (state : Passage) : (op : Op) → op.Res → Passage
  | .pipelineFindUnique _, found =>
      { state with
        toCome := (found.map (payload.letThrough env)).getD []
        current := none }
  | .transform _ _, _ =>
      { state with
        toCome := state.toCome.tail
        current := state.toCome.head? }
  | .syncedRecordCreate _, _ =>
      { state with
        current := none
        stored := state.stored ++ state.current.toList }
  | _, _ => state

structure NewSyncedRecord.Copies (data : NewSyncedRecord)
    (payload : ExecuteSyncRunJobPayload) (element : Element) : Prop where
  syncRunId : data.syncRunId = payload.syncRunId
  mem : element ∈ payload.elements
  externalId : data.externalId = element.1.externalId
  rawJson : data.rawJson = .obj (ensureRecordObject element.1.raw)

def Call.deliversRun (payload : ExecuteSyncRunJobPayload) (call : Call) : Prop :=
  ∃ jobId token attempts,
    call = .processJob jobId token (.executeSyncRun payload) attempts

/-- A delivery stores the element that it is at, and nothing before it has read
the pipeline. -/
def passing (env : Env) (payload : ExecuteSyncRunJobPayload) :
    Monitor Op.Res Call Passage where
  init _ := {}
  note _ := Passage.note env payload
  guard call state
    | .syncedRecordCreate data => call.deliversRun payload →
        ∃ element, state.current = some element ∧ data.Copies payload element
    | .pipelineFindUnique _ => call.deliversRun payload → state.stored = []
    | _ => True
  facts _ _
    | .syncRunFindUnique id, found => ∀ row, found = some row → row.id = id
    | _, _ => True

section Walk

variable {env : Env} {payload : ExecuteSyncRunJobPayload} {call : Call}
  {state : Passage} {actor : AuditActor}

def Op.leavesPassage : Op → Bool
  | .pipelineFindUnique _ => false
  | .transform _ _ => false
  | .syncedRecordCreate _ => false
  | _ => true

theorem passing_silent {op : Op} (hop : op.leavesPassage = true) :
    (passing env payload).Silent call state op := by
  cases op with
  | pipelineFindUnique _ | transform _ _ | syncedRecordCreate _ => cases hop
  | _ => exact ⟨trivial, fun _ => rfl⟩

theorem await_passes {op : Op} (hop : op.leavesPassage = true) :
    (await op).Uses ((passing env payload).Silent call state) :=
  (uses_await op).mpr (passing_silent hop)

theorem log_passes {action entityType entityId : String} {metadata : Record} :
    (AuditService.log action entityType entityId metadata actor).Uses
      ((passing env payload).Silent call state) := await_passes rfl

theorem passes_bind {α β : Type} {body : Body α} {rest : α → Body β}
    (hbody : body.Uses ((passing env payload).Silent call state))
    (hrest : ∀ value, (passing env payload).Accepts call (fun _ _ => True)
      (rest value) state) :
    (passing env payload).Accepts call (fun _ _ => True) (body.bind rest)
      state :=
  Monitor.accepts_silent_bind hbody hrest fun _ => trivial

theorem updateCursor_passes {syncRunId : Id} {pipeline : SyncPipeline}
    {loop : SyncRunsService.LoopState} :
    (SyncRunsService.updateCursor env syncRunId pipeline loop actor).Uses
      ((passing env payload).Silent call state) := by
  simp only [SyncRunsService.updateCursor]
  split
  · trivial
  · split
    · split
      · exact Uses.await (passing_silent rfl) fun _ => log_passes.bind
          fun _ => trivial
      · trivial
    · exact log_passes.bind fun _ => trivial

structure Passage.Comes (payload : ExecuteSyncRunJobPayload)
    (records : List SyncRunMockRecordPayload) (state : Passage) : Prop where
  records : state.toCome.map Prod.fst = records
  elements : ∀ element ∈ state.toCome, element ∈ payload.elements

theorem persistRecord_passes {pipelineId : Id}
    {loop : SyncRunsService.LoopState} {record : SyncRunMockRecordPayload}
    {normalized : Record} {records : List SyncRunMockRecordPayload}
    {element : Element} (hcurrent : state.current = some element)
    (helement : element ∈ payload.elements) (hrecord : element.1 = record)
    (h : state.Comes payload records) :
    (passing env payload).Accepts call (fun state _ => state.Comes payload records)
      (SyncRunsService.persistRecord env payload.syncRunId pipelineId actor loop
        record normalized) state := by
  simp only [SyncRunsService.persistRecord, bind_eq]
  refine Monitor.accepts_bind.mpr (Monitor.accepts_attempt.mpr
    (Monitor.accepts_await.mpr ⟨fun _ => ?_, fun row _ => ?_, fun _ _ => h⟩))
  · exact ⟨element, hcurrent, rfl, helement, by rw [hrecord]; rfl,
      by rw [hrecord]; rfl⟩
  · refine Monitor.accepts_bind.mpr (Monitor.accepts_attempt.mpr
      ((Monitor.accepts_of_silent ?_).mono ?_))
    · exact log_passes.bind fun _ => log_passes
    · rintro _ (failure | _) rfl
      · exact ⟨h.records, h.elements⟩
      · exact ⟨h.records, h.elements⟩

theorem processRecord_passes {pipelineId : Id}
    {compiledMapping : List NormalizedMappingField}
    {loop : SyncRunsService.LoopState} {record : SyncRunMockRecordPayload}
    {records : List SyncRunMockRecordPayload}
    (h : state.Comes payload (record :: records)) :
    (passing env payload).Accepts call
      (fun state result => match result with
        | .ok _ => state.Comes payload records
        | .error _ => True)
      (SyncRunsService.processRecord env payload.syncRunId pipelineId
        compiledMapping actor loop record) state := by
  obtain ⟨toCome, current, stored⟩ := state
  obtain ⟨element, rest, rfl, hrecord, hrest⟩ := List.map_eq_cons_iff.mp h.records
  refine Monitor.accepts_await_bind.mpr
    ⟨trivial, fun transformed _ => ?_, fun _ _ => trivial⟩
  have hcomes : Passage.Comes payload records ⟨rest, some element, stored⟩ :=
    ⟨hrest, fun other hother => h.elements other (List.mem_cons_of_mem _ hother)⟩
  have helement : element ∈ payload.elements :=
    h.elements element List.mem_cons_self
  split
  · refine Monitor.accepts_silent_bind log_passes (fun _ => ?_) fun _ => trivial
    exact hcomes
  · refine (persistRecord_passes rfl helement hrecord hcomes).mono ?_
    rintro state (failure | _) hcomes
    · trivial
    · exact hcomes

theorem processRunRecords_passes {pipeline : SyncPipeline}
    (h : state.toCome = payload.letThrough env pipeline) :
    (passing env payload).Accepts call (fun _ _ => True)
      (SyncRunsService.processRunRecords env payload.syncRunId pipeline
        payload.mockRecords payload.ignoreCursor actor) state := by
  have hcomes : Passage.Comes payload (SyncRunsService.eligibleRecords env
      pipeline payload.ignoreCursor payload.mockRecords) state := by
    constructor
    · rw [h]
      exact ExecuteSyncRunJobPayload.letThrough_records
    · rw [h]
      exact ExecuteSyncRunJobPayload.letThrough_sublist.subset
  refine Monitor.accepts_ofExcept_bind (fun compiledMapping _ => ?_)
    fun _ => trivial
  refine Monitor.accepts_bind.mpr (Monitor.Accepts.mono ?_
    (Monitor.accepts_foldlM
      (fun records (_ : SyncRunsService.LoopState) (state : Passage) =>
        state.Comes payload records)
      (fun _ _ => True)
      (fun record records loop state hloop =>
        (processRecord_passes hloop).mono ?_) hcomes))
  · rintro state (failure | loop) -
    · trivial
    · exact passes_bind updateCursor_passes fun _ => trivial
  · rintro state (failure | loop) hcomes
    · trivial
    · exact hcomes

theorem failQueuedRun_passes {attempts : Nat} {backgroundJobId syncRunId : Id}
    {pipeline : SyncPipeline} {startedAt : Time} {failure : Failure} :
    (passing env payload).Accepts call (fun _ _ => True)
      (SyncRunsService.failQueuedRun payload attempts backgroundJobId syncRunId
        pipeline startedAt actor failure) state := by
  refine passes_bind (await_passes rfl) fun finishedAt => ?_
  refine passes_bind (await_passes rfl) fun _ => ?_
  refine passes_bind (await_passes rfl) fun _ => ?_
  refine passes_bind (await_passes rfl) fun _ => ?_
  exact passes_bind log_passes fun _ => passes_bind log_passes fun _ => trivial

theorem runQueuedRecords_passes {attempts : Nat} {backgroundJobId : Id}
    {pipeline : SyncPipeline} {startedAt : Time}
    (h : state.toCome = payload.letThrough env pipeline) :
    (passing env payload).Accepts call (fun _ _ => True)
      (SyncRunsService.runQueuedRecords env payload attempts backgroundJobId
        payload.syncRunId pipeline startedAt actor) state := by
  refine Monitor.accepts_bind.mpr ((processRunRecords_passes h).mono ?_)
  rintro state (failure | summary) -
  · trivial
  · refine passes_bind (await_passes rfl) fun finishedAt => ?_
    refine passes_bind (await_passes rfl) fun _ => ?_
    refine passes_bind (await_passes rfl) fun _ => ?_
    refine passes_bind (await_passes rfl) fun _ => ?_
    exact passes_bind log_passes fun _ =>
      (Monitor.accepts_of_silent log_passes).mono fun _ _ _ => trivial

theorem processQueuedSyncRun_passes {attempts : Nat} :
    (passing env payload).Accepts call (fun _ _ => True)
      (SyncRunsService.processQueuedSyncRun env payload attempts) {} := by
  simp only [SyncRunsService.processQueuedSyncRun, PipelinesService.getById,
    bind_eq, Prog.bind_assoc]
  refine passes_bind (await_passes rfl) fun found => passes_bind ?_
    fun backgroundJob => ?_
  · cases found <;> trivial
  refine Monitor.accepts_await_bind.mpr
    ⟨trivial, fun found hfound => ?_, fun _ _ => trivial⟩
  cases found with
  | none => trivial
  | some syncRun =>
      have hid : syncRun.id = payload.syncRunId := hfound syncRun rfl
      simp only [orNotFound, ret_bind, hid]
      -- The read of the pipeline decides which elements are taken up.
      refine Monitor.accepts_await_bind.mpr
        ⟨fun _ => rfl, fun found _ => ?_, fun _ _ => trivial⟩
      cases found with
      | none => trivial
      | some pipeline =>
          simp only [ret_bind]
          refine passes_bind (await_passes rfl) fun startedAt => ?_
          refine passes_bind (await_passes rfl) fun _ => ?_
          refine passes_bind (await_passes rfl) fun _ => ?_
          refine passes_bind log_passes fun _ => passes_bind log_passes fun _ => ?_
          refine Monitor.accepts_tryCatch.mpr
            ((runQueuedRecords_passes rfl).mono ?_)
          rintro state (failure | _) -
          · exact failQueuedRun_passes
          · trivial

theorem body_passes (env : Env) (payload : ExecuteSyncRunJobPayload)
    (call : Call) :
    (passing env payload).Accepts call (fun _ _ => True) (call.body env) {} := by
  by_cases hcall : call.deliversRun payload
  · obtain ⟨jobId, token, attempts, rfl⟩ := hcall
    refine Monitor.accepts_bind.mpr (Monitor.Accepts.mono
      (Q := fun _ _ => True) ?_ ?_)
    · rintro state (failure | _) - <;> trivial
    · refine Monitor.accepts_bind.mpr (Monitor.accepts_attempt.mpr
        (processQueuedSyncRun_passes.mono fun state result _ => ?_))
      cases result with
      | ok _ => exact ⟨trivial, fun _ _ => trivial, fun _ _ => trivial⟩
      | error failure => exact ⟨trivial, fun _ _ => trivial, fun _ _ => trivial⟩
  · -- Of the other calls nothing is asked.
    refine Monitor.Keeps.accepts (I := fun _ => True)
      (.of_uses (uses_of_forall (fun op state _ => ?_) _)) _ trivial
    refine ⟨?_, fun _ => trivial⟩
    cases op with
    | syncedRecordCreate _ | pipelineFindUnique _ =>
        exact fun hdelivers => absurd hdelivers hcall
    | _ => trivial

end Walk

/-! ## Interleavings -/

def Passage.held (unfinished : Bool) (state : Passage) : List Element :=
  state.stored ++
    if unfinished then state.current.toList ++ state.toCome else []

def Store.rowsOf (store : Store) (runId : Id) : List SyncedRecord :=
  store.syncedRecords.filter fun row => row.syncRunId = runId

structure SyncedRecord.Stems (payload : ExecuteSyncRunJobPayload)
    (row : SyncedRecord) (element : Element) : Prop where
  mem : element ∈ payload.elements
  externalId : row.externalId = element.1.externalId
  rawJson : row.rawJson = .obj (ensureRecordObject element.1.raw)

/-- The run has been created and stored nothing, and its jobs carry the
payload. -/
structure Store.QueuedFor (payload : ExecuteSyncRunJobPayload) (store : Store) :
    Prop where
  known : payload.syncRunId < store.nextId
  rows : store.rowsOf payload.syncRunId = []
  jobs : ∀ job ∈ store.jobs,
    job.payload.syncRunId? = some payload.syncRunId →
      job.payload = .executeSyncRun payload

section Interleavings

variable (env : Env) (payload : ExecuteSyncRunJobPayload)

def storedBy (task : Task Op.Res Failure Answer Call) : List Element :=
  if task.call.executes payload.syncRunId then
    ((passing env payload).state task).stored
  else []

def heldBy (task : Task Op.Res Failure Answer Call) : List Element :=
  if task.call.executes payload.syncRunId then
    ((passing env payload).state task).held (!task.prog.finished)
  else []

def storings (pool : Platform) : List Element :=
  pool.tasks.flatMap (storedBy env payload)

/-- A delivery reads its pipeline, and the cursor lets an element through that
is stored or that a delivery is still to come to. -/
def takesUpAgain (pool : Platform) : Step → Bool
  | .run index =>
      match pool.tasks[index]? with
      | some ⟨caller, _, .call op _⟩ =>
          match op with
          | .pipelineFindUnique id =>
              caller.executes payload.syncRunId &&
                match Table.find SyncPipeline.id id pool.store.pipelines with
                | some pipeline =>
                    (payload.letThrough env pipeline).any fun element =>
                      pool.tasks.any fun other =>
                        (heldBy env payload other).any fun held =>
                          held.2 = element.2
                | none => false
          | _ => false
      | _ => false
  | _ => false

variable {env payload} {ok : Platform → Step → Prop} {init : Store}
  {pool : Platform}

theorem passing_accepts (h : (platform env).Reach ok init.boot pool) :
    ∀ task ∈ pool.tasks, (passing env payload).Accepts task.call
      (fun _ _ => True) task.prog ((passing env payload).state task) := by
  refine Monitor.accepts_of_reach (Q := fun _ _ _ => True) ?_
    (fun _ _ _ _ => trivial) (body_passes env payload) rfl h
  intro call state op store value store' hexec
  cases op with
  | syncRunFindUnique id =>
      obtain rfl := @exec_syncRunFindUnique env _ _ _ _ hexec
      exact fun row hrow => Table.find_key hrow
  | _ => trivial

theorem nextId_le_of_reach (h : (platform env).Reach ok init.boot pool) :
    init.nextId ≤ pool.store.nextId := by
  refine h.invariant (I := fun pool => init.nextId ≤ pool.store.nextId)
    (Nat.le_refl _) (fun _ _ _ hle _ _ => hle) ?_ ?_ ?_
  · intro pool pool' index task op next value _ hle _ hdone
    rw [effect_of_done hdone]
    exact hle.trans nextId_le_effect
  · intro pool pool' index task op next error _ hle _ hraised
    rwa [hraised.store]
  · intro pool pool' event calls _ hle _ henv _
    obtain ⟨clock, jobs, hstore⟩ := Event.apply_store henv
    rwa [hstore]

/-- A run that was there at the start is executed by deliveries alone, and
nobody queues it. -/
theorem executing_known {runId : Id} (hknown : runId < init.nextId)
    (h : (platform env).Reach ok init.boot pool) :
    ∀ task ∈ pool.tasks, ((counting runId).state task).queued = false ∧
      (((counting runId).state task).executing = true →
        task.call.executes runId = true) := by
  refine h.forall_tasks (P := fun _ task =>
    ((counting runId).state task).queued = false ∧
      (((counting runId).state task).executing = true →
        task.call.executes runId = true)) ?_ ?_ ?_ ?_ ?_ ?_
  · exact fun task htask => absurd htask List.not_mem_nil
  · exact fun _ call => ⟨rfl, id⟩
  · exact fun _ _ _ _ _ _ hold => hold
  · exact fun _ _ _ _ _ _ _ hold => hold
  · rintro pool pool' index ⟨caller, trace, prog⟩ op next value hreach hold
      hdone
    rw [Monitor.state_cons _ _ _ _ _ prog]
    cases op with
    | syncRunCreate data =>
        obtain rfl := exec_syncRunCreate (exec_of_done hdone)
        have hother : (pool.store.createSyncRun data).1.id ≠ runId :=
          Nat.ne_of_gt (hknown.trans_le (nextId_le_of_reach hreach))
        simpa only [counting, Counting.note, if_neg hother] using hold
    | syncRunUpdate id data =>
        simp only [counting, Counting.note]
        split <;> exact hold
    | syncedRecordCreate data =>
        simp only [counting, Counting.note]
        split <;> exact hold
    | _ => exact hold
  · exact fun _ _ _ _ _ _ hold _ => hold

theorem delivers_of_executes (hinit : init.QueuedFor payload)
    (h : (platform env).Reach ok init.boot pool) :
    ∀ task ∈ pool.tasks, task.call.executes payload.syncRunId = true →
      task.call.deliversRun payload := by
  have hpayloads := payloads_of_reach (P := fun _ other =>
    other.syncRunId? = some payload.syncRunId →
      other = .executeSyncRun payload) hinit.jobs (fun _ _ _ hold => hold)
    (fun _ _ _ _ hold => hold) ?_ h
  · intro task htask hexecutes
    cases hcall : task.call with
    | processJob jobId token other attempts =>
        rw [hcall] at hexecutes
        obtain rfl := hpayloads.calls task htask _ _ _ _ hcall
          (executes_iff.mp hexecutes)
        exact ⟨jobId, token, attempts, rfl⟩
    | _ =>
        rw [hcall] at hexecutes
        cases hexecutes
  · intro pool pool' index task jobId other attempts next value hreach hdone
      hruns
    have hmem := List.mem_of_getElem? hdone.at_index
    have hqueued := (executing_known hinit.known hreach task hmem).1
    have hguard : (counting payload.syncRunId).Accepts task.call
        (fun _ _ => True) task.prog
        ((counting payload.syncRunId).state task) :=
      counting_accepts hreach task hmem
    rw [hdone.awaits] at hguard
    cases other with
    | executeSyncRun other =>
        rw [hguard.1 (Option.some.inj hruns)] at hqueued
        cases hqueued
    | processWebhookEvent other => cases hruns

/-- What one step leaves a delivery with: only the read of the pipeline gives
it something new. -/
theorem held_note {state : Passage} {call : Call} {op : Op} {value : op.Res}
    (hop : ∀ id, op ≠ .pipelineFindUnique id) (unfinished : Bool) :
    (((passing env payload).note call state op value).held unfinished).Sublist
      (state.held true) := by
  obtain ⟨toCome, current, stored⟩ := state
  have hnothing : ∀ rest : List Element,
      ((if unfinished then rest else []) : List Element).Sublist rest := by
    intro rest
    split
    · exact List.Sublist.refl rest
    · exact List.nil_sublist rest
  cases op with
  | pipelineFindUnique id => exact absurd rfl (hop id)
  | transform source fields =>
      refine List.Sublist.append_left ((hnothing _).trans ?_) stored
      have hsplit : toCome.head?.toList ++ toCome.tail = toCome := by
        cases toCome <;> rfl
      simp only [passing, Passage.note, hsplit]
      exact List.sublist_append_right _ _
  | syncedRecordCreate data =>
      simp only [passing, Passage.note, Passage.held, List.append_assoc]
      refine List.Sublist.append_left (List.Sublist.append_left ?_ _) stored
      exact hnothing _
  | _ => exact List.Sublist.append_left (hnothing _) stored

theorem held_read {state : Passage} {call : Call} {id : Id}
    {found : Option SyncPipeline} (hstored : state.stored = [])
    (unfinished : Bool) :
    (((passing env payload).note call state (.pipelineFindUnique id)
      found).held unfinished).Sublist
        ((found.map (payload.letThrough env)).getD []) := by
  simp only [passing, Passage.note, Passage.held, hstored, List.nil_append,
    Option.toList_none]
  split
  · exact List.Sublist.refl _
  · exact List.nil_sublist _

theorem storedBy_sublist (task : Task Op.Res Failure Answer Call) :
    (storedBy env payload task).Sublist (heldBy env payload task) := by
  simp only [storedBy, heldBy]
  split
  · exact List.sublist_append_left _ _
  · exact List.Sublist.refl _

theorem new_of_read {index : Nat} {caller : Call} {id : Id}
    {trace : List (Σ op : Op, op.Res)}
    {next : Except Failure (Option SyncPipeline) → Body Answer}
    (hget : pool.tasks[index]? =
      some ⟨caller, trace, .call (.pipelineFindUnique id) next⟩)
    (hexecutes : caller.executes payload.syncRunId = true)
    (hok : takesUpAgain env payload pool (.run index) = false) :
    ∀ element ∈ ((Table.find SyncPipeline.id id pool.store.pipelines).map
        (payload.letThrough env)).getD [],
      ∀ other ∈ pool.tasks, element ∉ heldBy env payload other := by
  intro element helement other hother hagain
  simp only [takesUpAgain, hget, hexecutes, Bool.true_and] at hok
  cases hfound : Table.find SyncPipeline.id id pool.store.pipelines with
  | none =>
      rw [hfound] at helement
      cases helement
  | some pipeline =>
      rw [hfound] at helement hok
      refine List.any_eq_false.mp hok element helement ?_
      refine List.any_eq_true.mpr ⟨other, hother, ?_⟩
      exact List.any_eq_true.mpr ⟨element, hagain, decide_eq_true rfl⟩

theorem nodup_heldBy (hinit : init.QueuedFor payload)
    (h : (platform env).Reach
      (fun pool step => takesUpAgain env payload pool step = false) init.boot
      pool) :
    (pool.tasks.flatMap (heldBy env payload)).Nodup := by
  refine h.nodup_holds (fun call => ?_) ?_ ?_ rfl
  · simp [heldBy, passing, Passage.held]
  · rintro pool pool' index ⟨caller, trace, prog⟩ op next value hreach hok hdone
    obtain rfl := hdone.awaits
    simp only [heldBy]
    by_cases hexecutes : caller.executes payload.syncRunId = true
    swap
    · left
      simp [hexecutes]
    simp only [hexecutes, if_true]
    rw [Monitor.state_cons _ _ _ _ _ (.call op next)]
    by_cases hop : ∃ id, op = .pipelineFindUnique id
    swap
    · left
      exact held_note (fun id heq => hop ⟨id, heq⟩) _
    -- What the cursor lets through is new.
    obtain ⟨id, rfl⟩ := hop
    right
    have hmem := List.mem_of_getElem? hdone.at_index
    have hguard := @passing_accepts env payload _ _ _ hreach _ hmem
    have hstored := hguard.1 (delivers_of_executes hinit hreach _ hmem hexecutes)
    obtain rfl := exec_pipelineFindUnique (exec_of_done hdone)
    have hnew := new_of_read hdone.at_index hexecutes hok
    generalize Table.find SyncPipeline.id id pool.store.pipelines = found
      at hnew ⊢
    have hsub := @held_read env payload _ caller id found hstored
      (!(next (.ok found)).finished)
    refine ⟨?_, fun held hheld => hnew held (hsub.subset hheld)⟩
    refine List.Nodup.sublist hsub ?_
    cases found with
    | none => exact List.nodup_nil
    | some pipeline =>
        exact ExecuteSyncRunJobPayload.nodup_elements.sublist
          ExecuteSyncRunJobPayload.letThrough_sublist
  · intro task op next error hprog
    simp only [heldBy, hprog]
    split
    · refine List.Sublist.append_left ?_ _
      split
      · exact List.Sublist.refl _
      · exact List.nil_sublist _
    · exact List.Sublist.refl _

theorem rowsOf_create {store : Store} {data : NewSyncedRecord}
    (hrun : data.syncRunId = payload.syncRunId) :
    ((Op.syncedRecordCreate data).effect store).rowsOf payload.syncRunId =
      store.rowsOf payload.syncRunId ++ [(store.createSyncedRecord data).1] := by
  simp [Store.rowsOf, Op.effect, Store.createSyncedRecord, hrun]

theorem rowsOf_effect {store : Store} {op : Op}
    (hop : ∀ data, op = .syncedRecordCreate data →
      data.syncRunId ≠ payload.syncRunId) :
    (op.effect store).rowsOf payload.syncRunId =
      store.rowsOf payload.syncRunId := by
  cases hwrites : op.writesSyncedRecords with
  | false => rw [Store.rowsOf, effect_syncedRecords hwrites, Store.rowsOf]
  | true =>
      cases op with
      | syncedRecordCreate data =>
          have hother := hop data rfl
          simp [Store.rowsOf, Op.effect, Store.createSyncedRecord, hother]
      | _ => cases hwrites

theorem storedBy_note {caller : Call} {op : Op} {value : op.Res}
    {trace : List (Σ op : Op, op.Res)} {prog prog' : Body Answer}
    (hop : ∀ data, op = .syncedRecordCreate data →
      caller.executes payload.syncRunId = false) :
    storedBy env payload ⟨caller, ⟨op, value⟩ :: trace, prog'⟩ =
      storedBy env payload ⟨caller, trace, prog⟩ := by
  simp only [storedBy]
  split
  · rename_i hexecutes
    rw [Monitor.state_cons _ _ _ _ _ prog]
    cases op with
    | syncedRecordCreate data =>
        rw [hop data rfl] at hexecutes
        cases hexecutes
    | _ => rfl
  · rfl

theorem rows_stem_done {index : Nat}
    {task : Task Op.Res Failure Answer Call} {op : Op}
    {next : Except Failure op.Res → Body Answer} {value : op.Res}
    {pool' : Platform} {origin : List Element}
    (hinit : init.QueuedFor payload)
    (hreach : (platform env).Reach ok init.boot pool)
    (hperm : origin.Perm (storings env payload pool))
    (hrows : List.Forall₂ (SyncedRecord.Stems payload)
      (pool.store.rowsOf payload.syncRunId) origin)
    (hdone : (platform env).Done pool pool' index task op next value) :
    ∃ origin, origin.Perm (storings env payload pool') ∧
      List.Forall₂ (SyncedRecord.Stems payload)
        (pool'.store.rowsOf payload.syncRunId) origin := by
  obtain ⟨caller, trace, prog⟩ := task
  obtain rfl := hdone.awaits
  rw [effect_of_done hdone, storings, hdone.tasks]
  have hmem := List.mem_of_getElem? hdone.at_index
  have hcounts := (@counting_accepts env payload.syncRunId _ _ _ hreach _
    hmem).1
  have hdelivers := delivers_of_executes hinit hreach _ hmem
  have hexecutes := (executing_known hinit.known hreach _ hmem).2
  by_cases hstores : ∃ data, op = .syncedRecordCreate data ∧
      data.syncRunId = payload.syncRunId
  · obtain ⟨data, rfl, hrun⟩ := hstores
    have hcaller := hexecutes (hcounts hrun).1
    obtain ⟨element, hcurrent, hcopies⟩ :=
      (passing_accepts hreach _ hmem).1 (hdelivers hcaller)
    have hstored : storedBy env payload
        ⟨caller, ⟨.syncedRecordCreate data, value⟩ :: trace,
          next (.ok value)⟩ =
        storedBy env payload ⟨caller, trace, .call _ next⟩ ++ [element] := by
      have hstate := congrArg Option.toList hcurrent
      simp only [storedBy, if_pos hcaller]
      rw [Monitor.state_cons _ _ _ _ _ (.call _ next)]
      exact congrArg (_ ++ ·) hstate
    refine ⟨origin ++ [element], ?_, ?_⟩
    · exact (hperm.append_right _).trans
        (perm_set_of_append hdone.at_index hstored).symm
    · rw [rowsOf_create hrun]
      exact List.rel_append hrows (.cons ⟨hcopies.mem, hcopies.externalId,
        hcopies.rawJson⟩ .nil)
  · rw [rowsOf_effect fun data heq hrun => hstores ⟨data, heq, hrun⟩]
    refine ⟨origin, ?_, hrows⟩
    rw [flatMap_set_of_eq hdone.at_index (storedBy_note ?_)]
    · exact hperm
    · rintro data rfl
      by_contra hcaller
      rw [Bool.not_eq_false] at hcaller
      obtain ⟨element, -, hcopies⟩ :=
        (passing_accepts hreach _ hmem).1 (hdelivers hcaller)
      exact hstores ⟨data, rfl, hcopies.syncRunId⟩

theorem rows_stem (hinit : init.QueuedFor payload)
    (h : (platform env).Reach ok init.boot pool) :
    ∃ origin, origin.Perm (storings env payload pool) ∧
      List.Forall₂ (SyncedRecord.Stems payload)
        (pool.store.rowsOf payload.syncRunId) origin := by
  refine h.invariant (I := fun pool => ∃ origin,
    origin.Perm (storings env payload pool) ∧
      List.Forall₂ (SyncedRecord.Stems payload)
        (pool.store.rowsOf payload.syncRunId) origin) ?_ ?_ ?_ ?_ ?_
  · refine ⟨[], List.Perm.refl _, ?_⟩
    rw [show init.boot.store.rowsOf payload.syncRunId = [] from hinit.rows]
    exact .nil
  · rintro pool call - ⟨origin, hperm, hrows⟩ - -
    refine ⟨origin, ?_, hrows⟩
    simpa [storings, storedBy, passing] using hperm
  · rintro pool pool' index task op next value hreach ⟨origin, hperm, hrows⟩ -
      hdone
    exact rows_stem_done hinit hreach hperm hrows hdone
  · rintro pool pool' index task op next error - ⟨origin, hperm, hrows⟩ - hraised
    rw [hraised.store, storings, hraised.tasks,
      flatMap_set_of_eq hraised.at_index]
    · exact ⟨origin, hperm, hrows⟩
    · rfl
  · rintro pool pool' event calls - ⟨origin, hperm, hrows⟩ - henv htasks
    obtain ⟨clock, jobs, hstore⟩ := Event.apply_store henv
    have hnew : (calls.map (platform env).spawn).flatMap
        (storedBy env payload) = [] := by
      rw [List.flatMap_map, List.flatMap_eq_nil_iff]
      intro call _
      simp [storedBy, passing]
    rw [hstore, storings, htasks, List.flatMap_append, hnew, List.append_nil]
    exact ⟨origin, hperm, hrows⟩

/-- Where no delivery takes up an element again, each row of the run comes from
an element of its own. -/
theorem records_stored_once (hinit : init.QueuedFor payload)
    (h : (platform env).Reach
      (fun pool step => takesUpAgain env payload pool step = false) init.boot
      pool) :
    ∃ origin, origin.Perm (storings env payload pool) ∧ origin.Nodup ∧
      List.Forall₂ (SyncedRecord.Stems payload)
        (pool.store.rowsOf payload.syncRunId) origin := by
  obtain ⟨origin, hperm, hrows⟩ := rows_stem hinit h
  refine ⟨origin, hperm, hperm.nodup_iff.mpr ?_, hrows⟩
  exact (nodup_heldBy hinit h).sublist
    (List.Sublist.flatMap_right _ fun task _ => storedBy_sublist task)

end Interleavings

/-! ## A job with one record -/

def queuedPayload : ExecuteSyncRunJobPayload where
  backgroundJobId := 4
  syncRunId := 5
  pipelineId := 3
  requestedByUserId := 1
  requestedByRole := .operator
  mockRecords := [⟨some "a-1", .obj []⟩]
  ignoreCursor := false
  triggerType := .manual

def queuedStore : Store :=
  { Sample.store with
    syncRuns := [{
      id := 5
      pipelineId := 3
      status := .queued
      triggerType := .manual
      recordsReceived := 1
      recordsProcessed := 0
      recordsFailed := 0
      errorMessage := none
      startedAt := none
      finishedAt := none
      createdAt := 0 }]
    backgroundJobs := [{
      id := 4
      type := .syncRun
      status := .queued
      entityType := "sync_run"
      entityId := 5
      attempts := 0
      lastError := none
      metadataJson := none
      createdAt := 0
      startedAt := none
      finishedAt := none
      durationMs := none }]
    jobs := [{
      id := 4
      payload := .executeSyncRun queuedPayload
      attempts := 3
      attemptsMade := 0
      state := .waiting }] }

theorem queuedFor_queuedStore : queuedStore.QueuedFor queuedPayload where
  known := by decide
  rows := rfl
  jobs := fun _ hjob _ => congrArg QueueJob.payload (List.mem_singleton.mp hjob)

def redelivery (before left after : Nat) : List Step :=
  [.env (.deliver 0)] ++ List.replicate before (.run 0) ++
    [.fail 0 (.error "database unavailable")] ++ List.replicate left (.run 0) ++
    [.env (.deliver 0)] ++ List.replicate after (.run 1)

/-- The first delivery fails before it comes to the record. -/
theorem records_stored_once_of_retry :
    ∃ pool, (platform (Sample.env .async)).runWhere
        (fun pool step => takesUpAgain (Sample.env .async) queuedPayload pool
          step = false) queuedStore.boot (redelivery 4 1 20) = some pool ∧
      (pool.store.rowsOf 5).length = 1 ∧
      ∃ origin, origin.Perm (storings (Sample.env .async) queuedPayload pool) ∧
        origin.Nodup ∧ List.Forall₂ (SyncedRecord.Stems queuedPayload)
          (pool.store.rowsOf 5) origin := by
  have hruns : ((platform (Sample.env .async)).runWhere
      (fun pool step => takesUpAgain (Sample.env .async) queuedPayload pool
        step = false) queuedStore.boot (redelivery 4 1 20)).any (fun pool =>
          (pool.store.rowsOf 5).length = 1) = true := by
    decide +kernel
  obtain ⟨pool, hrun, hrows⟩ := (Option.any_eq_true _ _).mp hruns
  exact ⟨pool, hrun, of_decide_eq_true hrows,
    records_stored_once queuedFor_queuedStore (System.reach_of_runWhere hrun)⟩

/-- The write of the counters fails after the record is stored, and the next
delivery stores the record once more. -/
theorem records_stored_once_fails :
    ∃ pool, (platform (Sample.env .async)).Reach (fun _ _ => True)
        queuedStore.boot pool ∧
      ¬ ∃ origin : List Element, origin.Nodup ∧
        List.Forall₂ (SyncedRecord.Stems queuedPayload) (pool.store.rowsOf 5)
          origin := by
  have hruns : ((platform (Sample.env .async)).run queuedStore.boot
      (redelivery 14 7 10)).any (fun pool =>
        (pool.store.rowsOf 5).length = 2) = true := by
    decide +kernel
  obtain ⟨pool, hrun, hrows⟩ := (Option.any_eq_true _ _).mp hruns
  refine ⟨pool, System.reach_of_run hrun, ?_⟩
  rintro ⟨origin, hnodup, hstems⟩
  obtain ⟨first, second, htwo⟩ :=
    List.length_eq_two.mp (of_decide_eq_true hrows)
  rw [htwo] at hstems
  obtain _ | ⟨hfirst, _ | ⟨hsecond, _ | _⟩⟩ := hstems
  -- There is one element to come from.
  have honly : ∀ element ∈ queuedPayload.elements,
      element = (⟨some "a-1", .obj []⟩, 0) := by
    simp [ExecuteSyncRunJobPayload.elements, queuedPayload]
  rw [honly _ hfirst.mem, honly _ hsecond.mem] at hnodup
  exact List.not_nodup_pair _ hnodup

end SyncBridge
