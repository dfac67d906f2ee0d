import SyncBridge.Cursor.HighWater
import SyncBridge.Foundation.Monitor

/-!
# The cursor over all runs

A run overwrites the cursor with the candidate it has picked from the records
that it has stored, and does not look at the cursor that is stored by then.
Over any interleaving of calls the cursor keeps moving forward as long as each
such write finds a candidate that is not behind it and that is picked.
-/

namespace SyncBridge

open SyncBridge.Foundation SyncBridge.Foundation.Prog
open SyncBridge.SyncRunsService

/-! ## Moving forward -/

/-- A sequence is never lost or lowered, and without one the time is not. -/
def Forward : Option CursorState → Option CursorState → Prop
  | some ⟨some known, _⟩, some ⟨some next, _⟩ => known ≤ next
  | some ⟨some _, _⟩, _ => False
  | some ⟨none, some _⟩, some ⟨some _, _⟩ => True
  | some ⟨none, some known⟩, some ⟨none, some next⟩ => known ≤ next
  | some ⟨none, some _⟩, _ => False
  | _, _ => True

instance (known next : DateValue) : Decidable (known ≤ next) :=
  Int.decLe known.1 next.1

instance (earlier later : Option CursorState) :
    Decidable (Forward earlier later) := by
  unfold Forward
  split <;> infer_instance

/-- Some candidate is not behind the cursor, is newer than the earlier ones that
are, and none that is behind comes later and is newer than one that is not. -/
def Advances (cursor : Option CursorState) (candidates : List CursorCandidate) :
    Prop :=
  ∃ before candidate after, candidates = before ++ candidate :: after ∧
    Forward cursor (some candidate) ∧
    (∀ earlier ∈ before, ¬ Forward cursor (some earlier) →
      isCandidateNewer candidate earlier = true) ∧
    ∀ later ∈ after, ¬ Forward cursor (some later) →
      ∀ other ∈ candidates, Forward cursor (some other) →
        isCandidateNewer later other = false

section Order

variable {first second third cursor : Option CursorState}
  {candidates : List CursorCandidate} {candidate chosen : CursorCandidate}

theorem forward_refl (cursor : Option CursorState) : Forward cursor cursor := by
  rcases cursor with _ | ⟨_ | known, _ | time⟩ <;> simp [Forward]

theorem Forward.trans (h : Forward first second) (h' : Forward second third) :
    Forward first third := by
  rcases first with _ | ⟨_ | known, _ | time⟩ <;>
    rcases second with _ | ⟨_ | next, _ | time'⟩ <;>
    rcases third with _ | ⟨_ | last, _ | time''⟩ <;>
    simp_all [Forward]
  all_goals exact le_trans h h'

theorem forward_of_advances
    (hparts : ∀ candidate ∈ candidates, CursorCandidate.HasPart candidate)
    (hpicked : pickAll laterCandidate (candidates.map some) = some chosen)
    (h : Advances cursor candidates) : Forward cursor (some chosen) := by
  obtain ⟨before, candidate, after, hsplit, hforward, hearlier, hlater⟩ := h
  have hchosen : ∀ left ∈ candidates, ∀ right ∈ candidates,
      laterCandidate left right =
        if isCandidateNewer right left then right else left :=
    fun left hleft right hright =>
      laterCandidate_eq (hparts left hleft) (hparts right hright)
  have hbefore : ∀ left, some left ∈ before.map some → left ∈ before := by simp
  have hafter : ∀ right, some right ∈ after.map some → right ∈ after := by simp
  rw [hsplit] at hpicked hlater hchosen
  rw [List.map_append, List.map_cons] at hpicked
  have hgood := pickAll_good
    (P := fun other => other ∈ before ++ candidate :: after ∧
      Forward cursor (some other)) laterCandidate_mem
    ⟨by simp, hforward⟩ ?_ ?_ hpicked
  · exact hgood.2
  · intro left hleft
    have hmem := hbefore left hleft
    rw [hchosen left (by simp [hmem]) candidate (by simp)]
    split
    · exact ⟨by simp, hforward⟩
    · rename_i hnot
      refine ⟨by simp [hmem], ?_⟩
      by_contra hbehind
      exact hnot (hearlier left hmem hbehind)
  · rintro left right ⟨hleft, hgood⟩ hright
    have hmem := hafter right hright
    rw [hchosen left hleft right (by simp [hmem])]
    split
    · rename_i hnewer
      refine ⟨by simp [hmem], ?_⟩
      by_contra hbehind
      rw [hlater right hmem hbehind left hleft hgood] at hnewer
      cases hnewer
    · exact ⟨hleft, hgood⟩

def OfOneKind (candidates : List CursorCandidate) : Prop :=
  ∀ first ∈ candidates, ∀ second ∈ candidates,
    first.sequence.isSome = second.sequence.isSome

theorem older_of_behind {behind : CursorCandidate}
    (hkind : behind.sequence.isSome = candidate.sequence.isSome)
    (hpart : CursorCandidate.HasPart behind)
    (hbehind : ¬ Forward cursor (some behind))
    (hforward : Forward cursor (some candidate)) :
    isCandidateNewer candidate behind = true ∧
      isCandidateNewer behind candidate = false := by
  obtain ⟨sequence, time⟩ := candidate
  obtain ⟨sequence', time'⟩ := behind
  rcases cursor with _ | ⟨_ | known, _ | known'⟩ <;>
    cases sequence <;> cases sequence' <;> cases time <;> cases time' <;>
    simp_all [Forward, isCandidateNewer, CursorCandidate.HasPart]
  all_goals exact ⟨hbehind.trans_le hforward, (hbehind.trans_le hforward).le⟩

/-- Among candidates of one kind nothing else moves the cursor forward. -/
theorem forward_iff_advances
    (hparts : ∀ candidate ∈ candidates, CursorCandidate.HasPart candidate)
    (hkind : OfOneKind candidates)
    (hpicked : pickAll laterCandidate (candidates.map some) = some chosen) :
    Forward cursor (some chosen) ↔ Advances cursor candidates := by
  refine ⟨fun hforward => ?_, forward_of_advances hparts hpicked⟩
  have hmem : chosen ∈ candidates := by
    simpa using mem_of_pickAll laterCandidate_mem hpicked
  have holder : ∀ behind ∈ candidates, ¬ Forward cursor (some behind) →
      ∀ other ∈ candidates, Forward cursor (some other) →
        isCandidateNewer other behind = true ∧
          isCandidateNewer behind other = false :=
    fun behind hin hbehind other hother hgood =>
      older_of_behind (hkind behind hin other hother) (hparts behind hin)
        hbehind hgood
  obtain ⟨before, after, hsplit⟩ := List.append_of_mem hmem
  refine ⟨before, chosen, after, hsplit, hforward, ?_, ?_⟩
  · intro earlier hearlier hbehind
    have hin : earlier ∈ candidates := by simp [hsplit, hearlier]
    exact (holder earlier hin hbehind chosen hmem hforward).1
  · intro later hlater hbehind other hother hgood
    have hin : later ∈ candidates := by simp [hsplit, hlater]
    exact (holder later hin hbehind other hother hgood).2

end Order

/-! ## What a run has noted -/

/-- The candidates of the records that a call has stored since it last wrote to
a run. -/
def noted (dates : Dates) (candidates : List CursorCandidate) :
    (op : Op) → op.Res → List CursorCandidate
  | .syncRunCreate _, _ => []
  | .syncRunUpdate _ _, _ => []
  | .syncedRecordCreate data, _ => candidates ++
      (extractCursorCandidate dates (ensureRecordObject data.rawJson)).toList
  | _, _ => candidates

def writesPicked (dates : Dates) (candidates : List CursorCandidate)
    (data : PipelineData) : Prop :=
  ∀ cursorJson, data.cursorJson = some cursorJson → ∃ chosen document,
    pickAll laterCandidate (candidates.map some) = some chosen ∧
      cursorCandidateToJson dates chosen = some document ∧
      cursorJson = .obj document

def picking (dates : Dates) : Monitor Op.Res Call (List CursorCandidate) where
  init _ := []
  note _ := noted dates
  guard _ candidates
    | .pipelineUpdate _ data => writesPicked dates candidates data
    | _ => True
  facts _ _ _ _ := True

section Walk

variable {env : Env} {call : Call} {candidates : List CursorCandidate}

def Op.leavesCursor : Op → Prop
  | .syncRunCreate _ => False
  | .syncRunUpdate _ _ => False
  | .syncedRecordCreate _ => False
  | .pipelineUpdate _ data => data.cursorJson = none
  | _ => True

theorem writesPicked_none {dates : Dates} {data : PipelineData}
    (h : data.cursorJson = none) : writesPicked dates candidates data := by
  intro cursorJson hcursor
  rw [h] at hcursor
  cases hcursor

theorem picking_silent {op : Op} (hop : op.leavesCursor) :
    (picking env.dates).Silent call candidates op := by
  cases op with
  | syncRunCreate _ | syncRunUpdate _ _ | syncedRecordCreate _ => cases hop
  | pipelineUpdate _ _ => exact ⟨writesPicked_none hop, fun _ => rfl⟩
  | _ => exact ⟨trivial, fun _ => rfl⟩

theorem log_leavesCursor {action entityType entityId : String}
    {metadata : Record} {actor : AuditActor} :
    (AuditService.log action entityType entityId metadata actor).Uses
      ((picking env.dates).Silent call candidates) :=
  (uses_await _).mpr (picking_silent trivial)

abbrev Picks (env : Env) (call : Call) {α : Type} (body : Body α) : Prop :=
  (picking env.dates).Keeps call (fun _ => True) body

theorem picks_await {op : Op}
    (hop : ∀ id data, op = .pipelineUpdate id data → data.cursorJson = none) :
    Picks env call (await op) := by
  refine Monitor.Keeps.of_uses ((uses_await _).mpr fun candidates _ =>
    ⟨?_, fun _ => trivial⟩)
  cases op with
  | pipelineUpdate id data => exact writesPicked_none (hop id data rfl)
  | _ => trivial

theorem picks_quiet : Quiet (Picks env call) where
  toCompositional := Monitor.compositional_keeps _ _ _
  op op hop := picks_await fun id data heq => by
    rw [heq] at hop
    cases hop

theorem picks_lastRun (id : Id) (time : Time) :
    Picks env call (await (.pipelineUpdate id { lastRunAt := some time })) :=
  picks_await fun _ _ heq => by cases heq; rfl

/-! ### A run -/

def PickedFrom (candidates : List CursorCandidate) (state : LoopState) : Prop :=
  state.maxCursor = pickAll laterCandidate (candidates.map some)

theorem pickedFrom_created (dates : Dates) (data : NewSyncedRecord)
    (row : SyncedRecord) {state : LoopState} (h : PickedFrom candidates state) :
    PickedFrom (noted dates candidates (.syncedRecordCreate data) row)
      (state.created
        (extractCursorCandidate dates (ensureRecordObject data.rawJson))) := by
  simp only [PickedFrom, noted, LoopState.created, pickLatestCursor_eq_pick] at h ⊢
  rw [h]
  cases extractCursorCandidate dates (ensureRecordObject data.rawJson) with
  | none => simp
  | some candidate => simp [pickAll_concat]

def AfterTurn (candidates : List CursorCandidate) :
    Except Failure LoopState → Prop
  | .ok state => PickedFrom candidates state
  | .error _ => True

theorem persistRecord_picks {syncRunId pipelineId : Id} {actor : AuditActor}
    {state : LoopState} {record : SyncRunMockRecordPayload}
    {normalized : Record} (h : PickedFrom candidates state) :
    (picking env.dates).Accepts call AfterTurn
      (persistRecord env syncRunId pipelineId actor state record normalized)
      candidates := by
  simp only [persistRecord, bind_eq]
  refine Monitor.accepts_bind.mpr (Monitor.accepts_attempt.mpr
    (Monitor.accepts_await.mpr ⟨trivial, fun row _ => ?_, fun _ _ => h⟩))
  have hcreated := pickedFrom_created env.dates
    (persistedRecord syncRunId pipelineId record normalized) row h
  refine Monitor.accepts_bind.mpr (Monitor.accepts_attempt.mpr
    ((Monitor.accepts_of_silent ?_).mono ?_))
  · exact log_leavesCursor.bind fun _ => log_leavesCursor
  · rintro _ (failure | _) rfl
    · exact hcreated
    · exact hcreated

theorem processRecord_picks {syncRunId pipelineId : Id}
    {compiledMapping : List NormalizedMappingField} {actor : AuditActor}
    {state : LoopState} {record : SyncRunMockRecordPayload}
    (h : PickedFrom candidates state) :
    (picking env.dates).Accepts call AfterTurn
      (processRecord env syncRunId pipelineId compiledMapping actor state
        record) candidates := by
  refine Monitor.accepts_silent_bind ((uses_await _).mpr
    (picking_silent trivial)) (fun transformed => ?_) fun _ => trivial
  split
  · exact Monitor.accepts_silent_bind log_leavesCursor (fun _ => h)
      fun _ => trivial
  · exact persistRecord_picks h

theorem updateCursor_picks {syncRunId : Id} {pipeline : SyncPipeline}
    {state : LoopState} {actor : AuditActor} (h : PickedFrom candidates state) :
    (picking env.dates).Accepts call (fun _ _ => True)
      (updateCursor env syncRunId pipeline state actor) candidates := by
  have hlog : ∀ {β : Type} {action entityType entityId : String}
      {metadata : Record} {value : β},
      (picking env.dates).Accepts call (fun _ _ => True)
        ((AuditService.log action entityType entityId metadata actor).bind
          fun _ => .ret value) candidates := fun {_ _ _ _ _ _} =>
    Monitor.accepts_silent_bind log_leavesCursor (fun _ => trivial)
      fun _ => trivial
  simp only [updateCursor]
  split
  · trivial
  · split
    · rename_i chosen hchosen
      split
      · rename_i document hdocument
        have hpicked : state.maxCursor = some chosen := by
          split at hchosen
          · exact hchosen
          · cases hchosen
        refine Monitor.accepts_await_bind.mpr
          ⟨?_, fun _ _ => hlog, fun _ _ => trivial⟩
        rintro cursorJson hjson
        obtain rfl := Option.some.inj hjson
        exact ⟨chosen, document, h.symm.trans hpicked, hdocument, rfl⟩
      · trivial
    · exact hlog

theorem processRunRecords_picks {syncRunId : Id} {pipeline : SyncPipeline}
    {mockRecords : List SyncRunMockRecordPayload} {ignoreCursor : Bool}
    {actor : AuditActor} :
    (picking env.dates).Accepts call (fun _ _ => True)
      (processRunRecords env syncRunId pipeline mockRecords ignoreCursor actor)
      [] := by
  refine Monitor.accepts_ofExcept_bind (fun compiledMapping _ => ?_)
    fun _ => trivial
  refine Monitor.accepts_bind.mpr (Monitor.Accepts.mono ?_
    (Monitor.accepts_foldlM
      (fun _ (state : LoopState) candidates => PickedFrom candidates state)
      (fun _ _ => True)
      (fun record records state candidates hpicked =>
        (processRecord_picks hpicked).mono ?_) rfl))
  · rintro candidates (failure | state) hpicked
    · trivial
    · exact Monitor.accepts_bind.mpr ((updateCursor_picks hpicked).mono
        fun _ result _ => by cases result <;> trivial)
  · rintro candidates (failure | state) hpicked
    · trivial
    · exact hpicked

theorem processRunRecords_bind {α : Type} {syncRunId : Id}
    {pipeline : SyncPipeline} {mockRecords : List SyncRunMockRecordPayload}
    {ignoreCursor : Bool} {actor : AuditActor}
    {rest : RunProcessingSummary → Body α}
    (hrest : ∀ summary, Picks env call (rest summary)) :
    (picking env.dates).Accepts call (fun _ _ => True)
      ((processRunRecords env syncRunId pipeline mockRecords ignoreCursor
        actor).bind rest) [] := by
  refine Monitor.accepts_bind.mpr (processRunRecords_picks.mono ?_)
  rintro candidates (failure | summary) -
  · trivial
  · exact (hrest summary).accepts candidates trivial

theorem executeSyncRunNow_picks {pipeline : SyncPipeline}
    {options : CreateRunOptions} :
    Picks env call (executeSyncRunNow env pipeline options) := by
  have quiet : Quiet (Picks env call) := picks_quiet
  refine quiet.bind (currentTime_rule quiet) fun startedAt => ⟨fun _ _ => ?_⟩
  -- The row is created here, and nothing is noted.
  refine Monitor.accepts_await_bind.mpr
    ⟨trivial, fun initialRun _ => ?_, fun _ _ => trivial⟩
  refine Monitor.accepts_silent_bind log_leavesCursor (fun _ => ?_)
    fun _ => trivial
  refine processRunRecords_bind fun summary => ?_
  refine quiet.bind (currentTime_rule quiet) fun finishedAt => ?_
  refine quiet.bind (picks_await (by simp)) fun completedRun => ?_
  refine quiet.bind (picks_lastRun _ _) fun _ => ?_
  exact quiet.bind (log_rule quiet) fun _ =>
    quiet.bind (log_rule quiet) fun _ => quiet.ret _

theorem runQueuedRecords_picks {payload : ExecuteSyncRunJobPayload}
    {attempts : Nat} {backgroundJobId syncRunId : Id}
    {pipeline : SyncPipeline} {startedAt : Time} {actor : AuditActor} :
    (picking env.dates).Accepts call (fun _ _ => True)
      (runQueuedRecords env payload attempts backgroundJobId syncRunId pipeline
        startedAt actor) [] := by
  have quiet : Quiet (Picks env call) := picks_quiet
  refine processRunRecords_bind fun summary => ?_
  refine quiet.bind (currentTime_rule quiet) fun finishedAt => ?_
  refine quiet.bind (picks_await (by simp)) fun _ => ?_
  refine quiet.bind (picks_lastRun _ _) fun _ => ?_
  refine quiet.bind (picks_await (by simp)) fun _ => ?_
  exact quiet.bind (log_rule quiet) fun _ => log_rule quiet

theorem processQueuedSyncRun_picks {payload : ExecuteSyncRunJobPayload}
    {attempts : Nat} :
    Picks env call (processQueuedSyncRun env payload attempts) := by
  have quiet : Quiet (Picks env call) := picks_quiet
  refine quiet.await rfl fun _ => quiet.bind (orNotFound_rule quiet) fun _ => ?_
  refine quiet.await rfl fun _ => quiet.bind (orNotFound_rule quiet) fun _ => ?_
  refine quiet.bind (getById_rule quiet) fun pipeline => ?_
  refine quiet.bind (currentTime_rule quiet) fun startedAt => ?_
  refine quiet.bind (picks_await (by simp)) fun _ => ⟨fun _ _ => ?_⟩
  -- The write of the status starts the run.
  refine Monitor.accepts_await_bind.mpr
    ⟨trivial, fun _ _ => ?_, fun _ _ => trivial⟩
  refine Monitor.accepts_silent_bind log_leavesCursor (fun _ => ?_)
    fun _ => trivial
  refine Monitor.accepts_silent_bind log_leavesCursor (fun _ => ?_)
    fun _ => trivial
  refine Monitor.accepts_tryCatch.mpr (runQueuedRecords_picks.mono ?_)
  rintro candidates (failure | done) -
  · exact (failQueuedRun_rule quiet (fun _ _ => picks_await (by simp))
      (fun _ _ => picks_await (by simp)) picks_lastRun).accepts _ trivial
  · trivial

theorem edits_cursorJson {id : Id} {data : PipelineData}
    (h : call.edits id data) : data.cursorJson = none := by
  cases call with
  | updatePipeline _ dto _ => rw [h.2]; rfl
  | updateStatus _ _ _ => rw [h.2]
  | updatePipelineSchedule _ _ _ =>
      obtain ⟨schedule, pipeline, nextRunAt, rfl⟩ := h
      rfl
  | runPollingCycle _ =>
      obtain ⟨nextRunAt, rfl⟩ := h
      rfl
  | _ => exact h.elim

theorem body_picks (call : Call) : Picks env call (call.body env) := by
  have quiet : Quiet (Picks env call) := picks_quiet
  have hother : ∀ {op : Op}, (∀ id data, op ≠ .pipelineUpdate id data) →
      Picks env call (await op) := fun hop =>
    picks_await fun id data heq => absurd heq (hop id data)
  refine body_rule call quiet.toCompositional (fun op hop => ?_)
    (fun pipeline options _ _ => ?_)
    (fun _ _ _ _ _ => processQueuedSyncRun_picks) fun _ eventId actor => ?_
  · refine picks_await fun id data heq => ?_
    rw [heq] at hop
    exact edits_cursorJson hop.1
  · simp only [createRunFromPipeline]
    split
    · exact queueSyncRun_rule quiet (fun _ _ => hother (by simp))
        (fun _ _ => hother (by simp)) (hother (by simp))
    · exact executeSyncRunNow_picks
  · refine processWebhookEventNow_rule quiet (fun event actor totals pipeline =>
      processPipeline_rule quiet picks_lastRun (fun _ _ => hother (by simp))
        (fun _ _ => hother (by simp)) fun _ _ => hother (by simp))
      fun _ _ _ => hother (by simp)

end Walk

/-! ## Runs of the platform -/

/-- The step writes no cursor, or the candidates that the call has noted advance
the one that is stored. -/
def Advancing (dates : Dates) (pool : Platform) : Step → Prop
  | .run index => ∀ task id data next, pool.tasks[index]? = some task →
      task.prog = .call (.pipelineUpdate id data) next →
      data.cursorJson.isSome = true →
      Advances (pool.store.cursor dates id) ((picking dates).state task)
  | _ => True

section Runs

variable {env : Env} {init : Store} {earlier later : Platform}

theorem noted_parts {dates : Dates} (task : Task Op.Res Failure Answer Call) :
    ∀ candidate ∈ (picking dates).state task,
      CursorCandidate.HasPart candidate := by
  obtain ⟨call, trace, prog⟩ := task
  induction trace with
  | nil => exact fun _ hmem => absurd hmem List.not_mem_nil
  | cons entry trace ih =>
      obtain ⟨op, value⟩ := entry
      rw [Monitor.state_cons call op value trace prog prog]
      cases op with
      | syncRunCreate _ | syncRunUpdate _ _ =>
          exact fun _ hmem => absurd hmem List.not_mem_nil
      | syncedRecordCreate data =>
          intro candidate hmem
          rcases List.mem_append.mp hmem with hold | hnew
          · exact ih candidate hold
          · have hparts := cursorOfParts_eq_some (Option.mem_toList.mp hnew)
            rw [CursorCandidate.HasPart, hparts.1]
            exact hparts.2
      | _ => exact ih

theorem cursor_effect (dates : Dates) (op : Op) (store : Store) (id : Id) :
    (op.effect store).cursor dates id = store.cursor dates id ∨
      store.cursor dates id = none ∨
      ∃ data cursorJson, op = .pipelineUpdate id data ∧
        data.cursorJson = some cursorJson ∧
        (op.effect store).cursor dates id =
          normalizeCursorState dates (some cursorJson) := by
  cases hfind : Table.find SyncPipeline.id id store.pipelines with
  | none =>
      right; left
      rw [Store.cursor, Store.checkpoint, hfind]
      rfl
  | some row =>
      cases hwrites : op.writesPipelines with
      | false =>
          left
          rw [Store.cursor, Store.checkpoint, effect_pipelines hwrites]
          rfl
      | true =>
          cases op with
          | pipelineCreate data =>
              have happended : Table.find SyncPipeline.id id
                  ((Op.pipelineCreate data).effect store).pipelines = some row :=
                Table.find_append hfind
              left
              rw [Store.cursor, Store.checkpoint, happended, Store.cursor,
                Store.checkpoint, hfind]
          | pipelineUpdate written data =>
              have hkey : ∀ row, (data.apply row).id = row.id := fun _ => rfl
              have hwritten : Table.find SyncPipeline.id id
                  ((Op.pipelineUpdate written data).effect store).pipelines =
                    some (if row.id = written then data.apply row else row) := by
                simp only [Op.effect]
                rw [Table.find_modify hkey, hfind]
                rfl
              simp only [Store.cursor, Store.checkpoint, hwritten, hfind,
                Option.map_some, Option.bind_some]
              split
              · rename_i hid
                obtain rfl : id = written := (Table.find_key hfind).symm.trans hid
                cases hcursor : data.cursorJson with
                | none => simp [PipelineData.apply, hcursor]
                | some cursorJson => simp [PipelineData.apply, hcursor]
              · exact .inl rfl
          | _ => cases hwrites

theorem task_picks {ok : Platform → Step → Prop} {pool : Platform}
    (h : (platform env).Reach ok init.boot pool) :
    ∀ task ∈ pool.tasks, (picking env.dates).Accepts task.call
      (fun _ _ => True) task.prog ((picking env.dates).state task) :=
  Monitor.accepts_of_reach (Q := fun _ _ _ => True)
    (fun _ _ _ _ _ _ _ => trivial) (fun _ _ _ _ => trivial)
    (fun call => (body_picks call).accepts [] trivial) rfl h

/-- The cursor of every pipeline keeps moving forward. -/
theorem cursor_moves_forward
    (h : (platform env).Reach (Advancing env.dates) init.boot earlier)
    (h' : (platform env).Reach (Advancing env.dates) earlier later) (id : Id) :
    Forward (earlier.store.cursor env.dates id)
      (later.store.cursor env.dates id) := by
  refine h'.invariant (I := fun pool => Forward
    (earlier.store.cursor env.dates id) (pool.store.cursor env.dates id))
    (forward_refl _) ?_ ?_ ?_ ?_
  · exact fun _ _ _ hold _ _ => hold
  · intro pool pool' index task op next value hreach hold hok hdone
    refine hold.trans ?_
    rw [effect_of_done hdone]
    rcases cursor_effect env.dates op pool.store id with
      hsame | hnone | ⟨data, cursorJson, rfl, hdata, hwritten⟩
    · rw [hsame]
      exact forward_refl _
    · rw [hnone]
      cases (op.effect pool.store).cursor env.dates id <;> trivial
    · have hpicks := task_picks (h.trans hreach) task
        (List.mem_of_getElem? hdone.at_index)
      rw [hdone.awaits] at hpicks
      obtain ⟨chosen, document, hpicked, hjson, rfl⟩ := hpicks.1 cursorJson hdata
      rw [hwritten, normalizeCursorState_toJson hjson]
      exact forward_of_advances (noted_parts task) hpicked
        (hok task id data next hdone.at_index hdone.awaits (by rw [hdata]; rfl))
  · intro pool pool' index task op next error _ hold _ hraised
    rw [hraised.store]
    exact hold
  · intro pool pool' event calls _ hold _ henv _
    obtain ⟨clock, jobs, hstore⟩ := Event.apply_store henv
    rw [hstore]
    exact hold

end Runs

/-! ## A cursor that is moved -/

def checkpointed : Store :=
  { Sample.store with
    pipelines := [{ Sample.pipeline with
      cursorJson := some (.obj [("sequence", .nat 5)]) }] }

def submit (ignoreCursor : Bool) (sequence : ℚ) : Call :=
  .createForPipeline Sample.pipeline.id
    { mockRecords := some [numbered "a" sequence]
      sampleRecords := none
      ignoreCursor := some ignoreCursor } Sample.operator

/-- A condition that can be computed: no candidate that has been noted is behind
the cursor that is overwritten. -/
def allAhead (dates : Dates) (pool : Platform) (step : Step) : Bool :=
  match step with
  | .run index =>
      match pool.tasks[index]? with
      | some ⟨started, trace, .call (.pipelineUpdate id data) _⟩ =>
          let candidates := (picking dates).after started trace
          data.cursorJson.isNone || !candidates.isEmpty &&
            candidates.all fun candidate =>
              Forward (pool.store.cursor dates id) (some candidate)
      | _ => true
  | _ => true

theorem advances_of_all {cursor : Option CursorState}
    {candidates : List CursorCandidate} (hsome : candidates ≠ [])
    (hall : ∀ candidate ∈ candidates, Forward cursor (some candidate)) :
    Advances cursor candidates := by
  obtain ⟨first, rest, rfl⟩ := List.exists_cons_of_ne_nil hsome
  refine ⟨[], first, rest, rfl, hall first List.mem_cons_self, by simp, ?_⟩
  intro later hlater hbehind
  exact absurd (hall later (List.mem_cons_of_mem first hlater)) hbehind

theorem advancing_of_allAhead {dates : Dates} {pool : Platform} {step : Step}
    (h : allAhead dates pool step = true) : Advancing dates pool step := by
  cases step with
  | run index =>
      rintro ⟨call, trace, prog⟩ id data next hget rfl hcursor
      simp only [allAhead, hget, Bool.or_eq_true, Bool.and_eq_true,
        Bool.not_eq_true', List.isEmpty_eq_false_iff, List.all_eq_true,
        decide_eq_true_eq] at h
      rcases h with hnone | ⟨hsome, hall⟩
      · rw [Option.isNone_iff_eq_none.mp hnone] at hcursor
        cases hcursor
      · exact advances_of_all hsome hall
  | _ => trivial

def moveSteps (number : Nat) (sequence : ℚ) : List Step :=
  .start (submit false sequence) :: List.replicate 12 (.run number)

/-- The cursor moves from 5 to 7 and from 7 to 9. -/
theorem cursor_moves_forward_of_submits :
    ∃ earlier later, (platform (Sample.env .sync)).runWhere
        (fun pool step => allAhead (Sample.env .sync).dates pool step = true)
        checkpointed.boot (moveSteps 0 7) = some earlier ∧
      (platform (Sample.env .sync)).runWhere
        (fun pool step => allAhead (Sample.env .sync).dates pool step = true)
        earlier (moveSteps 1 9) = some later ∧
      earlier.store.cursorSequence (Sample.env .sync).dates 3 = some 7 ∧
      later.store.cursorSequence (Sample.env .sync).dates 3 = some 9 ∧
      Forward (checkpointed.cursor (Sample.env .sync).dates 3)
        (earlier.store.cursor (Sample.env .sync).dates 3) ∧
      Forward (earlier.store.cursor (Sample.env .sync).dates 3)
        (later.store.cursor (Sample.env .sync).dates 3) := by
  let ahead := fun (pool : Platform) (step : Step) =>
    allAhead (Sample.env .sync).dates pool step = true
  have hruns : ((platform (Sample.env .sync)).runWhere ahead checkpointed.boot
      (moveSteps 0 7)).any (fun earlier =>
        earlier.store.cursorSequence (Sample.env .sync).dates 3 = some 7 &&
        ((platform (Sample.env .sync)).runWhere ahead earlier
          (moveSteps 1 9)).any fun later =>
            later.store.cursorSequence (Sample.env .sync).dates 3 =
              some 9) = true := by
    decide +kernel
  obtain ⟨earlier, hfirst, hchecked⟩ := (Option.any_eq_true _ _).mp hruns
  obtain ⟨hseven, hmore⟩ := Bool.and_eq_true_iff.mp hchecked
  obtain ⟨later, hsecond, hnine⟩ := (Option.any_eq_true _ _).mp hmore
  have hnothing : (platform (Sample.env .sync)).Reach
      (Advancing (Sample.env .sync).dates) checkpointed.boot
      checkpointed.boot := .refl
  have hearlier := (System.reach_of_runWhere hfirst).mono
    fun _ _ => advancing_of_allAhead
  have hlater := (System.reach_of_runWhere hsecond).mono
    fun _ _ => advancing_of_allAhead
  exact ⟨earlier, later, hfirst, hsecond, by simpa using hseven,
    by simpa using hnine, cursor_moves_forward hnothing hearlier 3,
    cursor_moves_forward hearlier hlater 3⟩

/-- With the cursor ignored the record 1 moves the cursor from 5 back to 1. -/
theorem cursor_moves_forward_fails :
    ∃ later, Reachable (Sample.env .sync) checkpointed later ∧
      checkpointed.cursorSequence (Sample.env .sync).dates 3 = some 5 ∧
      later.store.cursorSequence (Sample.env .sync).dates 3 = some 1 ∧
      ¬ Forward (checkpointed.cursor (Sample.env .sync).dates 3)
        (later.store.cursor (Sample.env .sync).dates 3) := by
  have hruns : ((platform (Sample.env .sync)).run checkpointed.boot
      (.start (submit true 1) :: List.replicate 12 (.run 0))).any
        (fun later => later.store.cursorSequence (Sample.env .sync).dates 3 =
            some 1 &&
          !decide (Forward (checkpointed.cursor (Sample.env .sync).dates 3)
            (later.store.cursor (Sample.env .sync).dates 3))) = true := by
    decide +kernel
  obtain ⟨later, hrun, hmoved⟩ := (Option.any_eq_true _ _).mp hruns
  simp only [Bool.and_eq_true, decide_eq_true_eq, Bool.not_eq_true',
    decide_eq_false_iff_not] at hmoved
  exact ⟨later, System.reach_of_run hrun, by decide +kernel, hmoved.1, hmoved.2⟩

end SyncBridge
