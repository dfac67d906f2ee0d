import Mathlib.Data.Set.Finite.Lemmas
import SyncBridge.Cursor.Order
import SyncBridge.Sample
import SyncBridge.Services.Footprint

/-!
# The same batch once more

After a run without failures the cursor is the candidate picked from the batch.
A second run over the batch skips the records that are not newer than it.  When
no record is newer than the one that is picked, the second run creates no row
for any record with a candidate; over a batch that mixes records with and
without a sequence a later record can displace the one that covers all others.
-/

namespace SyncBridge

open SyncBridge.Foundation SyncBridge.Foundation.Prog
open SyncBridge.SyncRunsService

/-! ## Records that cover a batch -/

section Batch

variable (dates : Dates)

def candidateOf (record : SyncRunMockRecordPayload) : Option CursorCandidate :=
  extractCursorCandidate dates (ensureRecordObject record.raw)

def newRecords (cursor : Option CursorState)
    (batch : List SyncRunMockRecordPayload) : List SyncRunMockRecordPayload :=
  batch.filter fun record => shouldProcessRecord dates record cursor

def Covers (batch : List SyncRunMockRecordPayload)
    (cursor : CursorCandidate) : Prop :=
  ∀ record ∈ batch, ∀ candidate, candidateOf dates record = some candidate →
    isCandidateNewer candidate cursor = false

/-- No new record has a candidate, or one of them has a candidate that covers
the batch and is newer than every earlier one that does not cover it. -/
def Settled (cursor : Option CursorState)
    (batch : List SyncRunMockRecordPayload) : Prop :=
  (∀ record ∈ newRecords dates cursor batch,
    candidateOf dates record = none) ∨
  ∃ before record after candidate,
    newRecords dates cursor batch = before ++ record :: after ∧
    candidateOf dates record = some candidate ∧
    Covers dates batch candidate ∧
    ∀ earlier ∈ before, ∀ passed, candidateOf dates earlier = some passed →
      isCandidateNewer candidate passed = true ∨ Covers dates batch passed

def latestCandidate (cursor : Option CursorState)
    (batch : List SyncRunMockRecordPayload) : Option CursorCandidate :=
  pickAll laterCandidate ((newRecords dates cursor batch).map
    (candidateOf dates))

variable {dates} {cursor : Option CursorState} {chosen : CursorCandidate}
  {batch : List SyncRunMockRecordPayload} {record : SyncRunMockRecordPayload}

theorem mem_of_mem_newRecords (h : record ∈ newRecords dates cursor batch) :
    record ∈ batch := List.mem_of_mem_filter h

theorem covers_of_settled (hsettled : Settled dates cursor batch)
    (h : latestCandidate dates cursor batch = some chosen) :
    Covers dates batch chosen := by
  rcases hsettled with hnone | ⟨before, record, after, candidate, hsplit,
    hcandidate, hcovers, hearlier⟩
  · obtain ⟨record, hrecord, hsome⟩ :=
      List.mem_map.mp (mem_of_pickAll laterCandidate_mem h)
    rw [hnone record hrecord] at hsome
    cases hsome
  · have hmem : ∀ right, some right ∈ (newRecords dates cursor batch).map
        (candidateOf dates) → ∃ other ∈ batch,
          candidateOf dates other = some right := by
      intro right hright
      obtain ⟨other, hother, hsome⟩ := List.mem_map.mp hright
      exact ⟨other, mem_of_mem_newRecords hother, hsome⟩
    have hmap : (newRecords dates cursor batch).map (candidateOf dates) =
        before.map (candidateOf dates) ++
          some candidate :: after.map (candidateOf dates) := by
      rw [hsplit, List.map_append, List.map_cons, hcandidate]
    rw [hmap] at hmem
    rw [latestCandidate, hmap] at h
    have hstays : ∀ left right, Covers dates batch left →
        some right ∈ before.map (candidateOf dates) ++
          some candidate :: after.map (candidateOf dates) →
        Covers dates batch (laterCandidate left right) := by
      intro left right hleft hright
      obtain ⟨other, hother, hsome⟩ := hmem right hright
      rwa [laterCandidate_of_not_newer (hleft other hother right hsome)]
    refine pickAll_good laterCandidate_mem hcovers ?_ ?_ h
    · intro passed hpassed
      obtain ⟨earlier, hbefore, hsome⟩ := List.mem_map.mp hpassed
      rcases hearlier earlier hbefore passed hsome with hnewer | hleft
      · obtain ⟨other, hother, hpassed⟩ :=
          hmem passed (List.mem_append_left _ hpassed)
        rwa [laterCandidate_of_newer hnewer
          (hcovers other hother passed hpassed)]
      · exact hstays passed candidate hleft
          (List.mem_append_right _ List.mem_cons_self)
    · intro left right hleft hright
      exact hstays left right hleft
        (List.mem_append_right _ (List.mem_cons_of_mem _ hright))

/-- Where the candidates are compared by a rank, and the skipped ones are not
above the new ones, the batch is settled. -/
theorem settled_of_rank {γ : Type} [LinearOrder γ] (rank : CursorCandidate → γ)
    (hrank : ∀ record ∈ batch, ∀ other ∈ batch, ∀ left right,
      candidateOf dates record = some left →
      candidateOf dates other = some right →
      isCandidateNewer left right = decide (rank right < rank left))
    (hskipped : ∀ record ∈ batch, ∀ other ∈ newRecords dates cursor batch,
      ∀ left right, record ∉ newRecords dates cursor batch →
        candidateOf dates record = some left →
        candidateOf dates other = some right → rank left ≤ rank right) :
    Settled dates cursor batch := by
  let found := (newRecords dates cursor batch).filterMap (candidateOf dates)
  by_cases hnone : found = []
  · exact .inl (List.filterMap_eq_nil_iff.mp hnone)
  obtain ⟨candidate, hfound, hmax⟩ := Set.exists_max_image { c | c ∈ found }
    rank found.finite_toSet (List.exists_mem_of_ne_nil found hnone)
  obtain ⟨top, htop, hcandidate⟩ := List.mem_filterMap.mp hfound
  have hle : ∀ other ∈ batch, ∀ right, candidateOf dates other = some right →
      rank right ≤ rank candidate := by
    intro other hother right hright
    by_cases hnew : other ∈ newRecords dates cursor batch
    · exact hmax right (List.mem_filterMap.mpr ⟨other, hnew, hright⟩)
    · exact hskipped other hother top htop right candidate hnew hright hcandidate
  have hcovers : ∀ other ∈ batch, ∀ right,
      candidateOf dates other = some right → rank candidate ≤ rank right →
      Covers dates batch right := by
    intro other hother right hright habove record hrecord left hleft
    rw [hrank record hrecord other hother left right hleft hright,
      decide_eq_false_iff_not, not_lt]
    exact (hle record hrecord left hleft).trans habove
  obtain ⟨before, after, hsplit⟩ := List.append_of_mem htop
  have htop' := mem_of_mem_newRecords htop
  refine .inr ⟨before, top, after, candidate, hsplit, hcandidate,
    hcovers top htop' candidate hcandidate le_rfl, ?_⟩
  intro earlier hearlier passed hpassed
  have hmem : earlier ∈ batch := by
    have hnew : earlier ∈ newRecords dates cursor batch := by
      rw [hsplit]
      exact List.mem_append_left _ hearlier
    exact mem_of_mem_newRecords hnew
  rcases (hle earlier hmem passed hpassed).lt_or_eq with hlt | heq
  · left
    rw [hrank top htop' earlier hmem candidate passed hcandidate hpassed]
    exact decide_eq_true hlt
  · exact .inr (hcovers earlier hmem passed hpassed heq.ge)

theorem settled_of_sequences
    (hcursor : ∀ known, cursor = some known → known.sequence.isSome = true)
    (hsequence : ∀ record ∈ batch, ∀ candidate,
      candidateOf dates record = some candidate →
        candidate.sequence.isSome = true) : Settled dates cursor batch := by
  have hcompare : ∀ left right : CursorState, left.sequence.isSome = true →
      right.sequence.isSome = true → isCandidateNewer left right =
        decide (right.sequence.getD 0 < left.sequence.getD 0) := by
    rintro ⟨left, _⟩ ⟨right, _⟩ hleft hright
    cases left <;> cases right <;> simp_all [isCandidateNewer]
  refine settled_of_rank (fun candidate => candidate.sequence.getD 0)
    (fun record hrecord other hother left right hleft hright =>
      hcompare left right (hsequence record hrecord left hleft)
        (hsequence other hother right hright)) ?_
  intro record hrecord other hnew left right hold hleft hright
  have hsome := hsequence record hrecord left hleft
  have hsome' := hsequence other (mem_of_mem_newRecords hnew) right hright
  cases hknown : cursor with
  | none =>
      refine absurd (List.mem_filter.mpr ⟨hrecord, ?_⟩) hold
      rw [hknown, shouldProcessRecord]
  | some known =>
      have hkept := (List.mem_filter.mp hnew).2
      have hskipped : shouldProcessRecord dates record cursor = false := by
        by_contra hkeep
        exact hold (List.mem_filter.mpr ⟨hrecord, eq_true_of_ne_false hkeep⟩)
      rw [hknown] at hkept hskipped
      rw [candidateOf] at hleft hright
      simp only [shouldProcessRecord, hleft, hright,
        hcompare _ _ hsome (hcursor known hknown),
        hcompare _ _ hsome' (hcursor known hknown), decide_eq_true_eq,
        decide_eq_false_iff_not, not_lt] at hkept hskipped
      exact hskipped.trans hkept.le

/-- Without a new record that covers the batch the second run cannot skip all
records with candidates. -/
theorem covers_of_skipped (h : latestCandidate dates cursor batch = some chosen)
    (hskipped : ∀ record ∈ newRecords dates (some chosen) batch,
      candidateOf dates record = none) :
    ∃ record ∈ newRecords dates cursor batch,
      candidateOf dates record = some chosen ∧ Covers dates batch chosen := by
  obtain ⟨record, hrecord, hsome⟩ :=
    List.mem_map.mp (mem_of_pickAll laterCandidate_mem h)
  refine ⟨record, hrecord, hsome, fun other hother candidate hcandidate => ?_⟩
  by_contra hnewer
  have hnew : other ∈ newRecords dates (some chosen) batch := by
    refine List.mem_filter.mpr ⟨hother, ?_⟩
    have hextract : extractCursorCandidate dates
        (ensureRecordObject other.raw) = some candidate := hcandidate
    simpa [shouldProcessRecord, hextract] using hnewer
  rw [hskipped other hnew] at hcandidate
  cases hcandidate

end Batch

/-! ## One run over a batch -/

section Runs

variable {env : Env} {syncRunId : Id} {pipeline : SyncPipeline}
  {batch records : List SyncRunMockRecordPayload} {ignoreCursor : Bool}
  {actor : AuditActor} {store : Store}

theorem processRecord_returns {pipelineId : Id}
    {compiledMapping : List NormalizedMappingField} {state : LoopState}
    {record : SyncRunMockRecordPayload} :
    (processRecord env syncRunId pipelineId compiledMapping actor state
      record).Returns fun state' => state'.failedCount ≠ 0 ∨
        state' = state.created (candidateOf env.dates record) := by
  have hfail : ∀ (state : LoopState) (errors : Nat),
      (state.fail errors).failedCount ≠ 0 := fun _ _ => Nat.succ_ne_zero _
  refine Returns.bind fun transformed => ?_
  split
  · exact Returns.bind fun _ => .inl (hfail _ _)
  · refine Returns.bind fun created => ?_
    split
    · exact .inl (hfail _ _)
    · refine Returns.bind fun audited => ?_
      split
      · exact .inl (hfail _ _)
      · exact .inr rfl

theorem records_returns {pipelineId : Id}
    {compiledMapping : List NormalizedMappingField} :
    (records.foldlM (processRecord env syncRunId pipelineId compiledMapping
      actor) {}).Returns fun state => state.failedCount = 0 →
        state.maxCursor =
          pickAll laterCandidate (records.map (candidateOf env.dates)) := by
  let Picked : List SyncRunMockRecordPayload → LoopState → Prop :=
    fun items state => state.failedCount = 0 → ∃ done,
      records = done ++ items ∧ state.maxCursor =
        pickAll laterCandidate (done.map (candidateOf env.dates))
  have hstep : ∀ record items state, Picked (record :: items) state →
      (processRecord env syncRunId pipelineId compiledMapping actor state
        record).Returns (Picked items) := by
    intro record items state hstate
    refine processRecord_returns.mono fun state' hstate' hsucceeded => ?_
    rcases hstate' with hfailed | rfl
    · exact absurd hsucceeded hfailed
    · obtain ⟨done, hrecords, hcursor⟩ := hstate hsucceeded
      refine ⟨done ++ [record], by simp [hrecords], ?_⟩
      rw [List.map_append, List.map_singleton, pickAll_concat, ← hcursor,
        ← pickLatestCursor_eq_pick]
      rfl
  have hstart : Picked records {} := fun _ => ⟨[], rfl, rfl⟩
  refine (Returns.foldlM Picked hstep hstart).mono fun state hpicked hsucceeded => ?_
  obtain ⟨done, hrecords, hcursor⟩ := hpicked hsucceeded
  rw [List.append_nil] at hrecords
  rw [hrecords, hcursor]

def Advanced (env : Env) (id : Id) (picked : Option CursorCandidate)
    (before after : List SyncPipeline) : Prop :=
  match picked with
  | none => after = before
  | some chosen => ∃ document,
      cursorCandidateToJson env.dates chosen = some document ∧
      after = Table.modify SyncPipeline.id id
        (PipelineData.apply { cursorJson := some (.obj document) }) before

def KeepsPipelines (op : Op) : Prop := op.writesPipelines = false

theorem keepsPipelines_quiet : AllowsQuiet KeepsPipelines := by
  refine allowsQuiet fun op hop => ?_
  cases op with
  | pipelineCreate _ | pipelineUpdate _ _ => cases hop
  | _ => rfl

theorem ensures_pipelines {α : Type} {body : Body α}
    (h : body.Uses KeepsPipelines) :
    (machine env).Ensures
      (fun _ (final : Store) => final.pipelines = store.pipelines) body
      store := by
  refine Machine.ensures_of_uses (J := fun final : Store =>
    final.pipelines = store.pipelines) ?_ h rfl
  intro op before value after hop hexec hbefore
  rw [machine_effect hexec, effect_pipelines hop, hbefore]

theorem records_ensures {pipelineId : Id}
    {compiledMapping : List NormalizedMappingField} :
    (machine env).Ensures (fun result final =>
        final.pipelines = store.pipelines ∧
        ∀ state, result = .ok state → state.failedCount = 0 →
          state.maxCursor =
            pickAll laterCandidate (records.map (candidateOf env.dates)))
      (records.foldlM (processRecord env syncRunId pipelineId compiledMapping
        actor) {}) store :=
  (ensures_pipelines (Uses.foldlM (fun _ _ _ =>
    processRecord_rule keepsPipelines_quiet fun _ _ =>
      (uses_await _).mpr rfl) _)).and_returns records_returns

theorem candidate_has_part {record : SyncRunMockRecordPayload}
    {candidate : CursorCandidate}
    (h : candidateOf env.dates record = some candidate) :
    (cursorCandidateToJson env.dates candidate).isSome = true := by
  obtain ⟨rfl, hparts⟩ := cursorOfParts_eq_some h
  exact cursorCandidateToJson_isSome hparts

theorem latest_has_part {cursor : Option CursorState}
    {batch : List SyncRunMockRecordPayload} {chosen : CursorCandidate}
    (h : latestCandidate env.dates cursor batch = some chosen) :
    (cursorCandidateToJson env.dates chosen).isSome = true := by
  obtain ⟨record, -, hrecord⟩ :=
    List.mem_map.mp (mem_of_pickAll laterCandidate_mem h)
  exact candidate_has_part hrecord

theorem updateCursor_ensures {state : LoopState} {picked : Option CursorCandidate}
    (hincremental : pipeline.incrementalMode = true)
    (hdocument : ∀ chosen, picked = some chosen →
      (cursorCandidateToJson env.dates chosen).isSome = true)
    (hpicked : state.failedCount = 0 → state.maxCursor = picked) :
    (machine env).Ensures (fun result final => ∀ value, result = .ok value →
        state.failedCount = 0 →
        Advanced env pipeline.id picked store.pipelines final.pipelines)
      (updateCursor env syncRunId pipeline state actor) store := by
  by_cases hsucceeded : state.failedCount = 0
  · have hlog : ∀ {action entityType entityId : String} {metadata : Record}
        {store : Store}, (machine env).Ensures
          (fun _ final => final.pipelines = store.pipelines)
          (AuditService.log action entityType entityId metadata actor) store :=
      ensures_pipelines (log_rule keepsPipelines_quiet)
    simp only [updateCursor, hsucceeded, if_true, hpicked hsucceeded,
      hincremental, Bool.not_true, Bool.false_eq_true, if_false]
    cases hchosen : picked with
    | none =>
        exact hlog.bind (fun _ middle hmiddle _ _ _ => hmiddle)
          fun _ _ _ _ herror => by cases herror
    | some chosen =>
        obtain ⟨document, hjson⟩ :=
          Option.isSome_iff_exists.mp (hdocument chosen hchosen)
        simp only [hjson]
        refine Machine.ensures_await_bind (fun updated middle hexec => ?_)
          fun _ _ herror => by cases herror
        have hmiddle := machine_effect hexec
        refine hlog.bind (fun _ final hfinal _ _ _ => ⟨document, hjson, ?_⟩)
          fun _ _ _ _ herror => by cases herror
        rw [hfinal, hmiddle]
        rfl
  · exact Machine.ensures_iff.mpr fun _ _ _ _ _ hnone =>
      absurd hnone hsucceeded

theorem eligibleRecords_eq (hincremental : pipeline.incrementalMode = true) :
    eligibleRecords env pipeline false batch = newRecords env.dates
      (normalizeCursorState env.dates pipeline.cursorJson) batch := by
  simp only [eligibleRecords, hincremental, Bool.not_false, Bool.and_true,
    if_true]
  rfl

theorem processRunRecords_ensures (hincremental : pipeline.incrementalMode = true) :
    (machine env).Ensures (fun result final => ∀ summary, result = .ok summary →
        summary.recordsFailed = 0 →
        Advanced env pipeline.id (latestCandidate env.dates
          (normalizeCursorState env.dates pipeline.cursorJson) batch)
          store.pipelines final.pipelines)
      (processRunRecords env syncRunId pipeline batch false actor) store := by
  simp only [processRunRecords, bind_eq, eligibleRecords_eq hincremental]
  refine Machine.ensures_ofExcept_bind (fun compiledMapping _ => ?_)
    fun _ _ herror => nomatch herror
  refine records_ensures.bind ?_ fun _ _ _ _ herror => nomatch herror
  rintro state middle ⟨hmiddle, hstate⟩
  refine (updateCursor_ensures hincremental (fun _ => latest_has_part)
    (hstate state rfl)).bind ?_ fun _ _ _ _ herror => nomatch herror
  intro value final hadvanced summary hsummary hfailed
  obtain rfl := Except.ok.inj hsummary
  rw [hmiddle] at hadvanced
  exact hadvanced value rfl hfailed

/-! ## The records of a run -/

def StoresFrom (records : List SyncRunMockRecordPayload) (op : Op) : Prop :=
  ∀ data, op = .syncedRecordCreate data → ∃ record ∈ records,
    data.rawJson = .obj (ensureRecordObject record.raw)

theorem storesFrom_of_ne {op : Op} (h : op.writesSyncedRecords = false) :
    StoresFrom records op := by
  rintro data rfl
  cases h

theorem log_storesFrom {action entityType entityId : String}
    {metadata : Record} :
    (AuditService.log action entityType entityId metadata actor).Uses
      (StoresFrom records) := (uses_await _).mpr (storesFrom_of_ne rfl)

theorem processRecord_storesFrom {pipelineId : Id}
    {compiledMapping : List NormalizedMappingField} {state : LoopState}
    {record : SyncRunMockRecordPayload} (hmem : record ∈ records) :
    (processRecord env syncRunId pipelineId compiledMapping actor state
      record).Uses (StoresFrom records) := by
  refine Uses.await (storesFrom_of_ne rfl) fun transformed => ?_
  split
  · exact Uses.bind log_storesFrom fun _ => trivial
  · refine Uses.bind (Uses.attempt ((uses_await _).mpr ?_)) fun created => ?_
    · intro data hdata
      obtain rfl := Op.syncedRecordCreate.inj hdata
      exact ⟨record, hmem, rfl⟩
    · split
      · trivial
      · refine Uses.bind (Uses.attempt ?_) fun audited => ?_
        · exact Uses.bind log_storesFrom fun _ => log_storesFrom
        · split <;> trivial

theorem processRunRecords_storesFrom :
    (processRunRecords env syncRunId pipeline batch ignoreCursor actor).Uses
      (StoresFrom (eligibleRecords env pipeline ignoreCursor batch)) := by
  simp only [processRunRecords, bind_eq, uses_ofExcept_bind]
  intro compiledMapping _
  refine Uses.bind (Uses.foldlM (fun _ _ hmem =>
    processRecord_storesFrom hmem) {}) fun state => ?_
  refine Uses.bind ?_ fun _ => trivial
  simp only [updateCursor]
  split
  · trivial
  · split
    · split
      · exact Uses.await (storesFrom_of_ne rfl) fun _ =>
          Uses.bind log_storesFrom fun _ => trivial
      · trivial
    · exact Uses.bind log_storesFrom fun _ => trivial

theorem stored_ensures :
    (machine env).Ensures (fun _ final => ∃ new,
        final.syncedRecords = store.syncedRecords ++ new ∧
        ∀ row ∈ new, ∃ record ∈ eligibleRecords env pipeline ignoreCursor batch,
          row.rawJson = .obj (ensureRecordObject record.raw))
      (processRunRecords env syncRunId pipeline batch ignoreCursor actor)
      store := by
  refine Machine.ensures_of_uses (J := fun final : Store => ∃ new,
    final.syncedRecords = store.syncedRecords ++ new ∧
    ∀ row ∈ new, ∃ record ∈ eligibleRecords env pipeline ignoreCursor batch,
      row.rawJson = .obj (ensureRecordObject record.raw)) ?_
    processRunRecords_storesFrom ⟨[], by simp, nofun⟩
  rintro op before value after hstores hexec ⟨new, hbefore, hnew⟩
  rw [machine_effect hexec]
  cases hop : op.writesSyncedRecords with
  | false => exact ⟨new, by rw [effect_syncedRecords hop, hbefore], hnew⟩
  | true =>
      cases op with
      | syncedRecordCreate data =>
          refine ⟨new ++ [(before.createSyncedRecord data).1], ?_, ?_⟩
          · rw [← List.append_assoc, ← hbefore]
            rfl
          · intro row hrow
            rcases List.mem_append.mp hrow with hold | hlast
            · exact hnew row hold
            · obtain rfl := List.mem_singleton.mp hlast
              exact hstores data rfl
      | _ => cases hop

end Runs

/-! ## Two runs -/

def Store.checkpoint (store : Store) (id : Id) : Option (Option Json × Bool) :=
  (Table.find SyncPipeline.id id store.pipelines).map fun row =>
    (row.cursorJson, row.incrementalMode)

/-- No row has been created for a record with a candidate. -/
def CreatesNoCandidate (dates : Dates) (before after : Store) : Prop :=
  ∃ new, after.syncedRecords = before.syncedRecords ++ new ∧
    ∀ row ∈ new,
      extractCursorCandidate dates (ensureRecordObject row.rawJson) = none

theorem checkpoint_modify {store middle : Store} {id : Id}
    {cursorJson : Option Json} {mode : Bool} {document : Record}
    (hstored : store.checkpoint id = some (cursorJson, mode))
    (hpipelines : middle.pipelines = Table.modify SyncPipeline.id id
      (PipelineData.apply { cursorJson := some (.obj document) })
      store.pipelines) :
    middle.checkpoint id = some (some (.obj document), mode) := by
  obtain ⟨row, hrow, hcheckpoint⟩ := Option.map_eq_some_iff.mp hstored
  obtain ⟨-, hmode⟩ := Prod.mk.inj hcheckpoint
  have hkey : ∀ row, SyncPipeline.id (PipelineData.apply
      { cursorJson := some (.obj document) } row) = row.id := fun _ => rfl
  simp only [Store.checkpoint, hpipelines]
  rw [Table.find_modify hkey, hrow, Option.map_some,
    if_pos (Table.find_key hrow), Option.map_some, ← hmode]
  rfl

section Replayed

variable {env : Env} {pipeline pipeline' : SyncPipeline}
  {batch : List SyncRunMockRecordPayload}
  {store middle between final : Store}

theorem skipped_of_covers {dates : Dates} {cursor : CursorState}
    (h : Covers dates batch cursor) :
    ∀ record ∈ newRecords dates (some cursor) batch,
      candidateOf dates record = none := by
  intro record hrecord
  obtain ⟨hmem, hnew⟩ := List.mem_filter.mp hrecord
  cases hcandidate : candidateOf dates record with
  | none => rfl
  | some candidate =>
      have hextract : extractCursorCandidate dates
          (ensureRecordObject record.raw) = some candidate := hcandidate
      simp only [shouldProcessRecord, hextract] at hnew
      rw [h record hmem candidate hcandidate] at hnew
      cases hnew

theorem skipped_of_advanced
    (hstored : store.checkpoint pipeline.id = some (pipeline.cursorJson, true))
    (hsettled : Settled env.dates
      (normalizeCursorState env.dates pipeline.cursorJson) batch)
    (hadvanced : Advanced env pipeline.id (latestCandidate env.dates
      (normalizeCursorState env.dates pipeline.cursorJson) batch)
      store.pipelines middle.pipelines)
    (hread : middle.checkpoint pipeline.id =
      some (pipeline'.cursorJson, pipeline'.incrementalMode)) :
    ∀ record ∈ eligibleRecords env pipeline' false batch,
      candidateOf env.dates record = none := by
  cases hlatest : latestCandidate env.dates
      (normalizeCursorState env.dates pipeline.cursorJson) batch with
  | none =>
      rw [hlatest] at hadvanced
      have hsame : middle.checkpoint pipeline.id =
          store.checkpoint pipeline.id := by
        rw [Store.checkpoint, Store.checkpoint, hadvanced]
      rw [hread, hstored] at hsame
      obtain ⟨hcursor, hmode⟩ := Prod.mk.inj (Option.some.inj hsame)
      rw [eligibleRecords_eq hmode, hcursor]
      intro record hrecord
      cases hcandidate : candidateOf env.dates record with
      | none => rfl
      | some candidate =>
          have hmem : some candidate ∈ (newRecords env.dates
              (normalizeCursorState env.dates pipeline.cursorJson) batch).map
                (candidateOf env.dates) :=
            List.mem_map.mpr ⟨record, hrecord, hcandidate⟩
          exact absurd hmem (pickAll_eq_none hlatest candidate)
  | some chosen =>
      rw [hlatest] at hadvanced
      obtain ⟨document, hjson, hpipelines⟩ := hadvanced
      have hnow := checkpoint_modify hstored hpipelines
      rw [hread] at hnow
      obtain ⟨hcursor, hmode'⟩ := Prod.mk.inj (Option.some.inj hnow)
      rw [eligibleRecords_eq hmode', hcursor, normalizeCursorState_toJson hjson]
      exact skipped_of_covers (covers_of_settled hsettled hlatest)

/-- The second run may start in any store that has the pipeline as the first run
has left it. -/
theorem replay_creates_no_candidate {syncRunId syncRunId' : Id}
    {actor actor' : AuditActor} {summary : RunProcessingSummary}
    {result : Except Failure RunProcessingSummary}
    (hincremental : pipeline.incrementalMode = true)
    (hstored : store.checkpoint pipeline.id = some (pipeline.cursorJson, true))
    (hsettled : Settled env.dates
      (normalizeCursorState env.dates pipeline.cursorJson) batch)
    (hfirst : (machine env).Runs
      (processRunRecords env syncRunId pipeline batch false actor) store
      (.ok summary) middle)
    (hsucceeded : summary.recordsFailed = 0)
    (hread : middle.checkpoint pipeline.id =
      some (pipeline'.cursorJson, pipeline'.incrementalMode))
    (hsecond : (machine env).Runs
      (processRunRecords env syncRunId' pipeline' batch false actor') between
      result final) :
    CreatesNoCandidate env.dates between final := by
  have hadvanced := (processRunRecords_ensures hincremental).of_runs hfirst
    summary rfl hsucceeded
  have hskipped := skipped_of_advanced hstored hsettled hadvanced hread
  obtain ⟨new, hrows, hnew⟩ := stored_ensures.of_runs hsecond
  refine ⟨new, hrows, fun row hrow => ?_⟩
  obtain ⟨record, hrecord, hraw⟩ := hnew row hrow
  rw [hraw]
  exact hskipped record hrecord

end Replayed

/-! ## Two batches -/

def firstRun (batch : List SyncRunMockRecordPayload) :
    Except Failure RunProcessingSummary × Store :=
  (machine (Sample.env .sync)).eval (processRunRecords (Sample.env .sync) 4
    Sample.pipeline batch false none) Sample.store

def leftPipeline (batch : List SyncRunMockRecordPayload) : SyncPipeline :=
  (Table.find SyncPipeline.id Sample.pipeline.id
    (firstRun batch).2.pipelines).getD Sample.pipeline

theorem checkpoint_left {batch : List SyncRunMockRecordPayload}
    (h : (Table.find SyncPipeline.id Sample.pipeline.id
      (firstRun batch).2.pipelines).isSome = true) :
    (firstRun batch).2.checkpoint Sample.pipeline.id =
      some ((leftPipeline batch).cursorJson,
        (leftPipeline batch).incrementalMode) := by
  obtain ⟨row, hrow⟩ := Option.isSome_iff_exists.mp h
  simp [Store.checkpoint, leftPipeline, hrow]

def secondRun (batch : List SyncRunMockRecordPayload) :
    Except Failure RunProcessingSummary × Store :=
  (machine (Sample.env .sync)).eval (processRunRecords (Sample.env .sync) 5
    (leftPipeline batch) batch false none) (firstRun batch).2

def succeeded : Except Failure RunProcessingSummary → Bool
  | .ok summary => summary.recordsFailed = 0
  | .error _ => false

theorem ok_of_succeeded {result : Except Failure RunProcessingSummary}
    (h : succeeded result = true) :
    ∃ summary, result = .ok summary ∧ summary.recordsFailed = 0 := by
  cases result with
  | ok summary => exact ⟨summary, rfl, of_decide_eq_true h⟩
  | error error => cases h

def numbered (externalId : String) (sequence : ℚ) : SyncRunMockRecordPayload :=
  ⟨some externalId, .obj [("sequence", .num sequence)]⟩

def dated (externalId : String) (text : String) : SyncRunMockRecordPayload :=
  ⟨some externalId, .obj [("updatedAt", .str text)]⟩

def numberedBatch : List SyncRunMockRecordPayload :=
  [numbered "a" 1, numbered "b" 2]

def mixedBatch : List SyncRunMockRecordPayload :=
  [numbered "a" 10, dated "b" Sample.epochText]

theorem candidateOf_numbered {dates : Dates} {externalId : String}
    {sequence : ℚ} : candidateOf dates (numbered externalId sequence) =
      some ⟨some sequence, none⟩ := by
  simp [candidateOf, numbered, ensureRecordObject, extractCursorCandidate,
    cursorOfParts, Record.get, List.lookup_cons]

theorem settled_numberedBatch :
    Settled Sample.dates none numberedBatch := by
  refine settled_of_sequences (fun known hknown => nomatch hknown)
    fun record hrecord candidate hcandidate => ?_
  have hnumbered : ∃ externalId sequence,
      record = numbered externalId sequence := by
    rcases List.mem_pair.mp hrecord with h | h
    · exact ⟨_, _, h⟩
    · exact ⟨_, _, h⟩
  obtain ⟨externalId, sequence, rfl⟩ := hnumbered
  rw [candidateOf_numbered] at hcandidate
  obtain rfl := Option.some.inj hcandidate
  rfl

theorem replay_creates_no_candidate_of_sequences :
    CreatesNoCandidate Sample.dates (firstRun numberedBatch).2
      (secondRun numberedBatch).2 := by
  have hsucceeded : succeeded (firstRun numberedBatch).1 = true := by
    decide +kernel
  obtain ⟨summary, hok, hfailed⟩ := ok_of_succeeded hsucceeded
  have hfirst := Machine.runs_eval (M := machine (Sample.env .sync))
    (processRunRecords (Sample.env .sync) 4 Sample.pipeline numberedBatch false
      none) Sample.store
  have hleft : (Table.find SyncPipeline.id Sample.pipeline.id
      (firstRun numberedBatch).2.pipelines).isSome = true := by decide +kernel
  exact replay_creates_no_candidate rfl rfl settled_numberedBatch
    (hok ▸ hfirst) hfailed (checkpoint_left hleft) (Machine.runs_eval _ _)

def storesAgain : Bool :=
  ((secondRun mixedBatch).2.syncedRecords.drop
    (firstRun mixedBatch).2.syncedRecords.length).any fun row =>
      (extractCursorCandidate Sample.dates
        (ensureRecordObject row.rawJson)).isSome

theorem replay_creates_no_candidate_fails :
    ∃ (pipeline' : SyncPipeline) (middle final : Store)
      (summary : RunProcessingSummary)
      (result : Except Failure RunProcessingSummary),
      Sample.pipeline.incrementalMode = true ∧
      Sample.store.checkpoint Sample.pipeline.id =
        some (Sample.pipeline.cursorJson, true) ∧
      (machine (Sample.env .sync)).Runs (processRunRecords (Sample.env .sync) 4
        Sample.pipeline mixedBatch false none) Sample.store (.ok summary)
        middle ∧
      summary.recordsFailed = 0 ∧
      middle.checkpoint Sample.pipeline.id =
        some (pipeline'.cursorJson, pipeline'.incrementalMode) ∧
      (machine (Sample.env .sync)).Runs (processRunRecords (Sample.env .sync) 5
        pipeline' mixedBatch false none) middle result final ∧
      ¬ CreatesNoCandidate Sample.dates middle final := by
  have hsucceeded : succeeded (firstRun mixedBatch).1 = true := by
    decide +kernel
  obtain ⟨summary, hok, hfailed⟩ := ok_of_succeeded hsucceeded
  have hfirst := Machine.runs_eval (M := machine (Sample.env .sync))
    (processRunRecords (Sample.env .sync) 4 Sample.pipeline mixedBatch false
      none) Sample.store
  have hleft : (Table.find SyncPipeline.id Sample.pipeline.id
      (firstRun mixedBatch).2.pipelines).isSome = true := by decide +kernel
  refine ⟨leftPipeline mixedBatch, (firstRun mixedBatch).2,
    (secondRun mixedBatch).2, summary, (secondRun mixedBatch).1, rfl, rfl,
    hok ▸ hfirst, hfailed, checkpoint_left hleft, Machine.runs_eval _ _, ?_⟩
  have hagain : storesAgain = true := by decide +kernel
  rintro ⟨new, hrows, hnone⟩
  rw [storesAgain, hrows, List.drop_left] at hagain
  obtain ⟨row, hrow, hsome⟩ := List.any_eq_true.mp hagain
  rw [hnone row hrow] at hsome
  cases hsome

end SyncBridge
