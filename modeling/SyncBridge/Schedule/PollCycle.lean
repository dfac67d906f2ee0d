import SyncBridge.Sample
import SyncBridge.Schedule.PollTurns

/-!
# A cycle of the poller

The loop over the due pipelines has no handler, so the turn that throws is the
last one.  The pipelines are isolated from each other as long as such a turn
throws outside of its two writes and no idle pipeline comes after it.
-/

namespace SyncBridge

open SyncBridge.Foundation SyncBridge.Foundation.Prog
open SyncBridge.SchedulerService

/-! ## A cycle and its turns -/

/-- The loop over the due pipelines, whose schedules are valid.  Calls may fail
at will; `turns` are the calls for each pipeline that the loop has reached. -/
structure PollCycle (env : Env) (now : Time) (due : List SyncPipeline)
    (before : Store) (turns : List Calls)
    (result : Except Failure PollSummary) (after : Store) : Prop where
  keys : RunKeys before
  pipelines : Table.Keyed SyncPipeline.id before.nextId before.pipelines
  found : exec env (.pipelineFindDue now) before = .ok (due, before)
  valid : ∀ pipeline ∈ due, validSchedule env pipeline = true
  turns : (machine env).Turns (pollPipeline env now) due ⟨due.length, 0, 0⟩
    before turns result after

def Throws (turns : List Calls) (result : Except Failure PollSummary)
    (index : Nat) : Prop :=
  index + 1 = turns.length ∧ ∃ error, result = .error error

/-- Every pipeline is enqueued or left alone, and it is enqueued when it was idle
and its own calls have not thrown. -/
structure Isolated (env : Env) (now : Time) (due : List SyncPipeline)
    (before : Store) (turns : List Calls)
    (result : Except Failure PollSummary) (after : Store) : Prop where
  whole : ∀ pipeline ∈ due, Enqueued env now pipeline before after ∨
    LeftAlone pipeline.id before after
  reached : ∀ (index : Nat) (pipeline : SyncPipeline),
    due[index]? = some pipeline → before.NothingRuns pipeline.id →
    ¬ Throws turns result index → Enqueued env now pipeline before after

/-- A turn that throws does so before the run is inserted or after `nextRunAt`
is written, unless that already has its value, and no pipeline that comes later
is idle. -/
structure FailsLast (env : Env) (now : Time) (due : List SyncPipeline)
    (before : Store) (turns : List Calls)
    (result : Except Failure PollSummary) : Prop where
  whole : ∀ (index : Nat) (pipeline : SyncPipeline) (calls : Calls),
    due[index]? = some pipeline → turns[index]? = some calls →
    Throws turns result index → Performed.GoesThrough Op.startsRun calls →
    Performed.GoesThrough Op.movesNextRun calls ∨
      env.cron.computeNextRunAt (cronOf pipeline) (timezoneOf pipeline) now =
        .ok pipeline.nextRunAt
  last : ∀ (index later : Nat) (pipeline : SyncPipeline),
    Throws turns result index → index < later →
    due[later]? = some pipeline → ¬ before.NothingRuns pipeline.id

section Cycle

variable {env : Env} {now : Time} {pipeline : SyncPipeline}
  {before after : Store} {calls : Calls}

/-! ## What becomes of the due pipelines -/

theorem RunKeys.of_performs {α : Type} {body : Body α}
    {result : Except Failure α} (hkeys : RunKeys before)
    (h : (machine env).Performs body before calls result after) :
    RunKeys after := by
  have huses : body.Uses fun _ => True :=
    uses_of_forall (fun _ => trivial) body
  refine (Machine.ensures_of_uses (J := RunKeys)
    (fun op store value store' _ hexec hstore => ?_) huses hkeys).of_runs h.runs
  rw [machine_effect hexec]
  exact runKeys_effect hstore

inductive CycleOutcome (env : Env) (now : Time) (before : Store)
    (turns : List Calls) (result : Except Failure PollSummary) (after : Store)
    (index : Nat) (pipeline : SyncPipeline) : Prop
  | unreached : turns.length ≤ index → LeftAlone pipeline.id before after →
      (∃ error, result = .error error) →
      CycleOutcome env now before turns result after index pipeline
  | reached (calls : Calls) : turns[index]? = some calls →
      Outcome env now pipeline before after calls
        (Throws turns result index) →
      CycleOutcome env now before turns result after index pipeline

theorem turns_outcome {due : List SyncPipeline} {summary : PollSummary}
    {turns : List Calls} {result : Except Failure PollSummary}
    (hkeys : RunKeys before) (hdistinct : (due.map SyncPipeline.id).Nodup)
    (hvalid : ∀ pipeline ∈ due, validSchedule env pipeline = true)
    (h : (machine env).Turns (pollPipeline env now) due summary before turns
      result after) :
    (∀ other, other ∉ due.map SyncPipeline.id →
      LeftAlone other before after) ∧
    ∀ (index : Nat) (pipeline : SyncPipeline), due[index]? = some pipeline →
      CycleOutcome env now before turns result after index pipeline := by
  induction h with
  | nil summary store => exact ⟨fun _ _ => .refl, fun _ _ hnone => by simp at hnone⟩
  | @next item items summary next store middle final calls turns result hone
      hrest ih =>
      rw [List.map_cons, List.nodup_cons] at hdistinct
      obtain ⟨hown, hothers⟩ := pollPipeline_turned hkeys
        (hvalid item List.mem_cons_self) hone
      obtain ⟨hlater, hreached⟩ := ih (hkeys.of_performs hone) hdistinct.2
        fun pipeline hmem => hvalid pipeline (List.mem_cons_of_mem _ hmem)
      constructor
      · intro other hother
        rw [List.map_cons, List.mem_cons, not_or] at hother
        exact (hothers other hother.1).trans (hlater other hother.2)
      · rintro (_ | index) pipeline hpipeline
        · obtain rfl : item = pipeline := by simpa using hpipeline
          refine .reached calls rfl ((hown.frame .refl
            (hlater item.id hdistinct.1)).mono ?_)
          rintro ⟨error, herror⟩
          cases herror
        · have hmem := List.mem_of_getElem? (l := items) hpipeline
          have hne : pipeline.id ≠ item.id := fun heq =>
            hdistinct.1 (heq ▸ List.mem_map_of_mem hmem)
          cases hreached index pipeline hpipeline with
          | unreached hlength halone herror =>
              exact .unreached (Nat.succ_le_succ hlength)
                ((hothers _ hne).trans halone) herror
          | reached calls' hcalls houtcome =>
              refine .reached calls' hcalls
                ((houtcome.frame (hothers _ hne) .refl).mono ?_)
              rintro ⟨hlast, herror⟩
              exact ⟨congrArg (· + 1) hlast, herror⟩
  | @thrown item items summary store final calls error hone =>
      rw [List.map_cons, List.nodup_cons] at hdistinct
      obtain ⟨hown, hothers⟩ := pollPipeline_turned hkeys
        (hvalid item List.mem_cons_self) hone
      constructor
      · intro other hother
        rw [List.map_cons, List.mem_cons, not_or] at hother
        exact hothers other hother.1
      · rintro (_ | index) pipeline hpipeline
        · obtain rfl : item = pipeline := by simpa using hpipeline
          exact .reached calls rfl (hown.mono fun herror => ⟨rfl, herror⟩)
        · have hmem := List.mem_of_getElem? (l := items) hpipeline
          have hne : pipeline.id ≠ item.id := fun heq =>
            hdistinct.1 (heq ▸ List.mem_map_of_mem hmem)
          exact .unreached (Nat.succ_le_succ (Nat.zero_le index))
            (hothers _ hne) ⟨error, rfl⟩

theorem turns_length_pos {due : List SyncPipeline} {summary : PollSummary}
    {turns : List Calls} {error : Failure}
    (h : (machine env).Turns (pollPipeline env now) due summary before turns
      (.error error) after) : 0 < turns.length := by
  cases h with
  | next hone hrest => exact Nat.succ_pos _
  | thrown hone => exact Nat.succ_pos _

namespace PollCycle

variable {due : List SyncPipeline} {turns : List Calls}
  {result : Except Failure PollSummary}

theorem mem_pipelines (h : PollCycle env now due before turns result after)
    (hdue : pipeline ∈ due) : pipeline ∈ before.pipelines := by
  exact (exec_pipelineFindDue h.found hdue).1

theorem distinct (h : PollCycle env now due before turns result after) :
    (due.map SyncPipeline.id).Nodup := by
  obtain rfl := congrArg Prod.fst (Except.ok.inj h.found)
  refine ((List.perm_insertionSort _ _).map _).nodup_iff.mpr ?_
  exact h.pipelines.nodup.sublist (List.filter_sublist.map _)

theorem nextRunOf_before (h : PollCycle env now due before turns result after)
    (hdue : pipeline ∈ due) :
    before.nextRunOf pipeline.id = some pipeline.nextRunAt := by
  have hmem := h.mem_pipelines hdue
  obtain ⟨row, hfound⟩ : ∃ row, Table.find SyncPipeline.id pipeline.id
      before.pipelines = some row := by
    refine Option.ne_none_iff_exists'.mp fun hnone => ?_
    exact Table.find_eq_none.mp hnone pipeline hmem rfl
  have hsame := h.pipelines.eq_of_key (Table.find_mem hfound) hmem
    (Table.find_key hfound)
  rw [Store.nextRunOf, hfound, hsame, Option.map_some]

theorem outcome (h : PollCycle env now due before turns result after)
    {index : Nat} (hdue : due[index]? = some pipeline) :
    CycleOutcome env now before turns result after index pipeline :=
  (turns_outcome h.keys h.distinct h.valid h.turns).2 index pipeline hdue

theorem leftAlone_later (h : PollCycle env now due before turns result after)
    {index later : Nat} (hthrows : Throws turns result index)
    (hlater : index < later) (hdue : due[later]? = some pipeline) :
    LeftAlone pipeline.id before after := by
  have hlast := hthrows.1
  cases h.outcome hdue with
  | unreached hlength halone herror => exact halone
  | reached calls hcalls houtcome =>
      have hbound := (List.getElem?_eq_some_iff.mp hcalls).1
      omega

theorem throws_of_unreached
    (h : PollCycle env now due before turns result after) {index : Nat}
    (hlength : turns.length ≤ index) (herror : ∃ error, result = .error error) :
    ∃ thrown, Throws turns result thrown ∧ thrown < index := by
  obtain ⟨error, rfl⟩ := herror
  have hpos := turns_length_pos h.turns
  exact ⟨turns.length - 1, ⟨by omega, error, rfl⟩, by omega⟩

/-- Whatever fails, the pipelines of a cycle are isolated from each other exactly
if a failure comes last and does not fall between the two writes. -/
theorem isolated_iff (h : PollCycle env now due before turns result after) :
    Isolated env now due before turns result after ↔
      FailsLast env now due before turns result := by
  constructor
  · intro hisolated
    constructor
    · intro index pipeline calls hdue hturn hthrows hstarts
      have hmem := List.mem_of_getElem? hdue
      cases h.outcome hdue with
      | unreached hlength halone herror =>
          have hbound := (List.getElem?_eq_some_iff.mp hturn).1
          omega
      | reached calls' hturn' houtcome =>
          obtain rfl := Option.some.inj (hturn'.symm.trans hturn)
          cases houtcome with
          | passed halone hnone hidle => exact absurd hstarts hnone
          | half hstarted hsame _ hnone _ =>
              rcases hisolated.whole pipeline hmem with henqueued | halone
              · obtain ⟨nextRunAt, hnext, hmoved⟩ := henqueued.moved
                rw [hsame, h.nextRunOf_before hmem] at hmoved
                exact .inr (hnext.trans (congrArg _ (Option.some.inj hmoved).symm))
              · exact absurd halone hstarted.not_leftAlone
          | enqueued henqueued hmoves => exact .inl hmoves
    · intro index later pipeline hthrows hlater hdue hidle
      have hnot : ¬ Throws turns result later := by
        rintro ⟨hlast, -⟩
        have hfirst := hthrows.1
        omega
      have henqueued := hisolated.reached later pipeline hdue hidle hnot
      exact henqueued.started.not_leftAlone
        (h.leftAlone_later hthrows hlater hdue)
  · intro hfails
    constructor
    · intro pipeline hmem
      obtain ⟨index, hdue⟩ := List.mem_iff_getElem?.mp hmem
      cases h.outcome hdue with
      | unreached hlength halone herror => exact .inr halone
      | reached calls hturn houtcome =>
          cases houtcome with
          | passed halone hnone hidle => exact .inr halone
          | half hstarted hsame hstarts hnone hthrows =>
              rcases hfails.whole index pipeline calls hdue hturn hthrows hstarts
                with hmoves | hnext
              · exact absurd hmoves hnone
              · exact .inl ⟨hstarted, pipeline.nextRunAt, hnext,
                  hsame.trans (h.nextRunOf_before hmem)⟩
          | enqueued henqueued hmoves => exact .inl henqueued
    · intro index pipeline hdue hidle hnot
      cases h.outcome hdue with
      | unreached hlength halone herror =>
          obtain ⟨thrown, hthrows, hlt⟩ := h.throws_of_unreached hlength herror
          exact absurd hidle (hfails.last thrown index pipeline hthrows hlt hdue)
      | reached calls hturn houtcome =>
          cases houtcome with
          | passed halone hnone hthrows => exact absurd (hthrows hidle) hnot
          | half _ _ _ _ hthrows => exact absurd hthrows hnot
          | enqueued henqueued hmoves => exact henqueued

end PollCycle

/-! ## The cycles of the poller -/

/-- The loop runs somewhere between the two stores, or not at all, and nothing
else in between writes runs or pipelines. -/
def Cycles (env : Env) (before after : Store) : Prop :=
  (∀ other, LeftAlone other before after) ∨
  ∃ start due turns result stop,
    PollCycle env start.clock due start turns result stop ∧
    (∀ other, LeftAlone other before start) ∧
    ∀ other, LeftAlone other stop after

theorem Cycles.frame {first last : Store} (h : Cycles env before after)
    (hfirst : ∀ other, LeftAlone other first before)
    (hlast : ∀ other, LeftAlone other after last) : Cycles env first last := by
  rcases h with hnone | ⟨start, due, turns, result, stop, hcycle, hbefore, hafter⟩
  · exact .inl fun other => ((hfirst other).trans (hnone other)).trans
      (hlast other)
  · exact .inr ⟨start, due, turns, result, stop, hcycle,
      fun other => (hfirst other).trans (hbefore other),
      fun other => (hafter other).trans (hlast other)⟩

structure Pollable (env : Env) (store : Store) : Prop where
  keys : RunKeys store
  pipelines : Table.Keyed SyncPipeline.id store.nextId store.pipelines
  valid : ∀ row ∈ store.pipelines, row.isDue store.clock = true →
    validSchedule env row = true

def Op.OffPipelines (op : Op) : Prop :=
  op.writesSyncRuns = false ∧ op.writesPipelines = false

theorem offPipelines_quiet : AllowsQuiet Op.OffPipelines := by
  refine allowsQuiet fun op hop => ?_
  cases op with
  | syncRunCreate _ | syncRunUpdate _ _ | pipelineCreate _
  | pipelineUpdate _ _ => cases hop
  | _ => exact ⟨rfl, rfl⟩

theorem Pollable.effect {op : Op} (h : Pollable env before)
    (hop : op.OffPipelines) : Pollable env (op.effect before) := by
  refine ⟨runKeys_effect h.keys, keyed_pipelines h.pipelines, ?_⟩
  rw [effect_pipelines hop.2, effect_clock]
  exact h.valid

theorem offPipelines_performs {α : Type} {body : Body α}
    {result : Except Failure α}
    (h : (machine env).Performs body before calls result after)
    (huses : body.Uses Op.OffPipelines) :
    (∀ other, LeftAlone other before after) ∧
      (Pollable env before → Pollable env after) := by
  refine (Machine.ensures_of_uses (J := fun store : Store =>
    (∀ other, LeftAlone other before store) ∧
      (Pollable env before → Pollable env store)) ?_ huses
    ⟨fun _ => .refl, id⟩).of_runs h.runs
  rintro op store value store' hop hexec ⟨hsame, hpollable⟩
  rw [machine_effect hexec]
  exact ⟨fun other => (hsame other).trans
      (.of_tables (effect_syncRuns hop.1) (effect_pipelines hop.2)),
    fun hbefore => (hpollable hbefore).effect hop⟩

theorem enqueueDuePipelines_cycles {result : Except Failure PollSummary}
    (hpollable : Pollable env before)
    (h : (machine env).Performs (enqueueDuePipelines env) before calls result
      after) : Cycles env before after := by
  rcases Machine.performs_bind.mp h with ⟨error, hclock, rfl⟩ |
    ⟨time, start, first, second, hclock, hlater, rfl⟩
  · obtain ⟨-, -, rfl⟩ := Machine.performs_await.mp hclock
    exact .inl fun _ => .refl
  obtain ⟨-, hends⟩ := Machine.performs_await.mp hclock
  obtain ⟨rfl, rfl⟩ := Prod.mk.inj (Except.ok.inj hends)
  rcases Machine.performs_bind.mp hlater with ⟨error, hfind, rfl⟩ |
    ⟨due, middle, found, loop, hfind, hloop, rfl⟩
  · obtain ⟨-, -, rfl⟩ := Machine.performs_await.mp hfind
    exact .inl fun _ => .refl
  obtain ⟨-, hfound⟩ := Machine.performs_await.mp hfind
  obtain rfl : middle = before := machine_effect hfound
  obtain ⟨turns, -, hturns⟩ := Machine.performs_foldlM.mp hloop
  have hvalid : ∀ row ∈ due, validSchedule env row = true := by
    intro row hrow
    obtain ⟨hstored, hdue⟩ := @exec_pipelineFindDue env _ _ _ _ _ hfound hrow
    exact hpollable.valid row hstored hdue
  exact .inr ⟨middle, due, turns, result, after, ⟨hpollable.keys,
    hpollable.pipelines, hfound, hvalid, hturns⟩, fun _ => .refl, fun _ => .refl⟩

theorem pollTick_cycles {startedAt : Time} {result : Except Failure Unit}
    (hpollable : Pollable env before)
    (h : (machine env).Performs (pollTick env startedAt) before calls result
      after) : Cycles env before after := by
  have quiet : AllowsQuiet Op.OffPipelines := offPipelines_quiet
  rcases Machine.performs_bind.mp h with ⟨error, hlog, -⟩ |
    ⟨_, start, first, second, hlog, hlater, rfl⟩
  · exact .inl (offPipelines_performs hlog (log_rule quiet)).1
  obtain ⟨hbefore, hpolls⟩ := offPipelines_performs hlog (log_rule quiet)
  rcases Machine.performs_bind.mp hlater with ⟨error, hdue, -⟩ |
    ⟨summary, stop, cycle, rest, hdue, hrest, rfl⟩
  · exact (enqueueDuePipelines_cycles (hpolls hpollable) hdue).frame hbefore
      fun _ => .refl
  · refine (enqueueDuePipelines_cycles (hpolls hpollable) hdue).frame hbefore
      (offPipelines_performs hrest ?_).1
    exact (currentTime_rule quiet).bind fun _ => log_rule quiet

/-- Whatever a polling cycle does to runs and pipelines, its loop does. -/
theorem runPollingCycle_cycles {worker : Id} {result : Except Failure Unit}
    (hpollable : Pollable env before)
    (h : (machine env).Performs (runPollingCycle env worker) before calls result
      after) : Cycles env before after := by
  have quiet : AllowsQuiet Op.OffPipelines := offPipelines_quiet
  have hlock : ∀ op : Op, op.OffPipelines → (await op).Uses Op.OffPipelines :=
    fun op hop => (uses_await op).mpr hop
  rw [runPollingCycle] at h
  split at h
  · exact .inl (offPipelines_performs h trivial).1
  rcases Machine.performs_bind.mp h with ⟨error, henter, -⟩ |
    ⟨entered, locked, first, second, henter, hlater, rfl⟩
  · exact .inl (offPipelines_performs henter (hlock _ ⟨rfl, rfl⟩)).1
  obtain ⟨hentered, hlocked⟩ :=
    offPipelines_performs henter (hlock _ ⟨rfl, rfl⟩)
  split at hlater
  · refine Cycles.frame (.inl ?_) hentered fun _ => .refl
    exact (offPipelines_performs hlater trivial).1
  rcases Machine.performs_bind.mp hlater with ⟨error, hclock, -⟩ |
    ⟨startedAt, start, third, fourth, hclock, hguarded, rfl⟩
  · refine Cycles.frame (.inl ?_) hentered fun _ => .refl
    exact (offPipelines_performs hclock (currentTime_rule quiet)).1
  obtain ⟨hread, hstart⟩ :=
    offPipelines_performs hclock (currentTime_rule quiet)
  have hpolls := hstart (hlocked hpollable)
  refine Cycles.frame ?_ (fun other => (hentered other).trans (hread other))
    fun _ => .refl
  have hleaves : ∀ outcome : Except Failure Unit,
      ((await (.pollLeave worker)).bind fun _ =>
        Prog.ofExcept outcome : Body Unit).Uses Op.OffPipelines :=
    fun outcome => (hlock _ ⟨rfl, rfl⟩).bind fun _ => uses_ofExcept outcome
  rcases Machine.performs_bind.mp hguarded with ⟨error, hattempt, -⟩ |
    ⟨outcome, stop, tick, rest, hattempt, hleave, rfl⟩
  · obtain ⟨outcome, herror, -⟩ := Machine.performs_attempt.mp hattempt
    cases herror
  obtain ⟨ended, -, htick⟩ := Machine.performs_attempt.mp hattempt
  have hticks : Cycles env start stop := by
    rcases Machine.performs_tryCatch.mp htick with ⟨value, htried, -⟩ |
      ⟨failure, thrown, tried, handled, htried, hhandled, rfl⟩
    · exact pollTick_cycles hpolls htried
    · refine (pollTick_cycles hpolls htried).frame (fun _ => .refl)
        (offPipelines_performs hhandled ?_).1
      exact (currentTime_rule quiet).bind fun _ => log_rule quiet
  exact hticks.frame (fun _ => .refl)
    (offPipelines_performs hleave (hleaves outcome)).1

end Cycle

/-! ## Cycles over one and over two pipelines -/

def dueStore (pipelines : List SyncPipeline) : Store :=
  { Sample.store with clock := 60000, pipelines := pipelines }

def cycleRun (pipelines : List SyncPipeline) (faults : List (Option Failure)) :
    Calls × Except Failure PollSummary × Store :=
  (machine (Sample.env .async)).perform
    (pipelines.foldlM (pollPipeline (Sample.env .async) 60000)
      ⟨pipelines.length, 0, 0⟩) faults (dueStore pipelines)

theorem cycleRun_cycle {pipelines : List SyncPipeline}
    (hkeyed : Table.Keyed SyncPipeline.id Sample.store.nextId pipelines)
    (hfound : exec (Sample.env .async) (.pipelineFindDue 60000)
      (dueStore pipelines) = .ok (pipelines, dueStore pipelines))
    (hvalid : pipelines.all (validSchedule (Sample.env .async)) = true)
    (faults : List (Option Failure)) :
    ∃ turns, (cycleRun pipelines faults).1 = turns.flatten ∧
      PollCycle (Sample.env .async) 60000 pipelines (dueStore pipelines) turns
        (cycleRun pipelines faults).2.1 (cycleRun pipelines faults).2.2 := by
  obtain ⟨turns, hcalls, hturns⟩ := Machine.performs_foldlM.mp
    (Machine.performs_perform _ faults (dueStore pipelines))
  have hkeys : RunKeys (dueStore pipelines) :=
    ⟨List.nodup_nil, by simp [dueStore, Sample.store]⟩
  exact ⟨turns, hcalls, hkeys, hkeyed, hfound, List.all_eq_true.mp hvalid,
    hturns⟩

def secondPipeline : SyncPipeline := { Sample.pipeline with id := 4 }

def firstTurn : Calls × Except Failure PollSummary × Store :=
  (machine (Sample.env .async)).perform
    (pollPipeline (Sample.env .async) 60000 ⟨2, 0, 0⟩ Sample.pipeline) []
    (dueStore [Sample.pipeline, secondPipeline])

def firstSummary : PollSummary := firstTurn.2.1.toOption.getD ⟨2, 0, 0⟩

def secondTurn : Calls × Except Failure PollSummary × Store :=
  (machine (Sample.env .async)).perform
    (pollPipeline (Sample.env .async) 60000 firstSummary secondPipeline)
    [some recordNotFound] firstTurn.2.2

theorem firstTurn_performs :
    (machine (Sample.env .async)).Performs
      (pollPipeline (Sample.env .async) 60000 ⟨2, 0, 0⟩ Sample.pipeline)
      (dueStore [Sample.pipeline, secondPipeline]) firstTurn.1
      (.ok firstSummary) firstTurn.2.2 := by
  have hturn : (machine (Sample.env .async)).Performs _ _ firstTurn.1
      firstTurn.2.1 firstTurn.2.2 := Machine.performs_perform _ _ _
  have hok : firstTurn.2.1.toOption.isSome = true := by decide +kernel
  obtain ⟨summary, hsummary⟩ := Option.isSome_iff_exists.mp hok
  rwa [toOption_eq_some.mp hsummary,
    show summary = firstSummary by rw [firstSummary, hsummary]; rfl] at hturn

theorem secondTurn_performs :
    (machine (Sample.env .async)).Performs
        (pollPipeline (Sample.env .async) 60000 firstSummary secondPipeline)
        firstTurn.2.2 secondTurn.1 secondTurn.2.1 secondTurn.2.2 ∧
      ∃ error, secondTurn.2.1 = .error error := by
  refine ⟨Machine.performs_perform _ _ _, ?_⟩
  have hnone : secondTurn.2.1.toOption.isSome = false := by decide +kernel
  cases hresult : secondTurn.2.1 with
  | error error => exact ⟨error, rfl⟩
  | ok summary =>
      rw [hresult] at hnone
      cases hnone

theorem isolated_of_lookup :
    Isolated (Sample.env .async) 60000 [Sample.pipeline, secondPipeline]
      (dueStore [Sample.pipeline, secondPipeline]) [firstTurn.1, secondTurn.1]
      secondTurn.2.1 secondTurn.2.2 := by
  obtain ⟨hturn, error, herror⟩ := secondTurn_performs
  have hidle : (secondTurn.1.any fun call =>
      call.1.startsRun) = false := by decide +kernel
  have hcycle : PollCycle (Sample.env .async) 60000
      [Sample.pipeline, secondPipeline]
      (dueStore [Sample.pipeline, secondPipeline]) [firstTurn.1, secondTurn.1]
      secondTurn.2.1 secondTurn.2.2 := by
    rw [herror] at hturn ⊢
    exact ⟨⟨List.nodup_nil, by simp [dueStore, Sample.store]⟩,
      ⟨by decide, by decide⟩, rfl, List.all_eq_true.mp (by decide),
      .next firstTurn_performs (.thrown hturn)⟩
  refine hcycle.isolated_iff.mpr ⟨?_, ?_⟩
  · rintro index pipeline calls - hturn ⟨hlast, -⟩ ⟨call, hcall, hstarts, -⟩
    obtain rfl : index = 1 := by simpa using hlast
    obtain rfl : secondTurn.1 = calls := by simpa using hturn
    rw [List.any_eq_false] at hidle
    exact absurd hstarts (hidle call hcall)
  · rintro index later pipeline ⟨hlast, -⟩ hlater hdue -
    have hbound := (List.getElem?_eq_some_iff.mp hdue).1
    simp only [List.length_cons, List.length_nil] at hlast hbound
    omega

def halfDoneRun : Calls × Except Failure PollSummary × Store :=
  cycleRun [Sample.pipeline, secondPipeline]
    [none, none, none, some uniqueViolation]

theorem not_isolated_of_job :
    ∃ turns, PollCycle (Sample.env .async) 60000
        [Sample.pipeline, secondPipeline]
        (dueStore [Sample.pipeline, secondPipeline]) turns halfDoneRun.2.1
        halfDoneRun.2.2 ∧
      ¬ Isolated (Sample.env .async) 60000 [Sample.pipeline, secondPipeline]
        (dueStore [Sample.pipeline, secondPipeline]) turns halfDoneRun.2.1
        halfDoneRun.2.2 := by
  have hkeyed : Table.Keyed SyncPipeline.id Sample.store.nextId
      [Sample.pipeline, secondPipeline] := ⟨by decide, by decide⟩
  obtain ⟨turns, -, hcycle⟩ := cycleRun_cycle hkeyed rfl (by decide)
    [none, none, none, some uniqueViolation]
  refine ⟨turns, hcycle, fun hisolated => ?_⟩
  have hruns : (halfDoneRun.2.2.runsOf 3).length = 1 := by decide +kernel
  have hnextRun : halfDoneRun.2.2.nextRunOf 3 = some (some 60000) := by
    decide +kernel
  rcases hisolated.whole Sample.pipeline List.mem_cons_self with
    henqueued | halone
  · obtain ⟨nextRunAt, hnext, hmoved⟩ := henqueued.moved
    obtain rfl := Option.some.inj (hnextRun.symm.trans hmoved)
    cases Except.ok.inj hnext
  · rw [show halfDoneRun.2.2.runsOf 3 = [] from halone.runs] at hruns
    cases hruns

end SyncBridge
