import SyncBridge.Foundation.Rely
import SyncBridge.Sample
import SyncBridge.Schedule.Writes

/-!
# The time of the next run

`nextRunAt` is computed when the schedule of a pipeline is written and when the
polling cycle has started its run.  The status is written without it, so it is
set exactly on the pipelines that are scheduled and active as long as no write
of the status takes a scheduled pipeline out of `ACTIVE` or back.
-/

namespace SyncBridge

open SyncBridge.Foundation

variable {env : Env}

/-! ## Rows -/

/-- The next run is set exactly when the pipeline is schedulable. -/
def SyncPipeline.NextRunSet (row : SyncPipeline) : Prop :=
  row.nextRunAt.isSome = true ↔ row.Schedulable

/-- A valid expression has a match after every moment, in every timezone. -/
def CronMatches (env : Env) (cron : String) : Prop :=
  env.cron.validateCronExpression cron = [] → ∀ timezone baseTime,
    env.cron.validateTimezone timezone = true →
    ∃ time, env.cron.computeNextRunAt cron timezone baseTime = .ok (some time)

def SyncPipeline.CronMatches (env : Env) (row : SyncPipeline) : Prop :=
  ∀ cron, row.scheduleCron = some cron → SyncBridge.CronMatches env (trim cron)

/-- The write takes a scheduled pipeline out of `ACTIVE` or back. -/
def PipelineData.Switches (data : PipelineData) (row : SyncPipeline) : Prop :=
  row.scheduleEnabled = true ∧
    ¬ (data.status.getD row.status = .active ↔ row.status = .active)

instance (data : PipelineData) (row : SyncPipeline) :
    Decidable (data.Switches row) := inferInstanceAs (Decidable (_ ∧ ¬ _))

/-- A write that leaves the schedule alone keeps the next run right exactly when
it does not switch. -/
theorem nextRunSet_apply {data : PipelineData} {row : SyncPipeline}
    (hset : row.NextRunSet) (hdata : data.LeavesSchedule) :
    (data.apply row).NextRunSet ↔ ¬ data.Switches row := by
  have hnextRunAt : (data.apply row).nextRunAt = row.nextRunAt := by
    simp [PipelineData.apply, hdata.nextRunAt]
  have hscheduled : (data.apply row).scheduleEnabled = row.scheduleEnabled := by
    simp [PipelineData.apply, hdata.scheduleEnabled]
  have hstatus : (data.apply row).status = data.status.getD row.status := rfl
  simp only [SyncPipeline.NextRunSet, SyncPipeline.Schedulable, hnextRunAt,
    hscheduled, hstatus, PipelineData.Switches] at hset ⊢
  rw [hset]
  tauto

structure PipelineData.ScheduleOf (env : Env) (row : SyncPipeline)
    (data : PipelineData) : Prop where
  status : data.status = none
  cron : ∀ cron, data.scheduleCron = some (some cron) →
    CronMatches env (trim cron)
  nextRunAt : ∃ nextRunAt, data.nextRunAt = some nextRunAt ∧
    (nextRunAt.isSome = true ↔
      data.scheduleEnabled.getD row.scheduleEnabled = true ∧
        row.status = .active)

theorem nextRunSet_schedule {data : PipelineData} {row stored : SyncPipeline}
    (hdata : data.ScheduleOf env row) (hstatus : stored.status = row.status)
    (henabled : stored.scheduleEnabled = row.scheduleEnabled) :
    (data.apply stored).NextRunSet := by
  obtain ⟨hkeeps, -, nextRunAt, hnext, hset⟩ := hdata
  have hnextRunAt : (data.apply stored).nextRunAt = nextRunAt := by
    simp [PipelineData.apply, hnext]
  have hactive : (data.apply stored).status = row.status := by
    simp [PipelineData.apply, hkeeps, hstatus]
  have hscheduled : (data.apply stored).scheduleEnabled =
      data.scheduleEnabled.getD row.scheduleEnabled := by
    rw [← henabled]
    rfl
  simp only [SyncPipeline.NextRunSet, SyncPipeline.Schedulable, hnextRunAt,
    hactive, hscheduled]
  exact hset

theorem cronMatches_apply {data : PipelineData} {row : SyncPipeline}
    (hrow : row.CronMatches env)
    (hdata : ∀ cron, data.scheduleCron = some (some cron) →
      CronMatches env (trim cron)) : (data.apply row).CronMatches env := by
  intro cron hcron
  have happly : (data.apply row).scheduleCron =
      data.scheduleCron.getD row.scheduleCron := rfl
  rw [happly] at hcron
  cases hwritten : data.scheduleCron with
  | none =>
      rw [hwritten] at hcron
      exact hrow cron hcron
  | some written =>
      rw [hwritten] at hcron
      exact hdata cron (hwritten.trans (congrArg some hcron))

/-! ## Planned schedules -/

section Planned

def UpdatePipelineScheduleDto.CronMatches (env : Env)
    (dto : UpdatePipelineScheduleDto) : Prop :=
  ∀ cron, dto.scheduleCron = some cron → SyncBridge.CronMatches env (trim cron)

variable {dto : UpdatePipelineScheduleDto} {pipeline : SyncPipeline}

def Call.CronMatches (env : Env) : Call → Prop
  | .updatePipelineSchedule _ dto _ => dto.CronMatches env
  | _ => True

end Planned

/-! ## Runs -/

structure Scheduled (env : Env) (store : Store) : Prop where
  keyed : Table.Keyed SyncPipeline.id store.nextId store.pipelines
  nextRunSet : ∀ row ∈ store.pipelines, row.NextRunSet
  cronMatches : ∀ row ∈ store.pipelines, row.CronMatches env

def Knows (env : Env) (known : List SyncPipeline) (store : Store) : Prop :=
  ∀ row ∈ known, row.CronMatches env ∧
    ∀ stored ∈ store.pipelines, stored.id = row.id →
      stored.status = row.status ∧
        stored.scheduleEnabled = row.scheduleEnabled

/-- The step writes a status that takes a scheduled pipeline out of `ACTIVE` or
back. -/
def Switches (pool : Platform) : Step → Prop
  | .run index =>
      match pool.tasks[index]? with
      | some ⟨_, _, .call (.pipelineUpdate id data) _⟩ =>
          Table.Has SyncPipeline.id data.Switches id pool.store.pipelines
      | _ => False
  | _ => False

instance (pool : Platform) : DecidablePred (Switches pool)
  | .start _ | .fail _ _ | .env _ => inferInstanceAs (Decidable False)
  | .run index => by
      unfold Switches
      dsimp only
      split <;> infer_instance

/-- One call at a time, with expressions that have matches. -/
def Orderly (env : Env) (pool : Platform) (step : Step) : Prop :=
  pool.alone step = true ∧
    ∀ call, step = .start call → call.CronMatches env

section Steps

variable {pool pool' : Platform} {index : Nat}
  {task : Task Op.Res Failure Answer Call} {op : Op}
  {next : Except Failure op.Res → Body Answer} {value : op.Res}
  {store store' : Store} {known : List SyncPipeline}

theorem Scheduled.create {data : NewPipeline} (h : Scheduled env store) :
    Scheduled env (store.createPipeline data).2 := by
  have hmem : ∀ row ∈ (store.createPipeline data).2.pipelines,
      row ∈ store.pipelines ∨
        row.scheduleEnabled = false ∧ row.nextRunAt = none ∧
          row.scheduleCron = none := by
    intro row hrow
    rcases List.mem_append.mp hrow with hold | hnew
    · exact .inl hold
    · obtain rfl := List.mem_singleton.mp hnew
      exact .inr ⟨rfl, rfl, rfl⟩
  constructor
  · exact h.keyed.append rfl
  · intro row hrow
    rcases hmem row hrow with hold | ⟨henabled, hnext, -⟩
    · exact h.nextRunSet row hold
    · simp [SyncPipeline.NextRunSet, SyncPipeline.Schedulable, henabled, hnext]
  · intro row hrow
    rcases hmem row hrow with hold | ⟨-, -, hcron⟩
    · exact h.cronMatches row hold
    · intro cron hsome
      rw [hcron] at hsome
      cases hsome

theorem Scheduled.update {id : Id} {data : PipelineData}
    (h : Scheduled env store) (hknows : Knows env known store)
    (hdata : data.LeavesSchedule ∨
      ∃ row ∈ known, row.id = id ∧ data.ScheduleOf env row)
    (hswitch : ¬ Table.Has SyncPipeline.id data.Switches id store.pipelines) :
    Scheduled env { store with
      pipelines := Table.modify SyncPipeline.id id data.apply
        store.pipelines } := by
  constructor
  · exact h.keyed.modify fun _ => rfl
  · refine Table.forall_modify h.nextRunSet fun stored hstored hid hset => ?_
    rcases hdata with hleaves | ⟨row, hrow, rfl, hschedule⟩
    · refine (nextRunSet_apply hset hleaves).mpr fun hswitches => hswitch ?_
      exact ⟨stored, hstored, hid, hswitches⟩
    · obtain ⟨hstatus, henabled⟩ := (hknows row hrow).2 stored hstored hid
      exact nextRunSet_schedule hschedule hstatus henabled
  · refine Table.forall_modify h.cronMatches fun stored _ _ hmatches =>
      cronMatches_apply hmatches fun cron hcron => ?_
    rcases hdata with hleaves | ⟨row, -, -, hschedule⟩
    · rw [hleaves.scheduleCron] at hcron
      cases hcron
    · exact hschedule.cron cron hcron

theorem Knows.update {id : Id} {data : PipelineData} {updated : SyncPipeline}
    (h : Knows env known store) (call : Call) :
    Knows env (noteRows call known (.pipelineUpdate id data) updated) { store with
      pipelines := Table.modify SyncPipeline.id id data.apply
        store.pipelines } := by
  simp only [noteRows]
  split
  · rename_i hkept
    intro row hrow
    refine ⟨(h row hrow).1, fun stored hstored hid => ?_⟩
    obtain ⟨old, hold, rfl⟩ := Table.mem_modify.mp hstored
    have hsame : ∀ other : SyncPipeline,
        (data.apply other).id = other.id ∧
        (data.apply other).status = other.status ∧
        (data.apply other).scheduleEnabled = other.scheduleEnabled := by
      intro other
      simp [PipelineData.apply, hkept]
    split at hid
    · rw [(hsame old).1] at hid
      rw [if_pos ‹_›, (hsame old).2.1, (hsame old).2.2]
      exact (h row hrow).2 old hold hid
    · rw [if_neg ‹_›]
      exact (h row hrow).2 old hold hid
  · exact fun row hrow => absurd hrow List.not_mem_nil

end Steps

end SyncBridge
