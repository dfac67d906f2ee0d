import SyncBridge.Foundation.Rely
import SyncBridge.Schedule.EarliestRun
import SyncBridge.Schedule.WellFormed

/-!
# Polling and edits of one schedule

An edit writes the flag, the expression, the timezone and the next run together,
so edits never disagree with each other.  The polling cycle writes the next run
alone, for the schedule it read at its start; that is right as long as the row
still has this schedule when the write lands.
-/

namespace SyncBridge

open SyncBridge.Foundation

/-! ## Rows -/

/-- `nextRunAt` is null on a disabled schedule, and otherwise a time that matches
the stored expression in the stored timezone. -/
def SyncPipeline.Timely (calendar : Cron.Calendar) (row : SyncPipeline) : Prop :=
  if row.scheduleEnabled = true then
    ∃ time cron timezone parsed, row.nextRunAt = some time ∧
      row.scheduleCron = some cron ∧ row.scheduleTimezone = some timezone ∧
      Cron.parseCronExpression cron = .ok parsed ∧
      Cron.matchesCron calendar time parsed timezone = true
  else row.nextRunAt = none

def HasMatches (calendar : Cron.Calendar) (cron timezone : String) : Prop :=
  ∀ fromDate, Cron.computeNextRunAt calendar cron timezone fromDate ≠ .ok none

def SyncPipeline.HasMatches (calendar : Cron.Calendar) (row : SyncPipeline) :
    Prop :=
  row.scheduleEnabled = true → ∀ cron timezone,
    row.scheduleCron = some cron → row.scheduleTimezone = some timezone →
    SyncBridge.HasMatches calendar cron timezone

structure SyncPipeline.OnTime (env : Env) (calendar : Cron.Calendar)
    (row : SyncPipeline) : Prop where
  active : row.status = .active
  validated : row.Validated env
  hasMatches : row.HasMatches calendar
  timely : row.Timely calendar

structure SyncPipeline.SameSchedule (row other : SyncPipeline) : Prop where
  scheduleEnabled : row.scheduleEnabled = other.scheduleEnabled
  scheduleCron : row.scheduleCron = other.scheduleCron
  scheduleTimezone : row.scheduleTimezone = other.scheduleTimezone

instance (row other : SyncPipeline) : Decidable (row.SameSchedule other) :=
  decidable_of_iff (row.scheduleEnabled = other.scheduleEnabled ∧
    row.scheduleCron = other.scheduleCron ∧
    row.scheduleTimezone = other.scheduleTimezone)
    ⟨fun h => ⟨h.1, h.2.1, h.2.2⟩, fun h => ⟨h.1, h.2, h.3⟩⟩

/-- The write enables a schedule for which the search finds nothing. -/
def PipelineData.EnablesMatchless (calendar : Cron.Calendar)
    (data : PipelineData) : Prop :=
  ∃ cron timezone, data.scheduleEnabled = some true ∧
    data.scheduleCron = some (some cron) ∧
    data.scheduleTimezone = some (some timezone) ∧
    ¬ HasMatches calendar cron timezone

section Rows

variable {env : Env} {calendar : Cron.Calendar} {row known : SyncPipeline}
  {data : PipelineData} {nextRunAt : Option Time}

theorem timely_of_next {cron timezone : String} {fromDate : Time}
    (henabled : row.scheduleEnabled = true)
    (hcron : row.scheduleCron = some cron)
    (htimezone : row.scheduleTimezone = some timezone)
    (hmatches : HasMatches calendar cron timezone)
    (hnext : Cron.computeNextRunAt calendar cron timezone fromDate =
      .ok nextRunAt)
    (hrow : row.nextRunAt = nextRunAt) : row.Timely calendar := by
  cases nextRunAt with
  | none => exact absurd hnext (hmatches fromDate)
  | some time =>
      obtain ⟨parsed, hparsed, hmatch⟩ :=
        Cron.matchesCron_of_computeNextRunAt hnext
      rw [SyncPipeline.Timely, if_pos henabled]
      exact ⟨time, cron, timezone, parsed, hrow, hcron, htimezone, hparsed,
        hmatch⟩

theorem onTime_leaves (hrow : row.OnTime env calendar)
    (hactive : (data.apply row).status = .active)
    (hdata : data.LeavesSchedule) : (data.apply row).OnTime env calendar := by
  have henabled : (data.apply row).scheduleEnabled = row.scheduleEnabled := by
    simp [PipelineData.apply, hdata.scheduleEnabled]
  have hcron : (data.apply row).scheduleCron = row.scheduleCron := by
    simp [PipelineData.apply, hdata.scheduleCron]
  have htimezone : (data.apply row).scheduleTimezone = row.scheduleTimezone := by
    simp [PipelineData.apply, hdata.scheduleTimezone]
  have hnext : (data.apply row).nextRunAt = row.nextRunAt := by
    simp [PipelineData.apply, hdata.nextRunAt]
  refine ⟨hactive, ?_, ?_, ?_⟩
  · exact @validated_apply _ _ row _ (.runPollingCycle 0)
      hrow.validated (.inl hdata)
  · rw [SyncPipeline.HasMatches, henabled, hcron, htimezone]
    exact hrow.hasMatches
  · rw [SyncPipeline.Timely, henabled, hcron, htimezone, hnext]
    exact hrow.timely

theorem onTime_edit {dto : UpdatePipelineScheduleDto} {baseTime : Time}
    (hcalendar : env.cron = Cron.utils calendar)
    (hrow : row.OnTime env calendar) (hknown : known.status = .active)
    (hcheck : SchedulerService.checkSchedule env
      (SchedulerService.effectiveSchedule dto known) known.status = .ok ())
    (hnext : SchedulerService.scheduledNextRunAt env
      (SchedulerService.effectiveSchedule dto known) known.status baseTime =
        .ok nextRunAt)
    (hmatches : ¬ (SchedulerService.scheduleData
      (SchedulerService.effectiveSchedule dto known) known
      nextRunAt).EnablesMatchless calendar) :
    ((SchedulerService.scheduleData
      (SchedulerService.effectiveSchedule dto known) known nextRunAt).apply
        row).OnTime env calendar := by
  generalize hschedule :
    SchedulerService.effectiveSchedule dto known = schedule at *
  have hwritten : (((SchedulerService.scheduleData schedule known
      nextRunAt).apply row).scheduleEnabled = schedule.enabled) ∧
      ((SchedulerService.scheduleData schedule known
        nextRunAt).apply row).nextRunAt = nextRunAt := ⟨rfl, rfl⟩
  have hvalidated : ((SchedulerService.scheduleData schedule known
      nextRunAt).apply row).Validated env := by
    subst hschedule
    exact validated_apply _ hrow.validated (.inr
      (@PipelineData.Planned.edit env known 0 dto ⟨0, .user⟩ _ _ hcheck hnext))
  cases henabled : schedule.enabled with
  | false =>
      rw [henabled] at hwritten
      simp only [SchedulerService.scheduledNextRunAt, henabled,
        Bool.false_eq_true, false_and, if_false] at hnext
      obtain rfl := Except.ok.inj hnext
      refine ⟨hrow.active, hvalidated, ?_, ?_⟩
      · intro hon
        rw [hwritten.1] at hon
        cases hon
      · rw [SyncPipeline.Timely, hwritten.1]
        exact hwritten.2
  | true =>
      have hcron : ((SchedulerService.scheduleData schedule known
          nextRunAt).apply row).scheduleCron = some schedule.cron := by
        simp [PipelineData.apply, SchedulerService.scheduleData, henabled]
      have htimezone : ((SchedulerService.scheduleData schedule known
          nextRunAt).apply row).scheduleTimezone = some schedule.timezone := by
        simp [PipelineData.apply, SchedulerService.scheduleData, henabled]
      have hhas : HasMatches calendar schedule.cron schedule.timezone := by
        by_contra hnone
        refine hmatches ⟨schedule.cron, schedule.timezone, ?_, ?_, ?_, hnone⟩
        · simp [SchedulerService.scheduleData, henabled]
        · simp [SchedulerService.scheduleData, henabled]
        · simp [SchedulerService.scheduleData, henabled]
      simp only [SchedulerService.scheduledNextRunAt, henabled, hknown,
        and_self, if_true, hcalendar] at hnext
      refine ⟨hrow.active, hvalidated, ?_, ?_⟩
      · intro _ cron timezone hstored hzone
        rw [hcron] at hstored
        rw [htimezone] at hzone
        cases hstored
        cases hzone
        exact hhas
      · exact timely_of_next (hwritten.1.trans henabled) hcron htimezone hhas
          hnext hwritten.2

/-- The poller's write is right for a row with the schedule that it read. -/
theorem onTime_poll {now : Time}
    (hcalendar : env.cron = Cron.utils calendar)
    (hempty : calendar.acceptsTimezone "" = false)
    (hrow : row.OnTime env calendar) (hknown : known.OnTime env calendar)
    (hsame : row.SameSchedule known) (hschedulable : known.Schedulable)
    (hnext : env.cron.computeNextRunAt (SchedulerService.cronOf known)
      (SchedulerService.timezoneOf known) now = .ok nextRunAt) :
    (PipelineData.apply { nextRunAt := some nextRunAt } row).OnTime env
      calendar := by
  have hreal : env.cron.validateTimezone "" = false := by
    rw [hcalendar]
    exact hempty
  obtain ⟨hcron, htimezone, -⟩ :=
    schedule_of_validated hreal hknown.validated hschedulable.1
  have henabled : row.scheduleEnabled = true :=
    hsame.scheduleEnabled.trans hschedulable.1
  have hhas := hknown.hasMatches hschedulable.1 _ _ hcron htimezone
  rw [hcalendar] at hnext
  refine ⟨hrow.active, ?_, hrow.hasMatches, ?_⟩
  · exact hrow.validated
  · exact timely_of_next henabled (hsame.scheduleCron.trans hcron)
      (hsame.scheduleTimezone.trans htimezone) hhas hnext rfl

end Rows

/-! ## Steps -/

def pipelineWrite (pool : Platform) :
    Step → Option (Task Op.Res Failure Answer Call × Id × PipelineData)
  | .run index =>
      match pool.tasks[index]? with
      | some ⟨call, trace, .call (.pipelineUpdate id data) next⟩ =>
          some (⟨call, trace, .call (.pipelineUpdate id data) next⟩, id, data)
      | _ => none
  | _ => none

/-- The write lands on a row that no longer has the schedule that its polling
cycle has read. -/
def LandsStale (env : Env) (pool : Platform) (id : Id)
    (task : Task Op.Res Failure Answer Call) (data : PipelineData) : Prop :=
  task.call.polls = true ∧ data.nextRunAt.isSome = true ∧
    ∃ known ∈ (planning env).state task, known.id = id ∧
      ∃ row ∈ pool.store.pipelines, row.id = id ∧ ¬ row.SameSchedule known

instance (env : Env) (pool : Platform) (id : Id)
    (task : Task Op.Res Failure Answer Call) (data : PipelineData) :
    Decidable (LandsStale env pool id task data) :=
  inferInstanceAs (Decidable (_ ∧ _ ∧ ∃ known ∈ (planning env).state task,
    known.id = id ∧ ∃ row ∈ pool.store.pipelines, row.id = id ∧ _))

def PipelineData.Deactivates (data : PipelineData) : Prop :=
  data.status.getD .active ≠ .active

instance (data : PipelineData) : Decidable data.Deactivates :=
  inferInstanceAs (Decidable (_ ≠ _))

/-- The pipeline stays active, and what is written of its schedule is right. -/
structure Undisputed (env : Env) (calendar : Cron.Calendar) (id : Id)
    (pool : Platform) (step : Step) : Prop where
  active : ∀ task data, pipelineWrite pool step = some (task, id, data) →
    ¬ data.Deactivates
  hasMatches : ∀ task data, pipelineWrite pool step = some (task, id, data) →
    ¬ data.EnablesMatchless calendar
  fresh : ∀ task data, pipelineWrite pool step = some (task, id, data) →
    ¬ LandsStale env pool id task data

section Steps

variable {env : Env} {calendar : Cron.Calendar} {id : Id}
  {pool pool' : Platform} {index : Nat}
  {task : Task Op.Res Failure Answer Call}

theorem pipelineWrite_of_done {data : PipelineData}
    {next : Except Failure SyncPipeline → Body Answer} {updated : SyncPipeline}
    (hdone : (platform env).Done pool pool' index task
      (.pipelineUpdate id data) next updated) :
    pipelineWrite pool (.run index) = some (task, id, data) := by
  obtain ⟨call, trace, prog⟩ := task
  obtain rfl := hdone.awaits
  simp only [pipelineWrite, hdone.at_index]

structure AllOnTime (env : Env) (calendar : Cron.Calendar) (id : Id)
    (store : Store) : Prop where
  exists_already : id < store.nextId
  onTime : ∀ row ∈ store.pipelines, row.id = id → row.OnTime env calendar

def ReadOnTime (env : Env) (calendar : Cron.Calendar) (id : Id) (_ : Store)
    (task : Task Op.Res Failure Answer Call) : Prop :=
  ∀ known ∈ (planning env).state task, known.id = id →
    known.OnTime env calendar

theorem allOnTime_of_write {data : PipelineData} {store : Store}
    (hcalendar : env.cron = Cron.utils calendar)
    (hempty : calendar.acceptsTimezone "" = false)
    (hstore : AllOnTime env calendar id store)
    (hknows : ReadOnTime env calendar id store task)
    (hactive : ¬ data.Deactivates) (hmatches : ¬ data.EnablesMatchless calendar)
    (hfresh : ∀ known ∈ (planning env).state task, known.id = id →
      task.call.polls = true → data.nextRunAt.isSome = true →
      ∀ row ∈ store.pipelines, row.id = id → row.SameSchedule known)
    (hguard : (planning env).guard task.call ((planning env).state task)
      (.pipelineUpdate id data)) :
    ∀ row ∈ store.pipelines, row.id = id →
      (data.apply row).OnTime env calendar := by
  intro row hrow hid
  have honTime := hstore.onTime row hrow hid
  have hstatus : (data.apply row).status = .active := by
    have happly : (data.apply row).status = data.status.getD row.status := rfl
    rw [happly, honTime.active]
    exact not_not.mp hactive
  rcases hguard with hleaves | ⟨known, hmem, hknown, hplanned⟩
  · exact onTime_leaves honTime hstatus hleaves
  · have hread := hknows known hmem hknown
    generalize hcall : task.call = call at hplanned hfresh
    cases hplanned with
    | edit hcheck hnext =>
        exact onTime_edit hcalendar honTime hread.active hcheck hnext hmatches
    | poll hschedulable _ hnext =>
        exact onTime_poll hcalendar hempty honTime hread
          (hfresh known hmem hknown rfl rfl row hrow hid) hschedulable hnext

end Steps

theorem undisputed_rely {env : Env} {calendar : Cron.Calendar} {id : Id}
    {init : Store} (hcalendar : env.cron = Cron.utils calendar)
    (hempty : calendar.acceptsTimezone "" = false) :
    Monitor.Rely (planning env) (platform env) (Undisputed env calendar id)
      init.boot (fun _ => True) (AllOnTime env calendar id)
      (ReadOnTime env calendar id) (fun _ known _ => [] ⊆ known) where
  body call _ := (body_plans call).accepts [] (List.nil_subset _)
  start pool call _ _ _ _ :=
    ⟨trivial, fun known hknown => nomatch hknown⟩
  done := by
    intro pool pool' index task op next value _ hold hok hdone hguard
    have hmem := List.mem_of_getElem? hdone.at_index
    have hknows := hold.knows task hmem
    have heffect := effect_of_done hdone
    have hlt : id < pool'.store.nextId := by
      rw [heffect]
      exact Nat.lt_of_lt_of_le hold.store.exists_already nextId_le_effect
    refine ⟨planning_facts (exec_of_done hdone) _ _, ⟨hlt, ?_⟩, ?_,
      fun _ _ _ _ hother => hother⟩
    · rw [heffect]
      intro row hrow hid
      rcases pipelines_of_effect hrow with hbefore | ⟨data, rfl, rfl⟩ |
        ⟨data, old, hbefore, rfl, rfl⟩
      · exact hold.store.onTime row hbefore hid
      · exact absurd hid hold.store.exists_already.ne'
      · obtain rfl : old.id = id := hid
        have hwrite := pipelineWrite_of_done hdone
        refine allOnTime_of_write hcalendar hempty hold.store hknows
          (hok.active _ _ hwrite) (hok.hasMatches _ _ hwrite) ?_ hguard
          old hbefore rfl
        intro known hknown hsame hpolls hsome row hrow hrowid
        by_contra hdiffers
        exact hok.fresh _ _ hwrite ⟨hpolls, hsome, known, hknown,
          hsame, row, hrow, hrowid, hdiffers⟩
    · -- What has just been read was on time.
      intro known hknown hid
      have hcases : known ∈ (planning env).state task ∨
          known ∈ pool.store.pipelines :=
        known_of_noteRows (exec_of_done hdone) hknown
      rcases hcases with hbefore | hread
      · exact hknows known hbefore hid
      · exact hold.store.onTime known hread hid
  raised _ _ _ task _ _ _ _ hold _ hraised _ :=
    ⟨trivial, hold.knows task (List.mem_of_getElem? hraised.at_index)⟩
  event := by
    intro pool pool' event calls _ hold _ henv
    obtain ⟨clock, jobs, hstore⟩ := Event.apply_store henv
    refine ⟨?_, hold.knows, fun call _ => ⟨trivial, ?_⟩⟩
    · rw [hstore]
      exact ⟨hold.store.exists_already, hold.store.onTime⟩
    · exact fun known hknown => nomatch hknown

/-- Whatever edits and polling cycles overlap, the next run of the pipeline is
right after every step, as long as no cycle overwrites the next run of a row
that has been edited since it was read. -/
theorem next_run_matches_schedule {env : Env} {calendar : Cron.Calendar}
    {id : Id} {init : Store} {pool : Platform}
    (hcalendar : env.cron = Cron.utils calendar)
    (hempty : calendar.acceptsTimezone "" = false)
    (hexists : id < init.nextId)
    (hinit : ∀ row ∈ init.pipelines, row.id = id → row.OnTime env calendar)
    (h : (platform env).Reach (Undisputed env calendar id) init.boot pool) :
    ∀ row ∈ pool.store.pipelines, row.id = id → row.Timely calendar := by
  intro row hrow hid
  have hholds := (undisputed_rely hcalendar hempty).holds rfl
    ⟨hexists, hinit⟩ h
  exact (hholds.store.onTime row hrow hid).timely

/-! ## The schedule of every minute -/

theorem everyMinute_matches : ∃ parsed,
    Cron.parseCronExpression "* * * * *" = .ok parsed ∧
      ∀ time timezone,
        Cron.matchesCron Sample.calendar time parsed timezone = true := by
  have hall : ((Cron.parseCronExpression "* * * * *").toOption.any
      fun parsed =>
        ((List.range 60).all fun value => parsed.minute.contains (value : ℤ)) &&
        ((List.range 24).all fun value => parsed.hour.contains (value : ℤ)) &&
        parsed.dayOfMonth.contains 1 && parsed.month.contains 1 &&
        parsed.dayOfWeek.contains 4) = true := by
    decide +kernel
  obtain ⟨parsed, hparsed, hall⟩ := (Option.any_eq_true _ _).mp hall
  simp only [Bool.and_eq_true, List.all_eq_true, List.mem_range] at hall
  obtain ⟨⟨⟨⟨hminute, hhour⟩, hday⟩, hmonth⟩, hweekday⟩ := hall
  refine ⟨parsed, toOption_eq_some.mp hparsed, fun time timezone => ?_⟩
  have hminutes := hminute (time / 60000 % 60).toNat (by omega)
  have hhours := hhour (time / 3600000 % 24).toNat (by omega)
  rw [Int.toNat_of_nonneg (by omega)] at hminutes hhours
  simp only [Cron.matchesCron, Sample.calendar, hminutes, hhours, hday,
    hmonth, hweekday, Bool.and_self]

theorem hasMatches_sample :
    HasMatches Sample.calendar "* * * * *" "UTC" := by
  intro fromDate hnext
  obtain ⟨parsed, hparsed, hmatches⟩ := everyMinute_matches
  have hzone : Cron.validateTimezone Sample.calendar "UTC" = true := by decide
  simp only [Cron.computeNextRunAt, hparsed, hzone, bind, Except.bind,
    Bool.not_true, Bool.false_eq_true, if_false, Cron.searchTurns] at hnext
  generalize (Cron.startOfMinute Sample.calendar fromDate).bind
    (Cron.nextMinute Sample.calendar) = cursor at hnext
  cases cursor with
  | none => cases hnext
  | some cursor =>
      simp only [Cron.searchFrom, hmatches, if_true] at hnext
      cases hnext

theorem onTime_sample :
    Sample.pipeline.OnTime Sample.cronEnv Sample.calendar := by
  obtain ⟨parsed, hparsed, hmatches⟩ := everyMinute_matches
  refine ⟨rfl, fun _ => ?_, ?_, ?_⟩
  · refine ⟨"* * * * *", "UTC", rfl, rfl, ?_⟩
    exact ⟨by decide, by decide, by decide +kernel, by decide, by decide⟩
  · rintro _ cron timezone ⟨⟩ ⟨⟩
    exact hasMatches_sample
  · exact ⟨60000, "* * * * *", "UTC", parsed, rfl, rfl, rfl, hparsed,
      hmatches _ _⟩

def undisputedSample (pool : Platform) (step : Step) : Bool :=
  match pipelineWrite pool step with
  | some (task, id, data) =>
      !data.Deactivates && !LandsStale Sample.cronEnv pool id task data &&
        (data.scheduleEnabled != some true ||
          data.scheduleCron = some (some "* * * * *") &&
            data.scheduleTimezone = some (some "UTC"))
  | none => true

theorem undisputed_of_sample {pool : Platform} {step : Step}
    (h : undisputedSample pool step = true) :
    Undisputed Sample.cronEnv Sample.calendar Sample.pipeline.id pool step := by
  have hwrite : ∀ task data,
      pipelineWrite pool step = some (task, Sample.pipeline.id, data) →
      ¬ data.Deactivates ∧
        ¬ LandsStale Sample.cronEnv pool Sample.pipeline.id task data ∧
        ¬ data.EnablesMatchless Sample.calendar := by
    intro task data hwrite
    simp only [undisputedSample, hwrite, Bool.and_eq_true, Bool.not_eq_true',
      decide_eq_false_iff_not, Bool.or_eq_true, bne_iff_ne,
      decide_eq_true_eq] at h
    refine ⟨h.1.1, h.1.2, ?_⟩
    rintro ⟨cron, timezone, henabled, hcron, htimezone, hnone⟩
    rcases h.2 with hdisabled | ⟨hminute, hzone⟩
    · exact hdisabled henabled
    · rw [hminute] at hcron
      rw [hzone] at htimezone
      cases hcron
      cases htimezone
      exact hnone hasMatches_sample
  exact ⟨fun task data hstep => (hwrite task data hstep).1,
    fun task data hstep => (hwrite task data hstep).2.2,
    fun task data hstep => (hwrite task data hstep).2.1⟩

def editWhilePolling (edit : Call) (edits : Nat) : List Step :=
  [.env (.tick 60000), .start (.runPollingCycle 0)] ++
    List.replicate 5 (.run 0) ++ [.start edit] ++
    List.replicate edits (.run 1) ++ List.replicate 12 (.run 0)

/-- The edit confirms the schedule. -/
theorem next_run_matches_schedule_of_same :
    ∃ pool, (platform Sample.cronEnv).runWhere
        (fun pool step => undisputedSample pool step = true) Sample.store.boot
        (editWhilePolling (Sample.editSchedule (some true) none) 4) =
          some pool ∧
      (∀ task ∈ pool.tasks, task.prog.finished = true) ∧
      ∀ row ∈ pool.store.pipelines, row.id = Sample.pipeline.id →
        row.Timely Sample.calendar := by
  have hruns : ((platform Sample.cronEnv).runWhere
      (fun pool step => undisputedSample pool step = true) Sample.store.boot
      (editWhilePolling (Sample.editSchedule (some true) none) 4)).any
        (fun pool => pool.tasks.all fun task => task.prog.finished) = true := by
    decide +kernel
  obtain ⟨pool, hrun, hended⟩ := (Option.any_eq_true _ _).mp hruns
  refine ⟨pool, hrun, List.all_eq_true.mp hended, ?_⟩
  refine next_run_matches_schedule rfl (by decide) (by decide) ?_
    ((System.reach_of_runWhere hrun).mono fun _ _ => undisputed_of_sample)
  intro row hrow _
  obtain rfl := List.mem_singleton.mp hrow
  exact onTime_sample

def onlyPollsAndEdits (pool : Platform) : Bool :=
  (pool.tasks.all fun task => match task.call with
    | .updatePipelineSchedule _ _ _ => true
    | .runPollingCycle _ => true
    | _ => false) &&
  pool.tasks.all (fun task => task.prog.finished) &&
  pool.store.pipelines.all fun row => row.status = .active

def disabledWithNextRun (pool : Platform) : Bool :=
  pool.store.pipelines.any fun row =>
    !row.scheduleEnabled && row.nextRunAt.isSome

/-- The edit disables the schedule, and the cycle sets the next run again. -/
theorem next_run_matches_schedule_fails :
    ∃ pool, (platform Sample.cronEnv).run Sample.store.boot
        (editWhilePolling (Sample.editSchedule (some false) none) 5) =
          some pool ∧
      Sample.pipeline.OnTime Sample.cronEnv Sample.calendar ∧
      onlyPollsAndEdits pool = true ∧
      ∃ row ∈ pool.store.pipelines, ¬ row.Timely Sample.calendar := by
  have hruns : ((platform Sample.cronEnv).run Sample.store.boot
      (editWhilePolling (Sample.editSchedule (some false) none) 5)).any
        (fun pool => onlyPollsAndEdits pool && disabledWithNextRun pool) =
          true := by
    decide +kernel
  obtain ⟨pool, hrun, hfinal⟩ := (Option.any_eq_true _ _).mp hruns
  obtain ⟨hcalls, hstale⟩ := Bool.and_eq_true_iff.mp hfinal
  obtain ⟨row, hrow, hset⟩ := List.any_eq_true.mp hstale
  refine ⟨pool, hrun, onTime_sample, hcalls, row, hrow, fun htimely => ?_⟩
  simp only [Bool.and_eq_true, Bool.not_eq_true'] at hset
  rw [SyncPipeline.Timely, hset.1] at htimely
  have hnone : row.nextRunAt = none := htimely
  rw [hnone] at hset
  cases hset.2

end SyncBridge
