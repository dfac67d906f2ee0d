import SyncBridge.Platform
import SyncBridge.Services.CronUtils
import SyncBridge.Transformations.Engine

/-!
# A small deployment

The inputs of the concrete runs: one operator, one connector and one pipeline
with the empty mapping, for which the transformation engine has nothing to do.
The schedule is the one of every minute.
-/

namespace SyncBridge.Sample

/-! ## Dates

The epoch has its ISO text.  No run meets another date as a text, so the other
dates only need texts of their own. -/

def epochText : String := "1970-01-01T00:00:00.000Z"

def tally (time : Time) : List Char :=
  if 0 ≤ time then 'p' :: List.replicate time.toNat '1'
  else 'n' :: List.replicate (-time).toNat '1'

def readTally : List Char → Option Time
  | 'p' :: strokes => some strokes.length
  | 'n' :: strokes => some (-strokes.length)
  | _ => none

def toISOString (date : DateValue) : String :=
  if date.1 = 0 then epochText else String.ofList (tally date.1)

def parse (text : String) : Option DateValue :=
  if text.toList = epochText.toList then some ⟨0, by decide⟩
  else (readTally text.toList).bind fun time =>
    if h : -maxTime ≤ time ∧ time ≤ maxTime then some ⟨time, h⟩ else none

theorem readTally_tally (time : Time) : readTally (tally time) = some time := by
  by_cases h : 0 ≤ time
  · simp [tally, readTally, h]
  · simp only [tally, h, if_false, readTally, List.length_replicate,
      Option.some.injEq]
    rw [Int.toNat_of_nonneg (Int.neg_nonneg_of_nonpos (not_le.mp h).le)]
    exact neg_neg time

theorem tally_ne_epoch (time : Time) : tally time ≠ epochText.toList := by
  have hepoch : epochText.toList.head? = some '1' := by decide
  intro heq
  rw [← heq, tally] at hepoch
  split at hepoch <;> simp at hepoch

theorem parse_toISOString (date : DateValue) :
    parse (toISOString date) = some date := by
  obtain ⟨time, htime⟩ := date
  by_cases hzero : time = 0
  · subst hzero
    simp [toISOString, parse]
  · simp only [toISOString, hzero, if_false, parse, String.toList_ofList,
      tally_ne_epoch, readTally_tally, Option.bind_some, htime, and_self,
      dif_pos]

def dates : Dates := ⟨parse, toISOString, parse_toISOString⟩

/-! ## The process -/

def engine : TransformationEngine where
  compileMapping _ := .ok []
  transformRecordWithCompiledMapping _ _ _ := .ok ⟨[], []⟩

def everyMinute : CronUtils where
  validateCronExpression _ := []
  validateTimezone _ := true
  computeNextRunAt _ _ time := .ok (some ((time / 60000 + 1) * 60000))

def env (queueMode : QueueMode) : Env where
  queueMode := queueMode
  isTestEnv := false
  defaultAttempts := 3
  schedulerEnabled := true
  isWorker := true
  lockTtlSeconds := 60
  payloadBytes _ := "{}".utf8ByteSize
  engine := engine
  cron := everyMinute
  dates := dates

/-! ## The data -/

def operator : AuthenticatedUser := ⟨1, .operator⟩

def connector : Connector where
  id := 2
  name := "Webhooks"
  type := .webhook
  status := .active
  configJson := .obj []
  ownerId := 1
  createdAt := 0

def pipeline : SyncPipeline where
  id := 3
  name := "Contacts"
  description := none
  sourceConnectorId := 2
  targetName := "contacts"
  status := .active
  mappingJson := .obj []
  scheduleEnabled := true
  scheduleCron := some "* * * * *"
  scheduleTimezone := some "UTC"
  nextRunAt := some 60000
  lastRunAt := none
  cursorJson := none
  incrementalMode := true
  ownerId := 1
  createdAt := 0

def store : Store where
  clock := 0
  nextId := 10
  connectors := [connector]
  pipelines := [pipeline]
  syncRuns := []
  backgroundJobs := []
  webhookEvents := []
  syncedRecords := []
  auditLogs := []
  jobs := []
  pollLocks _ := {}

theorem keyed_store :
    Foundation.Table.Keyed SyncPipeline.id store.nextId store.pipelines :=
  ⟨List.nodup_singleton _, by simp [store, pipeline]⟩

def delivery : ReceiveEventParams where
  connectorId := 2
  payload := .obj []
  headers := [("X-SyncBridge-Event-ID", .str "evt-1")]
  actor := none

/-! ## The schedule calculations of the source -/

/-- The first day of the epoch, on a host in UTC. -/
def calendar : Cron.Calendar where
  acceptsTimezone timezone := timezone = "UTC"
  getZonedDateParts time _ := {
    minute := time / 60000 % 60
    hour := time / 3600000 % 24
    dayOfMonth := 1
    month := 1
    dayOfWeek := 4 }
  localTime time := time
  utc time := time

def cronEnv : Env := { env .async with cron := Cron.utils calendar }

def unscheduled : SyncPipeline :=
  { pipeline with
    scheduleEnabled := false
    scheduleCron := none
    scheduleTimezone := none
    nextRunAt := none }

def unscheduledStore : Store := { store with pipelines := [unscheduled] }

def editSchedule (enabled : Option Bool) (cron : Option String) : Call :=
  .updatePipelineSchedule pipeline.id
    { scheduleEnabled := enabled, scheduleCron := cron } operator

/-! ## The engine of the source -/

def runtime : Runtime where
  dates := dates
  numberText value := toString value.num
  toLowerCase := toLowerCase
  toUpperCase text := String.ofList (text.toList.map Char.toUpper)
  randomUUID random := toString random

def engineEnv : Env :=
  { env .async with engine := TransformationEngineService.engine runtime }

def mapped (mapping : Record) : SyncPipeline :=
  { pipeline with mappingJson := .obj mapping }

def mappedStore (mapping : Record) : Store :=
  { store with pipelines := [mapped mapping] }

def nameMapping : Record := [("name", .str "contact.name")]

def nameFields : List NormalizedMappingField :=
  [{ outputPath := "name"
     sourcePath := "contact.name"
     required := false
     hasDefault := false
     defaultValue := none
     type := .json
     trim := false
     lowercase := false
     uppercase := false
     compute := none }]

theorem compile_nameMapping :
    engineEnv.engine.compileMapping (.obj nameMapping) = .ok nameFields := rfl

def brokenMapping : Record := [("name", .nat 5)]

def contact : SyncRunMockRecordPayload where
  externalId := some "c-1"
  raw := .obj
    [("contact", .obj [("name", .str "Ada")]), ("sequence", .nat 1)]

def requiredMapping : Record :=
  [("name", .obj [("path", .str "contact.name"), ("required", .bool true)])]

def requiredFields : List NormalizedMappingField :=
  [{ outputPath := "name"
     sourcePath := "contact.name"
     required := true
     hasDefault := false
     defaultValue := none
     type := .json
     trim := false
     lowercase := false
     uppercase := false
     compute := none }]

theorem compile_requiredMapping :
    engineEnv.engine.compileMapping (.obj requiredMapping) =
      .ok requiredFields := rfl

theorem computeFree_requiredFields :
    TransformationEngineService.ComputeFree requiredFields :=
  List.forall_mem_singleton.mpr rfl

def nameless : SyncRunMockRecordPayload where
  externalId := some "c-2"
  raw := .obj [("sequence", .nat 2)]

def lateContact : SyncRunMockRecordPayload where
  externalId := some "c-3"
  raw := .obj
    [("contact", .obj [("name", .str "Grace")]), ("sequence", .nat 3)]

def contacts : CreateRunOptions where
  mockRecords := [contact, nameless, lateContact]
  ignoreCursor := false
  triggerType := .manual
  actor := some operator

end SyncBridge.Sample
