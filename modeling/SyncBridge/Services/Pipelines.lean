import SyncBridge.Services.Jobs

/-!
# Pipelines

The calls of `PipelinesService` that write pipelines, and the preview of a
transformation.
-/

namespace SyncBridge

open SyncBridge.Foundation

structure CreatePipelineDto where
  name : String
  description : Option String
  sourceConnectorId : Id
  targetName : String
  mappingJson : Record

/-- An absent field is `none`; `description` may also be given as null. -/
structure UpdatePipelineDto where
  name : Option String := none
  description : Option (Option String) := none
  sourceConnectorId : Option Id := none
  targetName : Option String := none
  mappingJson : Option Record := none
  status : Option PipelineStatus := none

/-- The errors of a mapping, `none` when it is valid. -/
def TransformationEngine.validateMapping (engine : TransformationEngine)
    (mappingJson : Json) : Option (List String) :=
  match engine.compileMapping mappingJson with
  | .ok _ => none
  | .error (.mappingValidation messages) => some messages
  | .error _ => some ["Invalid mappingJson"]

namespace PipelinesService

variable (env : Env)

def assertValidMapping (mappingJson : Record) : Except Failure Unit :=
  match env.engine.validateMapping (.obj mappingJson) with
  | some errors => .error (.badRequest errors)
  | none => .ok ()

def assertOwnConnector (connector : Connector) (user : AuthenticatedUser) :
    Except Failure Unit :=
  if !isPrivileged user.role && connector.ownerId != user.sub then
    .error (.forbidden "You can only use your own connector")
  else .ok ()

def create (dto : CreatePipelineDto) (user : AuthenticatedUser) :
    Body SyncPipeline := do
  Prog.ofExcept (assertValidMapping env dto.mappingJson)
  let connector ← ConnectorsService.getById dto.sourceConnectorId
  Prog.ofExcept (assertOwnConnector connector user)
  let pipeline ← await (.pipelineCreate {
    name := trim dto.name
    description := dto.description.map trim
    sourceConnectorId := dto.sourceConnectorId
    targetName := trim dto.targetName
    mappingJson := .obj dto.mappingJson
    status := .active
    ownerId := user.sub })
  AuditService.log "pipeline_created" "pipeline" (idString pipeline.id)
    [("name", .str pipeline.name),
     ("sourceConnectorId", .id pipeline.sourceConnectorId)] (some user)
  pure pipeline

def statusMetadata (previous next : PipelineStatus) : Record :=
  [("previousStatus", previous.text), ("nextStatus", next.text)]

def updateData (dto : UpdatePipelineDto) : PipelineData where
  name := (nonEmpty dto.name).map trim
  description := dto.description.map fun text => text.map trim
  sourceConnectorId := dto.sourceConnectorId
  targetName := (nonEmpty dto.targetName).map trim
  mappingJson := dto.mappingJson.map Json.obj
  status := dto.status

def checkUpdate (dto : UpdatePipelineDto) (user : AuthenticatedUser) :
    Body Unit := do
  match dto.mappingJson with
  | some mappingJson => Prog.ofExcept (assertValidMapping env mappingJson)
  | none => pure ()
  match dto.sourceConnectorId with
  | some sourceConnectorId =>
      let connector ← ConnectorsService.getById sourceConnectorId
      Prog.ofExcept (assertOwnConnector connector user)
  | none => pure ()

def update (id : Id) (dto : UpdatePipelineDto) (user : AuthenticatedUser) :
    Body SyncPipeline := do
  let existing ← findOne id user
  checkUpdate env dto user
  let updated ← await (.pipelineUpdate id (updateData dto))
  match dto.status with
  | some status =>
      if status ≠ existing.status then
        AuditService.log "pipeline_status_updated" "pipeline"
          (idString existing.id) (statusMetadata existing.status status)
          (some user)
      pure updated
  | none => pure updated

def updateStatus (id : Id) (status : PipelineStatus)
    (user : AuthenticatedUser) : Body SyncPipeline := do
  let pipeline ← findOne id user
  let updated ← await (.pipelineUpdate id { status := some status })
  AuditService.log "pipeline_status_updated" "pipeline" (idString pipeline.id)
    (statusMetadata pipeline.status status) (some user)
  pure updated

/-! ## The preview of a transformation -/

structure PreviewResult where
  externalId : Option String
  raw : Record
  normalized : Record
  errors : List TransformationErrorDetail

structure PreviewSummary where
  recordsReceived : Nat
  recordsValid : Nat
  recordsInvalid : Nat

structure PreviewResponse where
  pipelineId : Id
  results : List PreviewResult
  summary : PreviewSummary

def compileMappingOrThrow (mappingJson : Json) :
    Except Failure (List NormalizedMappingField) :=
  match env.engine.compileMapping mappingJson with
  | .error (.mappingValidation messages) => .error (.badRequest messages)
  | result => result

def previewResult (record : SyncRunMockRecordPayload)
    (transformed : TransformationResult) : PreviewResult where
  externalId := record.externalId
  raw := ensureRecordObject record.raw
  normalized := transformed.normalized
  errors := transformed.errors

def previewRecord (compiledMapping : List NormalizedMappingField)
    (results : List PreviewResult) (record : SyncRunMockRecordPayload) :
    Body (List PreviewResult) := do
  let transformed ← await
    (.transform (ensureRecordObject record.raw) compiledMapping)
  pure (results ++ [previewResult record transformed])

def PreviewResult.isInvalid (result : PreviewResult) : Bool :=
  result.errors.length > 0

def previewTransformation (pipelineId : Id)
    (records : Option (List SyncRunMockRecordPayload))
    (user : AuthenticatedUser) : Body PreviewResponse := do
  let pipeline ← findOne pipelineId user
  let compiledMapping ←
    Prog.ofExcept (compileMappingOrThrow env pipeline.mappingJson)
  let records := records.getD []
  let results ← records.foldlM (previewRecord compiledMapping) []
  let recordsInvalid := (results.filter PreviewResult.isInvalid).length
  let recordsValid := records.length - recordsInvalid
  AuditService.log "transformation_preview_run" "pipeline"
    (idString pipeline.id)
    [("pipelineId", .id pipeline.id),
     ("recordsReceived", .nat records.length),
     ("recordsValid", .nat recordsValid),
     ("recordsInvalid", .nat recordsInvalid),
     ("errorCount", .nat
       (results.map fun result => result.errors.length).sum)] (some user)
  pure {
    pipelineId := pipeline.id
    results := results
    summary := {
      recordsReceived := records.length
      recordsValid := recordsValid
      recordsInvalid := recordsInvalid } }

end PipelinesService

end SyncBridge
