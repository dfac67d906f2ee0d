import SyncBridge.Services.Jobs

/-!
# Connectors

The calls of `ConnectorsService` that write connectors, and the policy that
keeps credentials out of `configJson`.
-/

namespace SyncBridge

open SyncBridge.Foundation

structure CreateConnectorDto where
  name : String
  type : ConnectorType
  configJson : Record

structure UpdateConnectorDto where
  name : Option String := none
  status : Option ConnectorStatus := none
  configJson : Option Record := none

/-! ## The policy -/

def forbiddenConfigKeyMarkers : List String :=
  ["password", "token", "apikey", "secret", "privatekey", "accesstoken",
    "refreshtoken"]

def connectorSecretPolicyError : String :=
  "Connector credentials must not be stored in configJson. Use a secret manager in production."

def isKeyChar (char : Char) : Bool :=
  let code := char.toNat
  (97 ≤ code && code ≤ 122) || (48 ≤ code && code ≤ 57)

/-- The lower case of a character, as far as it matters here: outside of ASCII
only the dotted I and the Kelvin sign have an ASCII letter in theirs. -/
def lowerKeyChar (char : Char) : Char :=
  if char.toNat = 0x130 then 'i'
  else if char.toNat = 0x212A then 'k'
  else char.toLower

def normalizeKey (key : String) : List Char :=
  (key.toList.map lowerKeyChar).filter isKeyChar

/-- `normalized.includes(marker)`. -/
def includesMarker (normalized : List Char) (marker : String) : Bool :=
  normalized.tails.any fun rest => marker.toList.isPrefixOf rest

def isForbiddenKey (key : String) : Bool :=
  forbiddenConfigKeyMarkers.any (includesMarker (normalizeKey key))

mutual

def hasForbiddenConfigKeys : Json → Bool
  | .arr items => anyForbiddenItem items
  | .obj fields => anyForbiddenField fields
  | _ => false

def anyForbiddenItem : List Json → Bool
  | [] => false
  | item :: items => hasForbiddenConfigKeys item || anyForbiddenItem items

def anyForbiddenField : Record → Bool
  | [] => false
  | (key, value) :: fields =>
      isForbiddenKey key || hasForbiddenConfigKeys value ||
        anyForbiddenField fields

end

namespace ConnectorsService

def assertCanAccess (connector : Connector) (user : AuthenticatedUser) :
    Except Failure Unit :=
  if !isPrivileged user.role && connector.ownerId != user.sub then
    .error (.forbidden "You do not have access to this connector")
  else .ok ()

def assertSafeConfig (configJson : Record) : Except Failure Unit :=
  if hasForbiddenConfigKeys (.obj configJson) then
    .error (.badRequest [connectorSecretPolicyError])
  else .ok ()

def create (dto : CreateConnectorDto) (user : AuthenticatedUser) :
    Body Connector := do
  Prog.ofExcept (assertSafeConfig dto.configJson)
  let connector ← await (.connectorCreate {
    name := trim dto.name
    type := dto.type
    configJson := .obj dto.configJson
    ownerId := user.sub })
  AuditService.log "connector_created" "connector" (idString connector.id)
    [("name", .str connector.name), ("type", connector.type.text)] (some user)
  pure connector

def findOne (id : Id) (user : AuthenticatedUser) : Body Connector := do
  let connector ← getById id
  Prog.ofExcept (assertCanAccess connector user)
  pure connector

def statusMetadata (previous next : ConnectorStatus) : Record :=
  [("previousStatus", previous.text), ("nextStatus", next.text)]

def updateData (dto : UpdateConnectorDto) : ConnectorData where
  name := (nonEmpty dto.name).map trim
  status := dto.status
  configJson := dto.configJson.map Json.obj

def checkConfig : Option Record → Except Failure Unit
  | some configJson => assertSafeConfig configJson
  | none => .ok ()

def update (id : Id) (dto : UpdateConnectorDto) (user : AuthenticatedUser) :
    Body Connector := do
  let connector ← findOne id user
  Prog.ofExcept (checkConfig dto.configJson)
  let updated ← await (.connectorUpdate id (updateData dto))
  match dto.status with
  | some status =>
      if status ≠ connector.status then
        AuditService.log "connector_status_updated" "connector"
          (idString connector.id) (statusMetadata connector.status status)
          (some user)
      pure updated
  | none => pure updated

def updateStatus (id : Id) (status : ConnectorStatus)
    (user : AuthenticatedUser) : Body Connector := do
  let connector ← findOne id user
  let updated ← await (.connectorUpdate id { status := some status })
  AuditService.log "connector_status_updated" "connector"
    (idString connector.id) (statusMetadata connector.status status)
    (some user)
  pure updated

end ConnectorsService

end SyncBridge
