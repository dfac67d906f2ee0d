import SyncBridge.JavaScript

/-!
# The structured logger

`StructuredLoggerService`: the metadata of an event is sanitized and written as
one line of JSON.  A line is the document it holds.
-/

namespace SyncBridge

/-- What metadata is made of; an error has a message and its own properties. -/
inductive LogValue where
  | undefined
  | null
  | bool (value : Bool)
  | num (value : ℚ)
  | str (value : String)
  | arr (items : List LogValue)
  | obj (fields : List (String × LogValue))
  | error (message : String) (fields : List (String × LogValue))

abbrev LogFields := List (String × LogValue)

inductive LogLevel where
  | debug
  | info
  | warn
  | error
  deriving DecidableEq

def LogLevel.text : LogLevel → String
  | .debug => "debug"
  | .info => "info"
  | .warn => "warn"
  | .error => "error"

structure RequestContext where
  requestId : String
  userId : Option String := none

/-- The object passed to the logger, which has each of its keys once. -/
structure Metadata where
  fields : LogFields
  nodup : (fields.map Prod.fst).Nodup

def requestIdHeader : String := "x-request-id"

def requestContextSensitiveKeys : List String :=
  ["authorization", "cookie", "x-api-key", "x-auth-token", "password", "token",
    "apikey", "secret", "privatekey", "accesstoken", "refreshtoken"]

namespace LogValue

/-- `typeof value === 'object' && value !== null`. -/
def isObject : LogValue → Bool
  | .arr _ | .obj _ | .error _ _ => true
  | _ => false

def isUndefined : LogValue → Bool
  | .undefined => true
  | _ => false

/-- `Object.entries`. -/
def entries : LogValue → LogFields
  | .arr items => items.zipIdx.map fun item => (toString item.2, item.1)
  | .obj fields => fields
  | .error _ fields => fields
  | _ => []

mutual

/-- `JSON.stringify`, which has no text for `undefined`. -/
def toJson : LogValue → Option Json
  | .undefined => none
  | .null => some .null
  | .bool value => some (.bool value)
  | .num value => some (.num value)
  | .str value => some (.str value)
  | .arr items => some (.arr (itemsToJson items))
  | .obj fields => some (.obj (fieldsToJson fields))
  | .error _ fields => some (.obj (fieldsToJson fields))

def itemsToJson : List LogValue → List Json
  | [] => []
  | item :: items => item.toJson.getD .null :: itemsToJson items

def fieldsToJson : LogFields → Record
  | [] => []
  | (key, value) :: fields =>
      match value.toJson with
      | some json => (key, json) :: fieldsToJson fields
      | none => fieldsToJson fields

end

end LogValue

namespace StructuredLoggerService

/-! ## Sanitizing -/

def sanitizeValue (below : LogFields → LogFields) : LogValue → LogValue
  | .error message _ => .str message
  | .arr items => .arr ((items.take 20).map fun item =>
      if item.isObject then .obj (below item.entries) else item)
  | .obj fields => .obj (below fields)
  | value => value

def isSensitive (key : String) : Bool :=
  requestContextSensitiveKeys.contains (toLowerCase key)

/-- Assigning to `__proto__` makes no property. -/
def sanitizeEntry (below : LogFields → LogFields) :
    String × LogValue → Option (String × LogValue)
  | (key, value) =>
      if isSensitive key then some (key, .str "REDACTED")
      else if key = "__proto__" then none
      else some (key, sanitizeValue below value)

/-- `sanitizeObject` with so many levels left. -/
def sanitizeWithin : Nat → LogFields → LogFields
  | 0, _ => []
  | levels + 1, input => input.filterMap (sanitizeEntry (sanitizeWithin levels))

def sanitizeObject (input : LogFields) (depth : Nat) : LogFields :=
  sanitizeWithin (5 - depth) input

/-- The recursion as the source has it. -/
theorem sanitizeObject_eq (input : LogFields) (depth : Nat) :
    sanitizeObject input depth =
      if depth > 4 then [] else input.filterMap
        (sanitizeEntry fun below => sanitizeObject below (depth + 1)) := by
  by_cases hdepth : depth > 4
  · rw [if_pos hdepth, sanitizeObject, Nat.sub_eq_zero_of_le hdepth,
      sanitizeWithin]
  · have hlevels : 5 - depth = (5 - (depth + 1)) + 1 := by omega
    rw [if_neg hdepth, sanitizeObject, hlevels, sanitizeWithin]
    rfl

/-- Keys are redacted in any casing and in the objects of an array, and an error
below a key leaves its message. -/
example : sanitizeObject
    [("Token", .str "t"), ("cause", .error "failed" [("token", .str "t")]),
      ("items", .arr [.null, .obj [("PASSWORD", .str "p"), ("id", .num 1)]])] 0 =
    [("Token", .str "REDACTED"), ("cause", .str "failed"),
      ("items", .arr [.null,
        .obj [("PASSWORD", .str "REDACTED"), ("id", .num 1)]])] := rfl

/-! ## Writing -/

/-- `payload[key] = value`; a key that is there keeps its place. -/
def assign (key : String) (value : LogValue) (fields : LogFields) : LogFields :=
  if fields.any (fun entry => entry.1 == key) then
    fields.map fun entry => if entry.1 = key then (key, value) else entry
  else fields ++ [(key, value)]

/-- `{ ...target, ...source }`. -/
def spread (target source : LogFields) : LogFields :=
  source.foldl (fun payload entry => assign entry.1 entry.2 payload) target

def compact (fields : LogFields) : LogFields :=
  fields.filter fun entry => !entry.2.isUndefined

def optionalText : Option String → LogValue
  | some text => .str text
  | none => .undefined

/-- The request's id in the context, or else the text under its header. -/
def requestIdOf (context : Option RequestContext) (metadata : LogFields) :
    Option String :=
  match context with
  | some context => some context.requestId
  | none =>
      match metadata.lookup requestIdHeader with
      | some (.str text) => some text
      | _ => none

def payload (context : Option RequestContext) (timestamp : String)
    (level : LogLevel) (event : String) (metadata : LogFields) : LogFields :=
  compact (spread
    [("timestamp", .str timestamp),
      ("level", .str level.text),
      ("event", .str event),
      ("requestId", optionalText (requestIdOf context metadata)),
      ("userId", optionalText (context.bind RequestContext.userId))]
    (sanitizeObject metadata 0))

/-- The line written and the method of the console that writes it; nothing is
written in tests. -/
def write (isTestEnv : Bool) (context : Option RequestContext)
    (timestamp : String) (level : LogLevel) (event : String)
    (metadata : Metadata) : Option (LogLevel × Record) :=
  if isTestEnv then none
  else some (level, LogValue.fieldsToJson
    (payload context timestamp level event metadata.fields))

end StructuredLoggerService

end SyncBridge
