import Mathlib.Logic.Function.Basic
import SyncBridge.JavaScript

/-!
# The rate limiter

`RateLimitMiddleware`: the counters are held in memory by rule and address, and
expired ones are swept at most every 30 seconds.  A call reads the clock twice,
for the sweep and for the window.
-/

namespace SyncBridge

inductive RateLimitMethod where
  | post
  | patch
  deriving DecidableEq

def RateLimitMethod.text : RateLimitMethod → String
  | .post => "POST"
  | .patch => "PATCH"

/-- A piece of a path's expression: a text as it stands, or `[^/]+`. -/
inductive PathPiece where
  | text (value : String)
  | segment
  deriving DecidableEq

structure RateLimitRule where
  name : String
  method : RateLimitMethod
  path : List PathPiece
  limit : Nat
  windowMs : Time
  deriving DecidableEq

structure Bucket where
  count : Nat
  resetAt : Time

structure HttpException where
  message : String
  status : Nat
  deriving DecidableEq

namespace RateLimitMiddleware

def authRegister : RateLimitRule where
  name := "auth_register"
  method := .post
  path := [.text "/auth/register"]
  limit := 20
  windowMs := 60000

def authLogin : RateLimitRule where
  name := "auth_login"
  method := .post
  path := [.text "/auth/login"]
  limit := 20
  windowMs := 60000

def authRefresh : RateLimitRule where
  name := "auth_refresh"
  method := .post
  path := [.text "/auth/refresh"]
  limit := 40
  windowMs := 60000

def webhookIntake : RateLimitRule where
  name := "webhook_intake"
  method := .post
  path := [.text "/webhooks/", .segment, .text "/events"]
  limit := 120
  windowMs := 60000

def pipelineRuns : RateLimitRule where
  name := "pipeline_runs"
  method := .post
  path := [.text "/pipelines/", .segment, .text "/runs"]
  limit := 60
  windowMs := 60000

def pipelinePreview : RateLimitRule where
  name := "pipeline_preview"
  method := .post
  path := [.text "/pipelines/", .segment, .text "/preview"]
  limit := 60
  windowMs := 60000

def scheduleTrigger : RateLimitRule where
  name := "schedule_trigger"
  method := .post
  path := [.text "/pipelines/", .segment, .text "/schedule/trigger"]
  limit := 40
  windowMs := 60000

def rateLimitRules : List RateLimitRule :=
  [authRegister, authLogin, authRefresh, webhookIntake, pipelineRuns,
    pipelinePreview, scheduleTrigger]

/-! ## Paths -/

/-- `[^/]+` and what follows it. -/
def testSegment (rest : List Char → Bool) : List Char → Bool
  | [] => false
  | char :: chars => char != '/' && (rest chars || testSegment rest chars)

/-- The expression from `^` to `$`. -/
def testPath : List PathPiece → List Char → Bool
  | [], path => path.isEmpty
  | .text value :: pieces, path =>
      value.toList.isPrefixOf path &&
        testPath pieces (path.drop value.toList.length)
  | .segment :: pieces, path => testSegment (testPath pieces) path

def cleanedPath (path : List Char) : List Char := path.takeWhile (· != '?')

def normalizePath (path : List Char) : List Char :=
  if "/api/".toList.isPrefixOf (cleanedPath path) then
    (cleanedPath path).drop 4
  else cleanedPath path

def matchRule (method path : String) : Option RateLimitRule :=
  rateLimitRules.find? fun rule =>
    rule.method.text == method && testPath rule.path (normalizePath path.toList)

/-! ## Buckets -/

structure Request where
  method : String
  path : String
  url : String
  ip : Option String

/-- One call of the middleware, with its readings of the clock. -/
structure Call where
  request : Request
  cleanupAt : Time
  now : Time

/-- The headers it sets, and the error it passes on. -/
structure Answer where
  headers : List (String × String) := []
  error : Option HttpException := none

structure Counters where
  counters : String → Option Bucket
  lastCleanupAt : Time

def Counters.initial : Counters := ⟨fun _ => none, 0⟩

def buildKey (ruleName ip : String) : String := s!"{ruleName}:{ip}"

def cleanupExpiredBuckets (now : Time) (state : Counters) : Counters :=
  if now - state.lastCleanupAt < 30000 then state
  else
    { counters := fun key =>
        match state.counters key with
        | some bucket => if bucket.resetAt ≤ now then none else some bucket
        | none => none
      lastCleanupAt := now }

def countRequest (windowMs now : Time) (existing : Option Bucket) : Bucket :=
  let bucket : Bucket := match existing with
    | some existing =>
        if existing.resetAt ≤ now then ⟨0, now + windowMs⟩ else existing
    | none => ⟨0, now + windowMs⟩
  { bucket with count := bucket.count + 1 }

/-- `Math.max(1, Math.ceil(ms / 1000))`. -/
def retryAfterSeconds (ms : ℤ) : ℤ := max 1 (-(-ms / 1000))

def resetSeconds (resetAt : Time) : ℤ := resetAt / 1000

def answer (rule : RateLimitRule) (bucket : Bucket) (now : Time) : Answer :=
  let headers :=
    [("X-RateLimit-Limit", toString rule.limit),
      ("X-RateLimit-Remaining", toString (rule.limit - bucket.count)),
      ("X-RateLimit-Reset", toString (resetSeconds bucket.resetAt))]
  if rule.limit < bucket.count then
    let retryAfter := retryAfterSeconds (bucket.resetAt - now)
    { headers := headers ++ [("Retry-After", toString retryAfter)]
      error := some ⟨s!"Rate limit exceeded for {rule.name}. Retry after {retryAfter} seconds.",
        429⟩ }
  else { headers := headers }

def ruleFor (request : Request) : Option RateLimitRule :=
  matchRule request.method
    (if request.path.isEmpty then request.url else request.path)

def clientAddress (request : Request) : String := request.ip.getD "unknown"

/-- `use` of the middleware. -/
def useRequest (disabled : Bool) (state : Counters) (call : Call) :
    Answer × Counters :=
  if disabled then ({}, state)
  else
    match ruleFor call.request with
    | none => ({}, state)
    | some rule =>
        let swept := cleanupExpiredBuckets call.cleanupAt state
        let key := buildKey rule.name (clientAddress call.request)
        let bucket := countRequest rule.windowMs call.now (swept.counters key)
        (answer rule bucket call.now,
          { swept with
            counters := Function.update swept.counters key (some bucket) })

def answersFrom (disabled : Bool) : Counters → List Call → List Answer
  | _, [] => []
  | state, call :: calls =>
      let (answer, state) := useRequest disabled state call
      answer :: answersFrom disabled state calls

def answers (disabled : Bool) (calls : List Call) : List Answer :=
  answersFrom disabled .initial calls

end RateLimitMiddleware

end SyncBridge
