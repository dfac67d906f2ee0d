import SyncBridge.JavaScript

/-!
# The POST routes

The routes that the controllers declare, under the global prefix of `main.ts`,
and how the router takes a path for one of them: letters of either case, one
slash at the end or none, whatever query.
-/

namespace SyncBridge.Router

inductive RouteSegment where
  | fixed (word : String)
  | param
  deriving DecidableEq

abbrev Route := List RouteSegment

def authRegister : Route := [.fixed "auth", .fixed "register"]

def authLogin : Route := [.fixed "auth", .fixed "login"]

def authRefresh : Route := [.fixed "auth", .fixed "refresh"]

def authLogout : Route := [.fixed "auth", .fixed "logout"]

def createConnector : Route := [.fixed "connectors"]

def createPipeline : Route := [.fixed "pipelines"]

def previewPipeline : Route := [.fixed "pipelines", .param, .fixed "preview"]

def validateMapping : Route := [.fixed "pipelines", .fixed "validate-mapping"]

def triggerSchedule : Route :=
  [.fixed "pipelines", .param, .fixed "schedule", .fixed "trigger"]

def receiveEvent : Route := [.fixed "webhooks", .param, .fixed "events"]

def retryEvent : Route :=
  [.fixed "webhooks", .fixed "events", .param, .fixed "retry"]

def processEvent : Route :=
  [.fixed "webhooks", .fixed "events", .param, .fixed "process"]

def runPipeline : Route := [.fixed "pipelines", .param, .fixed "runs"]

def postRoutes : List Route :=
  [authRegister, authLogin, authRefresh, authLogout, createConnector,
    createPipeline, previewPipeline, validateMapping, triggerSchedule,
    receiveEvent, retryEvent, processEvent, runPipeline]

/-- `app.setGlobalPrefix('api')`. -/
def globalPrefix : RouteSegment := .fixed "api"

/-- A parameter takes one segment, if it can be decoded. -/
def RouteSegment.fits (decodes : List Char → Bool) :
    RouteSegment → List Char → Bool
  | .fixed word, text => text.map Char.toLower == word.toList.map Char.toLower
  | .param, text => !text.isEmpty && !text.contains '/' && decodes text

def fits (decodes : List Char → Bool) : Route → List (List Char) → Bool
  | [], words => words.isEmpty
  | _ :: _, [] => false
  | segment :: route, word :: words =>
      segment.fits decodes word && fits decodes route words

def pathname (path : String) : List Char := path.toList.takeWhile (· != '?')

def matchesRoute (decodes : List Char → Bool) (path : String) (route : Route) :
    Bool :=
  match (pathname path).splitOn '/' with
  | [] :: words =>
      fits decodes (globalPrefix :: route) words ||
        fits decodes (globalPrefix :: route ++ [.fixed ""]) words
  | _ => false

def dispatch (decodes : List Char → Bool) (path : String) : Option Route :=
  postRoutes.find? (matchesRoute decodes path)

end SyncBridge.Router
