import SyncBridge.Foundation.Pool
import SyncBridge.Schema

/-!
# Requests of a browser session

`requestApi` of the web client over the session in `localStorage`.  The script
of a page runs without interruption between two awaits, so every access to the
storage is one step, and so is the handling of a request by the server.
-/

namespace SyncBridge.Web

open SyncBridge.Foundation

/-- The server hands the tokens out in order. -/
abbrev Token := Nat

structure AuthSession where
  accessToken : Token
  refreshToken : Token
  user : Option Json

structure TokenPairResponse where
  accessToken : Token
  refreshToken : Token
  deriving DecidableEq

inductive Method where
  | get
  | post
  | patch

structure RequestOptions where
  method : Option Method := none
  body : Option Json := none
  authenticated : Option Bool := none
  retry : Option Bool := none

structure Request where
  path : String
  method : Method
  body : Option Json
  accessToken : Option Token

inductive ErrorMessage where
  | one (text : String)
  | many (texts : List String)

structure ErrorPayload where
  message : Option ErrorMessage
  requestId : Option String

/-- The body as the caller reads it; it is `none` when it is no JSON. -/
structure Response where
  status : Nat
  payload : Option Json
  errorPayload : Option ErrorPayload

def Response.ok (response : Response) : Bool :=
  200 ≤ response.status && response.status < 300

inductive RequestError where
  | apiError (status : Nat) (message : String) (requestId : Option String)
  | syntaxError

/-! ## Storage and server -/

/-- The routes behind the guard: a request with a token that is accepted is
never answered with 401. -/
structure Routes where
  handle : Request → Response
  authorized : ∀ request, (handle request).status ≠ 401

/-- The stored session and the tokens the server takes. -/
structure World where
  session : Option AuthSession
  accepted : List Token
  unrevoked : List Token
  nextToken : Token

inductive WebOp where
  | getAccessToken
  | getRefreshToken
  | clearStoredSession
  | updateStoredTokens (accessToken refreshToken : Token)
  | fetch (request : Request)
  | fetchRefresh (refreshToken : Token)

abbrev WebOp.Res : WebOp → Type
  | .getAccessToken => Option Token
  | .getRefreshToken => Option Token
  | .clearStoredSession => Unit
  | .updateStoredTokens _ _ => Unit
  | .fetch _ => Response
  | .fetchRefresh _ => Option TokenPairResponse

abbrev WebBody (α : Type) := Prog WebOp.Res RequestError α

abbrev await (op : WebOp) : WebBody op.Res := Prog.await op

def unauthorized : Response :=
  ⟨401, none, some ⟨some (.one "Unauthorized"), none⟩⟩

def World.accepts (world : World) (accessToken : Option Token) : Bool :=
  accessToken.any fun token => decide (token ∈ world.accepted)

/-- A refresh revokes the presented token and answers with a fresh pair; a
token that is not good is answered with 401, which is `none`. -/
def World.refresh (world : World) (refreshToken : Token) :
    Option TokenPairResponse × World :=
  if refreshToken ∈ world.unrevoked then
    (some ⟨world.nextToken, world.nextToken + 1⟩, { world with
      accepted := world.nextToken :: world.accepted
      unrevoked := (world.nextToken + 1) ::
        world.unrevoked.filter fun token => token ≠ refreshToken
      nextToken := world.nextToken + 2 })
  else (none, world)

def exec (routes : Routes) : (op : WebOp) → World → op.Res × World
  | .getAccessToken, world =>
      (world.session.map AuthSession.accessToken, world)
  | .getRefreshToken, world =>
      (world.session.map AuthSession.refreshToken, world)
  | .clearStoredSession, world => ((), { world with session := none })
  | .updateStoredTokens accessToken refreshToken, world =>
      ((), { world with
        session := some ⟨accessToken, refreshToken,
          world.session.bind AuthSession.user⟩ })
  | .fetch request, world =>
      (if world.accepts request.accessToken then routes.handle request
        else unauthorized, world)
  | .fetchRefresh refreshToken, world => world.refresh refreshToken

/-! ## Requests -/

def parseErrorPayload (response : Response) : String × Option String :=
  let fallback := s!"Request failed with status {response.status}"
  match response.errorPayload with
  | none => (fallback, none)
  | some payload =>
      match payload.message with
      | some (.many texts) => (", ".intercalate texts, payload.requestId)
      | some (.one text) =>
          if text.length > 0 then (text, payload.requestId)
          else (fallback, none)
      | none => (fallback, none)

def apiErrorOf (response : Response) : RequestError :=
  let (message, requestId) := parseErrorPayload response
  match requestId with
  | some id =>
      if id.isEmpty then .apiError response.status message requestId
      else .apiError response.status s!"{message} (requestId: {id})" requestId
  | none => .apiError response.status message requestId

def performTokenRefresh : WebBody Bool := do
  let refreshToken : Option Token ← await .getRefreshToken
  match refreshToken with
  | none => pure false
  | some refreshToken =>
      let response : Option TokenPairResponse ←
        await (.fetchRefresh refreshToken)
      match response with
      | none =>
          await .clearStoredSession
          pure false
      | some tokenPair =>
          await (.updateStoredTokens tokenPair.accessToken
            tokenPair.refreshToken)
          pure true

def send (path : String) (options : RequestOptions) : WebBody Response := do
  let accessToken : Option Token ←
    if options.authenticated.getD true then await .getAccessToken
    else pure none
  await (.fetch ⟨path, options.method.getD .get, options.body, accessToken⟩)

def answer (response : Response) : WebBody Json :=
  if !response.ok then .throw (apiErrorOf response)
  else
    match response.payload with
    | some payload => .ret payload
    | none => .throw .syntaxError

/-- `requestApi` with `retry` false, which does not call itself again. -/
def requestAgain (path : String) (options : RequestOptions) : WebBody Json := do
  let response ← send path options
  answer response

def requestApi (path : String) (options : RequestOptions) : WebBody Json := do
  let response ← send path options
  if response.status = 401 && options.authenticated.getD true &&
      options.retry.getD true then
    let refreshed ← performTokenRefresh
    if refreshed then requestAgain path { options with retry := some false }
    else answer response
  else answer response

/-! ## The browser -/

structure WebCall where
  path : String
  options : RequestOptions
  authenticated : options.authenticated.getD true = true
  retried : options.retry.getD true = true

abbrev WebPool := Pool WebOp.Res RequestError Json WebCall World

abbrev WebTask := Task WebOp.Res RequestError Json WebCall

abbrev WebStep := Action RequestError WebCall Empty

/-- The network does not fail, and nothing else touches the session. -/
def browser (routes : Routes) :
    System WebOp.Res RequestError Json WebCall World Empty where
  exec op world := .ok (exec routes op world)
  fallible _ := false
  body call := requestApi call.path call.options
  starts _ := true
  env event := nomatch event

def World.boot (world : World) : WebPool := ⟨world, []⟩

end SyncBridge.Web
