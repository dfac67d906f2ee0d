import SyncBridge.Auth.Store

/-!
# The authentication service

`AuthService`: sessions are opened by a password, continued by a refresh token
and ended by revoking it.
-/

namespace SyncBridge.Auth

open SyncBridge.Foundation

structure RegisterDto where
  email : String
  password : String
  fullName : String
  deriving DecidableEq

structure LoginDto where
  email : String
  password : String
  deriving DecidableEq

structure TokenPair where
  accessToken : String
  refreshToken : String

structure SafeUser where
  id : Id
  email : String
  fullName : String
  role : UserRole
  createdAt : Time

def sanitize (user : User) : SafeUser where
  id := user.id
  email := user.email
  fullName := user.fullName
  role := user.role
  createdAt := user.createdAt

def normalizeEmail (env : AuthEnv) (email : String) : String :=
  trim (env.toLowerCase.apply email)

namespace UsersService

def findByEmail (env : AuthEnv) (email : String) : AuthBody (Option User) :=
  await (.userFindByEmail (normalizeEmail env email))

def findById (id : Id) : AuthBody (Option User) := await (.userFindUnique id)

end UsersService

namespace AuthService

variable (env : AuthEnv)

/-- Fifteen minutes and thirty days, in seconds. -/
def accessTokenExpiresIn : Nat := 15 * 60

def refreshTokenExpiresIn : Nat := 30 * 24 * 60 * 60

def refreshTokenTtlMs : Time := 30 * 24 * 60 * 60 * 1000

def log (action : String) (entityId actorId : Id) (metadata : SyncBridge.Record) :
    AuthBody Unit :=
  await (.auditLogCreate {
    action := action
    entityType := "user"
    entityId := idString entityId
    metadataJson := .obj metadata
    actorId := some actorId })

def refreshSecret : AuthBody String :=
  match env.refreshSecret with
  | some secret =>
      if secret.isEmpty then
        throw (.unauthorized "Refresh secret is not configured")
      else pure secret
  | none => throw (.unauthorized "Refresh secret is not configured")

/-- The record is stored before the token, whose payload names it. -/
def issueTokens (user : User) : AuthBody TokenPair := do
  let jti : Id ← await .randomUUID
  let accessToken : String ← await (.signAsync env.accessSecret
    ⟨user.id, user.email, user.role, some jti, none⟩ accessTokenExpiresIn)
  let secret ← refreshSecret env
  let now : Time ← await .now
  let refreshTokenRecord ← await (.refreshTokenCreate
    ⟨user.id, "pending_hash", now + refreshTokenTtlMs⟩)
  let jti : Id ← await .randomUUID
  let refreshToken : String ← await (.signAsync secret
    ⟨user.id, user.email, user.role, some jti, some refreshTokenRecord.id⟩
    refreshTokenExpiresIn)
  let tokenHash : String ← await (.hash refreshToken)
  let _ ← await (.refreshTokenUpdate refreshTokenRecord.id
    { tokenHash := some tokenHash })
  pure ⟨accessToken, refreshToken⟩

def verifyRefreshToken (refreshToken : String) : AuthBody JwtPayload := do
  let secret ← refreshSecret env
  tryCatch (await (.verifyAsync secret refreshToken)) fun _ =>
    throw (.unauthorized "Invalid refresh token")

def firstMatch (rawToken : String) :
    List RefreshToken → AuthBody (Option RefreshToken)
  | [] => pure none
  | tokenRecord :: candidates => do
      let isMatch : Bool ← await (.compare rawToken tokenRecord.tokenHash)
      if isMatch then pure (some tokenRecord)
      else firstMatch rawToken candidates

/-- The record that the payload names, if it is the user's and still good. -/
def findById (rtid userId : Id) (rawToken : String) (includeRevoked : Bool) :
    AuthBody (Option RefreshToken) := do
  match ← await (.refreshTokenFindUnique rtid) with
  | none => pure none
  | some tokenRecord =>
      if tokenRecord.userId ≠ userId then pure none
      else
        let now : Time ← await .now
        if tokenRecord.expiresAt ≤ now then pure none
        else if !includeRevoked && tokenRecord.revokedAt.isSome then pure none
        else
          let isMatch : Bool ← await (.compare rawToken tokenRecord.tokenHash)
          pure (if isMatch then some tokenRecord else none)

def findMatchingRefreshToken (userId : Id) (rawToken : String)
    (payload : JwtPayload) (includeRevoked : Bool) :
    AuthBody (Option RefreshToken) :=
  match payload.rtid with
  | some rtid => findById rtid userId rawToken includeRevoked
  | none => do
      let now : Time ← await .now
      let candidates ← await (.refreshTokenFindMany userId now includeRevoked)
      firstMatch rawToken candidates

def revokeRefreshToken (tokenId : Id) : AuthBody Unit := do
  let now : Time ← await .now
  let _ ← await (.refreshTokenUpdate tokenId { revokedAt := some now })
  pure ()

def register (dto : RegisterDto) : AuthBody (TokenPair × SafeUser) := do
  let email := normalizeEmail env dto.email
  let existing ← UsersService.findByEmail env email
  if existing.isSome then
    throw (.conflict "User with this email already exists")
  else
    let passwordHash : String ← await (.hash dto.password)
    let user ← await (.userCreate ⟨email, trim dto.fullName, passwordHash, .user⟩)
    let tokens ← issueTokens env user
    log "user_registered" user.id user.id [("email", .str user.email)]
    pure (tokens, sanitize user)

def login (dto : LoginDto) : AuthBody (TokenPair × SafeUser) := do
  match ← UsersService.findByEmail env (normalizeEmail env dto.email) with
  | none => throw (.unauthorized "Invalid credentials")
  | some user =>
      let isValidPassword : Bool ←
        await (.compare dto.password user.passwordHash)
      if !isValidPassword then throw (.unauthorized "Invalid credentials")
      else
        let tokens ← issueTokens env user
        log "user_logged_in" user.id user.id [("email", .str user.email)]
        pure (tokens, sanitize user)

def refresh (refreshToken : String) : AuthBody TokenPair := do
  let payload ← verifyRefreshToken env refreshToken
  match ← UsersService.findById payload.sub with
  | none => throw (.unauthorized "Invalid refresh token")
  | some user =>
      match ← findMatchingRefreshToken payload.sub refreshToken payload
          false with
      | none => throw (.unauthorized "Invalid refresh token")
      | some matchedToken =>
          revokeRefreshToken matchedToken.id
          let tokens ← issueTokens env user
          log "refresh_token_rotated" user.id user.id
            [("refreshTokenId", .id matchedToken.id)]
          pure tokens

def logout (refreshToken : String) (userId : Id) : AuthBody Unit := do
  let payload ← verifyRefreshToken env refreshToken
  if payload.sub ≠ userId then
    throw (.unauthorized "Refresh token does not belong to current user")
  else
    match ← findMatchingRefreshToken userId refreshToken payload true with
    | none => throw (.unauthorized "Invalid refresh token")
    | some matchedToken =>
        if matchedToken.revokedAt.isNone then
          revokeRefreshToken matchedToken.id
          log "user_logged_out" userId userId
            [("refreshTokenId", .id matchedToken.id)]

end AuthService

/-! ## Calls -/

inductive AuthCall where
  | register (dto : RegisterDto)
  | login (dto : LoginDto)
  | refresh (refreshToken : String)
  | logout (refreshToken : String) (userId : Id)
  deriving DecidableEq

inductive AuthAnswer where
  | session (tokens : TokenPair) (user : SafeUser)
  | tokens (tokens : TokenPair)
  | loggedOut

def AuthCall.body (env : AuthEnv) : AuthCall → AuthBody AuthAnswer
  | .register dto =>
      (fun answer => AuthAnswer.session answer.1 answer.2) <$>
        AuthService.register env dto
  | .login dto =>
      (fun answer => AuthAnswer.session answer.1 answer.2) <$>
        AuthService.login env dto
  | .refresh refreshToken =>
      AuthAnswer.tokens <$> AuthService.refresh env refreshToken
  | .logout refreshToken userId =>
      (fun _ => AuthAnswer.loggedOut) <$>
        AuthService.logout env refreshToken userId

abbrev AuthPool := Pool AuthOp.Res AuthFailure AuthAnswer AuthCall AuthStore

abbrev AuthTask := Task AuthOp.Res AuthFailure AuthAnswer AuthCall

/-- The only event of the outside is that time passes. -/
abbrev AuthStep := Action AuthFailure AuthCall Nat

def auth (env : AuthEnv) :
    System AuthOp.Res AuthFailure AuthAnswer AuthCall AuthStore Nat where
  exec := exec env
  fallible := AuthOp.fallible
  body := AuthCall.body env
  starts _ := true
  env elapsed store _ :=
    some ({ store with clock := store.clock + elapsed }, [])

def AuthStore.boot (store : AuthStore) : AuthPool := ⟨store, []⟩

end SyncBridge.Auth
