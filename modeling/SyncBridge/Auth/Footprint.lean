import SyncBridge.Auth.Service

/-!
# Footprints

Which operations a function of the authentication service can attempt.  Each
lemma names those that are of interest to an invariant below.
-/

namespace SyncBridge.Auth

open SyncBridge.Foundation SyncBridge.Foundation.Prog

/-- No user is stored, and no record is looked up by its id or revoked. -/
def AuthOp.isQuiet : AuthOp → Bool
  | .userCreate _ => false
  | .refreshTokenFindUnique _ => false
  | .refreshTokenUpdate _ data => data.revokedAt.isNone
  | _ => true

structure Quiet (P : ∀ {α : Type}, AuthBody α → Prop) : Prop extends
    Prog.Compositional P where
  op : ∀ op, op.isQuiet = true → P (await op)

theorem Quiet.await {P : ∀ {α : Type}, AuthBody α → Prop} {α : Type}
    {op : AuthOp} {rest : op.Res → AuthBody α} (quiet : Quiet P)
    (h : op.isQuiet = true) (hrest : ∀ value, P (rest value)) :
    P ((Prog.await op).bind rest) :=
  quiet.bind (quiet.op op h) hrest

abbrev AllowsQuiet (allowed : AuthOp → Prop) : Prop :=
  Quiet fun {_} (body : AuthBody _) => body.Uses allowed

theorem allowsQuiet {allowed : AuthOp → Prop}
    (h : ∀ op, op.isQuiet = true → allowed op) : AllowsQuiet allowed where
  toCompositional := compositional_uses allowed
  op op hop := (uses_await op).mpr (h op hop)

section Rules

variable {env : AuthEnv} {P : ∀ {α : Type}, AuthBody α → Prop} (quiet : Quiet P)

include quiet

theorem log_rule {action : String} {entityId actorId : Id}
    {metadata : SyncBridge.Record} :
    P (AuthService.log action entityId actorId metadata) :=
  quiet.op _ rfl

theorem refreshSecret_rule : P (AuthService.refreshSecret env) := by
  simp only [AuthService.refreshSecret]
  split
  · split
    · exact quiet.throw _
    · exact quiet.ret _
  · exact quiet.throw _

theorem issueTokens_rule {user : User} : P (AuthService.issueTokens env user) := by
  refine quiet.await rfl fun jti => quiet.await rfl fun accessToken => ?_
  refine quiet.bind (refreshSecret_rule quiet) fun secret => ?_
  refine quiet.await rfl fun now => quiet.await rfl fun record => ?_
  refine quiet.await rfl fun jti => quiet.await rfl fun token => ?_
  exact quiet.await rfl fun tokenHash => quiet.await rfl fun _ => quiet.ret _

theorem verifyRefreshToken_rule {refreshToken : String} :
    P (AuthService.verifyRefreshToken env refreshToken) := by
  refine quiet.bind (refreshSecret_rule quiet) fun secret => ?_
  exact quiet.tryCatch (quiet.op _ rfl) fun _ => quiet.throw _

theorem firstMatch_rule {rawToken : String} {candidates : List RefreshToken} :
    P (AuthService.firstMatch rawToken candidates) := by
  induction candidates with
  | nil => exact quiet.ret _
  | cons row candidates ih =>
      refine quiet.await rfl fun isMatch => ?_
      split
      · exact quiet.ret _
      · exact ih

theorem findMatchingRefreshToken_rule {userId : Id} {rawToken : String}
    {payload : JwtPayload} {includeRevoked : Bool}
    (hread : ∀ id, P (await (.refreshTokenFindUnique id))) :
    P (AuthService.findMatchingRefreshToken userId rawToken payload
      includeRevoked) := by
  simp only [AuthService.findMatchingRefreshToken]
  split
  · refine quiet.bind (hread _) fun found => ?_
    split
    · exact quiet.ret _
    · split
      · exact quiet.ret _
      · refine quiet.await rfl fun now => ?_
        split
        · exact quiet.ret _
        · split
          · exact quiet.ret _
          · exact quiet.await rfl fun isMatch => quiet.ret _
  · exact quiet.await rfl fun now => quiet.await rfl fun rows =>
      firstMatch_rule quiet

theorem revokeRefreshToken_rule {id : Id}
    (hrevoke : ∀ time,
      P (await (.refreshTokenUpdate id { revokedAt := some time }))) :
    P (AuthService.revokeRefreshToken id) :=
  quiet.await rfl fun now => quiet.bind (hrevoke now) fun _ => quiet.ret _

theorem login_rule {dto : LoginDto} : P (AuthService.login env dto) := by
  refine quiet.await rfl fun found => ?_
  split
  · exact quiet.throw _
  · refine quiet.await rfl fun isValidPassword => ?_
    split
    · exact quiet.throw _
    · exact quiet.bind (issueTokens_rule quiet) fun tokens =>
        quiet.bind (log_rule quiet) fun _ => quiet.ret _

variable (hread : ∀ id, P (await (.refreshTokenFindUnique id)))
  (hrevoke : ∀ id time,
    P (await (.refreshTokenUpdate id { revokedAt := some time })))

include hread hrevoke

theorem refresh_rule {refreshToken : String} :
    P (AuthService.refresh env refreshToken) := by
  refine quiet.bind (verifyRefreshToken_rule quiet) fun payload => ?_
  refine quiet.await rfl fun found => ?_
  split
  · exact quiet.throw _
  · refine quiet.bind (findMatchingRefreshToken_rule quiet hread) fun matched => ?_
    split
    · exact quiet.throw _
    · exact quiet.bind (revokeRefreshToken_rule quiet (hrevoke _)) fun _ =>
        quiet.bind (issueTokens_rule quiet) fun tokens =>
          quiet.bind (log_rule quiet) fun _ => quiet.ret _

theorem logout_rule {refreshToken : String} {userId : Id} :
    P (AuthService.logout env refreshToken userId) := by
  refine quiet.bind (verifyRefreshToken_rule quiet) fun payload => ?_
  split
  · exact quiet.throw _
  · refine quiet.bind (findMatchingRefreshToken_rule quiet hread) fun matched => ?_
    split
    · exact quiet.throw _
    · split
      · exact quiet.bind (revokeRefreshToken_rule quiet (hrevoke _)) fun _ =>
          log_rule quiet
      · exact quiet.ret _

end Rules

end SyncBridge.Auth
