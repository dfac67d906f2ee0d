import SyncBridge.Auth.SingleUse
import SyncBridge.Foundation.Ownership
import SyncBridge.Store

/-!
# What stands behind a session

The tokens of an answer are those of a stored user: they carry the user's own
identifier and role, the record that the refresh token names is the user's and
has the hash of just this token, and no other call has been given the token.
-/

namespace SyncBridge.Auth

open SyncBridge.Foundation SyncBridge.Foundation.Prog

/-! ## Access tokens -/

structure AuthenticatedUser extends SyncBridge.AuthenticatedUser where
  email : String

namespace JwtStrategy

def validate (payload : JwtPayload) : AuthenticatedUser where
  sub := payload.sub
  email := payload.email
  role := payload.role

/-- The strategy checks signature and expiry before it asks for the user. -/
def authenticate (env : AuthEnv) (token : String) (now : Time) :
    Option AuthenticatedUser :=
  (env.jwt.verify env.accessSecret token (now / 1000)).map validate

end JwtStrategy

theorem authenticate_sign {env : AuthEnv} {payload : JwtPayload}
    {issuedAt expiresAt : ℤ} {now : Time} :
    JwtStrategy.authenticate env
        (env.jwt.sign env.accessSecret payload issuedAt expiresAt) now =
      if now / 1000 < expiresAt then
        some ⟨⟨payload.sub, payload.role⟩, payload.email⟩
      else none := by
  rw [JwtStrategy.authenticate, env.jwt.verify_sign]
  split <;> rfl

theorem payload_of_sign {jwt : Jwt} {secret : String}
    {payload payload' : JwtPayload} {issuedAt issuedAt' expiresAt expiresAt' : ℤ}
    (h : jwt.sign secret payload issuedAt expiresAt =
      jwt.sign secret payload' issuedAt' expiresAt') : payload = payload' := by
  have hfirst := jwt.verify_sign secret payload issuedAt expiresAt
    (min expiresAt expiresAt' - 1)
  have hsecond := jwt.verify_sign secret payload' issuedAt' expiresAt'
    (min expiresAt expiresAt' - 1)
  rw [if_pos (by omega)] at hfirst hsecond
  rw [h, hsecond] at hfirst
  exact (Option.some.inj hfirst).symm

/-- What has been normalised by the service may be normalised once more by the
look-up. -/
theorem normalizeEmail_normalizeEmail (env : AuthEnv) (email : String) :
    normalizeEmail env (normalizeEmail env email) = normalizeEmail env email := by
  simp only [normalizeEmail]
  rw [env.toLowerCase.trim_apply, trim_trim, ← env.toLowerCase.trim_apply,
    env.toLowerCase.apply_apply]

/-! ## What a call has seen -/

/-- What is true of the store for ever once it is. -/
inductive Credential where
  | user (row : User)
  | record (id userId : Id)
  | revoked (id : Id)

def Credential.Holds (store : AuthStore) : Credential → Prop
  | .user row => row ∈ store.users
  | .record id userId =>
      ∃ row ∈ store.refreshTokens, row.id = id ∧ row.userId = userId
  | .revoked id => Revoked store id

def AuthOp.shows : (op : AuthOp) → op.Res → Set Credential
  | .userFindUnique _, some row => {.user row}
  | .userFindByEmail _, some row => {.user row}
  | .userCreate _, row => {.user row}
  | .refreshTokenCreate _, row => {.record row.id row.userId}
  | .refreshTokenFindUnique _, some row => {.record row.id row.userId}
  | .refreshTokenFindMany _ _ _, rows =>
      {fact | ∃ row ∈ rows, fact = .record row.id row.userId}
  | .refreshTokenUpdate id data, _ =>
      if data.revokedAt.isSome then {.revoked id} else ∅
  | _, _ => ∅

def AuthOp.answers (env : AuthEnv) : (op : AuthOp) → op.Res → Prop
  | .userFindUnique id, found => ∀ row, found = some row → row.id = id
  | .userFindByEmail email, found => ∀ row, found = some row → row.email = email
  | .userCreate data, row => row.email = data.email ∧
      row.fullName = data.fullName ∧ row.passwordHash = data.passwordHash ∧
        row.role = data.role
  | .refreshTokenCreate data, row => row.userId = data.userId
  | .refreshTokenFindUnique id, found => ∀ row, found = some row → row.id = id
  | .refreshTokenFindMany userId time includeRevoked, rows => ∀ row ∈ rows,
      row.userId = userId ∧ time < row.expiresAt ∧
        (includeRevoked = false → row.revokedAt = none)
  | .signAsync secret payload expiresIn, token => ∃ issuedAt : ℤ,
      token = env.jwt.sign secret payload issuedAt (issuedAt + expiresIn)
  | .verifyAsync secret token, payload =>
      ∃ now, env.jwt.verify secret token now = some payload
  | .hash text, stored => env.bcrypt.compare text stored = true
  | .compare text stored, isMatch => isMatch = env.bcrypt.compare text stored
  | _, _ => True

/-- A record that the call has created has no hash yet, or the one that the
call has given it. -/
abbrev Seals := Id → Option (Option String)

def AuthOp.seals (seals : Seals) : (op : AuthOp) → op.Res → Seals
  | .refreshTokenCreate _, row => Function.update seals row.id (some none)
  | .refreshTokenUpdate id data, _ => Function.update seals id
      ((seals id).map fun hash => data.tokenHash.or hash)
  | _, _ => seals

def AuthOp.isSilent : AuthOp → Bool
  | .now => true
  | .randomUUID => true
  | .auditLogCreate _ => true
  | .signAsync _ _ _ => true
  | .verifyAsync _ _ => true
  | .hash _ => true
  | .compare _ _ => true
  | _ => false

structure Seen where
  /-- What the call has done, the last operation first. -/
  done : List (Σ op : AuthOp, op.Res)
  facts : Set Credential
  seals : Seals

/-- Only its own records are given a hash by a call. -/
def session (env : AuthEnv) : Monitor AuthOp.Res AuthCall Seen where
  init _ := ⟨[], ∅, fun _ => none⟩
  note _ seen op value := ⟨⟨op, value⟩ :: seen.done,
    seen.facts ∪ op.shows value, op.seals seen.seals value⟩
  guard _ seen op := ∀ id data, op = .refreshTokenUpdate id data →
    data.tokenHash.isSome = true → (seen.seals id).isSome = true
  facts _ _ op value := op.answers env value

/-! ## What the operations leave -/

variable {env : AuthEnv} {store store' : AuthStore}

theorem answers_of_exec {op : AuthOp} {value : op.Res}
    (h : exec env op store = .ok (value, store')) : op.answers env value := by
  cases op with
  | userFindUnique id =>
      obtain rfl := congrArg Prod.fst (Except.ok.inj h)
      exact fun row hrow => Table.find_key hrow
  | userFindByEmail email =>
      obtain rfl := congrArg Prod.fst (Except.ok.inj h)
      exact fun row hrow => Table.find_key hrow
  | userCreate data =>
      simp only [exec] at h
      split at h
      · cases h
      · cases h
        exact ⟨rfl, rfl, rfl, rfl⟩
  | refreshTokenCreate data =>
      cases h
      rfl
  | refreshTokenFindUnique id =>
      obtain rfl := congrArg Prod.fst (Except.ok.inj h)
      exact fun row hrow => Table.find_key hrow
  | refreshTokenFindMany userId now includeRevoked =>
      cases h
      intro row hrow
      have hmem := List.mem_of_mem_take hrow
      rw [List.mem_insertionSort] at hmem
      have hfilter := (List.mem_filter.mp hmem).2
      simp only [Bool.and_eq_true, decide_eq_true_eq] at hfilter
      obtain ⟨⟨howner, hexpires⟩, hrevoked⟩ := hfilter
      refine ⟨howner, hexpires, ?_⟩
      rintro rfl
      simpa using hrevoked
  | signAsync secret payload expiresIn =>
      cases h
      exact ⟨_, rfl⟩
  | verifyAsync secret token =>
      simp only [exec] at h
      split at h
      · rename_i payload hverify
        cases h
        exact ⟨_, hverify⟩
      · cases h
  | hash text =>
      cases h
      exact env.bcrypt.compare_hash _ _
  | compare text hash =>
      cases h
      rfl
  | _ => trivial

theorem mem_candidates {userId : Id} {now : Time} {includeRevoked : Bool}
    {row : RefreshToken}
    (h : row ∈ store.candidates userId now includeRevoked) :
    row ∈ store.refreshTokens := by
  have hmem := List.mem_of_mem_take h
  rw [List.mem_insertionSort] at hmem
  exact (List.mem_filter.mp hmem).1

theorem users_of_exec {op : AuthOp} {value : op.Res}
    (h : exec env op store = .ok (value, store')) :
    store'.users = store.users ∨ ∃ data, op = .userCreate data ∧
      store.users.any (fun row => row.email = data.email) = false ∧
        store'.users = store.users ++ [(store.createUser data).1] := by
  cases op with
  | userCreate data =>
      simp only [exec] at h
      split at h
      · cases h
      · rename_i hfresh
        cases h
        exact .inr ⟨data, rfl, by simpa using hfresh, rfl⟩
  | refreshTokenUpdate id data =>
      simp only [exec] at h
      split at h
      · cases h
      · cases h
        exact .inl rfl
  | verifyAsync secret token =>
      simp only [exec] at h
      split at h
      · cases h
        exact .inl rfl
      · cases h
  | _ =>
      cases h
      exact .inl rfl

theorem refreshTokens_of_exec {op : AuthOp} {value : op.Res}
    (h : exec env op store = .ok (value, store')) :
    store'.refreshTokens = store.refreshTokens ∨
      (∃ data, op = .refreshTokenCreate data ∧ store'.refreshTokens =
        store.refreshTokens ++ [(store.createRefreshToken data).1]) ∨
      ∃ id data, op = .refreshTokenUpdate id data ∧ store'.refreshTokens =
        Table.modify RefreshToken.id id data.apply store.refreshTokens := by
  cases op with
  | refreshTokenCreate data =>
      cases h
      exact .inr (.inl ⟨data, rfl, rfl⟩)
  | refreshTokenUpdate id data =>
      simp only [exec] at h
      split at h
      · cases h
      · cases h
        exact .inr (.inr ⟨id, data, rfl, rfl⟩)
  | userCreate data =>
      simp only [exec] at h
      split at h
      · cases h
      · cases h
        exact .inl rfl
  | verifyAsync secret token =>
      simp only [exec] at h
      split at h
      · cases h
        exact .inl rfl
      · cases h
  | _ =>
      cases h
      exact .inl rfl

theorem holds_of_exec {op : AuthOp} {value : op.Res} {fact : Credential}
    (h : exec env op store = .ok (value, store')) (hfact : fact.Holds store) :
    fact.Holds store' := by
  cases fact with
  | user row =>
      rcases users_of_exec h with hsame | ⟨data, -, -, hnew⟩
      · rw [Credential.Holds, hsame]
        exact hfact
      · rw [Credential.Holds, hnew]
        exact List.mem_append_left _ hfact
  | record id userId =>
      obtain ⟨row, hrow, hid, huser⟩ := hfact
      rcases refreshTokens_of_exec h with hsame | ⟨data, -, hnew⟩ |
        ⟨written, data, -, hnew⟩
      · exact ⟨row, hsame ▸ hrow, hid, huser⟩
      · exact ⟨row, hnew ▸ List.mem_append_left _ hrow, hid, huser⟩
      · refine ⟨_, hnew ▸ Table.mem_modify.mpr ⟨row, hrow, rfl⟩, ?_⟩
        split <;> exact ⟨hid, huser⟩
  | revoked id => exact revoked_of_exec h hfact

theorem shown_of_exec {op : AuthOp} {value : op.Res} {fact : Credential}
    (h : exec env op store = .ok (value, store')) (hfact : fact ∈ op.shows value) :
    fact.Holds store' := by
  cases op with
  | userFindUnique id =>
      cases h
      cases hfind : Table.find User.id id store.users with
      | none =>
          rw [hfind] at hfact
          exact hfact.elim
      | some row =>
          rw [hfind] at hfact
          obtain rfl : fact = .user row := hfact
          exact Table.find_mem hfind
  | userFindByEmail email =>
      cases h
      cases hfind : Table.find User.email email store.users with
      | none =>
          rw [hfind] at hfact
          exact hfact.elim
      | some row =>
          rw [hfind] at hfact
          obtain rfl : fact = .user row := hfact
          exact Table.find_mem hfind
  | userCreate data =>
      simp only [exec] at h
      split at h
      · cases h
      · cases h
        obtain rfl : fact = .user (store.createUser data).1 := hfact
        exact List.mem_append_right _ (List.mem_singleton_self _)
  | refreshTokenCreate data =>
      cases h
      obtain rfl : fact = .record (store.createRefreshToken data).1.id
        (store.createRefreshToken data).1.userId := hfact
      exact ⟨_, List.mem_append_right _ (List.mem_singleton_self _), rfl, rfl⟩
  | refreshTokenFindUnique id =>
      cases h
      cases hfind : Table.find RefreshToken.id id store.refreshTokens with
      | none =>
          rw [hfind] at hfact
          exact hfact.elim
      | some row =>
          rw [hfind] at hfact
          obtain rfl : fact = .record row.id row.userId := hfact
          exact ⟨row, Table.find_mem hfind, rfl, rfl⟩
  | refreshTokenFindMany userId now includeRevoked =>
      cases h
      obtain ⟨row, hrow, rfl⟩ := hfact
      exact ⟨row, mem_candidates hrow, rfl, rfl⟩
  | refreshTokenUpdate id data =>
      by_cases hrevokes : data.revokedAt.isSome = true
      · simp only [AuthOp.shows, hrevokes, if_true] at hfact
        obtain rfl : fact = .revoked id := hfact
        exact revoked_of_update h hrevokes
      · simp only [AuthOp.shows, hrevokes] at hfact
        exact hfact.elim
  | _ => exact hfact.elim

theorem session_knows {init : AuthStore} {pool : AuthPool}
    {ok : AuthPool → AuthStep → Prop} (h : (auth env).Reach ok init.boot pool) :
    ∀ task ∈ pool.tasks, ∀ fact ∈ ((session env).state task).facts,
      fact.Holds pool.store := by
  refine Monitor.knows_of_reach (M := session env)
    (K := fun seen store => ∀ fact ∈ seen.facts, Credential.Holds store fact)
    (fun _ _ => nofun) ?_ ?_ ?_ rfl h
  · rintro call seen op store value store' hexec hknows fact (hold | hnew)
    · exact holds_of_exec hexec (hknows fact hold)
    · exact shown_of_exec hexec hnew
  · exact fun _ _ _ _ _ hexec hknows fact hfact =>
      holds_of_exec hexec (hknows fact hfact)
  · intro seen elapsed store count store' calls henv hknows fact hfact
    cases henv
    exact hknows fact hfact

/-! ## What the calls grant -/

/-- The tokens are the user's, and the call has given the record the hash. -/
structure Granted (env : AuthEnv) (seen : Seen) (user : User)
    (tokens : TokenPair) : Prop where
  configured : ∃ secret, env.refreshSecret = some secret ∧ secret.isEmpty = false
  shown : .user user ∈ seen.facts
  access : ∃ jti issuedAt, tokens.accessToken = env.jwt.sign env.accessSecret
    ⟨user.id, user.email, user.role, some jti, none⟩ issuedAt
      (issuedAt + AuthService.accessTokenExpiresIn)
  refresh : ∃ secret jti record issuedAt stored, env.refreshSecret = some secret ∧
    tokens.refreshToken = env.jwt.sign secret
      ⟨user.id, user.email, user.role, some jti, some record⟩ issuedAt
        (issuedAt + AuthService.refreshTokenExpiresIn) ∧
    .record record user.id ∈ seen.facts ∧
    seen.seals record = some (some stored) ∧
    env.bcrypt.compare tokens.refreshToken stored = true

structure Matches (env : AuthEnv) (done : List (Σ op : AuthOp, op.Res))
    (userId : Id) (rawToken : String) (payload : JwtPayload)
    (includeRevoked : Bool) (row : RefreshToken) : Prop where
  read : ⟨.refreshTokenFindUnique row.id, some row⟩ ∈ done ∨
    ∃ now rows, ⟨.refreshTokenFindMany userId now includeRevoked, rows⟩ ∈ done ∧
      row ∈ rows
  named : ∀ rtid, payload.rtid = some rtid → rtid = row.id
  owner : row.userId = userId
  unrevoked : includeRevoked = false → row.revokedAt = none
  unexpired : ∃ now : Time, ⟨.now, now⟩ ∈ done ∧ now < row.expiresAt
  fits : env.bcrypt.compare rawToken row.tokenHash = true

def Checked (env : AuthEnv) (seen : Seen) (user : User) (refreshToken : String)
    (row : RefreshToken) : Prop :=
  (∃ secret payload, env.refreshSecret = some secret ∧
    ⟨.verifyAsync secret refreshToken, payload⟩ ∈ seen.done ∧
    payload.sub = user.id ∧
    Matches env seen.done user.id refreshToken payload false row) ∧
  .revoked row.id ∈ seen.facts

/-- What a call with tokens in its answer has shown of the user, where `C` says
which record a refresh has found for its token. -/
def AuthCall.Entitles (env : AuthEnv) (C : String → RefreshToken → Prop)
    (user : User) : AuthCall → Prop
  | .register dto => user.email = normalizeEmail env dto.email ∧
      user.fullName = trim dto.fullName ∧ user.role = .user ∧
        env.bcrypt.compare dto.password user.passwordHash = true
  | .login dto => user.email = normalizeEmail env dto.email ∧
      env.bcrypt.compare dto.password user.passwordHash = true
  | .refresh refreshToken => ∃ row, C refreshToken row
  | .logout _ _ => False

def AuthAnswer.pair : AuthAnswer → Option TokenPair
  | .session pair _ => some pair
  | .tokens pair => some pair
  | .loggedOut => none

def AuthAnswer.user : AuthAnswer → Option SafeUser
  | .session _ user => some user
  | _ => none

def Grants (env : AuthEnv) (call : AuthCall) (seen : Seen)
    (answer : AuthAnswer) : Prop :=
  ∀ tokens, answer.pair = some tokens → ∃ user, Granted env seen user tokens ∧
    call.Entitles env (Checked env seen user) user ∧
    ∀ safe, answer.user = some safe → safe = sanitize user

def Yields (env : AuthEnv) (call : AuthCall) {α : Type} (P : Seen → α → Prop)
    (body : AuthBody α) (seen : Seen) : Prop :=
  (session env).Accepts call
    (fun seen' result => ∀ value, result = .ok value → P seen' value) body seen

section Bodies

variable {call : AuthCall} {seen : Seen} {α β : Type} {P : Seen → α → Prop}

theorem yields_ret {value : α} (h : P seen value) :
    Yields env call P (.ret value) seen := by
  intro other heq
  obtain rfl := Except.ok.inj heq
  exact h

theorem yields_throw {error : AuthFailure} :
    Yields env call P (.throw error) seen := by
  intro value heq
  cases heq

theorem Yields.bind {R : Seen → β → Prop} {body : AuthBody α}
    {rest : α → AuthBody β} (h : Yields env call P body seen)
    (hrest : ∀ seen' value, P seen' value → Yields env call R (rest value) seen') :
    Yields env call R (body.bind rest) seen := by
  refine Monitor.accepts_bind.mpr (Monitor.Accepts.mono ?_ h)
  rintro seen' (error | value) hresult
  · intro value heq
    cases heq
  · exact hrest seen' value (hresult value rfl)

theorem yields_silent {op : AuthOp} {rest : op.Res → AuthBody α}
    (hop : op.isSilent = true)
    (hrest : ∀ value, op.answers env value → Yields env call P (rest value)
      ⟨⟨op, value⟩ :: seen.done, seen.facts, seen.seals⟩) :
    Yields env call P ((Prog.await op).bind rest) seen := by
  refine Monitor.accepts_await_bind.mpr ⟨?_, fun value hvalue => ?_,
    fun _ _ value heq => by cases heq⟩
  · rintro id data rfl
    cases hop
  · have hsame : (session env).note call seen op value =
        ⟨⟨op, value⟩ :: seen.done, seen.facts, seen.seals⟩ := by
      cases op with
      | now | randomUUID | auditLogCreate _ | signAsync _ _ _ | verifyAsync _ _
      | hash _ | compare _ _ => simp [session, AuthOp.shows, AuthOp.seals]
      | _ => cases hop
    rw [hsame]
    exact hrest value hvalue

theorem yields_pass {op : AuthOp} {rest : op.Res → AuthBody α}
    (hop : ∀ id data, op = .refreshTokenUpdate id data → data.tokenHash = none)
    (hrest : ∀ value, op.answers env value → Yields env call P (rest value)
      ⟨⟨op, value⟩ :: seen.done, seen.facts ∪ op.shows value,
        op.seals seen.seals value⟩) :
    Yields env call P ((Prog.await op).bind rest) seen := by
  refine Monitor.accepts_await_bind.mpr ⟨fun id data heq hsome => ?_, hrest,
    fun _ _ value heq => by cases heq⟩
  rw [hop id data heq] at hsome
  cases hsome

structure Seen.Grows (seen seen' : Seen) : Prop where
  done : seen.done ⊆ seen'.done
  facts : seen.facts ⊆ seen'.facts

theorem Matches.mono {done done' : List (Σ op : AuthOp, op.Res)} {userId : Id}
    {rawToken : String} {payload : JwtPayload} {includeRevoked : Bool}
    {row : RefreshToken}
    (h : Matches env done userId rawToken payload includeRevoked row)
    (hsubset : done ⊆ done') :
    Matches env done' userId rawToken payload includeRevoked row where
  read := by
    rcases h.read with hunique | ⟨now, rows, hmany, hrow⟩
    · exact .inl (hsubset hunique)
    · exact .inr ⟨now, rows, hsubset hmany, hrow⟩
  named := h.named
  owner := h.owner
  unrevoked := h.unrevoked
  unexpired := by
    obtain ⟨now, hnow, hlater⟩ := h.unexpired
    exact ⟨now, hsubset hnow, hlater⟩
  fits := h.fits

theorem yields_refreshSecret {rest : String → AuthBody α}
    (hrest : ∀ secret, env.refreshSecret = some secret → secret.isEmpty = false →
      Yields env call P (rest secret) seen) :
    Yields env call P ((AuthService.refreshSecret env).bind rest) seen := by
  simp only [AuthService.refreshSecret]
  cases hsecret : env.refreshSecret with
  | none => exact yields_throw
  | some secret =>
      dsimp only
      split
      · exact yields_throw
      · rename_i hset
        exact hrest secret hsecret (Bool.eq_false_iff.mpr hset)

theorem issueTokens_yields {user : User} (huser : .user user ∈ seen.facts) :
    Yields env call
      (fun seen' tokens => seen.Grows seen' ∧ Granted env seen' user tokens)
      (AuthService.issueTokens env user) seen := by
  simp only [AuthService.issueTokens, bind_eq]
  refine yields_silent rfl fun jti _ => ?_
  refine yields_silent rfl fun accessToken ⟨issuedAt, haccess⟩ => ?_
  refine yields_refreshSecret fun secret hsecret hset => ?_
  refine yields_silent rfl fun now _ => ?_
  refine yields_pass (fun _ _ h => by cases h) fun record hrecord => ?_
  refine yields_silent rfl fun jti' _ => ?_
  refine yields_silent rfl fun refreshToken ⟨issuedAt', hrefresh⟩ => ?_
  refine yields_silent rfl fun stored hstored => ?_
  have howner : record.userId = user.id := hrecord
  refine Monitor.accepts_await_bind.mpr ⟨fun id data heq _ => ?_,
    fun updated _ => ?_, fun _ _ value heq => by cases heq⟩
  · obtain ⟨rfl, -⟩ := AuthOp.refreshTokenUpdate.inj heq
    simp [AuthOp.seals]
  · refine yields_ret ⟨⟨fun entry hentry => ?_, fun fact hfact =>
        .inl (.inl hfact)⟩, ⟨secret, hsecret, hset⟩, .inl (.inl huser),
      ⟨jti, issuedAt, haccess⟩, secret, jti', record.id, issuedAt', stored,
      hsecret, hrefresh, .inl (.inr ?_), ?_, hstored⟩
    · simp [session, hentry]
    · simp [AuthOp.shows, howner]
    · simp [session, AuthOp.seals]

theorem issueTokens_bind {user : User} {rest : TokenPair → AuthBody α}
    (huser : .user user ∈ seen.facts)
    (hrest : ∀ seen' tokens, seen.Grows seen' →
      Granted env seen' user tokens → Yields env call P (rest tokens) seen') :
    Yields env call P ((AuthService.issueTokens env user).bind rest) seen :=
  (issueTokens_yields huser).bind fun seen' tokens hgranted =>
    hrest seen' tokens hgranted.1 hgranted.2

theorem verifyRefreshToken_yields {refreshToken : String} :
    Yields env call (fun seen' payload => ∃ secret,
        env.refreshSecret = some secret ∧
          ⟨.verifyAsync secret refreshToken, payload⟩ ∈ seen'.done)
      (AuthService.verifyRefreshToken env refreshToken) seen := by
  simp only [AuthService.verifyRefreshToken, bind_eq, tryCatch_eq, throw_eq]
  refine yields_refreshSecret fun secret hsecret _ => ?_
  refine Monitor.accepts_tryCatch.mpr (Monitor.accepts_await.mpr
    ⟨fun id data heq => (by cases heq), fun payload hpayload => ?_,
      fun _ _ => yields_throw⟩)
  intro value heq
  obtain rfl := Except.ok.inj heq
  exact ⟨secret, hsecret, List.mem_cons_self⟩

def FoundFor (env : AuthEnv) (userId : Id) (rawToken : String)
    (payload : JwtPayload) (includeRevoked : Bool) (seen seen' : Seen)
    (found : Option RefreshToken) : Prop :=
  seen.Grows seen' ∧ ∀ row, found = some row →
    Matches env seen'.done userId rawToken payload includeRevoked row

section Matching

variable {userId : Id} {payload : JwtPayload} {rawToken : String}
  {includeRevoked : Bool}

theorem foundFor_none {seen' : Seen} (h : seen.Grows seen') :
    FoundFor env userId rawToken payload includeRevoked seen seen' none :=
  ⟨h, fun _ heq => by cases heq⟩

theorem findById_yields {rtid : Id} (hrtid : payload.rtid = some rtid) :
    Yields env call (FoundFor env userId rawToken payload includeRevoked seen)
      (AuthService.findById rtid userId rawToken includeRevoked) seen := by
  simp only [AuthService.findById, bind_eq, pure_eq]
  refine yields_pass (fun _ _ h => by cases h) fun found hfound => ?_
  have hgrows : seen.Grows ⟨⟨.refreshTokenFindUnique rtid, found⟩ :: seen.done,
      seen.facts ∪ AuthOp.shows (.refreshTokenFindUnique rtid) found,
      AuthOp.seals seen.seals (.refreshTokenFindUnique rtid) found⟩ :=
    ⟨List.subset_cons_self _ _, fun _ h => .inl h⟩
  cases found with
  | none => exact yields_ret (foundFor_none hgrows)
  | some row =>
      obtain rfl : row.id = rtid := hfound row rfl
      dsimp only
      split
      · exact yields_ret (foundFor_none hgrows)
      · rename_i howner
        refine yields_silent rfl fun now _ => ?_
        have hgrows' := List.Subset.trans hgrows.done
          (List.subset_cons_self (⟨.now, now⟩ : Σ op : AuthOp, op.Res) _)
        split
        · exact yields_ret (foundFor_none ⟨hgrows', hgrows.facts⟩)
        · rename_i hexpires
          split
          · exact yields_ret (foundFor_none ⟨hgrows', hgrows.facts⟩)
          · rename_i hrevoked
            refine yields_silent rfl fun isMatch hmatch => yields_ret ⟨
              ⟨List.Subset.trans hgrows' (List.subset_cons_self _ _),
                hgrows.facts⟩, ?_⟩
            intro other hother
            cases isMatch with
            | false => cases hother
            | true =>
                obtain rfl := Option.some.inj hother
                refine ⟨.inl (by simp), fun rtid hother => ?_,
                  not_not.mp howner, ?_, ⟨now, by simp, not_le.mp hexpires⟩,
                  hmatch.symm⟩
                · exact Option.some.inj (hother.symm.trans hrtid)
                · rintro rfl
                  simpa using hrevoked

theorem firstMatch_yields {candidates : List RefreshToken} {before : Seen}
    {now : Time} (hrtid : payload.rtid = none) (hgrows : before.Grows seen)
    (hnow : ⟨.now, now⟩ ∈ seen.done)
    (hcandidates : ∀ row ∈ candidates, row.userId = userId ∧
      now < row.expiresAt ∧ (includeRevoked = false → row.revokedAt = none) ∧
      ∃ rows, ⟨.refreshTokenFindMany userId now includeRevoked, rows⟩ ∈
        seen.done ∧ row ∈ rows) :
    Yields env call (FoundFor env userId rawToken payload includeRevoked before)
      (AuthService.firstMatch rawToken candidates) seen := by
  induction candidates generalizing seen with
  | nil => exact yields_ret (foundFor_none hgrows)
  | cons row candidates ih =>
      simp only [AuthService.firstMatch, bind_eq, pure_eq]
      refine yields_silent rfl fun isMatch hmatch => ?_
      have hdone : seen.done ⊆ ⟨.compare rawToken row.tokenHash, isMatch⟩ ::
          seen.done := List.subset_cons_self _ _
      have hgrows' : before.Grows ⟨⟨.compare rawToken row.tokenHash, isMatch⟩ ::
          seen.done, seen.facts, seen.seals⟩ :=
        ⟨List.Subset.trans hgrows.done hdone, hgrows.facts⟩
      cases isMatch with
      | true =>
          refine yields_ret ⟨hgrows', ?_⟩
          rintro _ ⟨⟩
          obtain ⟨howner, hexpires, hrevoked, rows, hrows, hrow⟩ :=
            hcandidates row List.mem_cons_self
          refine ⟨.inr ⟨now, rows, hdone hrows, hrow⟩, fun rtid hother => ?_,
            howner, hrevoked, ⟨now, hdone hnow, hexpires⟩, hmatch.symm⟩
          rw [hrtid] at hother
          cases hother
      | false =>
          refine ih hgrows' (hdone hnow) fun other hother => ?_
          obtain ⟨howner, hexpires, hrevoked, rows, hrows, hrow⟩ :=
            hcandidates other (List.mem_cons_of_mem _ hother)
          exact ⟨howner, hexpires, hrevoked, rows, hdone hrows, hrow⟩

theorem findMatchingRefreshToken_yields :
    Yields env call (FoundFor env userId rawToken payload includeRevoked seen)
      (AuthService.findMatchingRefreshToken userId rawToken payload
        includeRevoked) seen := by
  simp only [AuthService.findMatchingRefreshToken]
  cases hrtid : payload.rtid with
  | some rtid => exact findById_yields hrtid
  | none =>
      simp only [bind_eq]
      refine yields_silent rfl fun now _ => ?_
      refine yields_pass (fun _ _ h => by cases h) fun rows hrows => ?_
      refine firstMatch_yields hrtid ⟨fun entry hentry => ?_, fun _ h => .inl h⟩
        (List.mem_cons_of_mem _ List.mem_cons_self) fun row hrow => ?_
      · exact List.mem_cons_of_mem _ (List.mem_cons_of_mem _ hentry)
      · obtain ⟨howner, hexpires, hrevoked⟩ := hrows row hrow
        exact ⟨howner, hexpires, hrevoked, rows, List.mem_cons_self, hrow⟩

end Matching

theorem granted_logged {user : User} {tokens : TokenPair}
    {entry : Σ op : AuthOp, op.Res} (h : Granted env seen user tokens) :
    Granted env ⟨entry :: seen.done, seen.facts, seen.seals⟩ user tokens :=
  ⟨h.configured, h.shown, h.access, h.refresh⟩

theorem register_yields {dto : RegisterDto} :
    Yields env (.register dto)
      (fun seen' answer => Grants env (.register dto) seen'
        (.session answer.1 answer.2))
      (AuthService.register env dto) seen := by
  simp only [AuthService.register, UsersService.findByEmail, bind_eq, pure_eq,
    throw_eq]
  refine yields_pass (fun _ _ h => by cases h) fun existing _ => ?_
  split
  · exact yields_throw
  · refine yields_silent rfl fun passwordHash hpassword => ?_
    refine yields_pass (fun _ _ h => by cases h) fun user huser => ?_
    obtain ⟨hemail, hname, hhash, hrole⟩ := huser
    refine issueTokens_bind ?_ fun seen' tokens _ hgranted => ?_
    · exact .inr rfl
    · refine yields_silent rfl fun _ _ => yields_ret ?_
      rintro _ ⟨⟩
      refine ⟨user, granted_logged hgranted, ⟨hemail, hname, hrole, ?_⟩, ?_⟩
      · rw [hhash]
        exact hpassword
      · rintro _ ⟨⟩
        rfl

theorem login_yields {dto : LoginDto} :
    Yields env (.login dto)
      (fun seen' answer => Grants env (.login dto) seen'
        (.session answer.1 answer.2))
      (AuthService.login env dto) seen := by
  simp only [AuthService.login, UsersService.findByEmail, bind_eq, pure_eq,
    throw_eq]
  refine yields_pass (fun _ _ h => by cases h) fun found hfound => ?_
  cases found with
  | none => exact yields_throw
  | some user =>
      dsimp only
      refine yields_silent rfl fun isValidPassword hvalid => ?_
      cases isValidPassword with
      | false => exact yields_throw
      | true =>
          have hemail : user.email =
              normalizeEmail env (normalizeEmail env dto.email) := hfound user rfl
          rw [normalizeEmail_normalizeEmail] at hemail
          refine issueTokens_bind ?_ fun seen' tokens _ hgranted => ?_
          · exact .inr rfl
          · refine yields_silent rfl fun _ _ => yields_ret ?_
            rintro _ ⟨⟩
            refine ⟨user, granted_logged hgranted, ⟨hemail, hvalid.symm⟩, ?_⟩
            rintro _ ⟨⟩
            rfl

theorem refresh_yields {refreshToken : String} :
    Yields env (.refresh refreshToken)
      (fun seen' tokens => Grants env (.refresh refreshToken) seen'
        (.tokens tokens))
      (AuthService.refresh env refreshToken) seen := by
  simp only [AuthService.refresh, UsersService.findById, bind_eq, pure_eq,
    throw_eq]
  refine verifyRefreshToken_yields.bind ?_
  rintro verified payload ⟨secret, hsecret, hverified⟩
  refine yields_pass (fun _ _ h => by cases h) fun found hfound => ?_
  cases found with
  | none => exact yields_throw
  | some user =>
      have hid : user.id = payload.sub := hfound user rfl
      dsimp only
      refine findMatchingRefreshToken_yields.bind fun seen' matched hmatched => ?_
      cases matched with
      | none => exact yields_throw
      | some row =>
          obtain ⟨hgrows, hfound⟩ := hmatched
          have hmatches := hfound row rfl
          simp only [AuthService.revokeRefreshToken, bind_eq, pure_eq,
            Prog.bind_assoc, ret_bind]
          refine yields_silent rfl fun revokedAt _ => ?_
          refine yields_pass (fun _ _ h => ?_) fun updated _ => ?_
          · obtain ⟨-, rfl⟩ := AuthOp.refreshTokenUpdate.inj h
            rfl
          · refine issueTokens_bind (.inl (hgrows.facts (.inr rfl)))
              fun seen'' tokens hlater hgranted => ?_
            refine yields_silent rfl fun _ _ => yields_ret ?_
            rintro _ ⟨⟩
            have hdone : seen'.done ⊆ seen''.done := fun entry hentry =>
              hlater.done (List.mem_cons_of_mem _ (List.mem_cons_of_mem _ hentry))
            refine ⟨user, granted_logged hgranted, ⟨row, ⟨secret, payload, hsecret,
              List.mem_cons_of_mem _ (hdone (hgrows.done
                (List.mem_cons_of_mem _ hverified))), hid.symm, ?_⟩,
              hlater.facts (.inr (by simp [AuthOp.shows]))⟩, ?_⟩
            · rw [hid]
              exact hmatches.mono fun entry hentry =>
                List.mem_cons_of_mem _ (hdone hentry)
            · intro safe hsafe
              cases hsafe

theorem logout_yields {refreshToken : String} {userId : Id} :
    Yields env call (fun _ _ => True)
      (AuthService.logout env refreshToken userId) seen := by
  simp only [AuthService.logout, bind_eq, pure_eq, throw_eq]
  refine verifyRefreshToken_yields.bind fun verified payload _ => ?_
  split
  · exact yields_throw
  · refine findMatchingRefreshToken_yields.bind fun seen' matched _ => ?_
    cases matched with
    | none => exact yields_throw
    | some row =>
        dsimp only
        split
        · simp only [AuthService.revokeRefreshToken, bind_eq, pure_eq,
            Prog.bind_assoc, ret_bind]
          refine yields_silent rfl fun revokedAt _ => ?_
          refine yields_pass (fun _ _ h => ?_) fun updated _ => ?_
          · obtain ⟨-, rfl⟩ := AuthOp.refreshTokenUpdate.inj h
            rfl
          · exact yields_silent rfl fun _ _ => yields_ret trivial
        · exact yields_ret trivial

theorem body_grants (call : AuthCall) :
    Yields env call (Grants env call) (call.body env) ⟨[], ∅, fun _ => none⟩ := by
  cases call with
  | register dto =>
      exact register_yields.bind fun _ _ hgrants => yields_ret hgrants
  | login dto => exact login_yields.bind fun _ _ hgrants => yields_ret hgrants
  | refresh refreshToken =>
      exact refresh_yields.bind fun _ _ hgrants => yields_ret hgrants
  | logout refreshToken userId =>
      refine logout_yields.bind fun _ _ _ => yields_ret fun tokens htokens => ?_
      cases htokens

end Bodies

/-! ## The store -/

/-- Identifiers and emails are given once. -/
structure AuthStore.Intact (store : AuthStore) : Prop where
  users : Table.Keyed User.id store.nextId store.users
  emails : (store.users.map User.email).Nodup
  refreshTokens : Table.Keyed RefreshToken.id store.nextId store.refreshTokens

theorem nextId_of_exec {op : AuthOp} {value : op.Res}
    (h : exec env op store = .ok (value, store')) :
    store.nextId ≤ store'.nextId ∧
      ((∃ data, op = .userCreate data) ∨ (∃ data, op = .refreshTokenCreate data) →
        store'.nextId = store.nextId + 1) := by
  cases op with
  | userCreate data =>
      simp only [exec] at h
      split at h
      · cases h
      · cases h
        exact ⟨Nat.le_succ _, fun _ => rfl⟩
  | refreshTokenUpdate id data =>
      simp only [exec] at h
      split at h
      · cases h
      · cases h
        exact ⟨Nat.le_refl _, by simp⟩
  | verifyAsync secret token =>
      simp only [exec] at h
      split at h
      · cases h
        exact ⟨Nat.le_refl _, by simp⟩
      · cases h
  | refreshTokenCreate data =>
      cases h
      exact ⟨Nat.le_succ _, fun _ => rfl⟩
  | randomUUID | auditLogCreate data | hash text =>
      cases h
      exact ⟨Nat.le_succ _, by simp⟩
  | _ =>
      cases h
      exact ⟨Nat.le_refl _, by simp⟩

theorem intact_of_exec {op : AuthOp} {value : op.Res}
    (h : exec env op store = .ok (value, store')) (hintact : store.Intact) :
    store'.Intact := by
  obtain ⟨hle, hnext⟩ := nextId_of_exec h
  have husers : Table.Keyed User.id store'.nextId store'.users ∧
      (store'.users.map User.email).Nodup := by
    rcases users_of_exec h with hsame | ⟨data, hop, hfresh, hnew⟩
    · rw [hsame]
      exact ⟨hintact.users.mono hle, hintact.emails⟩
    · rw [hnew, hnext (.inl ⟨data, hop⟩)]
      refine ⟨hintact.users.append rfl, ?_⟩
      rw [List.map_append, List.nodup_append]
      refine ⟨hintact.emails, List.nodup_singleton _, ?_⟩
      rintro email hemail _ hsingle rfl
      obtain ⟨row, hrow, rfl⟩ := List.mem_map.mp hemail
      obtain hsame : row.email = data.email := List.mem_singleton.mp hsingle
      have hother := List.any_eq_false.mp hfresh row hrow
      simp [hsame] at hother
  refine ⟨husers.1, husers.2, ?_⟩
  rcases refreshTokens_of_exec h with hsame | ⟨data, hop, hnew⟩ |
    ⟨id, data, -, hnew⟩
  · rw [hsame]
    exact hintact.refreshTokens.mono hle
  · rw [hnew, hnext (.inr ⟨data, hop⟩)]
    exact hintact.refreshTokens.append rfl
  · rw [hnew]
    exact (hintact.refreshTokens.mono hle).modify fun _ => rfl

section Runs

variable {init : AuthStore} {pool : AuthPool} {ok : AuthPool → AuthStep → Prop}

theorem intact_of_reach (hinit : init.Intact)
    (h : (auth env).Reach ok init.boot pool) : pool.store.Intact := by
  have huses : ∀ call, ((auth env).body call).Uses fun _ => True :=
    fun _ => uses_of_forall (fun _ => trivial) _
  refine h.keeps huses (fun _ _ _ _ _ _ hexec => intact_of_exec hexec) ?_ rfl
    hinit
  intro elapsed store count store' calls henv hintact
  cases henv
  exact ⟨hintact.users, hintact.emails, hintact.refreshTokens⟩

theorem session_accepts (h : (auth env).Reach ok init.boot pool) :
    ∀ task ∈ pool.tasks, (session env).Accepts task.call
      (fun seen result => ∀ answer, result = .ok answer →
        Grants env task.call seen answer) task.prog
      ((session env).state task) := by
  have hbody : ∀ call, (session env).Accepts call
      (fun seen result => ∀ answer, result = .ok answer →
        Grants env call seen answer) ((auth env).body call)
      ((session env).init call) := body_grants
  exact Monitor.accepts_of_reach
    (Q := fun call seen result => ∀ answer, result = .ok answer →
      Grants env call seen answer)
    (fun _ _ _ _ _ _ hexec => answers_of_exec hexec) (fun _ _ _ _ => trivial)
    hbody rfl h

def Sealed (id : Id) (seen : Seen) (store : AuthStore) : Prop :=
  ∃ row, Table.find RefreshToken.id id store.refreshTokens = some row ∧
    ∀ stored, seen.seals id = some (some stored) → row.tokenHash = stored

theorem ne_of_created {id : Id} (hintact : store.Intact)
    {row : RefreshToken}
    (hfind : Table.find RefreshToken.id id store.refreshTokens = some row) :
    id ≠ store.nextId := by
  have hbelow := hintact.refreshTokens.below row (Table.find_mem hfind)
  rw [Table.find_key hfind] at hbelow
  exact Nat.ne_of_lt hbelow

theorem sealed_congr {id : Id} {seen seen' : Seen} (h : Sealed id seen store)
    (hsame : seen'.seals id = seen.seals id) : Sealed id seen' store := by
  obtain ⟨row, hfind, hstored⟩ := h
  exact ⟨row, hfind, fun stored hseal => hstored stored (hsame ▸ hseal)⟩

theorem sealed_kept {id : Id} {seen : Seen} {op : AuthOp} {value : op.Res}
    (h : Sealed id seen store) (hexec : exec env op store = .ok (value, store'))
    (hother : ∀ data, op = .refreshTokenUpdate id data → data.tokenHash = none) :
    Sealed id seen store' := by
  obtain ⟨row, hfind, hstored⟩ := h
  rcases refreshTokens_of_exec hexec with hsame | ⟨data, -, hnew⟩ |
    ⟨written, data, rfl, hnew⟩
  · exact ⟨row, hsame ▸ hfind, hstored⟩
  · exact ⟨row, hnew ▸ Table.find_append hfind, hstored⟩
  · have hkey : ∀ row, (data.apply row).id = row.id := fun _ => rfl
    refine ⟨if row.id = written then data.apply row else row, ?_, ?_⟩
    · rw [hnew, Table.find_modify hkey, hfind]
      rfl
    · intro stored hseal
      split
      · rename_i hid
        rw [Table.find_key hfind] at hid
        have hnone := hother data (by rw [hid])
        simpa [RefreshTokenData.apply, hnone] using hstored stored hseal
      · exact hstored stored hseal

theorem sealed_updated {call : AuthCall} {id : Id} {seen : Seen} {data : RefreshTokenData}
    {updated : RefreshToken} (h : Sealed id seen store)
    (hexec : exec env (.refreshTokenUpdate id data) store =
      .ok (updated, store')) :
    Sealed id ((session env).note call seen (.refreshTokenUpdate id data)
      updated) store' := by
  obtain ⟨row, hfind, hstored⟩ := h
  have hnew := (find_of_update hexec).2 id
  rw [hfind, Option.map_some, if_pos (Table.find_key hfind)] at hnew
  refine ⟨_, hnew, fun stored hseal => ?_⟩
  simp only [session, AuthOp.seals, Function.update_self,
    Option.map_eq_some_iff] at hseal
  obtain ⟨before, hbefore, hor⟩ := hseal
  cases hgiven : data.tokenHash with
  | some given => simpa [RefreshTokenData.apply, hgiven] using hor
  | none =>
      rw [hgiven, Option.none_or] at hor
      simpa [RefreshTokenData.apply, hgiven] using hstored stored (hor ▸ hbefore)

theorem seals_of_exec {id : Id} {seals : Seals} {op : AuthOp} {value : op.Res}
    (hexec : exec env op store = .ok (value, store')) (hintact : store.Intact)
    (hother : ∀ data, op ≠ .refreshTokenUpdate id data) :
    op.seals seals value id = seals id ∨
      op.seals seals value id = some none ∧ id = store.nextId ∧
        ∃ row, Table.find RefreshToken.id id store'.refreshTokens = some row := by
  cases op with
  | refreshTokenCreate data =>
      cases hexec
      by_cases hid : id = store.nextId
      · subst hid
        refine .inr ⟨Function.update_self _ _ _, rfl, _,
          Table.find_append_new (fun row hrow => ?_) rfl⟩
        exact Nat.ne_of_lt (hintact.refreshTokens.below row hrow)
      · exact .inl (Function.update_of_ne hid _ _)
  | refreshTokenUpdate written data =>
      refine .inl (Function.update_of_ne ?_ _ _)
      rintro rfl
      exact hother data rfl
  | _ => exact .inl rfl

theorem seals_ownership (hinit : init.Intact) (id : Id) :
    Ownership (session env) (fun seen => (seen.seals id).isSome = true)
      (fun _ => True) (Sealed id) (auth env) ok init.boot where
  start _ _ := fun h => by cases h
  acts := by
    intro pool pool' index task op next value hreach _ hdone _ howns hheld
    have hexec : exec env op pool.store = .ok (value, pool'.store) := hdone.exec
    left
    by_cases hop : ∃ data, op = .refreshTokenUpdate id data
    · obtain ⟨data, rfl⟩ := hop
      refine ⟨?_, sealed_updated hheld hexec⟩
      simpa [session, AuthOp.seals] using howns
    · push Not at hop
      rcases @seals_of_exec env _ _ id ((session env).state task).seals _ _ hexec
          (intact_of_reach hinit hreach) hop with hsame | ⟨-, hnew, -⟩
      · exact ⟨(congrArg Option.isSome hsame).trans howns,
          sealed_congr (sealed_kept hheld hexec
            fun data heq => absurd heq (hop data)) hsame⟩
      · obtain ⟨row, hfind, -⟩ := hheld
        exact absurd hnew (ne_of_created (intact_of_reach hinit hreach) hfind)
  passes := by
    intro pool pool' index task op next value hreach hdone hguard hother _
    refine ⟨fun h => h, fun seen hheld => sealed_kept hheld hdone.exec
      fun data heq => ?_⟩
    cases hgiven : data.tokenHash with
    | none => rfl
    | some given =>
        exact absurd (hguard id data heq (by rw [hgiven]; rfl)) hother
  takes := by
    intro pool pool' index task op next value hreach hdone _ hother htakes
    have hexec : exec env op pool.store = .ok (value, pool'.store) := hdone.exec
    have hintact := intact_of_reach hinit hreach
    by_cases hop : ∃ data, op = .refreshTokenUpdate id data
    · obtain ⟨data, rfl⟩ := hop
      refine absurd ?_ hother
      simpa [session, AuthOp.seals] using htakes
    · push Not at hop
      rcases @seals_of_exec env _ _ id ((session env).state task).seals _ _ hexec
          hintact hop with hsame | ⟨hnone, hnew, row, hfind⟩
      · exact absurd (hsame ▸ htakes) hother
      · constructor
        · rintro seen ⟨old, hold, -⟩
          exact ne_of_created hintact hold hnew
        · refine fun _ => ⟨row, hfind, fun stored hseal => ?_⟩
          have hempty : some none = some (some stored) := hnone.symm.trans hseal
          cases hempty
  event := by
    intro pool pool' elapsed calls _ _ henv
    obtain ⟨hstore, rfl⟩ := Prod.mk.inj (Option.some.inj henv)
    rw [← hstore]
    exact .inl ⟨fun h => h, fun _ h => h, fun _ h => by cases h⟩

/-- The tokens are those of a stored user, and until they expire they say who
the user is and which record is to be looked up. -/
structure Backed (env : AuthEnv) (store : AuthStore) (user : User)
    (tokens : TokenPair) : Prop where
  stored : user ∈ store.users
  access : ∃ issuedAt : ℤ, ∀ now,
    JwtStrategy.authenticate env tokens.accessToken now =
      if now / 1000 < issuedAt + AuthService.accessTokenExpiresIn then
        some ⟨⟨user.id, user.role⟩, user.email⟩
      else none
  refresh : ∃ row ∈ store.refreshTokens, row.userId = user.id ∧
    env.bcrypt.compare tokens.refreshToken row.tokenHash = true ∧
    ∃ secret jti, ∃ issuedAt : ℤ, env.refreshSecret = some secret ∧ ∀ now,
      env.jwt.verify secret tokens.refreshToken now =
        if now < issuedAt + AuthService.refreshTokenExpiresIn then
          some ⟨user.id, user.email, user.role, some jti, some row.id⟩
        else none

/-- The store of a moment of the run at which the call is under way. -/
def During (env : AuthEnv) (ok : AuthPool → AuthStep → Prop) (init : AuthStore)
    (pool : AuthPool) (index : Nat) (store : AuthStore) : Prop :=
  ∃ before task, (auth env).Reach ok init.boot before ∧
    (auth env).Reach ok before pool ∧ before.tasks[index]? = some task ∧
    task.prog.finished = false ∧ before.store = store

/-- The record is one of the user's that the token has been good for, at moments
that the call has `met`. -/
structure Honours (env : AuthEnv) (met : AuthStore → Prop) (user : User)
    (refreshToken : String) (row : RefreshToken) : Prop where
  verified : ∃ store secret payload, met store ∧
    env.refreshSecret = some secret ∧
    env.jwt.verify secret refreshToken (store.clock / 1000) = some payload ∧
    payload.sub = user.id ∧ ∀ rtid, payload.rtid = some rtid → rtid = row.id
  stored : ∃ store, met store ∧ row ∈ store.refreshTokens
  owner : row.userId = user.id
  unrevoked : row.revokedAt = none
  unexpired : ∃ store, met store ∧ store.clock < row.expiresAt
  fits : env.bcrypt.compare refreshToken row.tokenHash = true

theorem AuthCall.Entitles.imp {C D : String → RefreshToken → Prop}
    {call : AuthCall} {user : User} (h : call.Entitles env C user)
    (himp : ∀ refreshToken row, C refreshToken row → D refreshToken row) :
    call.Entitles env D user := by
  cases call with
  | refresh refreshToken =>
      obtain ⟨row, hrow⟩ := h
      exact ⟨row, himp _ _ hrow⟩
  | _ => exact h

theorem done_session (task : AuthTask) :
    ((session env).state task).done = task.trace := by
  have hfold : ∀ trace, ((session env).after task.call trace).done = trace := by
    intro trace
    induction trace with
    | nil => rfl
    | cons entry trace ih => exact congrArg (entry :: ·) ih
  exact hfold task.trace

theorem during_of_done (h : (auth env).Reach ok init.boot pool) {index : Nat}
    {task : AuthTask} (htask : pool.tasks[index]? = some task)
    {entry : Σ op : AuthOp, op.Res}
    (hentry : entry ∈ ((session env).state task).done) :
    ∃ store store', During env ok init pool index store ∧
      exec env entry.1 store = .ok (entry.2, store') := by
  rw [done_session] at hentry
  obtain ⟨newer, older, hsplit⟩ := List.append_of_mem hentry
  obtain ⟨before, next, store', hfirst, hlater, hat, hexec⟩ := h.performed_at rfl
    htask (hsplit ▸ List.suffix_append newer (entry :: older))
  exact ⟨before.store, store', ⟨before, _, hfirst, hlater, hat, rfl, rfl⟩, hexec⟩

theorem honours_of_checked (h : (auth env).Reach ok init.boot pool) {index : Nat}
    {task : AuthTask} (htask : pool.tasks[index]? = some task) {user : User}
    {refreshToken : String} {row : RefreshToken}
    (hchecked : Checked env ((session env).state task) user refreshToken row) :
    Honours env (During env ok init pool index) user refreshToken row := by
  obtain ⟨⟨secret, payload, hsecret, hverified, hsub, hmatches⟩, -⟩ := hchecked
  refine ⟨?_, ?_, hmatches.owner, hmatches.unrevoked rfl, ?_, hmatches.fits⟩
  · obtain ⟨store, store', hduring, hexec⟩ := during_of_done h htask hverified
    refine ⟨store, secret, payload, hduring, hsecret, ?_, hsub, hmatches.named⟩
    simp only [exec] at hexec
    split at hexec
    · rename_i known hverify
      cases hexec
      exact hverify
    · cases hexec
  · rcases hmatches.read with hunique | ⟨now, rows, hmany, hrow⟩
    · obtain ⟨store, store', hduring, hexec⟩ := during_of_done h htask hunique
      have hfind : Table.find RefreshToken.id row.id store.refreshTokens =
          some row := congrArg Prod.fst (Except.ok.inj hexec)
      exact ⟨store, hduring, Table.find_mem hfind⟩
    · obtain ⟨store, store', hduring, hexec⟩ := during_of_done h htask hmany
      obtain rfl : store.candidates user.id now false = rows :=
        congrArg Prod.fst (Except.ok.inj hexec)
      exact ⟨store, hduring, mem_candidates hrow⟩
  · obtain ⟨now, hnow, hlater⟩ := hmatches.unexpired
    obtain ⟨store, store', hduring, hexec⟩ := during_of_done h htask hnow
    obtain rfl : store.clock = now := congrArg Prod.fst (Except.ok.inj hexec)
    exact ⟨store, hduring, hlater⟩

theorem granted_of_answer (h : (auth env).Reach ok init.boot pool)
    {task : AuthTask} (htask : task ∈ pool.tasks) {answer : AuthAnswer}
    {tokens : TokenPair} (hanswer : task.prog = .ret answer)
    (htokens : answer.pair = some tokens) :
    ∃ user, Granted env ((session env).state task) user tokens ∧
      task.call.Entitles env (Checked env ((session env).state task) user) user ∧
      ∀ safe, answer.user = some safe → safe = sanitize user := by
  have haccepts := session_accepts h task htask
  rw [hanswer] at haccepts
  exact haccepts answer rfl tokens htokens

theorem sealed_of_seals (hinit : init.Intact)
    (h : (auth env).Reach ok init.boot pool) (id : Id) :
    Owned (session env) (fun seen => (seen.seals id).isSome = true)
      (fun _ => True) (Sealed id) pool := by
  have haccepts : ∀ pool, (auth env).Reach ok init.boot pool →
      ∀ task ∈ pool.tasks, (session env).Accepts task.call
        (fun seen result => ∀ answer, result = .ok answer →
          Grants env task.call seen answer) task.prog
        ((session env).state task) := fun _ hreach => session_accepts hreach
  exact Ownership.owned (Q := fun call seen result =>
    ∀ answer, result = .ok answer → Grants env call seen answer)
    (seals_ownership hinit id) haccepts rfl trivial h

theorem backed_of_granted (hinit : init.Intact)
    (h : (auth env).Reach ok init.boot pool) {task : AuthTask}
    (htask : task ∈ pool.tasks) {user : User} {tokens : TokenPair}
    (hgranted : Granted env ((session env).state task) user tokens) :
    Backed env pool.store user tokens := by
  have hknows := session_knows h task htask
  refine ⟨hknows _ hgranted.shown, ?_, ?_⟩
  · obtain ⟨jti, issuedAt, haccess⟩ := hgranted.access
    refine ⟨issuedAt, fun now => ?_⟩
    rw [haccess, authenticate_sign]
  · obtain ⟨secret, jti, record, issuedAt, stored, hsecret, hrefresh, hrecord,
      hseal, hcompare⟩ := hgranted.refresh
    obtain ⟨row, hfind, hstored⟩ := (sealed_of_seals hinit h record).held task
      htask (by rw [hseal]; rfl)
    obtain ⟨other, hother, hid, huser⟩ := hknows _ hrecord
    have hrow := Table.find_mem hfind
    have hrowId : row.id = record := Table.find_key hfind
    obtain rfl : other = row := (intact_of_reach hinit h).refreshTokens.eq_of_key
      hother hrow (hid.trans hrowId.symm)
    refine ⟨other, hrow, huser, ?_, secret, jti, issuedAt, hsecret,
      fun now => ?_⟩
    · rw [hstored stored hseal]
      exact hcompare
    · rw [hrefresh, env.jwt.verify_sign, hid]

/-- Every answer with tokens is to a call that is entitled to them, the tokens
are those of a stored user, and no two calls are given one refresh token. -/
theorem sessions_backed (hinit : init.Intact)
    (h : (auth env).Reach ok init.boot pool) :
    (∀ (index : Nat) (task : AuthTask) answer tokens,
      pool.tasks[index]? = some task → task.prog = .ret answer →
      answer.pair = some tokens → ∃ user, Backed env pool.store user tokens ∧
        task.call.Entitles env (fun refreshToken row =>
          Honours env (During env ok init pool index) user refreshToken row ∧
            Revoked pool.store row.id) user ∧
        ∀ safe, answer.user = some safe → safe = sanitize user) ∧
    ∀ (i j : Nat) (first second : AuthTask) answer answer' tokens tokens',
      pool.tasks[i]? = some first → pool.tasks[j]? = some second →
      first.prog = .ret answer → answer.pair = some tokens →
      second.prog = .ret answer' → answer'.pair = some tokens' →
      tokens.refreshToken = tokens'.refreshToken → i = j := by
  constructor
  · intro index task answer tokens hindex hanswer htokens
    have htask := List.mem_of_getElem? hindex
    obtain ⟨user, hgranted, hentitles, hsafe⟩ :=
      granted_of_answer h htask hanswer htokens
    refine ⟨user, backed_of_granted hinit h htask hgranted,
      hentitles.imp fun refreshToken row hchecked => ?_, hsafe⟩
    exact ⟨honours_of_checked h hindex hchecked,
      session_knows h task htask _ hchecked.2⟩
  · intro i j first second answer answer' tokens tokens' hi hj hfirst htokens
      hsecond htokens' hsame
    obtain ⟨user, hgranted, -⟩ :=
      granted_of_answer h (List.mem_of_getElem? hi) hfirst htokens
    obtain ⟨user', hgranted', -⟩ :=
      granted_of_answer h (List.mem_of_getElem? hj) hsecond htokens'
    obtain ⟨secret, jti, record, issuedAt, stored, hsecret, hrefresh, -, hseal,
      -⟩ := hgranted.refresh
    obtain ⟨secret', jti', record', issuedAt', stored', hsecret', hrefresh', -,
      hseal', -⟩ := hgranted'.refresh
    obtain rfl : secret = secret' :=
      Option.some.inj (hsecret.symm.trans hsecret')
    have hpayload := payload_of_sign
      (hrefresh.symm.trans (hsame.trans hrefresh'))
    obtain rfl : record = record' :=
      Option.some.inj (congrArg JwtPayload.rtid hpayload)
    exact (sealed_of_seals hinit h record).one i j first second hi hj
      (congrArg Option.isSome hseal) (congrArg Option.isSome hseal')

end Runs

/-! ## A user who registers, and logs in -/

def registeredSession : List AuthStep :=
  [.start (.register ⟨"N@x", "password", "Name"⟩)] ++ List.replicate 12 (.run 0) ++
    [.start (.login ⟨" n@X ", "password"⟩)] ++ List.replicate 11 (.run 1)

theorem intact_sample : Sample.store.Intact := by
  refine ⟨⟨?_, ?_⟩, ?_, ⟨?_, ?_⟩⟩ <;> decide

def loggedIn (task : AuthTask) : Bool :=
  match task.call, task.prog with
  | .login _, .ret (.session _ _) => true
  | _, _ => false

theorem pair_of_loggedIn {task : AuthTask} (h : loggedIn task = true) :
    ∃ dto answer tokens, task.call = .login dto ∧ task.prog = .ret answer ∧
      answer.pair = some tokens := by
  simp only [loggedIn] at h
  split at h
  · rename_i dto tokens user hcall hprog
    exact ⟨dto, _, tokens, hcall, hprog, rfl⟩
  · cases h

theorem sessions_backed_of_login :
    ∃ pool, (auth Sample.env).run Sample.store.boot registeredSession =
        some pool ∧
      ∃ task ∈ pool.tasks, ∃ dto answer tokens user, task.call = .login dto ∧
        task.prog = .ret answer ∧ answer.pair = some tokens ∧
        Backed Sample.env pool.store user tokens := by
  have hruns : ((auth Sample.env).run Sample.store.boot
      registeredSession).any (fun pool => pool.tasks.any loggedIn) = true := by
    decide +kernel
  obtain ⟨pool, hrun, hlogged⟩ := (Option.any_eq_true _ _).mp hruns
  obtain ⟨task, htask, hlogged⟩ := List.any_eq_true.mp hlogged
  obtain ⟨index, hindex⟩ := List.mem_iff_getElem?.mp htask
  obtain ⟨dto, answer, tokens, hcall, hanswer, htokens⟩ :=
    pair_of_loggedIn hlogged
  obtain ⟨user, hbacked, -⟩ := (sessions_backed intact_sample
    (System.reach_of_run hrun)).1 index task answer tokens hindex hanswer htokens
  exact ⟨pool, hrun, task, htask, dto, answer, tokens, user, hcall, hanswer,
    htokens, hbacked⟩

end SyncBridge.Auth
