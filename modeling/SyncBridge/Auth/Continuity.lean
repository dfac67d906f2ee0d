import SyncBridge.Auth.Accounts
import SyncBridge.Foundation.Moments

/-!
# Credentials go on working

Who has registered can log in, and a refresh token that has been given out is
good for one refresh until it expires, whatever the other calls do meanwhile.
-/

namespace SyncBridge.Auth

open SyncBridge.Foundation SyncBridge.Foundation.Prog

/-- The operations of the call do not fail by themselves. -/
def Spares (index : Nat) (_ : AuthPool) : AuthStep → Prop
  | .fail other _ => other ≠ index
  | _ => True

instance (index : Nat) (pool : AuthPool) (step : AuthStep) :
    Decidable (Spares index pool step) :=
  match step with
  | .start _ => inferInstanceAs (Decidable True)
  | .run _ => inferInstanceAs (Decidable True)
  | .fail other _ => inferInstanceAs (Decidable (other ≠ index))
  | .env _ => inferInstanceAs (Decidable True)

def RevokedBy (id : Id) (task : AuthTask) : Prop :=
  ∃ data row, ⟨.refreshTokenUpdate id data, row⟩ ∈ task.trace ∧
    data.revokedAt.isSome = true

variable {env : AuthEnv}

/-! ## What a call meets -/

section Bodies

variable {ok : AuthPool → AuthStep → Prop} {middle : AuthPool} {index : Nat}
  {call : AuthCall} {trace : List (Σ op : AuthOp, op.Res)} {α β : Type}
  {Q : List (Σ op : AuthOp, op.Res) → Except AuthFailure α → Prop}

abbrev Serves (env : AuthEnv) (ok : AuthPool → AuthStep → Prop)
    (middle : AuthPool) (index : Nat) (call : AuthCall)
    (Q : List (Σ op : AuthOp, op.Res) → Except AuthFailure α → Prop)
    (body : AuthBody α) (trace : List (Σ op : AuthOp, op.Res)) : Prop :=
  ((auth env).moments ok middle index).Accepts call Q body trace

theorem serves_await {op : AuthOp} {rest : op.Res → AuthBody α}
    (hnever : ∀ before error,
      (auth env).Meets ok middle index call trace before →
      exec env op before.store ≠ .error error)
    (hrest : ∀ value before store',
      (auth env).Meets ok middle index call trace before →
      exec env op before.store = .ok (value, store') →
      Serves env ok middle index call Q (rest value) (⟨op, value⟩ :: trace)) :
    Serves env ok middle index call Q ((Prog.await op).bind rest) trace := by
  refine Monitor.accepts_await_bind.mpr ⟨trivial, ?_, ?_⟩
  · rintro value ⟨before, store', hmeets, hexec⟩
    exact hrest value before store' hmeets hexec
  · rintro ⟨before, error, hmeets, hexec⟩
    exact absurd hexec (hnever before error hmeets)

theorem serves_refreshSecret {secret : String} {rest : String → AuthBody α}
    (hsecret : env.refreshSecret = some secret) (hset : secret.isEmpty = false)
    (hrest : Serves env ok middle index call Q (rest secret) trace) :
    Serves env ok middle index call Q
      ((AuthService.refreshSecret env).bind rest) trace := by
  simpa [AuthService.refreshSecret, hsecret, hset] using hrest

theorem serves_log {action : String} {entityId actorId : Id}
    {metadata : SyncBridge.Record} {rest : Unit → AuthBody α}
    (hrest : ∀ trace, Serves env ok middle index call Q (rest ()) trace) :
    Serves env ok middle index call Q
      ((AuthService.log action entityId actorId metadata).bind rest) trace :=
  serves_await (fun _ _ _ h => by cases h) fun _ _ _ _ _ => hrest _

theorem update_ne_error {id : Id} {data : RefreshTokenData} {store : AuthStore}
    {error : AuthFailure}
    (h : (Table.find RefreshToken.id id store.refreshTokens).isSome = true) :
    exec env (.refreshTokenUpdate id data) store ≠ .error error := by
  obtain ⟨row, hfind⟩ := Option.isSome_iff_exists.mp h
  intro hexec
  simp only [exec, hfind] at hexec
  cases hexec

def KeepsRecords (env : AuthEnv) (ok : AuthPool → AuthStep → Prop)
    (middle : AuthPool) : Prop :=
  ∀ before, (auth env).Reach ok middle before → ∀ task ∈ before.tasks,
    ∀ data record, ⟨.refreshTokenCreate data, record⟩ ∈ task.trace →
    (Table.find RefreshToken.id record.id before.store.refreshTokens).isSome =
      true

theorem issueTokens_serves {secret : String} {user : User}
    {rest : TokenPair → AuthBody α} (hsecret : env.refreshSecret = some secret)
    (hset : secret.isEmpty = false) (hrecords : KeepsRecords env ok middle)
    (hrest : ∀ tokens trace,
      Serves env ok middle index call Q (rest tokens) trace) :
    Serves env ok middle index call Q
      ((AuthService.issueTokens env user).bind rest) trace := by
  simp only [AuthService.issueTokens, bind_eq, pure_eq, Prog.bind_assoc, ret_bind]
  refine serves_await (fun _ _ _ h => by cases h) fun jti _ _ _ _ => ?_
  refine serves_await (fun _ _ _ h => by cases h) fun accessToken _ _ _ _ => ?_
  refine serves_refreshSecret hsecret hset ?_
  refine serves_await (fun _ _ _ h => by cases h) fun now _ _ _ _ => ?_
  refine serves_await (fun _ _ _ h => by cases h) fun record _ _ _ _ => ?_
  refine serves_await (fun _ _ _ h => by cases h) fun jti' _ _ _ _ => ?_
  refine serves_await (fun _ _ _ h => by cases h) fun refreshToken _ _ _ _ => ?_
  refine serves_await (fun _ _ _ h => by cases h) fun tokenHash _ _ _ _ => ?_
  refine serves_await (fun before error hmeets => ?_) fun _ _ _ _ _ => hrest _ _
  obtain ⟨prog, htask⟩ := hmeets.task
  refine update_ne_error (hrecords before hmeets.reach _
    (List.mem_of_getElem? htask) _ _ ?_)
  exact List.mem_cons_of_mem _ (List.mem_cons_of_mem _ (List.mem_cons_of_mem _
    List.mem_cons_self))

def Answers (result : Except AuthFailure α) : Prop :=
  ∃ answer, result = .ok answer

theorem login_serves {secret : String} {dto : LoginDto} {user : User}
    (hsecret : env.refreshSecret = some secret) (hset : secret.isEmpty = false)
    (hrecords : KeepsRecords env ok middle)
    (huser : ∀ before, (auth env).Reach ok middle before →
      Table.find User.email (normalizeEmail env dto.email) before.store.users =
        some user)
    (hpassword : env.bcrypt.compare dto.password user.passwordHash = true) :
    Serves env ok middle index call
      (fun _ result => ∃ tokens, result = .ok (tokens, sanitize user))
      (AuthService.login env dto) trace := by
  simp only [AuthService.login, UsersService.findByEmail, bind_eq, pure_eq]
  refine serves_await (fun _ _ _ h => by cases h)
    fun found before store' hmeets hexec => ?_
  have hfound : Table.find User.email (normalizeEmail env (normalizeEmail env dto.email))
      before.store.users = found := congrArg Prod.fst (Except.ok.inj hexec)
  rw [normalizeEmail_normalizeEmail, huser before hmeets.reach] at hfound
  subst hfound
  dsimp only
  refine serves_await (fun _ _ _ h => by cases h)
    fun isValidPassword before' store'' _ hexec' => ?_
  obtain rfl : isValidPassword = true :=
    (congrArg Prod.fst (Except.ok.inj hexec')).symm.trans hpassword
  refine issueTokens_serves hsecret hset hrecords fun tokens _ => ?_
  exact serves_log fun _ => ⟨tokens, rfl⟩

structure Usable (env : AuthEnv) (ok : AuthPool → AuthStep → Prop)
    (middle : AuthPool) (index : Nat) (refreshToken : String) (user : User)
    (record : Id) (expiresAt : Time) (before : AuthPool) : Prop where
  verified : ok before (.run index) → ∀ secret, env.refreshSecret = some secret →
    ∃ payload, env.jwt.verify secret refreshToken (before.store.clock / 1000) =
      some payload ∧ payload.sub = user.id ∧ payload.rtid = some record
  holder : Table.find User.id user.id before.store.users = some user
  stored : ∃ row,
    Table.find RefreshToken.id record before.store.refreshTokens = some row ∧
      row.userId = user.id ∧ row.expiresAt = expiresAt ∧
      env.bcrypt.compare refreshToken row.tokenHash = true ∧
      (ok before (.run index) → row.revokedAt.isSome = true →
        ∃ task, before.tasks[index]? = some task ∧ RevokedBy record task)
  early : ok before (.run index) → before.store.clock < expiresAt

theorem find_serves {refreshToken : String} {user : User} {record : Id}
    {expiresAt : Time} {payload : JwtPayload} {userId : Id}
    {rest : Option RefreshToken → AuthBody α}
    (husable : ∀ before, (auth env).Reach ok middle before →
      Usable env ok middle index refreshToken user record expiresAt before)
    (huser : userId = user.id) (hrtid : payload.rtid = some record)
    (hfresh : ∀ data row, ⟨.refreshTokenUpdate record data, row⟩ ∉ trace)
    (hrest : ∀ row trace, row.id = record →
      Serves env ok middle index call Q (rest (some row)) trace) :
    Serves env ok middle index call Q
      ((AuthService.findMatchingRefreshToken userId refreshToken payload
        false).bind rest) trace := by
  simp only [AuthService.findMatchingRefreshToken, hrtid, AuthService.findById,
    bind_eq, pure_eq, Prog.bind_assoc]
  refine serves_await (fun _ _ _ h => by cases h)
    fun found before store' hmeets hexec => ?_
  obtain ⟨row, hfind, howner, hexpires, hcompare, hrevoked⟩ :=
    (husable before hmeets.reach).stored
  have hfound : Table.find RefreshToken.id record before.store.refreshTokens =
      found := congrArg Prod.fst (Except.ok.inj hexec)
  rw [hfind] at hfound
  subst hfound
  have hunrevoked : row.revokedAt.isSome = false := by
    rw [Bool.eq_false_iff]
    intro hsome
    obtain ⟨task, htask, data, written, hentry, -⟩ := hrevoked hmeets.acts hsome
    obtain ⟨prog, hsame⟩ := hmeets.task
    obtain rfl := Option.some.inj (htask.symm.trans hsame)
    exact hfresh data written hentry
  dsimp only
  rw [if_neg (by rw [howner, huser]; exact fun h => h rfl), Prog.bind_assoc]
  refine serves_await (fun _ _ _ h => by cases h)
    fun now later _ hlater hnow => ?_
  obtain rfl : later.store.clock = now := congrArg Prod.fst (Except.ok.inj hnow)
  have hearly := (husable later hlater.reach).early hlater.acts
  rw [if_neg (by rw [hexpires]; exact not_le.mpr hearly), hunrevoked]
  simp only [Bool.and_false, Bool.false_eq_true, if_false, Prog.bind_assoc]
  refine serves_await (fun _ _ _ h => by cases h)
    fun isMatch _ _ _ hmatch => ?_
  obtain rfl : isMatch = true :=
    (congrArg Prod.fst (Except.ok.inj hmatch)).symm.trans hcompare
  exact hrest row _ (Table.find_key hfind)

theorem refresh_serves {secret refreshToken : String} {user : User} {record : Id}
    {expiresAt : Time} (hsecret : env.refreshSecret = some secret)
    (hset : secret.isEmpty = false) (hrecords : KeepsRecords env ok middle)
    (husable : ∀ before, (auth env).Reach ok middle before →
      Usable env ok middle index refreshToken user record expiresAt before) :
    Serves env ok middle index call (fun _ result => Answers result)
      (AuthService.refresh env refreshToken) [] := by
  simp only [AuthService.refresh, AuthService.verifyRefreshToken, bind_eq,
    tryCatch_eq, throw_eq, Prog.bind_assoc]
  refine serves_refreshSecret hsecret hset ?_
  refine Monitor.accepts_bind.mpr (Monitor.accepts_tryCatch.mpr
    (Monitor.accepts_await.mpr ⟨trivial, ?_, ?_⟩))
  · rintro payload ⟨before, store', hmeets, hexec⟩
    obtain ⟨known, hverify, hsub, hrtid⟩ :=
      (husable before hmeets.reach).verified hmeets.acts secret hsecret
    have hok : exec env (.verifyAsync secret refreshToken) before.store =
        .ok (known, before.store) := by
      simp only [exec, hverify]
    obtain rfl : known = payload :=
      congrArg Prod.fst (Except.ok.inj (hok.symm.trans hexec))
    rw [Monitor.handle_ok, Monitor.seq_ok]
    refine serves_await (fun _ _ _ h => by cases h)
      fun found later _ hlater hfound => ?_
    have hholder : Table.find User.id known.sub later.store.users = found :=
      congrArg Prod.fst (Except.ok.inj hfound)
    rw [hsub, (husable later hlater.reach).holder] at hholder
    subst hholder
    dsimp only
    refine find_serves husable hsub hrtid (fun data row hentry => ?_)
      fun row _ hid => ?_
    · simp [System.moments] at hentry
    simp only [AuthService.revokeRefreshToken, bind_eq, pure_eq, Prog.bind_assoc]
    refine serves_await (fun _ _ _ h => by cases h) fun now _ _ _ _ => ?_
    refine serves_await (fun written error hwritten => ?_) fun updated _ _ _ _ => ?_
    · obtain ⟨stored, hstored, -⟩ := (husable written hwritten.reach).stored
      rw [hid]
      exact update_ne_error (by rw [hstored]; rfl)
    · refine issueTokens_serves hsecret hset hrecords fun tokens _ => ?_
      exact serves_log fun _ => ⟨tokens, rfl⟩
  · rintro ⟨before, error, hmeets, hexec⟩
    obtain ⟨known, hverify, -, -⟩ :=
      (husable before hmeets.reach).verified hmeets.acts secret hsecret
    have hok : exec env (.verifyAsync secret refreshToken) before.store =
        .ok (known, before.store) := by
      simp only [exec, hverify]
    cases hok.symm.trans hexec

end Bodies

theorem clock_of_exec {op : AuthOp} {value : op.Res} {store store' : AuthStore}
    (h : exec env op store = .ok (value, store')) :
    store'.clock = store.clock := by
  cases op with
  | userCreate data =>
      simp only [exec] at h
      split at h
      · cases h
      · cases h
        rfl
  | refreshTokenUpdate id data =>
      simp only [exec] at h
      split at h
      · cases h
      · cases h
        rfl
  | verifyAsync secret token =>
      simp only [exec] at h
      split at h
      · cases h
        rfl
      · cases h
  | _ =>
      cases h
      rfl

section Runs

variable {init : AuthStore} {middle pool : AuthPool}
  {ok : AuthPool → AuthStep → Prop}

theorem shows_after (env : AuthEnv) {call : AuthCall} {trace : List (Σ op : AuthOp, op.Res)}
    {entry : Σ op : AuthOp, op.Res} (hentry : entry ∈ trace) :
    entry.1.shows entry.2 ⊆ ((session env).after call trace).facts := by
  induction trace with
  | nil => cases hentry
  | cons newest trace ih =>
      intro fact hfact
      rcases List.mem_cons.mp hentry with rfl | hold
      · exact .inr hfact
      · exact .inl (ih hold hfact)

theorem found_of_created (h : (auth env).Reach ok init.boot pool)
    {task : AuthTask} (htask : task ∈ pool.tasks) {data : NewRefreshToken}
    {record : RefreshToken}
    (hentry : ⟨.refreshTokenCreate data, record⟩ ∈ task.trace) :
    (Table.find RefreshToken.id record.id pool.store.refreshTokens).isSome =
      true := by
  have hshown : .record record.id record.userId ∈
      ((session env).state task).facts :=
    shows_after env hentry (Set.mem_singleton _)
  obtain ⟨row, hrow, hid, -⟩ := session_knows h task htask _ hshown
  cases hfind : Table.find RefreshToken.id record.id pool.store.refreshTokens with
  | none => exact absurd hid (Table.find_eq_none.mp hfind row hrow)
  | some found => rfl

theorem keepsRecords (h : (auth env).Reach (fun _ _ => True) init.boot middle) :
    KeepsRecords env ok middle := fun _ hreach _ htask _ _ hentry =>
  found_of_created (h.trans (hreach.mono fun _ _ _ => trivial)) htask hentry

theorem holds_of_reach {fact : Credential} (h : (auth env).Reach ok middle pool)
    (hfact : fact.Holds middle.store) : fact.Holds pool.store := by
  refine h.stable (J := fact.Holds) (fun _ _ _ _ hexec => holds_of_exec hexec) ?_
    hfact
  intro elapsed store count store' calls henv hholds
  cases henv
  exact hholds

theorem clock_of_reach (h : (auth env).Reach ok middle pool) :
    middle.store.clock ≤ pool.store.clock := by
  refine h.stable (J := fun store => middle.store.clock ≤ store.clock) ?_ ?_
    le_rfl
  · intro op store value store' hexec hle
    rw [clock_of_exec hexec]
    exact hle
  · intro elapsed store count store' calls henv hle
    cases henv
    exact hle.trans (le_add_of_nonneg_right (Int.natCast_nonneg elapsed))

theorem expiry_of_reach {id : Id} {row : RefreshToken}
    (h : (auth env).Reach ok middle pool)
    (hfind : Table.find RefreshToken.id id middle.store.refreshTokens = some row) :
    ∃ later, Table.find RefreshToken.id id pool.store.refreshTokens =
        some later ∧ later.userId = row.userId ∧
      later.expiresAt = row.expiresAt := by
  refine h.stable (J := fun store => ∃ later,
    Table.find RefreshToken.id id store.refreshTokens = some later ∧
      later.userId = row.userId ∧ later.expiresAt = row.expiresAt) ?_ ?_
    ⟨row, hfind, rfl, rfl⟩
  · rintro op store value store' hexec ⟨later, hlater, huser, hexpires⟩
    rcases refreshTokens_of_exec hexec with hsame | ⟨data, -, hnew⟩ |
      ⟨written, data, -, hnew⟩
    · exact ⟨later, hsame ▸ hlater, huser, hexpires⟩
    · exact ⟨later, hnew ▸ Table.find_append hlater, huser, hexpires⟩
    · have hkey : ∀ row, (data.apply row).id = row.id := fun _ => rfl
      refine ⟨if later.id = written then data.apply later else later, ?_, ?_⟩
      · rw [hnew, Table.find_modify hkey, hlater, Option.map_some]
      · split <;> exact ⟨huser, hexpires⟩
  · rintro elapsed store count store' calls henv hlater
    cases henv
    exact hlater

theorem created_of_seals {call : AuthCall}
    {trace : List (Σ op : AuthOp, op.Res)} {id : Id}
    (h : (((session env).after call trace).seals id).isSome = true) :
    ∃ data row, ⟨.refreshTokenCreate data, row⟩ ∈ trace ∧ row.id = id := by
  induction trace with
  | nil => cases h
  | cons newest trace ih =>
      obtain ⟨op, value⟩ := newest
      have hold : (((session env).after call trace).seals id).isSome = true →
          ∃ data row, ⟨.refreshTokenCreate data, row⟩ ∈
            (⟨op, value⟩ :: trace : List (Σ op : AuthOp, op.Res)) ∧
              row.id = id := by
        intro hbefore
        obtain ⟨data, row, hentry, hid⟩ := ih hbefore
        exact ⟨data, row, List.mem_cons_of_mem _ hentry, hid⟩
      cases op with
      | refreshTokenCreate data =>
          by_cases hid : value.id = id
          · exact ⟨data, value, List.mem_cons_self, hid⟩
          · refine hold (Eq.trans ?_ h)
            exact congrArg Option.isSome (Function.update_of_ne (Ne.symm hid) _ _).symm
      | refreshTokenUpdate written data =>
          by_cases hid : written = id
          · subst hid
            refine hold (Eq.trans ?_ h)
            simp [Monitor.after, session, AuthOp.seals]
          · refine hold (Eq.trans ?_ h)
            exact congrArg Option.isSome (Function.update_of_ne (Ne.symm hid) _ _).symm
      | _ => exact hold h

theorem nextId_of_reach (h : (auth env).Reach ok middle pool) :
    middle.store.nextId ≤ pool.store.nextId := by
  refine h.stable (J := fun store => middle.store.nextId ≤ store.nextId) ?_ ?_
    le_rfl
  · exact fun op store value store' hexec hle =>
      hle.trans (nextId_of_exec hexec).1
  · intro elapsed store count store' calls henv hle
    cases henv
    exact hle

/-- A record that calls have created and that is revoked has been revoked by a
call. -/
theorem revokedBy_of_reach (hinit : init.Intact)
    (h : (auth env).Reach ok init.boot pool) {record : Id} {creator : AuthTask}
    (hcreator : creator ∈ pool.tasks)
    (hseal : (((session env).state creator).seals record).isSome = true)
    {row : RefreshToken}
    (hfind : Table.find RefreshToken.id record pool.store.refreshTokens = some row)
    (hrevoked : row.revokedAt.isSome = true) :
    ∃ task ∈ pool.tasks, RevokedBy record task := by
  obtain ⟨data, created, hentry, hid⟩ := created_of_seals hseal
  obtain ⟨before, store', hbefore, -, hexec⟩ :=
    h.performed rfl creator hcreator _ hentry
  obtain rfl : before.store.nextId = record := by
    rw [← hid]
    exact congrArg (fun answer => RefreshToken.id (Prod.fst answer))
      (Except.ok.inj hexec)
  have hnew : ∀ row ∈ init.refreshTokens, row.id ≠ before.store.nextId :=
    fun row hrow => Nat.ne_of_lt ((hinit.refreshTokens.below row hrow).trans_le
      (nextId_of_reach hbefore))
  have hmade := h.rows_made
    (R := fun store => store.refreshTokens.filter fun row =>
      row.id = before.store.nextId ∧ row.revokedAt.isSome)
    (P := fun _ entry => ∃ data row,
      entry = ⟨.refreshTokenUpdate before.store.nextId data, row⟩ ∧
        data.revokedAt.isSome = true) ?_ ?_ ?_ row ?_
  · obtain ⟨task, htask, entry, hmem, data, row, rfl, hrevokes⟩ := hmade
    exact ⟨task, htask, data, row, hmem, hrevokes⟩
  · intro op store value store' hexec row hrow
    simp only [List.mem_filter, Bool.decide_and, Bool.and_eq_true,
      decide_eq_true_eq] at hrow ⊢
    obtain ⟨hrow, hid, hsome⟩ := hrow
    rcases refreshTokens_of_exec hexec with hsame | ⟨data, -, hnew⟩ |
      ⟨written, data, rfl, hnew⟩
    · exact .inr ⟨row, ⟨hsame ▸ hrow, hid, hsome⟩, fun _ hentry => hentry⟩
    · rw [hnew] at hrow
      rcases List.mem_append.mp hrow with hold | hlast
      · exact .inr ⟨row, ⟨hold, hid, hsome⟩, fun _ hentry => hentry⟩
      · obtain rfl := List.mem_singleton.mp hlast
        cases hsome
    · rw [hnew] at hrow
      rcases Table.mem_modify_cases hrow with hold | ⟨old, hold, hkey, rfl⟩
      · exact .inr ⟨row, ⟨hold, hid, hsome⟩, fun _ hentry => hentry⟩
      · have hwritten : written = before.store.nextId := hkey.symm.trans hid
        subst hwritten
        cases hgiven : data.revokedAt with
        | some given => exact .inl ⟨data, value, rfl, by rw [hgiven]; rfl⟩
        | none =>
            refine .inr ⟨old, ⟨hold, hid, ?_⟩, fun _ hentry => hentry⟩
            simpa [RefreshTokenData.apply, hgiven] using hsome
  · intro elapsed store count store' calls henv
    cases henv
    rfl
  · rw [List.filter_eq_nil_iff]
    intro row hrow
    simp [hnew row hrow]
  · simp only [List.mem_filter, Bool.decide_and, Bool.and_eq_true,
      decide_eq_true_eq]
    exact ⟨Table.find_mem hfind, Table.find_key hfind, hrevoked⟩

/-! ### Login -/

theorem userFound_of_reach (hinit : init.Intact)
    (hfirst : (auth env).Reach (fun _ _ => True) init.boot middle)
    (hlater : (auth env).Reach ok middle pool) {user : User}
    (huser : user ∈ middle.store.users) :
    Table.find User.email user.email pool.store.users = some user ∧
      Table.find User.id user.id pool.store.users = some user := by
  have hintact := intact_of_reach hinit
    (hfirst.trans (hlater.mono fun _ _ _ => trivial))
  have hkept : Credential.Holds pool.store (.user user) :=
    holds_of_reach hlater huser
  exact ⟨Table.find_of_nodup hintact.emails hkept,
    Table.find_of_nodup hintact.users.nodup hkept⟩

variable {secret : String} {index : Nat} {task : AuthTask}

theorem pair_of_user {answer : AuthAnswer} {safe : SafeUser}
    (h : answer.user = some safe) : ∃ tokens, answer.pair = some tokens := by
  cases answer with
  | session tokens user => exact ⟨tokens, rfl⟩
  | tokens tokens => cases h
  | loggedOut => cases h

theorem login_answers (hinit : init.Intact)
    (hsecret : env.refreshSecret = some secret) (hset : secret.isEmpty = false)
    (hfirst : (auth env).Reach (fun _ _ => True) init.boot middle)
    (hlater : (auth env).Reach (Spares index) middle pool)
    (hlate : middle.tasks.length ≤ index)
    (htask : pool.tasks[index]? = some task) (hended : task.prog.finished = true)
    {dto : LoginDto} {user : User} (hcall : task.call = .login dto)
    (huser : user ∈ middle.store.users)
    (hemail : user.email = normalizeEmail env dto.email)
    (hpassword : env.bcrypt.compare dto.password user.passwordHash = true) :
    ∃ tokens, task.prog = .ret (.session tokens (sanitize user)) := by
  have hbody : Serves env (Spares index) middle index (.login dto)
      (fun _ result => ∃ tokens, result = .ok (.session tokens (sanitize user)))
      ((auth env).body (.login dto)) [] := by
    refine Monitor.accepts_bind.mpr ((login_serves hsecret hset
      (keepsRecords hfirst) (fun before hbefore => ?_) hpassword).mono ?_)
    · rw [← hemail]
      exact (userFound_of_reach hinit hfirst hbefore huser).1
    · rintro trace result ⟨tokens, rfl⟩
      exact ⟨tokens, rfl⟩
  rcases hlater.ended_moments (Q := fun result => ∃ tokens,
      result = .ok (.session tokens (sanitize user))) hlate
    (fun _ _ hspared => hspared rfl) hbody htask hcall hended with
    ⟨answer, hprog, tokens, hok⟩ | ⟨error, hprog, tokens, hok⟩
  · obtain rfl := Except.ok.inj hok
    exact ⟨tokens, hprog⟩
  · cases hok

/-! ### Refresh -/

/-- The token has expired, or another call has revoked its record. -/
def Spent (env : AuthEnv) (index : Nat) (refreshToken : String)
    (pool : AuthPool) : Prop :=
  ∃ row ∈ pool.store.refreshTokens, IssuedFor env refreshToken row.id ∧
    (row.expiresAt ≤ pool.store.clock ∨
      (∃ secret, env.refreshSecret = some secret ∧
        env.jwt.verify secret refreshToken (pool.store.clock / 1000) = none) ∨
      ∃ (other : Nat) (task : AuthTask), other ≠ index ∧
        pool.tasks[other]? = some task ∧ RevokedBy row.id task)

structure StillGood (index : Nat) (record : Id) (expiresAt : Time) (exp : ℤ)
    (pool : AuthPool) : Prop where
  early : pool.store.clock < expiresAt
  valid : pool.store.clock / 1000 < exp
  others : ∀ (other : Nat) task, other ≠ index →
    pool.tasks[other]? = some task → ¬ RevokedBy record task

theorem stillGood_before {record : Id} {expiresAt : Time} {exp : ℤ}
    {action : AuthStep} {pool' : AuthPool}
    (hstep : (auth env).step pool action = some pool')
    (h : StillGood index record expiresAt exp pool') :
    StillGood index record expiresAt exp pool := by
  have hreach : (auth env).Reach (fun _ _ => True) pool pool' :=
    .tail action .refl trivial hstep
  have hclock := clock_of_reach hreach
  refine ⟨hclock.trans_lt h.early,
    (Int.ediv_le_ediv (by decide) hclock).trans_lt h.valid, ?_⟩
  rintro other task hne htask ⟨data, row, hentry, hrevokes⟩
  obtain ⟨later, hlater, -, htrace, -⟩ := hreach.keeps_task htask
  exact h.others other later hne hlater
    ⟨data, row, htrace.subset hentry, hrevokes⟩

theorem usable_of_granted (hinit : init.Intact)
    (hfirst : (auth env).Reach (fun _ _ => True) init.boot middle)
    {earlier : AuthTask} (hearlier : earlier ∈ middle.tasks)
    (hfinished : earlier.prog.finished = true) {user : User} {record : Id}
    {stored refreshToken : String} {payload : JwtPayload} {issuedAt exp : ℤ}
    {row : RefreshToken}
    (hshown : .user user ∈ ((session env).state earlier).facts)
    (hrecord : .record record user.id ∈ ((session env).state earlier).facts)
    (hseal : ((session env).state earlier).seals record = some (some stored))
    (hcompare : env.bcrypt.compare refreshToken stored = true)
    (hsign : ∀ secret, env.refreshSecret = some secret →
      refreshToken = env.jwt.sign secret payload issuedAt exp)
    (hsub : payload.sub = user.id) (hrtid : payload.rtid = some record)
    (hrow : Table.find RefreshToken.id record middle.store.refreshTokens =
      some row)
    (hgood : ∀ before, ok before (.run index) →
      StillGood index record row.expiresAt exp before)
    (h : (auth env).Reach ok middle pool) :
    Usable env ok middle index refreshToken user record row.expiresAt pool := by
  have hreach := hfirst.trans (h.mono fun _ _ _ => trivial)
  have hknows := session_knows hfirst earlier hearlier
  obtain ⟨position, hposition⟩ := List.mem_iff_getElem?.mp hearlier
  obtain ⟨later, hlater, -, -, hsame⟩ := h.keeps_task hposition
  obtain rfl := hsame hfinished
  have hcreator := List.mem_of_getElem? hlater
  have hseals : (((session env).state later).seals record).isSome = true := by
    rw [hseal]
    rfl
  refine ⟨fun hok secret hsecret => ⟨payload, ?_, hsub, hrtid⟩,
    (userFound_of_reach hinit hfirst h (hknows _ hshown)).2, ?_,
    fun hok => (hgood pool hok).early⟩
  · rw [hsign secret hsecret, env.jwt.verify_sign, if_pos (hgood pool hok).valid]
  · obtain ⟨found, hfound, -, hexpires⟩ := expiry_of_reach h hrow
    obtain ⟨held, hheld, hstored⟩ :=
      (sealed_of_seals hinit hreach record).held later hcreator hseals
    obtain rfl : held = found := Option.some.inj (hheld.symm.trans hfound)
    obtain ⟨own, hown, hid, howner⟩ :=
      session_knows hreach later hcreator _ hrecord
    obtain rfl : own = held := (intact_of_reach hinit hreach).refreshTokens.eq_of_key
      hown (Table.find_mem hheld) (hid.trans (Table.find_key hheld).symm)
    refine ⟨own, hheld, howner, hexpires, ?_, fun hok hrevoked => ?_⟩
    · rw [hstored stored hseal]
      exact hcompare
    · obtain ⟨task, htask, hby⟩ :=
        revokedBy_of_reach hinit hreach hcreator hseals hheld hrevoked
      obtain ⟨other, hother⟩ := List.mem_iff_getElem?.mp htask
      by_cases heq : other = index
      · subst heq
        exact ⟨task, hother, hby⟩
      · exact absurd hby ((hgood pool hok).others other task heq hother)

theorem stillGood_of_not_spent {refreshToken : String} {payload : JwtPayload}
    {record : Id} {issuedAt exp : ℤ} {row : RefreshToken}
    (hsecret : env.refreshSecret = some secret)
    (hrtid : payload.rtid = some record)
    (hsign : refreshToken = env.jwt.sign secret payload issuedAt exp)
    (hrow : Table.find RefreshToken.id record pool.store.refreshTokens = some row)
    (h : ¬ Spent env index refreshToken pool) :
    StillGood index record row.expiresAt exp pool := by
  have hid : row.id = record := Table.find_key hrow
  have hnever : ∀ {cause : Prop}, (cause → row.expiresAt ≤ pool.store.clock ∨
      (∃ secret, env.refreshSecret = some secret ∧
        env.jwt.verify secret refreshToken (pool.store.clock / 1000) = none) ∨
      ∃ (other : Nat) (task : AuthTask), other ≠ index ∧
        pool.tasks[other]? = some task ∧ RevokedBy row.id task) → ¬ cause :=
    fun himp hcause => h ⟨row, Table.find_mem hrow,
      ⟨secret, payload, issuedAt, exp, hsecret, hid ▸ hrtid, hsign⟩, himp hcause⟩
  refine ⟨?_, ?_, fun other task hne htask => hnever fun hby => ?_⟩
  · exact not_le.mp (hnever fun hlate => .inl hlate)
  · refine not_le.mp (hnever fun hlate => .inr (.inl ⟨secret, hsecret, ?_⟩))
    rw [hsign, env.jwt.verify_sign, if_neg (not_lt.mpr hlate)]
  · exact .inr (.inr ⟨other, task, hne, htask, hid ▸ hby⟩)

theorem refresh_answers (hinit : init.Intact)
    (hfirst : (auth env).Reach (fun _ _ => True) init.boot middle)
    (hlater : (auth env).Reach (Spares index) middle pool)
    (hlate : middle.tasks.length ≤ index)
    (htask : pool.tasks[index]? = some task) (hended : task.prog.finished = true)
    {earlier : AuthTask} (hearlier : earlier ∈ middle.tasks)
    {answer : AuthAnswer} {tokens : TokenPair}
    (hanswer : earlier.prog = .ret answer) (htokens : answer.pair = some tokens)
    (hcall : task.call = .refresh tokens.refreshToken) :
    (∃ tokens', task.prog = .ret (.tokens tokens')) ∨
      Spent env index tokens.refreshToken pool := by
  by_cases hspent : Spent env index tokens.refreshToken pool
  · exact .inr hspent
  · left
    obtain ⟨user, hgranted, -⟩ :=
      granted_of_answer hfirst hearlier hanswer htokens
    obtain ⟨secret, hsecret, hset⟩ := hgranted.configured
    obtain ⟨known, jti, record, issuedAt, stored, hknown, hsign, hrecord, hseal,
      hcompare⟩ := hgranted.refresh
    obtain rfl : known = secret := Option.some.inj (hknown.symm.trans hsecret)
    obtain ⟨row, hrow, -⟩ := (sealed_of_seals hinit hfirst record).held earlier
      hearlier (by rw [hseal]; rfl)
    obtain ⟨last, hlast, -, hexpires⟩ := expiry_of_reach hlater hrow
    have hgood := stillGood_of_not_spent hsecret rfl hsign hlast hspent
    rw [hexpires] at hgood
    have hreach := hlater.restrict (fun _ _ _ => stillGood_before) hgood
    have hsigned : ∀ other, env.refreshSecret = some other →
        tokens.refreshToken = env.jwt.sign other
          ⟨user.id, user.email, user.role, some jti, some record⟩ issuedAt
          (issuedAt + AuthService.refreshTokenExpiresIn) := by
      intro other hother
      obtain rfl : other = known := Option.some.inj (hother.symm.trans hsecret)
      exact hsign
    have hbody : Serves env (fun before step => Spares index before step ∧
          StillGood index record row.expiresAt
            (issuedAt + AuthService.refreshTokenExpiresIn) before) middle index
        (.refresh tokens.refreshToken)
        (fun _ result => ∃ tokens', result = .ok (.tokens tokens'))
        ((auth env).body (.refresh tokens.refreshToken)) [] := by
      refine Monitor.accepts_bind.mpr ((refresh_serves hsecret hset
        (keepsRecords hfirst) fun before hbefore => usable_of_granted hinit hfirst
          hearlier (by rw [hanswer]; rfl) hgranted.shown hrecord hseal hcompare
          hsigned rfl rfl hrow (fun _ hok => hok.2) hbefore).mono ?_)
      rintro trace result ⟨tokens', rfl⟩
      exact ⟨tokens', rfl⟩
    rcases hreach.ended_moments (Q := fun result => ∃ tokens',
        result = .ok (.tokens tokens')) hlate
      (fun _ _ hspared => hspared.1 rfl) hbody htask hcall hended with
      ⟨answer', hprog, tokens', hok⟩ | ⟨error, hprog, tokens', hok⟩
    · obtain rfl := Except.ok.inj hok
      exact ⟨tokens', hprog⟩
    · cases hok

/-- A call that starts later, that has ended and none of whose operations has
failed by itself: a login with what has been registered is answered with a
session of the user, and a refresh with a token that has been given out is
answered with new tokens unless the token is spent. -/
theorem credentials_work (hinit : init.Intact)
    (hfirst : (auth env).Reach (fun _ _ => True) init.boot middle)
    (hlater : (auth env).Reach (Spares index) middle pool)
    (hlate : middle.tasks.length ≤ index)
    (htask : pool.tasks[index]? = some task)
    (hended : task.prog.finished = true) :
    (∀ registration ∈ middle.tasks, ∀ dto dto' answer,
      registration.call = .register dto → registration.prog = .ret answer →
      task.call = .login dto' →
      normalizeEmail env dto'.email = normalizeEmail env dto.email →
      dto'.password = dto.password →
      ∃ tokens safe, answer.user = some safe ∧
        task.prog = .ret (.session tokens safe)) ∧
    ∀ earlier ∈ middle.tasks, ∀ answer tokens, earlier.prog = .ret answer →
      answer.pair = some tokens → task.call = .refresh tokens.refreshToken →
      (∃ tokens', task.prog = .ret (.tokens tokens')) ∨
        Spent env index tokens.refreshToken pool := by
  constructor
  · intro registration hregistration dto dto' answer hregister hanswer hcall
      hemail hpassword
    rcases stores_once hfirst hregistration with ⟨-, hnone⟩ |
      ⟨other, user, hother, hstored, hregistered, huser⟩
    · exact absurd hanswer (hnone dto answer hregister)
    · obtain rfl : other = dto :=
        AuthCall.register.inj (hother.symm.trans hregister)
      have hmem : user ∈ middle.store.users := by
        refine (users_accounted hfirst).mem_iff.mpr (List.mem_append_right _ ?_)
        exact List.mem_flatMap.mpr ⟨registration, hregistration, by simp [hstored]⟩
      obtain ⟨pair, hpair⟩ := pair_of_user (huser answer hanswer)
      obtain ⟨-, ⟨⟨secret, hsecret, hset⟩, -⟩, -⟩ :=
        granted_of_answer hfirst hregistration hanswer hpair
      obtain ⟨tokens, hprog⟩ := login_answers hinit hsecret hset hfirst hlater
        hlate htask hended hcall hmem (hregistered.email.trans hemail.symm)
        (by rw [hpassword]; exact hregistered.password)
      exact ⟨tokens, sanitize user, huser answer hanswer, hprog⟩
  · exact fun earlier hearlier answer tokens hanswer htokens hcall =>
      refresh_answers hinit hfirst hlater hlate htask hended hearlier
        hanswer htokens hcall

end Runs

/-! ## A registration, and a login after it -/

def registered : List AuthStep :=
  [.start (.register ⟨"N@x", "password", "Name"⟩)] ++ List.replicate 12 (.run 0)

def loginAfter : List AuthStep :=
  [.start (.login ⟨" n@X ", "password"⟩)] ++ List.replicate 11 (.run 1)

def hasRegistered (pool : AuthPool) : Bool :=
  match pool.tasks with
  | [⟨.register dto, _, .ret _⟩] => dto = ⟨"N@x", "password", "Name"⟩
  | _ => false

def hasLoggedIn (pool : AuthPool) : Bool :=
  match pool.tasks with
  | [_, ⟨.login dto, _, prog⟩] =>
      dto = ⟨" n@X ", "password"⟩ && prog.finished
  | _ => false

theorem call_of_hasRegistered {pool : AuthPool} (h : hasRegistered pool = true) :
    pool.tasks.length = 1 ∧ ∃ task ∈ pool.tasks, ∃ answer,
      task.call = .register ⟨"N@x", "password", "Name"⟩ ∧
        task.prog = .ret answer := by
  simp only [hasRegistered] at h
  split at h
  · rename_i dto trace answer htasks
    rw [htasks]
    refine ⟨rfl, _, List.mem_singleton_self _, answer, ?_, rfl⟩
    rw [of_decide_eq_true h]
  · cases h

theorem call_of_hasLoggedIn {pool : AuthPool} (h : hasLoggedIn pool = true) :
    ∃ task, pool.tasks[1]? = some task ∧
      task.call = .login ⟨" n@X ", "password"⟩ ∧ task.prog.finished = true := by
  simp only [hasLoggedIn] at h
  split at h
  · rename_i first dto trace prog htasks
    obtain ⟨hdto, hended⟩ := (Bool.and_eq_true _ _).mp h
    refine ⟨_, congrArg (·[1]?) htasks, ?_, hended⟩
    rw [of_decide_eq_true hdto]
  · cases h

theorem credentials_work_of_login :
    ∃ middle pool, (auth Sample.env).run Sample.store.boot registered =
        some middle ∧
      (auth Sample.env).runWhere (Spares 1) middle loginAfter = some pool ∧
      ∃ task tokens safe, pool.tasks[1]? = some task ∧
        task.prog = .ret (.session tokens safe) := by
  have hruns : ((auth Sample.env).run Sample.store.boot registered).any
      (fun middle => hasRegistered middle && ((auth Sample.env).runWhere
        (Spares 1) middle loginAfter).any hasLoggedIn) = true := by
    decide +kernel
  obtain ⟨middle, hfirst, hrest⟩ := (Option.any_eq_true _ _).mp hruns
  obtain ⟨hregistered, hlogin⟩ := (Bool.and_eq_true _ _).mp hrest
  obtain ⟨pool, hlater, hlogin⟩ := (Option.any_eq_true _ _).mp hlogin
  obtain ⟨hlength, registration, hmem, answer, hregister, hanswer⟩ :=
    call_of_hasRegistered hregistered
  obtain ⟨task, htask, hcall, hended⟩ := call_of_hasLoggedIn hlogin
  obtain ⟨tokens, safe, -, hprog⟩ := (credentials_work intact_sample
    (System.reach_of_run hfirst) (System.reach_of_runWhere hlater)
    (Nat.le_of_eq hlength) htask hended).1 registration hmem _ _ answer hregister
    hanswer hcall (by decide) rfl
  exact ⟨middle, pool, hfirst, hlater, task, tokens, safe, htask, hprog⟩

end SyncBridge.Auth
