import SyncBridge.Auth.Footprint
import SyncBridge.Auth.Sample
import SyncBridge.Foundation.Windows

/-!
# Refresh tokens are used once

A refresh reads the record of its token, finds it not revoked, compares the
hash and then revokes the record.  These are separate operations, and the
revoking update does not look whether somebody else was faster.  Unless two
refreshes of one token overlap, at most one of them gets a new pair; and none
gets one that starts after a logout.
-/

namespace SyncBridge.Auth

open SyncBridge.Foundation SyncBridge.Foundation.Prog

variable {env : AuthEnv} {refreshToken : String} {rtid : Id}

def IssuedFor (env : AuthEnv) (refreshToken : String) (rtid : Id) : Prop :=
  ∃ secret payload issuedAt expiresAt,
    env.refreshSecret = some secret ∧ payload.rtid = some rtid ∧
      refreshToken = env.jwt.sign secret payload issuedAt expiresAt

theorem rtid_of_verify (hissued : IssuedFor env refreshToken rtid)
    {secret : String} {now : ℤ} {payload : JwtPayload}
    (hsecret : env.refreshSecret = some secret)
    (hverify : env.jwt.verify secret refreshToken now = some payload) :
    payload.rtid = some rtid := by
  obtain ⟨known, issued, issuedAt, expiresAt, hknown, hrtid, rfl⟩ := hissued
  obtain rfl : known = secret := Option.some.inj (hknown.symm.trans hsecret)
  rw [env.jwt.verify_sign] at hverify
  split at hverify
  · obtain rfl := Option.some.inj hverify
    exact hrtid
  · cases hverify

/-! ## The check and the revocation -/

def authFacts (env : AuthEnv) : (op : AuthOp) → op.Res → Prop
  | .verifyAsync secret token, payload =>
      ∃ now, env.jwt.verify secret token now = some payload
  | .refreshTokenFindUnique id, found => ∀ row, found = some row → row.id = id
  | _, _ => True

/-- The records that a refresh with the token reads as not revoked, and those
that it revokes. -/
def rotation (env : AuthEnv) (refreshToken : String) :
    CheckThenAct AuthOp.Res AuthCall Id where
  finds call
    | .refreshTokenFindUnique id, some row =>
        if call = .refresh refreshToken ∧ row.revokedAt.isNone = true then
          some id else none
    | _, _ => none
  acts call
    | .refreshTokenUpdate id data =>
        if call = .refresh refreshToken ∧ data.revokedAt.isSome = true then
          some id else none
    | _ => none
  facts := authFacts env

theorem authFacts_of_exec {op : AuthOp} {store store' : AuthStore}
    {value : op.Res} (h : exec env op store = .ok (value, store')) :
    authFacts env op value := by
  cases op with
  | verifyAsync secret token =>
      simp only [exec] at h
      split at h
      · rename_i payload hverify
        obtain rfl := congrArg Prod.fst (Except.ok.inj h)
        exact ⟨_, hverify⟩
      · cases h
  | refreshTokenFindUnique id =>
      obtain rfl := congrArg Prod.fst (Except.ok.inj h)
      exact fun row hrow => Table.find_key hrow
  | _ => trivial

def Revoked (store : AuthStore) (id : Id) : Prop :=
  ∃ row, Table.find RefreshToken.id id store.refreshTokens = some row ∧
    row.revokedAt.isSome = true

theorem find_of_update {store store' : AuthStore} {data : RefreshTokenData}
    {row : RefreshToken} {written : Id}
    (h : exec env (.refreshTokenUpdate written data) store =
      .ok (row, store')) :
    (Table.find RefreshToken.id written store.refreshTokens).isSome = true ∧
      ∀ id, Table.find RefreshToken.id id store'.refreshTokens =
        (Table.find RefreshToken.id id store.refreshTokens).map fun row =>
          if row.id = written then data.apply row else row := by
  have hkey : ∀ row, (data.apply row).id = row.id := fun _ => rfl
  simp only [exec] at h
  split at h
  · cases h
  · rename_i old hfind
    cases h
    exact ⟨by rw [hfind]; rfl, fun id => Table.find_modify hkey⟩

theorem revoked_of_update {store store' : AuthStore} {data : RefreshTokenData}
    {row : RefreshToken} {id : Id}
    (h : exec env (.refreshTokenUpdate id data) store = .ok (row, store'))
    (hrevokes : data.revokedAt.isSome = true) : Revoked store' id := by
  obtain ⟨hsome, hfind⟩ := find_of_update h
  obtain ⟨old, hold⟩ := Option.isSome_iff_exists.mp hsome
  have hnew := hfind id
  rw [hold, Option.map_some, if_pos (Table.find_key hold)] at hnew
  exact ⟨_, hnew, by simp [RefreshTokenData.apply, hrevokes]⟩

theorem revoked_of_exec {op : AuthOp} {store store' : AuthStore}
    {value : op.Res} {id : Id} (h : exec env op store = .ok (value, store'))
    (hrevoked : Revoked store id) : Revoked store' id := by
  obtain ⟨row, hfind, hrow⟩ := hrevoked
  cases op with
  | refreshTokenCreate data =>
      cases h
      exact ⟨row, Table.find_append hfind, hrow⟩
  | refreshTokenUpdate written data =>
      have hnew := (find_of_update h).2 id
      rw [hfind, Option.map_some] at hnew
      refine ⟨_, hnew, ?_⟩
      split
      · simp [RefreshTokenData.apply, hrow]
      · exact hrow
  | userCreate data =>
      simp only [exec] at h
      split at h
      · cases h
      · cases h
        exact ⟨row, hfind, hrow⟩
  | verifyAsync secret token =>
      simp only [exec] at h
      split at h
      · cases h
        exact ⟨row, hfind, hrow⟩
      · cases h
  | _ =>
      cases h
      exact ⟨row, hfind, hrow⟩

theorem rotation_singleUse :
    (rotation env refreshToken).SingleUse (auth env) Revoked where
  apart := by
    intro call op value key hacts
    cases op with
    | refreshTokenUpdate id data => rfl
    | _ => cases hacts
  acts := by
    intro call op store value store' key hexec hacts
    cases op with
    | refreshTokenUpdate id data =>
        simp only [rotation] at hacts
        split at hacts
        · rename_i hrevokes
          obtain rfl := Option.some.inj hacts
          exact @revoked_of_update env _ _ _ _ _ hexec hrevokes.2
        · cases hacts
    | _ => cases hacts
  keeps _ _ _ _ _ hexec hrevoked := revoked_of_exec hexec hrevoked
  event := by
    intro elapsed store count store' calls key henv hrevoked
    cases henv
    exact hrevoked
  finds := by
    intro call op store value store' key hexec hfinds
    cases op with
    | refreshTokenFindUnique id =>
        cases value with
        | none => cases hfinds
        | some row =>
            simp only [rotation] at hfinds
            split at hfinds
            · rename_i hfree
              obtain rfl := Option.some.inj hfinds
              rintro ⟨found, hfind, hrevoked⟩
              have hread : Table.find RefreshToken.id id store.refreshTokens =
                  some row := congrArg Prod.fst (Except.ok.inj hexec)
              obtain rfl := Option.some.inj (hread.symm.trans hfind)
              rw [Option.isSome_eq_false_iff.mpr hfree.2] at hrevoked
              cases hrevoked
            · cases hfinds
    | _ => cases hfinds

/-! ## The calls, as a monitor sees them -/

structure Watches {γ : Type} (env : AuthEnv)
    (M : Monitor AuthOp.Res AuthCall γ) : Prop where
  facts : ∀ call g op value, M.facts call g op value → authFacts env op value
  quiet : ∀ call g op, op.isQuiet = true → M.Silent call g op
  read : ∀ call g id, M.guard call g (.refreshTokenFindUnique id)

section Watched

variable {γ : Type} {M : Monitor AuthOp.Res AuthCall γ} {call : AuthCall}
  {g : γ}

theorem Watches.allowsQuiet (h : Watches env M) :
    AllowsQuiet (M.Silent call g) :=
  Auth.allowsQuiet fun op hop => h.quiet call g op hop

theorem Watches.verify (h : Watches env M)
    (hissued : IssuedFor env refreshToken rtid) :
    M.Accepts call
      (fun g' result => g' = g ∧ ∀ payload, result = .ok payload →
        payload.rtid = some rtid)
      (AuthService.verifyRefreshToken env refreshToken) g := by
  have hverify : ∀ secret, env.refreshSecret = some secret →
      M.Accepts call
        (fun g' result => g' = g ∧ ∀ payload, result = .ok payload →
          payload.rtid = some rtid)
        (Prog.tryCatch (await (.verifyAsync secret refreshToken)) fun _ =>
          .throw (.unauthorized "Invalid refresh token")) g := by
    intro secret hsecret
    have hsilent := h.quiet call g (.verifyAsync secret refreshToken) rfl
    refine Monitor.accepts_tryCatch.mpr (Monitor.accepts_await.mpr
      ⟨hsilent.1, fun payload hfacts => ?_, fun _ _ =>
        ⟨rfl, fun _ hvalue => by cases hvalue⟩⟩)
    obtain ⟨now, hnow⟩ := h.facts _ _ _ _ hfacts
    refine ⟨hsilent.2 payload, ?_⟩
    rintro _ ⟨⟩
    exact rtid_of_verify hissued hsecret hnow
  cases hsecret : env.refreshSecret with
  | none =>
      have hbody : AuthService.verifyRefreshToken env refreshToken =
          .throw (.unauthorized "Refresh secret is not configured") := by
        simp [AuthService.verifyRefreshToken, AuthService.refreshSecret,
          hsecret]
      rw [hbody]
      exact ⟨rfl, fun _ hvalue => by cases hvalue⟩
  | some secret =>
      have haccepts := hverify secret hsecret
      simp only [AuthService.verifyRefreshToken, AuthService.refreshSecret,
        hsecret]
      split
      · exact ⟨rfl, fun _ hvalue => by cases hvalue⟩
      · exact haccepts

theorem Watches.find (h : Watches env M) {userId : Id} {rawToken : String}
    {payload : JwtPayload} {includeRevoked : Bool}
    (hrtid : payload.rtid = some rtid) :
    M.Accepts call
      (fun g' result => ∀ row, result = .ok (some row) → row.id = rtid ∧
        (includeRevoked || row.revokedAt.isNone) = true ∧
        g' = M.note call g (.refreshTokenFindUnique rtid) (some row))
      (AuthService.findMatchingRefreshToken userId rawToken payload
        includeRevoked) g := by
  simp only [AuthService.findMatchingRefreshToken, hrtid]
  refine Monitor.accepts_await_bind.mpr ⟨h.read call g rtid, ?_,
    fun _ _ _ hvalue => by cases hvalue⟩
  intro found hfacts
  cases found with
  | none => exact fun _ hvalue => by cases hvalue
  | some row =>
      have hid : row.id = rtid := h.facts _ _ _ _ hfacts row rfl
      dsimp only
      split
      · exact fun _ hvalue => by cases hvalue
      · refine Monitor.accepts_silent_bind
          (h.allowsQuiet.op _ rfl) (fun now => ?_)
          fun _ _ hvalue => by cases hvalue
        split
        · exact fun _ hvalue => by cases hvalue
        · split
          · exact fun _ hvalue => by cases hvalue
          · rename_i hgood
            refine Monitor.accepts_silent_bind
              (h.allowsQuiet.op _ rfl) (fun isMatch => ?_)
              fun _ _ hvalue => by cases hvalue
            intro matched hmatched
            cases isMatch with
            | false => cases hmatched
            | true =>
                cases hmatched
                refine ⟨hid, ?_, rfl⟩
                cases includeRevoked <;> simp_all

end Watched

/-! ## A refresh that succeeds has revoked the record -/

theorem rotation_watches : Watches env (rotation env refreshToken).monitor where
  facts _ _ _ _ h := h
  quiet := by
    intro call ledger op hquiet
    cases op with
    | refreshTokenFindUnique id => cases hquiet
    | refreshTokenUpdate id data =>
        refine CheckThenAct.silent (fun _ => rfl) (if_neg ?_)
        rintro ⟨-, hrevokes⟩
        rw [Option.isSome_eq_false_iff.mpr hquiet] at hrevokes
        cases hrevokes
    | _ => exact CheckThenAct.silent (fun _ => rfl) rfl
  read := by
    intro call ledger id key hkey
    cases hkey

/-- The outcome of a call with the token: an answer only after the act. -/
def Rotated (refreshToken : String) (rtid : Id) (call : AuthCall)
    (ledger : Ledger Id) (result : Except AuthFailure AuthAnswer) : Prop :=
  call = .refresh refreshToken → ∀ answer, result = .ok answer →
    rtid ∈ ledger.acted

theorem revokeRefreshToken_accepts {ledger : Ledger Id}
    (hfree : rtid ∈ ledger.free) :
    (rotation env refreshToken).monitor.Accepts (.refresh refreshToken)
      (fun ledger' result => ∀ done, result = .ok done → rtid ∈ ledger'.acted)
      (AuthService.revokeRefreshToken rtid) ledger := by
  have hnow : ∀ now : Time, (rotation env refreshToken).acts
      (.refresh refreshToken)
      (.refreshTokenUpdate rtid { revokedAt := some now }) = some rtid :=
    fun now => if_pos ⟨rfl, rfl⟩
  refine Monitor.accepts_silent_bind (rotation_watches.allowsQuiet.op _ rfl) (fun now => ?_) fun _ => nofun
  refine Monitor.accepts_await_bind.mpr ⟨?_, ?_, fun _ => nofun⟩
  · intro key hkey
    rw [hnow] at hkey
    exact Option.some.inj hkey ▸ hfree
  · intro row _ done _
    simp [CheckThenAct.monitor, hnow]

theorem refresh_accepts (hissued : IssuedFor env refreshToken rtid) :
    (rotation env refreshToken).monitor.Accepts (.refresh refreshToken)
      (fun ledger result => ∀ tokens, result = .ok tokens →
        rtid ∈ ledger.acted)
      (AuthService.refresh env refreshToken) ⟨[], []⟩ := by
  have hwatches : Watches env (rotation env refreshToken).monitor :=
    rotation_watches
  refine Monitor.accepts_bind.mpr ((hwatches.verify hissued).mono ?_)
  rintro ledger (error | payload) ⟨-, hpayload⟩
  · exact nofun
  · refine Monitor.accepts_silent_bind (hwatches.allowsQuiet.op _ rfl) (fun found => ?_) fun _ => nofun
    cases found with
    | none => exact nofun
    | some user =>
        refine Monitor.accepts_bind.mpr
          ((hwatches.find (hpayload payload rfl)).mono ?_)
        rintro checked (error | _ | row) hrow
        · exact nofun
        · exact nofun
        · obtain ⟨rfl, hfresh, rfl⟩ := hrow row rfl
          refine Monitor.accepts_bind.mpr
            ((revokeRefreshToken_accepts ?_).mono ?_)
          · simp only [Bool.false_or] at hfresh
            simp [CheckThenAct.monitor, CheckThenAct.noteFree, rotation,
              Option.isNone_iff_eq_none.mp hfresh]
          · rintro revoked (error | done) hacted
            · exact nofun
            · have quiet : AllowsQuiet ((rotation env refreshToken).monitor.Silent
                  (.refresh refreshToken) revoked) := hwatches.allowsQuiet
              refine (Monitor.accepts_of_silent (quiet.bind
                (issueTokens_rule quiet) fun tokens =>
                  quiet.bind (log_rule quiet) fun _ => quiet.ret _)).mono ?_
              rintro atEnd result rfl tokens -
              exact hacted done rfl

theorem rotation_accepts (hissued : IssuedFor env refreshToken rtid)
    (call : AuthCall) :
    (rotation env refreshToken).monitor.Accepts call
      (Rotated refreshToken rtid call) (call.body env) ⟨[], []⟩ := by
  by_cases hcall : call = .refresh refreshToken
  · subst hcall
    refine Monitor.accepts_bind.mpr ((refresh_accepts hissued).mono ?_)
    rintro ledger (error | tokens) hacted
    · exact fun _ => nofun
    · exact fun _ answer _ => hacted tokens rfl
  · have hsilent : ∀ op, (rotation env refreshToken).monitor.Silent call
        ⟨[], []⟩ op := by
      intro op
      refine CheckThenAct.silent (fun value => ?_) ?_
      · cases op with
        | refreshTokenFindUnique id =>
            cases value with
            | none => rfl
            | some row => exact if_neg fun h => hcall h.1
        | _ => rfl
      · cases op with
        | refreshTokenUpdate id data => exact if_neg fun h => hcall h.1
        | _ => rfl
    refine (Monitor.accepts_of_silent (uses_of_forall hsilent _)).mono ?_
    exact fun _ _ _ h => absurd h hcall

/-! ## A logout that succeeds leaves the record revoked -/

def knownRevoked (env : AuthEnv) : Monitor AuthOp.Res AuthCall (List Id) where
  init _ := []
  note _ known
    | .refreshTokenFindUnique id, some row =>
        if row.revokedAt.isSome then id :: known else known
    | .refreshTokenUpdate id data, _ =>
        if data.revokedAt.isSome then id :: known else known
    | _, _ => known
  guard _ _ _ := True
  facts _ _ := authFacts env

theorem knownRevoked_watches : Watches env (knownRevoked env) where
  facts _ _ _ _ h := h
  quiet := by
    intro call known op hquiet
    refine ⟨trivial, fun value => ?_⟩
    cases op with
    | refreshTokenFindUnique id => cases hquiet
    | refreshTokenUpdate id data =>
        refine if_neg ?_
        rw [Option.isSome_eq_false_iff.mpr hquiet]
        exact Bool.false_ne_true
    | _ => rfl
  read _ _ _ := trivial

theorem logout_accepts (hissued : IssuedFor env refreshToken rtid)
    {userId : Id} {call : AuthCall} :
    (knownRevoked env).Accepts call
      (fun known result => ∀ done, result = .ok done → rtid ∈ known)
      (AuthService.logout env refreshToken userId) [] := by
  have hwatches : Watches env (knownRevoked env) := knownRevoked_watches
  refine Monitor.accepts_bind.mpr ((hwatches.verify hissued).mono ?_)
  rintro known (error | payload) ⟨-, hpayload⟩
  · exact nofun
  · rw [Monitor.seq_ok]
    split
    · exact nofun
    · refine Monitor.accepts_bind.mpr
        ((hwatches.find (hpayload payload rfl)).mono ?_)
      rintro read (error | _ | row) hrow
      · exact nofun
      · exact nofun
      · obtain ⟨rfl, -, rfl⟩ := hrow row rfl
        rw [Monitor.seq_ok]
        dsimp only
        split
        · refine Monitor.accepts_bind.mpr (Monitor.accepts_silent_bind
            (hwatches.allowsQuiet.op _ rfl) (fun now => ?_)
            fun _ => nofun)
          refine Monitor.accepts_await_bind.mpr
            ⟨trivial, fun updated _ => ?_, fun _ => nofun⟩
          refine (Monitor.accepts_of_silent
            (log_rule hwatches.allowsQuiet)).mono ?_
          rintro atEnd result rfl done -
          exact List.mem_cons_self
        · rename_i hrevoked
          intro done _
          have hsome : row.revokedAt.isSome = true := by
            simpa [Option.isSome_iff_ne_none] using hrevoked
          show row.id ∈ ite _ _ _
          rw [if_pos hsome]
          exact List.mem_cons_self

theorem knownRevoked_accepts (hissued : IssuedFor env refreshToken rtid)
    (call : AuthCall) :
    (knownRevoked env).Accepts call
      (fun known result => ∀ userId, call = .logout refreshToken userId →
        ∀ answer, result = .ok answer → rtid ∈ known)
      (call.body env) [] := by
  by_cases hcall : ∃ userId, call = .logout refreshToken userId
  · obtain ⟨userId, rfl⟩ := hcall
    refine Monitor.accepts_bind.mpr ((logout_accepts hissued).mono ?_)
    rintro known (error | done) hknown
    · exact fun _ _ => nofun
    · exact fun _ _ answer _ => hknown done rfl
  · have htrue : ∀ (body : AuthBody AuthAnswer) known,
        (knownRevoked env).Accepts call (fun _ _ => True) body known := by
      intro body
      induction body with
      | ret value => exact fun _ => trivial
      | throw error => exact fun _ => trivial
      | call op next ih =>
          exact fun known =>
            ⟨trivial, fun value _ => ih _ _, fun _ error => ih _ _⟩
    refine (htrue _ _).mono fun known result _ userId heq => ?_
    exact absurd ⟨userId, heq⟩ hcall

/-! ## Runs -/

def RefreshSucceeded (refreshToken : String) (task : AuthTask) : Prop :=
  task.call = .refresh refreshToken ∧
    ∃ tokens, task.prog = .ret (.tokens tokens)

def LoggedOut (refreshToken : String) (pool : AuthPool) : Prop :=
  ∃ task ∈ pool.tasks, ∃ userId, task.call = .logout refreshToken userId ∧
    task.prog = .ret .loggedOut

/-- At most one refresh succeeds, and none that starts after the moment `middle`
if a logout has returned by then. -/
structure UsedOnce (refreshToken : String) (middle pool : AuthPool) : Prop where
  once : AtMostOne (RefreshSucceeded refreshToken) pool.tasks
  ended : LoggedOut refreshToken middle → ∀ (index : Nat) (task : AuthTask),
    middle.tasks.length ≤ index → pool.tasks[index]? = some task →
    ¬ RefreshSucceeded refreshToken task

/-- A refresh reads the record of the token as not revoked while another one has
done so and can still revoke it. -/
def Races (env : AuthEnv) (refreshToken : String) (pool : AuthPool)
    (step : AuthStep) : Prop :=
  (rotation env refreshToken).Overlaps (auth env) pool step

section Runs

variable {init : AuthStore} {ok : AuthPool → AuthStep → Prop}
  {start middle pool : AuthPool}

theorem hasActed_of_succeeded (hissued : IssuedFor env refreshToken rtid)
    (h : (auth env).Reach ok init.boot pool) {task : AuthTask}
    (htask : task ∈ pool.tasks)
    (hsucceeded : RefreshSucceeded refreshToken task) :
    (rotation env refreshToken).HasActed rtid task := by
  have haccepts := Monitor.accepts_of_reach
      (fun _ _ _ _ _ _ => authFacts_of_exec) (fun _ _ _ _ => trivial)
    (rotation_accepts hissued) rfl h task htask
  obtain ⟨hcall, tokens, hprog⟩ := hsucceeded
  rw [hprog] at haccepts
  exact haccepts hcall _ rfl

theorem revoked_of_loggedOut (hissued : IssuedFor env refreshToken rtid)
    (h : (auth env).Reach ok init.boot middle)
    (hout : LoggedOut refreshToken middle) : Revoked middle.store rtid := by
  obtain ⟨task, htask, userId, hcall, hprog⟩ := hout
  have haccepts := Monitor.accepts_of_reach
      (fun _ _ _ _ _ _ => authFacts_of_exec) (fun _ _ _ _ => trivial)
    (knownRevoked_accepts hissued) rfl h task htask
  rw [hprog] at haccepts
  have hknown := haccepts userId hcall _ rfl
  refine Monitor.knows_of_reach (M := knownRevoked env)
    (K := fun known store => ∀ id ∈ known, Revoked store id)
    ?_ ?_ ?_ ?_ rfl h task htask rtid hknown
  · exact fun _ _ => nofun
  · intro call known op store value store' hexec hbefore id hid
    have hkeeps : ∀ id, Revoked store id → Revoked store' id :=
      fun _ => revoked_of_exec hexec
    have hold : id ∈ known → Revoked store' id := fun hmem =>
      hkeeps id (hbefore id hmem)
    cases op with
    | refreshTokenFindUnique read =>
        cases value with
        | none => exact hold hid
        | some row =>
            simp only [knownRevoked] at hid
            split at hid
            · rename_i hrevoked
              rcases List.mem_cons.mp hid with rfl | hmem
              · have hfind : Table.find RefreshToken.id id
                    store.refreshTokens = some row :=
                  congrArg Prod.fst (Except.ok.inj hexec)
                exact hkeeps id ⟨row, hfind, hrevoked⟩
              · exact hold hmem
            · exact hold hid
    | refreshTokenUpdate written data =>
        simp only [knownRevoked] at hid
        split at hid
        · rename_i hrevokes
          rcases List.mem_cons.mp hid with rfl | hmem
          · exact @revoked_of_update env _ _ _ _ _ hexec hrevokes
          · exact hold hmem
        · exact hold hid
    | _ => exact hold hid
  · exact fun _ _ _ _ _ hexec hbefore id hid =>
      revoked_of_exec hexec (hbefore id hid)
  · intro known elapsed store count store' calls henv hbefore id hid
    cases henv
    exact hbefore id hid

theorem refresh_token_used_once (hissued : IssuedFor env refreshToken rtid)
    (hfirst : (auth env).Reach
      (fun pool step => ¬ Races env refreshToken pool step) init.boot middle)
    (hsecond : (auth env).Reach
      (fun pool step => ¬ Races env refreshToken pool step) middle pool) :
    UsedOnce refreshToken middle pool := by
  have hreach := hfirst.trans hsecond
  have haccepts : ∀ pool, (auth env).Reach
      (fun pool step => ¬ Races env refreshToken pool step) init.boot pool →
      ∀ task ∈ pool.tasks, (rotation env refreshToken).monitor.Accepts
        task.call (Rotated refreshToken rtid task.call) task.prog
        ((rotation env refreshToken).monitor.state task) := fun pool h =>
    Monitor.accepts_of_reach
      (fun _ _ _ _ _ _ => authFacts_of_exec) (fun _ _ _ _ => trivial)
      (rotation_accepts hissued) rfl h
  constructor
  · have honce := CheckThenAct.actedOnce rotation_singleUse
      (fun _ _ h => h) haccepts rfl hreach rtid
    intro i j first second hi hj hfirst hsecond
    exact honce.one i j first second hi hj
      (hasActed_of_succeeded hissued hreach (List.mem_of_getElem? hi) hfirst)
      (hasActed_of_succeeded hissued hreach (List.mem_of_getElem? hj) hsecond)
  · intro hout index task hlate htask hsucceeded
    have huntouched := CheckThenAct.not_hasActed_of_spent rotation_singleUse
      (revoked_of_loggedOut hissued hfirst hout)
      (fun pool h => haccepts pool (hfirst.trans h)) hsecond
    exact (huntouched.2 index task hlate htask).2
      (hasActed_of_succeeded hissued hreach (List.mem_of_getElem? htask)
        hsucceeded)

end Runs

def rotatedSession : List AuthStep :=
  [.start (.refresh Sample.refreshToken)] ++ List.replicate 16 (.run 0) ++
    [.start (.logout Sample.refreshToken Sample.user.id)] ++
    List.replicate 4 (.run 1)

def retriedSession : List AuthStep :=
  [.start (.refresh Sample.refreshToken)] ++ List.replicate 4 (.run 2)

theorem issuedFor_sample :
    IssuedFor Sample.env Sample.refreshToken Sample.record.id :=
  ⟨"r", Sample.payload, 0, 2592000, rfl, rfl, rfl⟩

theorem refresh_token_used_once_of_logout :
    ∃ middle pool, (auth Sample.env).runWhere
        (fun pool step => pool.alone step = true) Sample.store.boot
        rotatedSession = some middle ∧
      (auth Sample.env).runWhere (fun pool step => pool.alone step = true)
        middle retriedSession = some pool ∧
      UsedOnce Sample.refreshToken middle pool := by
  have hruns : ((auth Sample.env).runWhere
      (fun pool step => pool.alone step = true) Sample.store.boot
      rotatedSession).any (fun middle => ((auth Sample.env).runWhere
        (fun pool step => pool.alone step = true) middle
        retriedSession).isSome) = true := by
    decide +kernel
  obtain ⟨middle, hfirst, hrest⟩ := (Option.any_eq_true _ _).mp hruns
  obtain ⟨pool, hsecond⟩ := Option.isSome_iff_exists.mp hrest
  refine ⟨middle, pool, hfirst, hsecond, refresh_token_used_once
    issuedFor_sample ((System.reach_of_runWhere hfirst).mono ?_)
    ((System.reach_of_runWhere hsecond).mono ?_)⟩
  · exact fun _ _ => CheckThenAct.not_overlaps_of_alone
  · exact fun _ _ => CheckThenAct.not_overlaps_of_alone

/-! ## Two refreshes at once -/

def racingRefreshes : List AuthStep :=
  [.start (.refresh Sample.refreshToken),
   .start (.refresh Sample.refreshToken)] ++
    List.replicate 5 (.run 0) ++ List.replicate 5 (.run 1) ++
    List.replicate 11 (.run 0) ++ List.replicate 11 (.run 1)

def bothSucceeded (pool : AuthPool) : Bool :=
  match pool.tasks with
  | [⟨first, _, .ret (.tokens _)⟩, ⟨second, _, .ret (.tokens _)⟩] =>
      first = .refresh Sample.refreshToken &&
        second = .refresh Sample.refreshToken
  | _ => false

theorem not_usedOnce_of_bothSucceeded {middle pool : AuthPool}
    (h : bothSucceeded pool = true) :
    ¬ UsedOnce Sample.refreshToken middle pool := by
  simp only [bothSucceeded] at h
  split at h
  · rename_i first _ tokens second _ tokens' htasks
    simp only [Bool.and_eq_true, decide_eq_true_eq] at h
    intro hused
    have heq := hused.once 0 1 _ _ (congrArg (·[0]?) htasks)
      (congrArg (·[1]?) htasks) ⟨h.1, tokens, rfl⟩ ⟨h.2, tokens', rfl⟩
    cases heq
  · cases h

theorem refresh_token_used_once_fails :
    ∃ pool, IssuedFor Sample.env Sample.refreshToken Sample.record.id ∧
      (auth Sample.env).Reach (fun _ _ => True) Sample.store.boot pool ∧
      ¬ UsedOnce Sample.refreshToken Sample.store.boot pool := by
  have hruns : ((auth Sample.env).run Sample.store.boot racingRefreshes).any
      bothSucceeded = true := by decide +kernel
  obtain ⟨pool, hrun, hboth⟩ := (Option.any_eq_true _ _).mp hruns
  exact ⟨pool, issuedFor_sample, System.reach_of_run hrun,
    not_usedOnce_of_bothSucceeded hboth⟩

end SyncBridge.Auth
