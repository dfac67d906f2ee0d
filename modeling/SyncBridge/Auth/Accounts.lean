import SyncBridge.Auth.Sessions
import SyncBridge.Foundation.Holdings

/-!
# Accounts

The users are those of the start and those that registrations have stored, each
of them once and with an email of its own, whoever else registers meanwhile.
-/

namespace SyncBridge.Auth

open SyncBridge.Foundation SyncBridge.Foundation.Prog

def AuthOp.accounts : (Σ op : AuthOp, op.Res) → List User
  | ⟨.userCreate _, row⟩ => [row]
  | _ => []

def accountsOf (task : AuthTask) : List User := task.rowsMade AuthOp.accounts

structure RegisteredAs (env : AuthEnv) (dto : RegisterDto) (user : User) :
    Prop where
  email : user.email = normalizeEmail env dto.email
  fullName : user.fullName = trim dto.fullName
  role : user.role = .user
  password : env.bcrypt.compare dto.password user.passwordHash = true

/-- Only a registration stores a user, and only once. -/
def accounts (env : AuthEnv) : Monitor AuthOp.Res AuthCall (List User) where
  init _ := []
  note _ stored op value := stored ++ AuthOp.accounts ⟨op, value⟩
  guard call stored op := ∀ data, op = .userCreate data → stored = [] ∧
    ∃ dto, call = .register dto ∧ data.email = normalizeEmail env dto.email ∧
      data.fullName = trim dto.fullName ∧ data.role = .user ∧
        env.bcrypt.compare dto.password data.passwordHash = true
  facts _ _ op value := op.answers env value

variable {env : AuthEnv}

theorem accounts_of_exec {op : AuthOp} {value : op.Res}
    {store store' : AuthStore} (h : exec env op store = .ok (value, store')) :
    store'.users = store.users ++ AuthOp.accounts ⟨op, value⟩ := by
  cases op with
  | userCreate data =>
      simp only [exec] at h
      split at h
      · cases h
      · cases h
        rfl
  | _ =>
      rcases users_of_exec h with hsame | ⟨data, hop, -⟩
      · exact hsame.trans (List.append_nil _).symm
      · cases hop

theorem state_accounts (env : AuthEnv) (task : AuthTask) :
    (accounts env).state task = accountsOf task := by
  have hfold : ∀ trace : List (Σ op : AuthOp, op.Res),
      trace.foldr (fun entry stored => stored ++ AuthOp.accounts entry) [] =
        trace.reverse.flatMap AuthOp.accounts := by
    intro trace
    induction trace with
    | nil => rfl
    | cons entry trace ih => simp [ih]
  exact hfold task.trace

/-! ## The calls -/

section Bodies

variable {call : AuthCall} {stored : List User}

theorem silent_of_ne {op : AuthOp} (h : ∀ data, op ≠ .userCreate data) :
    (accounts env).Silent call stored op := by
  cases op with
  | userCreate data => exact absurd rfl (h data)
  | _ => exact ⟨fun _ heq => (by cases heq), fun _ => List.append_nil _⟩

theorem accounts_allowsQuiet :
    AllowsQuiet ((accounts env).Silent call stored) := by
  refine allowsQuiet fun op hop => silent_of_ne ?_
  rintro data rfl
  cases hop

def Stores (stored : List User) (answer : AuthAnswer) : Prop :=
  ∃ user, stored = [user] ∧ answer.user = some (sanitize user)

theorem register_stores {dto : RegisterDto} :
    (accounts env).Accepts (.register dto)
      (fun stored result => ∀ answer, result = .ok answer →
        Stores stored (.session answer.1 answer.2))
      (AuthService.register env dto) [] := by
  have quiet : ∀ {stored : List User},
      AllowsQuiet ((accounts env).Silent (.register dto) stored) :=
    accounts_allowsQuiet
  have hsilent : ∀ {stored : List User} {text : String},
      (accounts env).Silent (.register dto) stored (.hash text) :=
    silent_of_ne fun _ heq => by cases heq
  have hthrow : ∀ {stored : List User} {error : AuthFailure}
      (answer : TokenPair × SafeUser),
      (Except.error error : Except AuthFailure _) = .ok answer →
        Stores stored (.session answer.1 answer.2) := fun _ heq => by cases heq
  simp only [AuthService.register, UsersService.findByEmail, bind_eq]
  refine Monitor.accepts_silent_bind (quiet.op _ rfl) (fun existing => ?_)
    fun _ => hthrow
  split
  · exact hthrow
  · refine Monitor.accepts_await_bind.mpr ⟨hsilent.1,
      fun passwordHash hpassword => ?_, fun _ _ => hthrow⟩
    rw [hsilent.2 passwordHash]
    refine Monitor.accepts_await_bind.mpr ⟨?_, fun user _ => ?_,
      fun _ _ => hthrow⟩
    · intro data heq
      obtain rfl := AuthOp.userCreate.inj heq
      exact ⟨rfl, dto, rfl, rfl, rfl, rfl, hpassword⟩
    · refine Monitor.accepts_silent_bind (issueTokens_rule quiet)
        (fun tokens => ?_) fun _ => hthrow
      refine Monitor.accepts_silent_bind (log_rule quiet) (fun _ => ?_)
        fun _ => hthrow
      rintro _ ⟨⟩
      exact ⟨user, rfl, rfl⟩

theorem body_stores (call : AuthCall) :
    (accounts env).Accepts call
      (fun stored result => ∀ dto, call = .register dto → ∀ answer,
        result = .ok answer → Stores stored answer)
      (call.body env) [] := by
  have hsilent : ∀ {body : AuthBody AuthAnswer},
      body.Uses ((accounts env).Silent call []) →
      (∀ dto, call ≠ .register dto) →
      (accounts env).Accepts call
        (fun stored result => ∀ dto, call = .register dto → ∀ answer,
          result = .ok answer → Stores stored answer) body [] :=
    fun huses hcall => (Monitor.accepts_of_silent huses).mono
      fun _ _ _ dto heq => absurd heq (hcall dto)
  have quiet : AllowsQuiet ((accounts env).Silent call []) :=
    accounts_allowsQuiet
  have hread : ∀ id, (await (.refreshTokenFindUnique id)).Uses
      ((accounts env).Silent call []) := fun id =>
    (uses_await _).mpr (silent_of_ne fun _ heq => by cases heq)
  have hrevoke : ∀ id time,
      (await (.refreshTokenUpdate id { revokedAt := some time })).Uses
        ((accounts env).Silent call []) := fun id time =>
    (uses_await _).mpr (silent_of_ne fun _ heq => by cases heq)
  cases call with
  | register dto =>
      refine Monitor.accepts_bind.mpr (register_stores.mono ?_)
      rintro stored (error | answer) hstores
      · intro _ _ _ heq
        cases heq
      · rintro _ _ _ ⟨⟩
        exact hstores answer rfl
  | login dto =>
      exact hsilent (quiet.bind (login_rule quiet) fun _ => quiet.ret _)
        fun _ heq => by cases heq
  | refresh refreshToken =>
      exact hsilent (quiet.bind (refresh_rule quiet hread hrevoke) fun _ =>
          quiet.ret _)
        fun _ heq => by cases heq
  | logout refreshToken userId =>
      exact hsilent (quiet.bind (logout_rule quiet hread hrevoke) fun _ =>
          quiet.ret _)
        fun _ heq => by cases heq

end Bodies

/-! ## Runs -/

section Runs

variable {init : AuthStore} {pool : AuthPool} {ok : AuthPool → AuthStep → Prop}

theorem users_accounted (h : (auth env).Reach ok init.boot pool) :
    pool.store.users.Perm (init.users ++ pool.tasks.flatMap accountsOf) := by
  refine h.rows_accounted (R := AuthStore.users)
    (fun op store value store' hexec => accounts_of_exec hexec)
    (fun elapsed store count store' calls hevent => ?_) rfl
  cases hevent
  rfl

theorem accounts_accepts (h : (auth env).Reach ok init.boot pool) :
    ∀ task ∈ pool.tasks, (accounts env).Accepts task.call
      (fun stored result => ∀ dto, task.call = .register dto → ∀ answer,
        result = .ok answer → Stores stored answer) task.prog
      ((accounts env).state task) := by
  have hbody : ∀ call, (accounts env).Accepts call
      (fun stored result => ∀ dto, call = .register dto → ∀ answer,
        result = .ok answer → Stores stored answer) ((auth env).body call)
      ((accounts env).init call) := body_stores
  exact Monitor.accepts_of_reach (Q := fun call stored result =>
    ∀ dto, call = .register dto → ∀ answer, result = .ok answer →
      Stores stored answer)
    (fun _ _ _ _ _ _ hexec => answers_of_exec hexec) (fun _ _ _ _ => trivial)
    hbody rfl h

def StoresOwn (env : AuthEnv) (call : AuthCall) (stored : List User) : Prop :=
  stored = [] ∨ ∃ dto user, call = .register dto ∧ stored = [user] ∧
    RegisteredAs env dto user

theorem accounts_own (h : (auth env).Reach ok init.boot pool) {task : AuthTask}
    (htask : task ∈ pool.tasks) :
    StoresOwn env task.call (accountsOf task) := by
  have haccepts : ∀ pool, (auth env).Reach ok init.boot pool →
      ∀ task ∈ pool.tasks, (accounts env).Accepts task.call
        (fun stored result => ∀ dto, task.call = .register dto → ∀ answer,
          result = .ok answer → Stores stored answer) task.prog
        ((accounts env).state task) := fun _ hreach => accounts_accepts hreach
  have hguarded := Monitor.guarded_of_accepts (Q := fun call stored result =>
    ∀ dto, call = .register dto → ∀ answer, result = .ok answer →
      Stores stored answer) haccepts rfl h task htask
  rw [← state_accounts env, Monitor.state_eq_after]
  refine hguarded.after (I := StoresOwn env task.call)
    (P := fun entry => entry.1.answers env entry.2) (.inl rfl) ?_ ?_
  · intro stored op user hown hguard hanswers
    cases op with
    | userCreate data =>
        obtain ⟨rfl, dto, hcall, hemail, hname, hrole, hpassword⟩ :=
          hguard data rfl
        obtain ⟨hsame, hname', hhash, hrole'⟩ := hanswers
        refine .inr ⟨dto, user, hcall, rfl, hsame.trans hemail,
          hname'.trans hname, hrole'.trans hrole, ?_⟩
        rw [hhash]
        exact hpassword
    | _ => simpa [accounts, AuthOp.accounts] using hown
  · intro entry hentry
    obtain ⟨before, store', -, -, hexec⟩ := h.performed rfl task htask entry hentry
    exact answers_of_exec hexec

/-- A call has stored no user and has not answered a registration, or it is the
registration of the one user that it has stored and that it answers with. -/
def StoresOnce (env : AuthEnv) (task : AuthTask) : Prop :=
  (accountsOf task = [] ∧
    ∀ dto answer, task.call = .register dto → task.prog ≠ .ret answer) ∨
  ∃ dto user, task.call = .register dto ∧ accountsOf task = [user] ∧
    RegisteredAs env dto user ∧
    ∀ answer, task.prog = .ret answer → answer.user = some (sanitize user)

theorem stores_once (h : (auth env).Reach ok init.boot pool) {task : AuthTask}
    (htask : task ∈ pool.tasks) : StoresOnce env task := by
  have hanswer : ∀ dto answer, task.call = .register dto →
      task.prog = .ret answer → Stores (accountsOf task) answer := by
    intro dto answer hcall hprog
    have haccepts := accounts_accepts h task htask
    rw [hprog, state_accounts] at haccepts
    exact haccepts dto hcall answer rfl
  rcases accounts_own h htask with hnone | ⟨dto, user, hcall, hstored, hregistered⟩
  · refine .inl ⟨hnone, fun dto answer hcall hprog => ?_⟩
    obtain ⟨user, hstored, -⟩ := hanswer dto answer hcall hprog
    rw [hnone] at hstored
    cases hstored
  · refine .inr ⟨dto, user, hcall, hstored, hregistered, fun answer hprog => ?_⟩
    obtain ⟨other, hother, huser⟩ := hanswer dto answer hcall hprog
    rw [hstored] at hother
    obtain rfl := List.head_eq_of_cons_eq hother
    exact huser

def Registers (email : String) (task : AuthTask) : Prop :=
  ∃ user ∈ accountsOf task, user.email = email

/-- The users are those of the start and those that registrations have stored,
and of all registrations with one email at most one has stored a user, to whom
it answers. -/
theorem accounts_registered (hinit : init.Intact)
    (h : (auth env).Reach ok init.boot pool) :
    pool.store.users.Perm (init.users ++ pool.tasks.flatMap accountsOf) ∧
      (pool.store.users.map User.id).Nodup ∧
      (pool.store.users.map User.email).Nodup ∧
      (∀ task ∈ pool.tasks, StoresOnce env task) ∧
      ∀ email, AtMostOne (Registers email) pool.tasks := by
  have hintact := intact_of_reach hinit h
  have hall := users_accounted h
  refine ⟨hall, hintact.users.nodup, hintact.emails,
    fun task htask => stores_once h htask, fun email => ?_⟩
  have hemails := (hall.map User.email).nodup_iff.mp hintact.emails
  rw [List.map_append] at hemails
  exact atMostOne_of_nodup hemails.of_append_right email

end Runs

/-! ## Two registrations with one email -/

/-- Both look for the email before either stores the user. -/
def racingRegistrations : List AuthStep :=
  [.start (.register ⟨"N@x", "first", "First"⟩),
   .start (.register ⟨" n@X ", "second", "Second"⟩)] ++
    List.replicate 2 (.run 0) ++ List.replicate 12 (.run 1) ++ [.run 0]

theorem accounts_registered_of_race :
    ∃ pool, (auth Sample.env).run Sample.store.boot racingRegistrations =
        some pool ∧
      pool.store.users.length = 2 ∧
      pool.store.users.Perm
        (Sample.store.users ++ pool.tasks.flatMap accountsOf) ∧
      ∀ task ∈ pool.tasks, StoresOnce Sample.env task := by
  have hruns : ((auth Sample.env).run Sample.store.boot
      racingRegistrations).any (fun pool =>
        pool.store.users.length = 2) = true := by
    decide +kernel
  obtain ⟨pool, hrun, husers⟩ := (Option.any_eq_true _ _).mp hruns
  obtain ⟨hall, -, -, honce, -⟩ :=
    accounts_registered intact_sample (System.reach_of_run hrun)
  exact ⟨pool, hrun, of_decide_eq_true husers, hall, honce⟩


end SyncBridge.Auth
