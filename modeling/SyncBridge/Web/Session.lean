import SyncBridge.Foundation.Windows
import SyncBridge.Web.Requests

/-!
# Parallel requests of one session

When an access token has expired, every request of the page is answered with
401 and refreshes on its own.  The server takes a refresh token once, so a
second request that has read the same token is rejected and clears the session
that the first one has just renewed.  As long as no request reads the refresh
token between another one's reading it and storing the new pair, the session is
kept and no request ends with 401.
-/

namespace SyncBridge.Web

open SyncBridge.Foundation

/-! ## Where a request is -/

inductive Phase where
  /-- It has not read the refresh token. -/
  | fresh
  | holding (refreshToken : Token)
  | refreshed (tokenPair : TokenPairResponse)
  /-- There was no refresh token, or the server has rejected it. -/
  | rejected
  | stored
  | carrying (accessToken : Option Token)
  /-- The second request was answered with 401, too. -/
  | denied
  deriving DecidableEq

def Phase.isRefreshing : Phase → Bool
  | .holding _ => true
  | .refreshed _ => true
  | _ => false

def Phase.hasStored : Phase → Bool
  | .stored => true
  | .carrying _ => true
  | _ => false

def Phase.next : Phase → (op : WebOp) → op.Res → Phase
  | .stored, .getAccessToken, accessToken => .carrying accessToken
  | .fresh, .getRefreshToken, some refreshToken => .holding refreshToken
  | .fresh, .getRefreshToken, none => .rejected
  | .holding _, .fetchRefresh _, some tokenPair => .refreshed tokenPair
  | .holding _, .fetchRefresh _, none => .rejected
  | .refreshed _, .updateStoredTokens _ _, _ => .stored
  | .carrying accessToken, .fetch _, response =>
      if response.status = 401 then .denied else .carrying accessToken
  | phase, _, _ => phase

def Phase.allows : Phase → WebOp → Prop
  | .fresh, .getAccessToken => True
  | .fresh, .fetch _ => True
  | .fresh, .getRefreshToken => True
  | .holding refreshToken, .fetchRefresh presented => presented = refreshToken
  | .refreshed tokenPair, .updateStoredTokens accessToken refreshToken =>
      tokenPair = ⟨accessToken, refreshToken⟩
  | .rejected, .clearStoredSession => True
  | .stored, .getAccessToken => True
  | .carrying accessToken, .fetch request => request.accessToken = accessToken
  | _, _ => False

def phases : Monitor WebOp.Res WebCall Phase where
  init _ := .fresh
  note _ := Phase.next
  guard _ := Phase.allows
  facts _ _ _ _ := True
  fails _ _ _ := False

def Ends (phase : Phase) (result : Except RequestError Json) : Prop :=
  phase.isRefreshing = false ∧
    ∀ message requestId, result = .error (.apiError 401 message requestId) →
      phase = .rejected ∨ phase = .denied

theorem ends_answer {call : WebCall} {phase : Phase} {response : Response}
    (hphase : phase.isRefreshing = false)
    (hstatus : response.status = 401 → phase = .rejected ∨ phase = .denied) :
    phases.Accepts call Ends (answer response) phase := by
  have hcode : ∀ message requestId,
      apiErrorOf response = .apiError 401 message requestId →
      response.status = 401 := by
    intro message requestId heq
    simp only [apiErrorOf] at heq
    split at heq
    · split at heq
      · injection heq
      · injection heq
    · injection heq
  simp only [answer]
  split
  · refine ⟨hphase, fun message requestId heq => hstatus ?_⟩
    exact hcode message requestId (Except.error.inj heq)
  · split
    · exact ⟨hphase, nofun⟩
    · exact ⟨hphase, nofun⟩

theorem accepts_await {call : WebCall} {phase : Phase} {op : WebOp}
    {rest : op.Res → WebBody Json} (hallows : phase.allows op)
    (hrest : ∀ value, phases.Accepts call Ends (rest value)
      (phase.next op value)) :
    phases.Accepts call Ends ((Prog.await op).bind rest) phase :=
  Monitor.accepts_await_bind.mpr
    ⟨hallows, fun value _ => hrest value, fun hfails => hfails.elim⟩

theorem requestAgain_accepts {call : WebCall} {path : String}
    {options : RequestOptions} (hauth : options.authenticated.getD true = true) :
    phases.Accepts call Ends (requestAgain path options) .stored := by
  simp only [requestAgain, send, hauth, if_true, Prog.bind_eq, Prog.bind_assoc]
  refine accepts_await trivial fun accessToken => ?_
  refine accepts_await rfl fun response => ?_
  refine ends_answer ?_ ?_
  · simp only [Phase.next]
    split <;> rfl
  · intro hstatus
    exact .inr (if_pos hstatus)

theorem performTokenRefresh_accepts {call : WebCall}
    {rest : Bool → WebBody Json}
    (hrefreshed : phases.Accepts call Ends (rest true) .stored)
    (hrejected : phases.Accepts call Ends (rest false) .rejected) :
    phases.Accepts call Ends (performTokenRefresh.bind rest) .fresh := by
  simp only [performTokenRefresh, Prog.bind_eq, Prog.bind_assoc]
  refine accepts_await trivial fun refreshToken => ?_
  cases refreshToken with
  | none => exact hrejected
  | some refreshToken =>
      refine accepts_await rfl fun tokenPair => ?_
      cases tokenPair with
      | none => exact accepts_await trivial fun _ => hrejected
      | some tokenPair => exact accepts_await rfl fun _ => hrefreshed

theorem requestApi_accepts {call : WebCall} {path : String}
    {options : RequestOptions} (hauth : options.authenticated.getD true = true)
    (hretry : options.retry.getD true = true) :
    phases.Accepts call Ends (requestApi path options) .fresh := by
  simp only [requestApi, send, hauth, hretry, if_true, Prog.bind_eq,
    Prog.bind_assoc, Bool.and_true, decide_eq_true_eq]
  refine accepts_await trivial fun accessToken => ?_
  refine accepts_await trivial fun response => ?_
  split
  · exact performTokenRefresh_accepts (requestAgain_accepts hauth)
      (ends_answer rfl fun _ => .inl rfl)
  · rename_i hstatus
    exact ends_answer rfl fun h => absurd h hstatus

/-! ## The session through a run -/

variable {routes : Routes} {init : World} {pool pool' : WebPool}
  {task : WebTask}

def phaseOf (task : WebTask) : Phase := phases.state task

def Refreshing (task : WebTask) : Prop := (phaseOf task).isRefreshing = true

instance : DecidablePred Refreshing :=
  fun task => inferInstanceAs (Decidable ((phaseOf task).isRefreshing = true))

def ReadsToken (_ : WebCall) : (op : WebOp) → op.Res → Prop
  | .getRefreshToken, refreshToken => refreshToken.isSome = true
  | _, _ => False

instance (call : WebCall) (op : WebOp) (value : op.Res) :
    Decidable (ReadsToken call op value) := by
  unfold ReadsToken
  split <;> infer_instance

/-- A request reads the refresh token while another one has read it and not yet
stored the new pair. -/
def Races (routes : Routes) (pool : WebPool) (step : WebStep) : Prop :=
  Crowds (browser routes) ReadsToken Refreshing pool step

instance (pool : WebPool) (step : WebStep) :
    Decidable (Races routes pool step) := by
  unfold Races
  infer_instance

theorem isRefreshing_next {phase : Phase} {call : WebCall} {op : WebOp}
    {value : op.Res} (h : (phase.next op value).isRefreshing = true) :
    ReadsToken call op value ∨ phase.isRefreshing = true := by
  cases op with
  | getRefreshToken =>
      cases value with
      | some refreshToken => exact .inl rfl
      | none => cases phase <;> first | exact .inr rfl | cases h
  | fetch request =>
      cases phase with
      | carrying accessToken =>
          simp only [Phase.next] at h
          split at h <;> cases h
      | _ => first | exact .inr rfl | cases h
  | fetchRefresh refreshToken =>
      cases value <;> cases phase <;> first | exact .inr rfl | cases h
  | _ => cases phase <;> first | exact .inr rfl | cases h

theorem refreshing_window :
    Window (browser routes) ReadsToken Refreshing where
  spawn _ h := nomatch h
  done _ _ _ _ _ _ _ _ h := isRefreshing_next h
  raised _ _ _ _ _ _ _ _ h := h

def PhaseHolds (world : World) : Phase → Prop
  | .holding refreshToken =>
      world.session.map AuthSession.refreshToken = some refreshToken ∧
        refreshToken ∈ world.unrevoked
  | .refreshed tokenPair =>
      tokenPair.accessToken ∈ world.accepted ∧
        tokenPair.refreshToken ∈ world.unrevoked
  | .carrying accessToken => world.accepts accessToken = true
  | .rejected => False
  | .denied => False
  | _ => True

structure Intact (pool : WebPool) : Prop where
  /-- The stored refresh token is good, or a request is about to store one. -/
  session : ∃ session, pool.store.session = some session ∧
    (session.refreshToken ∈ pool.store.unrevoked ∨
      ∃ task ∈ pool.tasks, ∃ tokenPair, phaseOf task = .refreshed tokenPair)
  /-- Once a pair has been stored, the stored access token is good. -/
  access : (∃ task ∈ pool.tasks, (phaseOf task).hasStored = true) →
    pool.store.accepts (pool.store.session.map AuthSession.accessToken) = true
  phases : ∀ task ∈ pool.tasks, PhaseHolds pool.store (phaseOf task)

section Steps

variable {index : Nat} {op : WebOp}
  {next : Except RequestError op.Res → WebBody Json} {value : op.Res}

theorem exec_of_done
    (hdone : (browser routes).Done pool pool' index task op next value) :
    exec routes op pool.store = (value, pool'.store) :=
  Except.ok.inj hdone.exec

theorem mem_of_done {other : WebTask}
    (hdone : (browser routes).Done pool pool' index task op next value)
    (hother : other ∈ pool'.tasks) :
    other ∈ pool.tasks ∨ phaseOf other = (phaseOf task).next op value := by
  rw [hdone.tasks] at hother
  rcases List.mem_or_eq_of_mem_set hother with hold | rfl
  · exact .inl hold
  · exact .inr rfl

theorem Intact.of_store_eq (h : Intact pool)
    (hdone : (browser routes).Done pool pool' index task op next value)
    (hstore : pool'.store = pool.store)
    (hacting : ∀ tokenPair, phaseOf task ≠ .refreshed tokenPair)
    (hstored : ((phaseOf task).next op value).hasStored = true →
      (phaseOf task).hasStored = true)
    (hholds : PhaseHolds pool.store ((phaseOf task).next op value)) :
    Intact pool' := by
  have hmem := List.mem_of_getElem? hdone.at_index
  refine ⟨?_, ?_, ?_⟩
  · obtain ⟨session, hsession, hgood⟩ := h.session
    refine ⟨session, by rw [hstore, hsession], ?_⟩
    rw [hstore]
    refine hgood.imp id ?_
    rintro ⟨other, hother, tokenPair, hphase⟩
    refine ⟨other, ?_, tokenPair, hphase⟩
    obtain ⟨position, hposition⟩ := List.mem_iff_getElem?.mp hother
    rw [List.mem_iff_getElem?]
    refine ⟨position, ?_⟩
    rw [hdone.tasks_getElem?, if_neg]
    · exact hposition
    · rintro rfl
      obtain rfl := Option.some.inj (hposition.symm.trans hdone.at_index)
      exact hacting tokenPair hphase
  · rw [hstore]
    rintro ⟨other, hother, hpast⟩
    rcases mem_of_done hdone hother with hold | hnew
    · exact h.access ⟨other, hold, hpast⟩
    · rw [hnew] at hpast
      exact h.access ⟨task, hmem, hstored hpast⟩
  · rw [hstore]
    intro other hother
    rcases mem_of_done hdone hother with hold | hnew
    · exact h.phases other hold
    · rw [hnew]
      exact hholds

theorem not_refreshing_of_other {other : WebTask} {position : Nat}
    (hone : AtMostOne Refreshing pool.tasks)
    (hat : pool.tasks[index]? = some task) (hacting : Refreshing task)
    (hother : pool.tasks[position]? = some other) (hne : position ≠ index) :
    ¬ Refreshing other :=
  fun h => hne (hone position index other task hother hat h hacting)

theorem PhaseHolds.mono {world world' : World} {phase : Phase}
    (h : PhaseHolds world phase) (houtside : phase.isRefreshing = false)
    (haccepts : ∀ token, world.accepts token = true →
      world'.accepts token = true) : PhaseHolds world' phase := by
  cases phase with
  | holding _ | refreshed _ => cases houtside
  | carrying accessToken => exact haccepts accessToken h
  | _ => exact h

theorem accepts_refresh {world : World} {refreshToken : Token}
    {accessToken : Option Token} (h : world.accepts accessToken = true) :
    (world.refresh refreshToken).2.accepts accessToken = true := by
  simp only [World.refresh]
  split
  · cases accessToken with
    | none => exact h
    | some token =>
        simp only [World.accepts, Option.any_some, decide_eq_true_eq] at h ⊢
        exact List.mem_cons_of_mem _ h
  · exact h

theorem Intact.phases_of_done (h : Intact pool)
    (hone : AtMostOne Refreshing pool.tasks)
    (hdone : (browser routes).Done pool pool' index task op next value)
    (hacting : Refreshing task)
    (hown : PhaseHolds pool'.store ((phaseOf task).next op value))
    (hgrows : ∀ token, pool.store.accepts token = true →
      pool'.store.accepts token = true) :
    ∀ other ∈ pool'.tasks, PhaseHolds pool'.store (phaseOf other) := by
  intro other hother
  obtain ⟨position, hposition⟩ := List.mem_iff_getElem?.mp hother
  rw [hdone.tasks_getElem?] at hposition
  split at hposition
  · obtain rfl := Option.some.inj hposition
    exact hown
  · rename_i hne
    have houtside := not_refreshing_of_other hone hdone.at_index hacting
      hposition hne
    exact (h.phases other (List.mem_of_getElem? hposition)).mono
      (by simpa [Refreshing] using houtside) hgrows

theorem Intact.refresh {refreshToken : Token}
    {next : Except RequestError (Option TokenPairResponse) → WebBody Json}
    {answered : Option TokenPairResponse} (h : Intact pool)
    (hone : AtMostOne Refreshing pool.tasks)
    (hdone : (browser routes).Done pool pool' index task
      (.fetchRefresh refreshToken) next answered)
    (hphase : phaseOf task = .holding refreshToken) : Intact pool' := by
  have hmem := List.mem_of_getElem? hdone.at_index
  have hacting : Refreshing task := by rw [Refreshing, hphase]; rfl
  have hholds := h.phases task hmem
  rw [hphase] at hholds
  have hexec := exec_of_done hdone
  have hnew : pool'.tasks[index]? = some ⟨task.call,
      ⟨.fetchRefresh refreshToken, answered⟩ :: task.trace,
      next (.ok answered)⟩ := by
    rw [hdone.tasks_getElem?, if_pos rfl]
  have hstore : pool'.store = (pool.store.refresh refreshToken).2 :=
    (congrArg Prod.snd hexec).symm
  have hanswer : answered = some ⟨pool.store.nextToken,
      pool.store.nextToken + 1⟩ := by
    have hvalue := congrArg Prod.fst hexec
    simpa [exec, World.refresh, hholds.2] using hvalue.symm
  subst hanswer
  have hsession : pool'.store.session = pool.store.session := by
    rw [hstore, World.refresh]
    split <;> rfl
  have hgrows : ∀ token, pool.store.accepts token = true →
      pool'.store.accepts token = true := by
    intro token htoken
    rw [hstore]
    exact accepts_refresh htoken
  refine ⟨?_, ?_, ?_⟩
  · obtain ⟨session, hstored, -⟩ := h.session
    refine ⟨session, by rw [hsession, hstored], .inr ?_⟩
    refine ⟨_, List.mem_of_getElem? hnew,
      ⟨pool.store.nextToken, pool.store.nextToken + 1⟩, ?_⟩
    show (phaseOf task).next _ _ = _
    rw [hphase]
    rfl
  · rintro ⟨other, hother, hpast⟩
    rw [hsession]
    refine hgrows _ (h.access ?_)
    rcases mem_of_done hdone hother with hold | hnew
    · exact ⟨other, hold, hpast⟩
    · rw [hnew, hphase] at hpast
      cases hpast
  · refine h.phases_of_done hone hdone hacting ?_ hgrows
    rw [hphase, hstore]
    simp [Phase.next, PhaseHolds, World.refresh, hholds.2]

theorem Intact.store {accessToken refreshToken : Token}
    {next : Except RequestError Unit → WebBody Json} {done : Unit}
    (h : Intact pool) (hone : AtMostOne Refreshing pool.tasks)
    (hdone : (browser routes).Done pool pool' index task
      (.updateStoredTokens accessToken refreshToken) next done)
    (hphase : phaseOf task = .refreshed ⟨accessToken, refreshToken⟩) :
    Intact pool' := by
  have hmem := List.mem_of_getElem? hdone.at_index
  have hacting : Refreshing task := by rw [Refreshing, hphase]; rfl
  have hholds := h.phases task hmem
  rw [hphase] at hholds
  have hstore : pool'.store = { pool.store with
      session := some ⟨accessToken, refreshToken,
        pool.store.session.bind AuthSession.user⟩ } :=
    (congrArg Prod.snd (exec_of_done hdone)).symm
  refine ⟨?_, ?_, ?_⟩
  · rw [hstore]
    exact ⟨_, rfl, .inl hholds.2⟩
  · intro _
    rw [hstore]
    simpa [World.accepts] using hholds.1
  · refine h.phases_of_done hone hdone hacting ?_ ?_
    · rw [hphase]
      trivial
    · rw [hstore]
      exact fun _ haccepts => haccepts

/-- The refresh token that a request reads is still good: only another request
in the middle of its refresh could have used it. -/
theorem Intact.read {refreshToken : Option Token}
    {next : Except RequestError (Option Token) → WebBody Json}
    (h : Intact pool) (hrace : ¬ Races routes pool (.run index))
    (hdone : (browser routes).Done pool pool' index task .getRefreshToken next
      refreshToken) (hphase : phaseOf task = .fresh) : Intact pool' := by
  obtain ⟨session, hsession, hgood⟩ := h.session
  have hexec := exec_of_done hdone
  have hvalue : refreshToken = some session.refreshToken := by
    have hread := congrArg Prod.fst hexec
    simpa [exec, hsession] using hread.symm
  have hunrevoked : session.refreshToken ∈ pool.store.unrevoked := by
    refine hgood.resolve_right ?_
    rintro ⟨other, hother, tokenPair, hrefreshed⟩
    obtain ⟨position, hposition⟩ := List.mem_iff_getElem?.mp hother
    have hne : position ≠ index := by
      rintro rfl
      obtain rfl := Option.some.inj (hposition.symm.trans hdone.at_index)
      rw [hphase] at hrefreshed
      cases hrefreshed
    refine hrace (crowds_of_done hdone ?_ hne hposition ?_)
    · simp [ReadsToken, hvalue]
    · simp [Refreshing, hrefreshed, Phase.isRefreshing]
  refine h.of_store_eq hdone (congrArg Prod.snd hexec).symm ?_ ?_ ?_
  · simp [hphase]
  · simp [hphase, hvalue, Phase.next, Phase.hasStored]
  · simp [hphase, hvalue, Phase.next, PhaseHolds, hsession, hunrevoked]

theorem Intact.done (h : Intact pool)
    (hone : AtMostOne Refreshing pool.tasks)
    (hrace : ¬ Races routes pool (.run index))
    (hallows : (phaseOf task).allows op)
    (hdone : (browser routes).Done pool pool' index task op next value) :
    Intact pool' := by
  have hexec := exec_of_done hdone
  have hholds := h.phases task (List.mem_of_getElem? hdone.at_index)
  cases hphase : phaseOf task with
  | fresh =>
      rw [hphase] at hallows
      cases op with
      | getRefreshToken => exact h.read hrace hdone hphase
      | getAccessToken | fetch _ =>
          refine h.of_store_eq hdone (congrArg Prod.snd hexec).symm ?_ ?_ ?_
          · simp [hphase]
          · simp [hphase, Phase.next]
          · simp [hphase, Phase.next, PhaseHolds]
      | _ => cases hallows
  | holding refreshToken =>
      rw [hphase] at hallows
      cases op with
      | fetchRefresh presented =>
          obtain rfl : presented = refreshToken := hallows
          exact h.refresh hone hdone hphase
      | _ => cases hallows
  | refreshed tokenPair =>
      rw [hphase] at hallows
      cases op with
      | updateStoredTokens accessToken refreshToken =>
          obtain rfl : tokenPair = ⟨accessToken, refreshToken⟩ := hallows
          exact h.store hone hdone hphase
      | _ => cases hallows
  | rejected =>
      rw [hphase] at hholds
      exact hholds.elim
  | denied =>
      rw [hphase] at hholds
      exact hholds.elim
  | stored =>
      rw [hphase] at hallows
      cases op with
      | getAccessToken =>
          have hvalue : value = pool.store.session.map AuthSession.accessToken :=
            (congrArg Prod.fst hexec).symm
          have haccess := h.access ⟨task,
            List.mem_of_getElem? hdone.at_index, by rw [hphase]; rfl⟩
          refine h.of_store_eq hdone (congrArg Prod.snd hexec).symm ?_ ?_ ?_
          · simp [hphase]
          · simp [hphase, Phase.hasStored]
          · simpa [hphase, hvalue, Phase.next, PhaseHolds] using haccess
      | _ => cases hallows
  | carrying accessToken =>
      rw [hphase] at hallows hholds
      cases op with
      | fetch request =>
          have hcarried : request.accessToken = accessToken := hallows
          have hvalue : value = routes.handle request := by
            have hanswer := congrArg Prod.fst hexec
            have haccepted : pool.store.accepts request.accessToken = true := by
              rw [hcarried]
              exact hholds
            simpa [exec, haccepted] using hanswer.symm
          have hstatus : value.status ≠ 401 := by
            rw [hvalue]
            exact routes.authorized request
          have hnext : (Phase.carrying accessToken).next (.fetch request)
              value = .carrying accessToken := if_neg hstatus
          refine h.of_store_eq hdone (congrArg Prod.snd hexec).symm ?_ ?_ ?_
          · simp [hphase]
          · simp [hphase, Phase.hasStored]
          · rw [hphase, hnext]
            exact hholds
      | _ => cases hallows

end Steps

/-! ## Runs -/

/-- The stored refresh token is one that the server takes. -/
def ValidSession (world : World) : Prop :=
  ∃ session, world.session = some session ∧
    session.refreshToken ∈ world.unrevoked

abbrev Undisturbed (routes : Routes) (init : World) : WebPool → Prop :=
  (browser routes).Reach (fun pool step => ¬ Races routes pool step) init.boot

theorem accepts_of_undisturbed (h : Undisturbed routes init pool) :
    ∀ task ∈ pool.tasks,
      phases.Accepts task.call Ends task.prog (phaseOf task) := by
  refine Monitor.accepts_of_reach (M := phases) (Q := fun _ => Ends)
    ?_ ?_ ?_ rfl h
  · exact fun _ _ _ _ _ _ _ => trivial
  · intro _ _ op hraise
    rcases hraise with hfallible | ⟨_, _, hexec⟩
    · cases hfallible
    · cases hexec
  · exact fun call => requestApi_accepts call.authenticated call.retried

theorem intact_of_undisturbed (hvalid : ValidSession init)
    (h : Undisturbed routes init pool) : Intact pool := by
  refine h.invariant (I := Intact) ?_ ?_ ?_ ?_ ?_
  · obtain ⟨session, hsession, hgood⟩ := hvalid
    refine ⟨⟨session, hsession, .inl hgood⟩, ?_, ?_⟩
    · rintro ⟨task, htask, -⟩
      cases htask
    · exact fun task htask => nomatch htask
  · intro pool call _ hintact _ _
    have hmem : ∀ task ∈ pool.tasks ++ [(browser routes).spawn call],
        task ∈ pool.tasks ∨ phaseOf task = .fresh := by
      intro task htask
      rcases List.mem_append.mp htask with hold | hnew
      · exact .inl hold
      · obtain rfl := List.mem_singleton.mp hnew
        exact .inr rfl
    refine ⟨?_, ?_, ?_⟩
    · obtain ⟨session, hsession, hgood⟩ := hintact.session
      refine ⟨session, hsession, hgood.imp id ?_⟩
      rintro ⟨task, htask, hrefreshed⟩
      exact ⟨task, List.mem_append_left _ htask, hrefreshed⟩
    · rintro ⟨task, htask, hstored⟩
      rcases hmem task htask with hold | hnew
      · exact hintact.access ⟨task, hold, hstored⟩
      · rw [hnew] at hstored
        cases hstored
    · intro task htask
      rcases hmem task htask with hold | hnew
      · exact hintact.phases task hold
      · rw [hnew]
        trivial
  · intro pool pool' index task op next value hreach hintact hrace hdone
    have hone := refreshing_window.atMostOne (fun _ _ hraces => hraces) rfl
      hreach
    have hallows := accepts_of_undisturbed hreach task
      (List.mem_of_getElem? hdone.at_index)
    rw [hdone.awaits] at hallows
    exact hintact.done hone hrace hallows.1 hdone
  · intro pool pool' index task op next error _ _ hcause _
    rcases hcause with ⟨-, hexec⟩ | ⟨-, hfallible⟩
    · cases hexec
    · cases hfallible
  · exact fun _ _ event => nomatch event

/-- When all requests have ended, the session is still there and good, and none
of them ended with 401. -/
def SessionKept (pool : WebPool) : Prop :=
  (∀ task ∈ pool.tasks, task.prog.finished = true) →
    ValidSession pool.store ∧ ∀ task ∈ pool.tasks, ∀ message requestId,
      task.prog ≠ .throw (.apiError 401 message requestId)

theorem ends_of_finished {Q : Phase → Except RequestError Json → Prop}
    (haccepts : phases.Accepts task.call Q task.prog (phaseOf task))
    (hfinished : task.prog.finished = true) :
    (∃ result, task.prog = .ofExcept result ∧ Q (phaseOf task) result) := by
  obtain ⟨call, trace, prog⟩ := task
  cases prog with
  | ret value => exact ⟨.ok value, rfl, haccepts⟩
  | throw error => exact ⟨.error error, rfl, haccepts⟩
  | call op next => cases hfinished

theorem parallel_requests_keep_session (hvalid : ValidSession init)
    (h : Undisturbed routes init pool) : SessionKept pool := by
  intro hfinished
  have hintact := intact_of_undisturbed hvalid h
  have hends : ∀ task ∈ pool.tasks, ∃ result,
      task.prog = .ofExcept result ∧ Ends (phaseOf task) result :=
    fun task htask => ends_of_finished (accepts_of_undisturbed h task htask)
      (hfinished task htask)
  constructor
  · obtain ⟨session, hsession, hgood⟩ := hintact.session
    refine ⟨session, hsession, hgood.resolve_right ?_⟩
    rintro ⟨task, htask, tokenPair, hrefreshed⟩
    obtain ⟨result, -, houtside, -⟩ := hends task htask
    rw [hrefreshed] at houtside
    cases houtside
  · intro task htask message requestId hthrown
    obtain ⟨result, hprog, -, hdenied⟩ := hends task htask
    have hresult : result = .error (.apiError 401 message requestId) := by
      rw [hthrown] at hprog
      cases result with
      | ok value => cases hprog
      | error error =>
          injection hprog with herror
          rw [herror]
    have hholds := hintact.phases task htask
    rcases hdenied message requestId hresult with hphase | hphase
    · rw [hphase] at hholds
      exact hholds
    · rw [hphase] at hholds
      exact hholds

/-! ## A page with two requests -/

def expired : World where
  session := some ⟨0, 1, none⟩
  accepted := []
  unrevoked := [1]
  nextToken := 2

theorem validSession_expired : ValidSession expired :=
  ⟨_, rfl, List.mem_singleton.mpr rfl⟩

def okRoutes : Routes where
  handle _ := ⟨200, some .null, none⟩
  authorized _ := by decide

def runsPage : WebCall := ⟨"/runs", {}, rfl, rfl⟩

def pipelinesPage : WebCall := ⟨"/pipelines", {}, rfl, rfl⟩

def bothSent : List WebStep :=
  [.start runsPage, .start pipelinesPage, .run 0, .run 1, .run 0, .run 1]

def oneByOne : List WebStep :=
  bothSent ++ List.replicate 5 (.run 0) ++ List.replicate 5 (.run 1)

theorem parallel_requests_keep_session_of_two :
    ∃ pool, (browser okRoutes).runWhere
        (fun pool step => ¬ Races okRoutes pool step) expired.boot oneByOne =
          some pool ∧
      pool.tasks.length = 2 ∧
      (∀ task ∈ pool.tasks, task.prog.finished = true) ∧
      SessionKept pool := by
  have hruns : ((browser okRoutes).runWhere
      (fun pool step => ¬ Races okRoutes pool step) expired.boot oneByOne).any
        (fun pool => pool.tasks.length = 2 &&
          pool.tasks.all fun task => task.prog.finished) = true := by
    decide
  obtain ⟨pool, hrun, hended⟩ := (Option.any_eq_true _ _).mp hruns
  simp only [Bool.and_eq_true, decide_eq_true_eq, List.all_eq_true] at hended
  exact ⟨pool, hrun, hended.1, hended.2, parallel_requests_keep_session
    validSession_expired (System.reach_of_runWhere hrun)⟩

def bothRefresh : List WebStep :=
  bothSent ++ [.run 0, .run 1, .run 0, .run 1] ++ List.replicate 3 (.run 0) ++
    [.run 1]

def loggedOut (pool : WebPool) : Bool :=
  pool.store.session.isNone &&
    pool.tasks.all fun task => task.prog.finished

theorem parallel_requests_keep_session_fails :
    ∃ pool, ValidSession expired ∧
      (browser okRoutes).Reach (fun _ _ => True) expired.boot pool ∧
      ¬ SessionKept pool := by
  have hruns : ((browser okRoutes).run expired.boot bothRefresh).any
      loggedOut = true := by decide
  obtain ⟨pool, hrun, hout⟩ := (Option.any_eq_true _ _).mp hruns
  simp only [loggedOut, Bool.and_eq_true, List.all_eq_true] at hout
  refine ⟨pool, validSession_expired, System.reach_of_run hrun, ?_⟩
  intro hkept
  obtain ⟨⟨session, hsession, -⟩, -⟩ := hkept hout.2
  rw [hsession] at hout
  cases hout.1

end SyncBridge.Web
