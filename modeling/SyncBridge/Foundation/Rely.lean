import SyncBridge.Foundation.Monitor

/-!
# Calls that rely on each other

The invariant rule of monitored calls.  `J` holds of the store throughout and
`K` of each call together with the store.  Every step of a call keeps what the
other calls rely on, and is justified by what the call itself knows at that
moment: that its guard admits the operation, and which answers and exceptions
are possible.
-/

namespace SyncBridge.Foundation.Monitor

variable {Op : Type} {Res : Op → Type} {ε α κ σ ν γ : Type}
  {M : Monitor Res κ γ} {sys : System Res ε α κ σ ν}
  {ok : Pool Res ε α κ σ → Action ε κ ν → Prop}
  {pool init : Pool Res ε α κ σ} {started : κ → Prop} {J : σ → Prop}
  {K : σ → Task Res ε α κ → Prop} {Q : κ → γ → Except ε α → Prop}

structure Holds (M : Monitor Res κ γ) (started : κ → Prop) (J : σ → Prop)
    (K : σ → Task Res ε α κ → Prop) (Q : κ → γ → Except ε α → Prop)
    (pool : Pool Res ε α κ σ) : Prop where
  store : J pool.store
  started : ∀ task ∈ pool.tasks, started task.call
  knows : ∀ task ∈ pool.tasks, K pool.store task
  accepts : ∀ task ∈ pool.tasks,
    M.Accepts task.call (Q task.call) task.prog (M.state task)

structure Rely (M : Monitor Res κ γ) (sys : System Res ε α κ σ ν)
    (ok : Pool Res ε α κ σ → Action ε κ ν → Prop)
    (init : Pool Res ε α κ σ) (started : κ → Prop) (J : σ → Prop)
    (K : σ → Task Res ε α κ → Prop) (Q : κ → γ → Except ε α → Prop) : Prop where
  body : ∀ call, started call →
    M.Accepts call (Q call) (sys.body call) (M.init call)
  start : ∀ pool call, sys.Reach ok init pool →
    M.Holds started J K Q pool → ok pool (.start call) →
    sys.starts call = true → started call ∧ K pool.store (sys.spawn call)
  done : ∀ pool pool' index task op next value, sys.Reach ok init pool →
    M.Holds started J K Q pool → ok pool (.run index) →
    sys.Done pool pool' index task op next value →
    M.guard task.call (M.state task) op →
    M.facts task.call (M.state task) op value ∧ J pool'.store ∧
      K pool'.store
        ⟨task.call, ⟨op, value⟩ :: task.trace, next (.ok value)⟩ ∧
      ∀ (position : Nat) (other : Task Res ε α κ), position ≠ index →
        pool.tasks[position]? = some other → K pool.store other →
        K pool'.store other
  raised : ∀ pool pool' index task op next error, sys.Reach ok init pool →
    M.Holds started J K Q pool →
    (ok pool (.run index) ∧ sys.exec op pool.store = .error error ∨
      ok pool (.fail index error) ∧ sys.fallible op = true) →
    System.Raised pool pool' index task op next error →
    M.guard task.call (M.state task) op →
    M.fails task.call (M.state task) op ∧
      K pool.store ⟨task.call, task.trace, next (.error error)⟩
  event : ∀ (pool pool' : Pool Res ε α κ σ) event calls,
    sys.Reach ok init pool → M.Holds started J K Q pool → ok pool (.env event) →
    sys.env event pool.store pool.tasks.length = some (pool'.store, calls) →
    J pool'.store ∧ (∀ task ∈ pool.tasks, K pool'.store task) ∧
      ∀ call ∈ calls, started call ∧ K pool'.store (sys.spawn call)

section Steps

variable {pool' : Pool Res ε α κ σ} {index : Nat} {task : Task Res ε α κ}
  {op : Op} {next : Except ε (Res op) → Prog Res ε α}

theorem Holds.of_forall (hstore : J pool.store)
    (htasks : ∀ task ∈ pool.tasks, started task.call ∧ K pool.store task ∧
      M.Accepts task.call (Q task.call) task.prog (M.state task)) :
    M.Holds started J K Q pool where
  store := hstore
  started task hmem := (htasks task hmem).1
  knows task hmem := (htasks task hmem).2.1
  accepts task hmem := (htasks task hmem).2.2

theorem Rely.holds_start (hrely : Rely M sys ok init started J K Q) {call : κ}
    (hreach : sys.Reach ok init pool) (hold : M.Holds started J K Q pool)
    (hok : ok pool (.start call)) (hstarts : sys.starts call = true) :
    M.Holds started J K Q
      { pool with tasks := pool.tasks ++ [sys.spawn call] } := by
  obtain ⟨hcall, hspawn⟩ := hrely.start _ call hreach hold hok hstarts
  refine Holds.of_forall hold.store fun task htask => ?_
  rcases List.mem_append.mp htask with hmem | hnew
  · exact ⟨hold.started task hmem, hold.knows task hmem,
      hold.accepts task hmem⟩
  · obtain rfl := List.mem_singleton.mp hnew
    exact ⟨hcall, hspawn, hrely.body call hcall⟩

theorem Rely.holds_done (hrely : Rely M sys ok init started J K Q)
    {value : Res op} (hreach : sys.Reach ok init pool)
    (hold : M.Holds started J K Q pool) (hok : ok pool (.run index))
    (hdone : sys.Done pool pool' index task op next value) :
    M.Holds started J K Q pool' := by
  have hmem := List.mem_of_getElem? hdone.at_index
  have haccepts := hold.accepts task hmem
  rw [hdone.awaits] at haccepts
  obtain ⟨hfacts, hstore', hknows, hothers⟩ :=
    hrely.done _ _ _ _ _ _ _ hreach hold hok hdone haccepts.1
  refine Holds.of_forall hstore' fun other hother => ?_
  obtain ⟨position, hposition⟩ := List.mem_iff_getElem?.mp hother
  rw [hdone.tasks_getElem?] at hposition
  split at hposition
  · obtain rfl := Option.some.inj hposition
    exact ⟨hold.started task hmem, hknows, haccepts.2.1 value hfacts⟩
  · rename_i hne
    have hmember := List.mem_of_getElem? hposition
    exact ⟨hold.started other hmember,
      hothers position other hne hposition (hold.knows other hmember),
      hold.accepts other hmember⟩

theorem Rely.holds_raised (hrely : Rely M sys ok init started J K Q) {error : ε}
    (hreach : sys.Reach ok init pool) (hold : M.Holds started J K Q pool)
    (hcause : ok pool (.run index) ∧ sys.exec op pool.store = .error error ∨
      ok pool (.fail index error) ∧ sys.fallible op = true)
    (hraised : System.Raised pool pool' index task op next error) :
    M.Holds started J K Q pool' := by
  have hmem := List.mem_of_getElem? hraised.at_index
  have haccepts := hold.accepts task hmem
  rw [hraised.awaits] at haccepts
  obtain ⟨hfails, hknows⟩ := hrely.raised _ _ _ _ _ _ _ hreach hold hcause
    hraised haccepts.1
  refine Holds.of_forall (hraised.store ▸ hold.store) fun other hother => ?_
  rw [hraised.tasks] at hother
  rw [hraised.store]
  rcases List.mem_or_eq_of_mem_set hother with hmember | rfl
  · exact ⟨hold.started other hmember, hold.knows other hmember,
      hold.accepts other hmember⟩
  · exact ⟨hold.started task hmem, hknows, haccepts.2.2 hfails error⟩

theorem Rely.holds_event (hrely : Rely M sys ok init started J K Q) {event : ν}
    {calls : List κ} (hreach : sys.Reach ok init pool)
    (hold : M.Holds started J K Q pool) (hok : ok pool (.env event))
    (henv : sys.env event pool.store pool.tasks.length =
      some (pool'.store, calls))
    (htasks : pool'.tasks = pool.tasks ++ calls.map sys.spawn) :
    M.Holds started J K Q pool' := by
  obtain ⟨hstore', hothers, hcalls⟩ :=
    hrely.event _ _ _ _ hreach hold hok henv
  refine Holds.of_forall hstore' fun task htask => ?_
  rw [htasks] at htask
  rcases List.mem_append.mp htask with hmember | hnew
  · exact ⟨hold.started task hmember, hothers task hmember,
      hold.accepts task hmember⟩
  · obtain ⟨call, hcall, rfl⟩ := List.mem_map.mp hnew
    exact ⟨(hcalls call hcall).1, (hcalls call hcall).2,
      hrely.body call (hcalls call hcall).1⟩

end Steps

theorem Rely.holds (hrely : Rely M sys ok init started J K Q)
    (hinit : init.tasks = []) (hstore : J init.store)
    (h : sys.Reach ok init pool) : M.Holds started J K Q pool := by
  refine h.invariant (I := M.Holds started J K Q) ?_ ?_ ?_ ?_ ?_
  · exact Holds.of_forall hstore (by simp [hinit])
  · intro pool call hreach hold hok hstarts
    exact hrely.holds_start hreach hold hok hstarts
  · intro pool pool' index task op next value hreach hold hok hdone
    exact hrely.holds_done hreach hold hok hdone
  · intro pool pool' index task op next error hreach hold hcause hraised
    exact hrely.holds_raised hreach hold hcause hraised
  · intro pool pool' event calls hreach hold hok henv htasks
    exact hrely.holds_event hreach hold hok henv htasks

/-! ## One call at a time -/

/-- A call acts only when the others have ended.  `J` holds of the store
throughout, and `N` relates the state of the monitor to it: what the acting call
knows of the store, which only its own operations change. -/
structure Serial (M : Monitor Res κ γ) (sys : System Res ε α κ σ ν)
    (ok : Pool Res ε α κ σ → Action ε κ ν → Prop) (started : κ → Prop)
    (J : σ → Prop) (N : γ → σ → Prop) : Prop where
  alone : ∀ pool index, ok pool (.run index) →
    pool.alone (.run index : Action ε κ ν) = true
  starts : ∀ pool call, ok pool (.start call) → started call
  calls : ∀ event store count store' calls,
    sys.env event store count = some (store', calls) →
    ∀ call ∈ calls, started call
  fails : ∀ call g op, sys.mayRaise op → M.fails call g op
  fresh : ∀ call store, N (M.init call) store
  event : ∀ event store count store' calls,
    sys.env event store count = some (store', calls) → J store →
    J store' ∧ ∀ g, N g store → N g store'
  done : ∀ pool pool' index task op next value, ok pool (.run index) →
    sys.Done pool pool' index task op next value → started task.call →
    J pool.store → N (M.state task) pool.store →
    M.guard task.call (M.state task) op →
    M.facts task.call (M.state task) op value ∧ J pool'.store ∧
      N (M.note task.call (M.state task) op value) pool'.store

def WhileRunning (M : Monitor Res κ γ) (N : γ → σ → Prop) (store : σ)
    (task : Task Res ε α κ) : Prop :=
  task.prog.finished = false → N (M.state task) store

variable {N : γ → σ → Prop}

theorem Serial.rely (hserial : Serial M sys ok started J N)
    (hbody : ∀ call, started call →
      M.Accepts call (Q call) (sys.body call) (M.init call)) :
    Rely M sys ok init started J (M.WhileRunning N) Q where
  body := hbody
  start _ call _ _ hok _ :=
    ⟨hserial.starts _ call hok, fun _ => hserial.fresh call _⟩
  done := by
    intro pool pool' index task op next value _ hold hok hdone hguard
    have hmem := List.mem_of_getElem? hdone.at_index
    have hrunning : task.prog.finished = false := by
      rw [hdone.awaits]
      rfl
    obtain ⟨hfacts, hstore', hknows⟩ := hserial.done _ _ _ _ _ _ _ hok hdone
      (hold.started task hmem) hold.store (hold.knows task hmem hrunning) hguard
    refine ⟨hfacts, hstore', fun _ => hknows, ?_⟩
    -- The other calls have ended.
    intro position other hne hother _ hrunning
    have hended := List.all_eq_true.mp (hserial.alone _ _ hok) other
      (List.mem_eraseIdx_iff_getElem?.mpr ⟨position, hne, hother⟩)
    rw [hrunning] at hended
    cases hended
  raised := by
    intro pool pool' index task op next error _ hold hcause hraised _
    have hmem := List.mem_of_getElem? hraised.at_index
    have hraises : sys.mayRaise op := by
      rcases hcause with ⟨-, hexec⟩ | ⟨-, hfallible⟩
      · exact .inr ⟨_, _, hexec⟩
      · exact .inl hfallible
    have hrunning : task.prog.finished = false := by
      rw [hraised.awaits]
      rfl
    exact ⟨hserial.fails _ _ op hraises,
      fun _ => hold.knows task hmem hrunning⟩
  event := by
    intro pool pool' event calls _ hold _ henv
    obtain ⟨hstore', hkeeps⟩ := hserial.event _ _ _ _ _ henv hold.store
    exact ⟨hstore',
      fun task htask hrunning => hkeeps _ (hold.knows task htask hrunning),
      fun call hcall => ⟨hserial.calls _ _ _ _ _ henv call hcall,
        fun _ => hserial.fresh call _⟩⟩

theorem Serial.invariant (hserial : Serial M sys ok started J N)
    (hbody : ∀ call, started call →
      M.Accepts call (Q call) (sys.body call) (M.init call))
    (hinit : init.tasks = []) (hstore : J init.store)
    (h : sys.Reach ok init pool) :
    M.Holds started J (M.WhileRunning N) Q pool :=
  (hserial.rely hbody).holds hinit hstore h

end SyncBridge.Foundation.Monitor
