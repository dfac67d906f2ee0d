import SyncBridge.Foundation.Async

/-!
# Interleaved calls over a shared store

A pool is a shared store together with the calls that have been started on it.
A call advances by one awaited operation at a time, and between two steps of a
call any other call may advance: one atomic step is one awaited operation.  An
operation goes through and changes the store, or it raises an exception and
leaves the store alone.  Events of the environment (a queue handing out a job,
the clock) change the store and may start further calls.
-/

namespace SyncBridge.Foundation

/-- A started call, the operations that went through so far (newest first) and
what it has left to do. -/
structure Task {Op : Type} (Res : Op → Type) (ε α κ : Type) where
  call : κ
  trace : List (Σ op, Res op)
  prog : Prog Res ε α

structure Pool {Op : Type} (Res : Op → Type) (ε α κ σ : Type) where
  store : σ
  tasks : List (Task Res ε α κ)

inductive Action (ε κ ν : Type) where
  | start (call : κ)
  | run (index : Nat)
  | fail (index : Nat) (error : ε)
  | env (event : ν)

structure System {Op : Type} (Res : Op → Type) (ε α κ σ ν : Type) where
  exec : (op : Op) → σ → Except ε (Res op × σ)
  /-- Operations that may raise an exception although the store admits them. -/
  fallible : Op → Bool
  body : κ → Prog Res ε α
  /-- Calls a client can start; the others are started by the environment. -/
  starts : κ → Bool
  /-- An event sees the store and the number of the next call. -/
  env : ν → σ → Nat → Option (σ × List κ)

variable {Op : Type} {Res : Op → Type} {ε α κ σ ν : Type}

def Pool.calls (pool : Pool Res ε α κ σ) : List κ := pool.tasks.map Task.call

def Pool.alone (pool : Pool Res ε α κ σ) : Action ε κ ν → Bool
  | .run index =>
      (pool.tasks.eraseIdx index).all fun task => task.prog.finished
  | _ => true

namespace System

variable (sys : System Res ε α κ σ ν)

def spawn (call : κ) : Task Res ε α κ := ⟨call, [], sys.body call⟩

def mayRaise (op : Op) : Prop :=
  sys.fallible op = true ∨ ∃ store error, sys.exec op store = .error error

def step (pool : Pool Res ε α κ σ) :
    Action ε κ ν → Option (Pool Res ε α κ σ)
  | .start call =>
      if sys.starts call then
        some { pool with tasks := pool.tasks ++ [sys.spawn call] }
      else none
  | .run index =>
      match pool.tasks[index]? with
      | some ⟨call, trace, .call op next⟩ =>
          match sys.exec op pool.store with
          | .ok (value, store) =>
              some ⟨store, pool.tasks.set index
                ⟨call, ⟨op, value⟩ :: trace, next (.ok value)⟩⟩
          | .error error =>
              some ⟨pool.store, pool.tasks.set index
                ⟨call, trace, next (.error error)⟩⟩
      | _ => none
  | .fail index error =>
      match pool.tasks[index]? with
      | some ⟨call, trace, .call op next⟩ =>
          if sys.fallible op then
            some ⟨pool.store, pool.tasks.set index
              ⟨call, trace, next (.error error)⟩⟩
          else none
      | _ => none
  | .env event =>
      match sys.env event pool.store pool.tasks.length with
      | some (store, calls) =>
          some ⟨store, pool.tasks ++ calls.map sys.spawn⟩
      | none => none

def run (pool : Pool Res ε α κ σ) :
    List (Action ε κ ν) → Option (Pool Res ε α κ σ)
  | [] => some pool
  | action :: actions =>
      match sys.step pool action with
      | some next => run next actions
      | none => none

def runWhere (ok : Pool Res ε α κ σ → Action ε κ ν → Prop)
    [∀ pool action, Decidable (ok pool action)] (pool : Pool Res ε α κ σ) :
    List (Action ε κ ν) → Option (Pool Res ε α κ σ)
  | [] => some pool
  | action :: actions =>
      if ok pool action then
        match sys.step pool action with
        | some next => runWhere ok next actions
        | none => none
      else none

/-! ## What one step can do -/

/-- The operation `op` of call number `index` went through with `value`. -/
structure Done (pool pool' : Pool Res ε α κ σ) (index : Nat)
    (task : Task Res ε α κ) (op : Op)
    (next : Except ε (Res op) → Prog Res ε α) (value : Res op) : Prop where
  at_index : pool.tasks[index]? = some task
  awaits : task.prog = .call op next
  exec : sys.exec op pool.store = .ok (value, pool'.store)
  tasks : pool'.tasks = pool.tasks.set index
    ⟨task.call, ⟨op, value⟩ :: task.trace, next (.ok value)⟩

structure Raised (pool pool' : Pool Res ε α κ σ) (index : Nat)
    (task : Task Res ε α κ) (op : Op)
    (next : Except ε (Res op) → Prog Res ε α) (error : ε) : Prop where
  at_index : pool.tasks[index]? = some task
  awaits : task.prog = .call op next
  store : pool'.store = pool.store
  tasks : pool'.tasks = pool.tasks.set index
    ⟨task.call, task.trace, next (.error error)⟩

variable {sys} {pool pool' : Pool Res ε α κ σ} {action : Action ε κ ν}

theorem step_start {call : κ} (h : sys.step pool (.start call) = some pool') :
    sys.starts call = true ∧
      pool' = { pool with tasks := pool.tasks ++ [sys.spawn call] } := by
  simp only [step] at h
  split at h
  · rename_i hstarts
    exact ⟨hstarts, (Option.some.inj h).symm⟩
  · cases h

theorem step_run {index : Nat} (h : sys.step pool (.run index) = some pool') :
    (∃ task op next value,
        sys.Done pool pool' index task op next value) ∨
      ∃ task op next error,
        Raised pool pool' index task op next error ∧
        sys.exec op pool.store = .error error := by
  simp only [step] at h
  split at h
  · rename_i call trace op next hget
    split at h
    · rename_i value store hexec
      obtain rfl := Option.some.inj h
      exact .inl ⟨_, op, next, value, hget, rfl, hexec, rfl⟩
    · rename_i error hexec
      obtain rfl := Option.some.inj h
      exact .inr ⟨_, op, next, error, ⟨hget, rfl, rfl, rfl⟩, hexec⟩
  · cases h

theorem step_fail {index : Nat} {error : ε}
    (h : sys.step pool (.fail index error) = some pool') :
    ∃ task op next, Raised pool pool' index task op next error ∧
      sys.fallible op = true := by
  simp only [step] at h
  split at h
  · rename_i call trace op next hget
    split at h
    · rename_i hfallible
      obtain rfl := Option.some.inj h
      exact ⟨_, op, next, ⟨hget, rfl, rfl, rfl⟩, hfallible⟩
    · cases h
  · cases h

theorem step_env {event : ν} (h : sys.step pool (.env event) = some pool') :
    ∃ calls, sys.env event pool.store pool.tasks.length =
        some (pool'.store, calls) ∧
      pool'.tasks = pool.tasks ++ calls.map sys.spawn := by
  simp only [step] at h
  split at h
  · rename_i store calls henv
    obtain rfl := Option.some.inj h
    exact ⟨calls, henv, rfl⟩
  · cases h

theorem Done.tasks_getElem? {index : Nat} {task : Task Res ε α κ} {op : Op}
    {next : Except ε (Res op) → Prog Res ε α} {value : Res op}
    (h : sys.Done pool pool' index task op next value) (other : Nat) :
    pool'.tasks[other]? =
      if other = index then
        some ⟨task.call, ⟨op, value⟩ :: task.trace, next (.ok value)⟩
      else pool.tasks[other]? := by
  have hlt := (List.getElem?_eq_some_iff.mp h.at_index).1
  rw [h.tasks, List.getElem?_set]
  by_cases heq : other = index
  · simp [heq, hlt]
  · simp [heq, Ne.symm heq]

theorem Raised.tasks_getElem? {index : Nat} {task : Task Res ε α κ} {op : Op}
    {next : Except ε (Res op) → Prog Res ε α} {error : ε}
    (h : Raised pool pool' index task op next error) (other : Nat) :
    pool'.tasks[other]? =
      if other = index then
        some ⟨task.call, task.trace, next (.error error)⟩
      else pool.tasks[other]? := by
  have hlt := (List.getElem?_eq_some_iff.mp h.at_index).1
  rw [h.tasks, List.getElem?_set]
  by_cases heq : other = index
  · simp [heq, hlt]
  · simp [heq, Ne.symm heq]

theorem map_set_of_eq {β : Type} {f : Task Res ε α κ → β}
    {tasks : List (Task Res ε α κ)} {index : Nat} {task task' : Task Res ε α κ}
    (hget : tasks[index]? = some task) (hsame : f task' = f task) :
    (tasks.set index task').map f = tasks.map f := by
  refine List.ext_getElem? fun other => ?_
  rw [List.map_set, hsame, List.getElem?_set]
  by_cases heq : index = other
  · subst heq
    obtain ⟨hlt, htask⟩ := List.getElem?_eq_some_iff.mp hget
    simp [hlt, htask]
  · simp [heq]

theorem Done.calls {index : Nat} {task : Task Res ε α κ} {op : Op}
    {next : Except ε (Res op) → Prog Res ε α} {value : Res op}
    (h : sys.Done pool pool' index task op next value) :
    pool'.calls = pool.calls := by
  simp only [Pool.calls, h.tasks]
  exact map_set_of_eq h.at_index rfl

theorem Raised.calls {index : Nat} {task : Task Res ε α κ} {op : Op}
    {next : Except ε (Res op) → Prog Res ε α} {error : ε}
    (h : Raised pool pool' index task op next error) :
    pool'.calls = pool.calls := by
  simp only [Pool.calls, h.tasks]
  exact map_set_of_eq h.at_index rfl

/-- A call after a step, its trace not being new: it was as far before the step,
or the step was its own. -/
theorem step_entry {index : Nat} {task : Task Res ε α κ} {entry : Σ op, Res op}
    {older : List (Σ op, Res op)} (h : sys.step pool action = some pool')
    (htask : pool'.tasks[index]? = some task)
    (hentry : entry :: older <:+ task.trace) :
    (∃ old, pool.tasks[index]? = some old ∧ old.call = task.call ∧
      entry :: older <:+ old.trace) ∨
    ∃ next store', pool.tasks[index]? =
        some ⟨task.call, older, .call entry.1 next⟩ ∧
      sys.exec entry.1 pool.store = .ok (entry.2, store') := by
  have hspawned : ∀ {calls : List κ},
      (pool.tasks ++ calls.map sys.spawn)[index]? = some task →
      ∃ old, pool.tasks[index]? = some old ∧ old.call = task.call ∧
        entry :: older <:+ old.trace := by
    intro calls hget
    rw [List.getElem?_append] at hget
    split at hget
    · exact ⟨task, hget, rfl, hentry⟩
    · obtain ⟨call, -, rfl⟩ := List.mem_map.mp (List.mem_of_getElem? hget)
      exact absurd hentry (by simp [spawn])
  have hraised : ∀ {other old op next error},
      Raised pool pool' other old op next error →
      ∃ old, pool.tasks[index]? = some old ∧ old.call = task.call ∧
        entry :: older <:+ old.trace := by
    intro other old op next error hraised
    rw [hraised.tasks_getElem?] at htask
    split at htask
    · rename_i heq
      subst heq
      obtain rfl := Option.some.inj htask
      exact ⟨old, hraised.at_index, rfl, hentry⟩
    · exact ⟨task, htask, rfl, hentry⟩
  cases action with
  | start call =>
      obtain ⟨-, rfl⟩ := step_start h
      exact .inl (@hspawned [call] htask)
  | run other =>
      rcases step_run h with ⟨old, op, next, value, hdone⟩ |
        ⟨old, op, next, error, hfailed, -⟩
      · rw [hdone.tasks_getElem?] at htask
        split at htask
        · rename_i heq
          subst heq
          obtain rfl := Option.some.inj htask
          rcases List.suffix_cons_iff.mp hentry with hnew | hold
          · obtain ⟨rfl, rfl⟩ := List.cons.inj hnew
            refine .inr ⟨next, _, ?_, hdone.exec⟩
            rw [hdone.at_index, ← hdone.awaits]
          · exact .inl ⟨old, hdone.at_index, rfl, hold⟩
        · exact .inl ⟨task, htask, rfl, hentry⟩
      · exact .inl (hraised hfailed)
  | fail other error =>
      obtain ⟨old, op, next, hfailed, -⟩ := step_fail h
      exact .inl (hraised hfailed)
  | env event =>
      obtain ⟨calls, -, htasks⟩ := step_env h
      rw [htasks] at htask
      exact .inl (hspawned htask)

/-! ## Runs -/

/-- The pools reachable by steps that all meet the condition `ok`. -/
inductive Reach (sys : System Res ε α κ σ ν)
    (ok : Pool Res ε α κ σ → Action ε κ ν → Prop)
    (init : Pool Res ε α κ σ) : Pool Res ε α κ σ → Prop
  | refl : Reach sys ok init init
  | tail {pool pool' : Pool Res ε α κ σ} (action : Action ε κ ν) :
      Reach sys ok init pool → ok pool action →
      sys.step pool action = some pool' → Reach sys ok init pool'

variable {ok ok' : Pool Res ε α κ σ → Action ε κ ν → Prop}
  {init : Pool Res ε α κ σ}

theorem Reach.mono (h : Reach sys ok init pool)
    (himp : ∀ pool action, ok pool action → ok' pool action) :
    Reach sys ok' init pool := by
  induction h with
  | refl => exact .refl
  | tail action _ hok hstep ih => exact .tail action ih (himp _ _ hok) hstep

theorem Reach.trans {middle : Pool Res ε α κ σ}
    (first : Reach sys ok init middle) (second : Reach sys ok middle pool) :
    Reach sys ok init pool := by
  induction second with
  | refl => exact first
  | tail action _ hok hstep ih => exact .tail action ih hok hstep

theorem reach_of_run {actions : List (Action ε κ ν)}
    (hrun : sys.run init actions = some pool) :
    Reach sys (fun _ _ => True) init pool := by
  induction actions generalizing init with
  | nil =>
      obtain rfl := Option.some.inj hrun
      exact .refl
  | cons action actions ih =>
      simp only [run] at hrun
      split at hrun
      · rename_i next hstep
        exact Reach.trans (.tail action .refl trivial hstep) (ih hrun)
      · cases hrun

theorem reach_of_runWhere [∀ pool action, Decidable (ok pool action)]
    {actions : List (Action ε κ ν)}
    (hrun : sys.runWhere ok init actions = some pool) :
    Reach sys ok init pool := by
  induction actions generalizing init with
  | nil =>
      obtain rfl := Option.some.inj hrun
      exact .refl
  | cons action actions ih =>
      simp only [runWhere] at hrun
      split at hrun
      · rename_i hok
        split at hrun
        · rename_i next hstep
          exact Reach.trans (.tail action .refl hok hstep) (ih hrun)
        · cases hrun
      · cases hrun

/-- The induction rule of runs, by what a step can do. -/
theorem Reach.invariant {I : Pool Res ε α κ σ → Prop}
    (hinit : I init)
    (hstart : ∀ pool call, Reach sys ok init pool → I pool →
      ok pool (.start call) → sys.starts call = true →
      I { pool with tasks := pool.tasks ++ [sys.spawn call] })
    (hdone : ∀ pool pool' index task op next value,
      Reach sys ok init pool → I pool → ok pool (.run index) →
      sys.Done pool pool' index task op next value → I pool')
    (hraised : ∀ pool pool' index task op next error,
      Reach sys ok init pool → I pool →
      (ok pool (.run index) ∧ sys.exec op pool.store = .error error ∨
        ok pool (.fail index error) ∧ sys.fallible op = true) →
      Raised pool pool' index task op next error → I pool')
    (henv : ∀ pool pool' event calls, Reach sys ok init pool → I pool →
      ok pool (.env event) →
      sys.env event pool.store pool.tasks.length =
        some (pool'.store, calls) →
      pool'.tasks = pool.tasks ++ calls.map sys.spawn → I pool')
    (h : Reach sys ok init pool) : I pool := by
  induction h with
  | refl => exact hinit
  | tail action hreach hok hstep ih =>
      cases action with
      | start call =>
          obtain ⟨hstarts, rfl⟩ := step_start hstep
          exact hstart _ call hreach ih hok hstarts
      | run index =>
          rcases step_run hstep with
            ⟨task, op, next, value, hdone'⟩ |
            ⟨task, op, next, error, hraised', hexec⟩
          · exact hdone _ _ index task op next value hreach ih hok hdone'
          · exact hraised _ _ index task op next error hreach ih
              (.inl ⟨hok, hexec⟩) hraised'
      | fail index error =>
          obtain ⟨task, op, next, hraised', hfallible⟩ := step_fail hstep
          exact hraised _ _ index task op next error hreach ih
            (.inr ⟨hok, hfallible⟩) hraised'
      | env event =>
          obtain ⟨calls, henv', htasks⟩ := step_env hstep
          exact henv _ _ event calls hreach ih hok henv' htasks

/-- A property of each call together with the store: steps of other calls and
events keep it, and so do the steps of the call itself. -/
theorem Reach.forall_tasks {P : σ → Task Res ε α κ → Prop}
    (hinit : ∀ task ∈ init.tasks, P init.store task)
    (hspawn : ∀ store call, P store (sys.spawn call))
    (hexec : ∀ op store value store' task,
      sys.exec op store = .ok (value, store') → P store task → P store' task)
    (henv : ∀ event store count store' calls task,
      sys.env event store count = some (store', calls) →
      P store task → P store' task)
    (hdone : ∀ pool pool' index task op next value,
      Reach sys ok init pool → P pool.store task →
      sys.Done pool pool' index task op next value →
      P pool'.store ⟨task.call, ⟨op, value⟩ :: task.trace, next (.ok value)⟩)
    (hraised : ∀ store task op next error, sys.mayRaise op → P store task →
      task.prog = .call op next →
      P store ⟨task.call, task.trace, next (.error error)⟩)
    (h : Reach sys ok init pool) :
    ∀ task ∈ pool.tasks, P pool.store task := by
  refine h.invariant (I := fun pool => ∀ task ∈ pool.tasks, P pool.store task)
    hinit ?_ ?_ ?_ ?_
  · intro pool call _ ih _ _ task htask
    rcases List.mem_append.mp htask with hold | hnew
    · exact ih task hold
    · obtain rfl := List.mem_singleton.mp hnew
      exact hspawn _ call
  · intro pool pool' index task op next value hreach ih _ hdone' other hother
    rw [hdone'.tasks] at hother
    rcases List.mem_or_eq_of_mem_set hother with hold | rfl
    · exact hexec _ _ _ _ _ hdone'.exec (ih other hold)
    · have hmem := List.mem_of_getElem? hdone'.at_index
      exact hdone _ _ _ _ _ _ _ hreach (ih task hmem) hdone'
  · intro pool pool' index task op next error _ ih hcause hraised' other hother
    have hraises : sys.mayRaise op := by
      rcases hcause with ⟨-, hexec⟩ | ⟨-, hfallible⟩
      · exact .inr ⟨_, _, hexec⟩
      · exact .inl hfallible
    rw [hraised'.tasks] at hother
    rw [hraised'.store]
    rcases List.mem_or_eq_of_mem_set hother with hold | rfl
    · exact ih other hold
    · have hmem := List.mem_of_getElem? hraised'.at_index
      exact hraised _ _ _ _ _ hraises (ih task hmem) hraised'.awaits
  · intro pool pool' event calls _ ih _ henv' htasks task htask
    rw [htasks] at htask
    rcases List.mem_append.mp htask with hold | hnew
    · exact henv _ _ _ _ _ _ henv' (ih task hold)
    · obtain ⟨call, -, rfl⟩ := List.mem_map.mp hnew
      exact hspawn _ call

/-- Rows that were not there at the start were made by operations of calls. -/
theorem Reach.rows_made {ρ : Type} {R : σ → List ρ}
    {P : ρ → (Σ op, Res op) → Prop}
    (hexec : ∀ op store value store', sys.exec op store = .ok (value, store') →
      ∀ row ∈ R store', P row ⟨op, value⟩ ∨
        ∃ old ∈ R store, ∀ entry, P old entry → P row entry)
    (henv : ∀ event store count store' calls,
      sys.env event store count = some (store', calls) →
      R store' = R store)
    (hinit : R init.store = []) (h : Reach sys ok init pool) :
    ∀ row ∈ R pool.store,
      ∃ task ∈ pool.tasks, ∃ entry ∈ task.trace, P row entry := by
  refine h.invariant (I := fun pool => ∀ row ∈ R pool.store,
    ∃ task ∈ pool.tasks, ∃ entry ∈ task.trace, P row entry) ?_ ?_ ?_ ?_ ?_
  · simp [hinit]
  · intro pool call _ ih _ _ row hrow
    obtain ⟨task, htask, hmade⟩ := ih row hrow
    exact ⟨task, List.mem_append_left _ htask, hmade⟩
  · intro pool pool' index task op next value _ ih _ hdone row hrow
    -- The traces only get longer.
    have hkept : ∀ other ∈ pool.tasks, ∀ entry ∈ other.trace,
        ∃ other' ∈ pool'.tasks, entry ∈ other'.trace := by
      intro other hother entry hentry
      obtain ⟨position, hposition⟩ := List.mem_iff_getElem?.mp hother
      have hafter := hdone.tasks_getElem? position
      split at hafter
      · rename_i heq
        subst heq
        obtain rfl := Option.some.inj (hdone.at_index.symm.trans hposition)
        exact ⟨_, List.mem_of_getElem? hafter, List.mem_cons_of_mem _ hentry⟩
      · exact ⟨other, List.mem_of_getElem? (hafter.trans hposition), hentry⟩
    rcases hexec _ _ _ _ hdone.exec row hrow with hnew | ⟨old, hold, himp⟩
    · have hafter := hdone.tasks_getElem? index
      rw [if_pos rfl] at hafter
      exact ⟨_, List.mem_of_getElem? hafter, _, List.mem_cons_self, hnew⟩
    · obtain ⟨other, hother, entry, hentry, hmade⟩ := ih old hold
      obtain ⟨other', hother', hentry'⟩ := hkept other hother entry hentry
      exact ⟨other', hother', entry, hentry', himp entry hmade⟩
  · intro pool pool' index task op next error _ ih _ hraised row hrow
    rw [hraised.store] at hrow
    obtain ⟨other, hother, hmade⟩ := ih row hrow
    obtain ⟨position, hposition⟩ := List.mem_iff_getElem?.mp hother
    have hafter := hraised.tasks_getElem? position
    split at hafter
    · rename_i heq
      subst heq
      obtain rfl := Option.some.inj (hraised.at_index.symm.trans hposition)
      exact ⟨_, List.mem_of_getElem? hafter, hmade⟩
    · exact ⟨other, List.mem_of_getElem? (hafter.trans hposition), hmade⟩
  · intro pool pool' event calls _ ih _ hevent htasks row hrow
    rw [henv _ _ _ _ _ hevent] at hrow
    obtain ⟨task, htask, hmade⟩ := ih row hrow
    rw [htasks]
    exact ⟨task, List.mem_append_left _ htask, hmade⟩

/-- What a call has done it did at a moment of the run at which it had done no
more than what came before. -/
theorem Reach.performed_at (hinit : init.tasks = [])
    (h : Reach sys ok init pool) {index : Nat} {task : Task Res ε α κ}
    {entry : Σ op, Res op} {older : List (Σ op, Res op)}
    (htask : pool.tasks[index]? = some task)
    (hentry : entry :: older <:+ task.trace) :
    ∃ before next store', Reach sys ok init before ∧ Reach sys ok before pool ∧
      before.tasks[index]? = some ⟨task.call, older, .call entry.1 next⟩ ∧
      sys.exec entry.1 before.store = .ok (entry.2, store') := by
  induction h generalizing task with
  | refl => simp [hinit] at htask
  | @tail middle pool action hreach hok hstep ih =>
      have hlast : Reach sys ok middle pool := .tail action .refl hok hstep
      rcases step_entry hstep htask hentry with ⟨old, hold, hcall, hsuffix⟩ |
        ⟨next, store', hnow, hexec⟩
      · obtain ⟨before, next, store', hfirst, hlater, hat, hexec⟩ :=
          ih hold hsuffix
        exact ⟨before, next, store', hfirst, hlater.trans hlast, hcall ▸ hat,
          hexec⟩
      · exact ⟨middle, next, store', hreach, hlast, hnow, hexec⟩

theorem Reach.performed (hinit : init.tasks = []) (h : Reach sys ok init pool) :
    ∀ task ∈ pool.tasks, ∀ entry ∈ task.trace, ∃ before store',
      Reach sys ok init before ∧ Reach sys ok before pool ∧
        sys.exec entry.1 before.store = .ok (entry.2, store') := by
  intro task htask entry hentry
  obtain ⟨index, hindex⟩ := List.mem_iff_getElem?.mp htask
  obtain ⟨newer, older, hsplit⟩ := List.append_of_mem hentry
  obtain ⟨before, -, store', hfirst, hlater, -, hexec⟩ :=
    h.performed_at hinit hindex (hsplit ▸ List.suffix_append newer (entry :: older))
  exact ⟨before, store', hfirst, hlater, hexec⟩

theorem Reach.uses {allowed : κ → Op → Prop}
    (hbody : ∀ call, (sys.body call).Uses (allowed call))
    (hinit : init.tasks = []) (h : Reach sys ok init pool) :
    ∀ task ∈ pool.tasks, task.prog.Uses (allowed task.call) := by
  refine h.forall_tasks (P := fun _ task => task.prog.Uses (allowed task.call))
    ?_ ?_ ?_ ?_ ?_ ?_
  · simp [hinit]
  · exact fun _ call => hbody call
  · exact fun _ _ _ _ _ _ huses => huses
  · exact fun _ _ _ _ _ _ _ huses => huses
  · intro pool pool' index task op next value _ huses hdone
    rw [hdone.awaits] at huses
    exact huses.2 _
  · intro store task op next error _ huses hprog
    rw [hprog] at huses
    exact huses.2 _

theorem Reach.used {allowed : κ → Op → Prop}
    (hbody : ∀ call, (sys.body call).Uses (allowed call))
    (hinit : init.tasks = []) (h : Reach sys ok init pool) :
    ∀ task ∈ pool.tasks, ∀ entry ∈ task.trace, allowed task.call entry.1 := by
  have hboth := h.forall_tasks (P := fun _ task =>
    task.prog.Uses (allowed task.call) ∧
      ∀ entry ∈ task.trace, allowed task.call entry.1) ?_ ?_ ?_ ?_ ?_ ?_
  · exact fun task htask => (hboth task htask).2
  · simp [hinit]
  · exact fun _ call => ⟨hbody call, fun _ hentry => nomatch hentry⟩
  · exact fun _ _ _ _ _ _ hused => hused
  · exact fun _ _ _ _ _ _ _ hused => hused
  · intro pool pool' index task op next value _ hused hdone
    obtain ⟨huses, htrace⟩ := hused
    rw [hdone.awaits] at huses
    refine ⟨huses.2 _, fun entry hentry => ?_⟩
    rcases List.mem_cons.mp hentry with rfl | hbefore
    · exact huses.1
    · exact htrace entry hbefore
  · intro store task op next error _ hused hprog
    obtain ⟨huses, htrace⟩ := hused
    rw [hprog] at huses
    exact ⟨huses.2 _, htrace⟩

/-- A property of the store that the operations of the calls and the events
keep. -/
theorem Reach.keeps {allowed : κ → Op → Prop} {J : σ → Prop}
    (hbody : ∀ call, (sys.body call).Uses (allowed call))
    (hop : ∀ call op store value store', allowed call op →
      sys.exec op store = .ok (value, store') → J store → J store')
    (henv : ∀ event store count store' calls,
      sys.env event store count = some (store', calls) → J store → J store')
    (hinit : init.tasks = []) (hstart : J init.store)
    (h : Reach sys ok init pool) : J pool.store := by
  refine h.invariant (I := fun pool => J pool.store) hstart ?_ ?_ ?_ ?_
  · exact fun _ _ _ hkept _ _ => hkept
  · intro pool pool' index task op next value hreach hkept _ hdone
    have huses := hreach.uses hbody hinit task
      (List.mem_of_getElem? hdone.at_index)
    rw [hdone.awaits] at huses
    exact hop task.call op _ _ _ huses.1 hdone.exec hkept
  · intro pool pool' index task op next error _ hkept _ hraised
    rw [hraised.store]
    exact hkept
  · exact fun _ _ event calls _ hkept _ henv' _ => henv _ _ _ _ _ henv' hkept

end System

end SyncBridge.Foundation
