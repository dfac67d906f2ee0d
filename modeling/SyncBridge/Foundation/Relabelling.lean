import SyncBridge.Foundation.Pool

/-!
# Calls under other names

A pool knows a call by the body that it runs.  A renaming of the calls that
keeps their bodies, and whether a client can start them, keeps every step: the
renamed pool does under the renamed actions what the pool does.
-/

namespace SyncBridge.Foundation

variable {Op : Type} {Res : Op → Type} {ε α κ σ ν : Type}

def Task.rename (f : κ → κ) (task : Task Res ε α κ) : Task Res ε α κ :=
  { task with call := f task.call }

def Pool.rename (f : κ → κ) (pool : Pool Res ε α κ σ) : Pool Res ε α κ σ :=
  { pool with tasks := pool.tasks.map (Task.rename f) }

def Action.rename (f : κ → κ) : Action ε κ ν → Action ε κ ν
  | .start call => .start (f call)
  | .run index => .run index
  | .fail index error => .fail index error
  | .env event => .env event

/-- The renamed calls run the same bodies, and the environment starts no call
that is renamed. -/
structure System.Renames (sys : System Res ε α κ σ ν) (f : κ → κ) : Prop where
  body : ∀ call, sys.body (f call) = sys.body call
  starts : ∀ call, sys.starts (f call) = sys.starts call
  env : ∀ event store number store' calls,
    sys.env event store number = some (store', calls) → calls.map f = calls

section Renaming

variable {sys : System Res ε α κ σ ν} {f : κ → κ}
  {pool : Pool Res ε α κ σ}

@[simp] theorem Pool.rename_store : (pool.rename f).store = pool.store := rfl

@[simp] theorem Pool.rename_getElem? {index : Nat} :
    (pool.rename f).tasks[index]? =
      pool.tasks[index]?.map (Task.rename f) := by
  simp [Pool.rename]

theorem System.Renames.spawn (h : sys.Renames f) (call : κ) :
    sys.spawn (f call) = (sys.spawn call).rename f := by
  simp [System.spawn, Task.rename, h.body]

theorem System.Renames.step (h : sys.Renames f) (action : Action ε κ ν) :
    sys.step (pool.rename f) (action.rename f) =
      (sys.step pool action).map (Pool.rename f) := by
  cases action with
  | start call =>
      simp only [System.step, Action.rename, h.starts]
      split
      · simp [Pool.rename, h.spawn]
      · rfl
  | run index =>
      simp only [System.step, Action.rename, Pool.rename_getElem?,
        Pool.rename_store]
      cases pool.tasks[index]? with
      | none => rfl
      | some task =>
          obtain ⟨call, trace, prog⟩ := task
          cases prog with
          | ret value => rfl
          | throw error => rfl
          | call op next =>
              simp only [Option.map_some, Task.rename]
              cases sys.exec op pool.store <;>
                simp [Pool.rename, List.map_set, Task.rename]
  | fail index error =>
      simp only [System.step, Action.rename, Pool.rename_getElem?,
        Pool.rename_store]
      cases pool.tasks[index]? with
      | none => rfl
      | some task =>
          obtain ⟨call, trace, prog⟩ := task
          cases prog with
          | ret value => rfl
          | throw error => rfl
          | call op next =>
              simp only [Option.map_some, Task.rename]
              split <;> simp [Pool.rename, List.map_set, Task.rename]
  | env event =>
      have hlength : (pool.rename f).tasks.length = pool.tasks.length := by
        simp [Pool.rename]
      simp only [System.step, Action.rename, Pool.rename_store, hlength]
      cases henv : sys.env event pool.store pool.tasks.length with
      | none => rfl
      | some outcome =>
          obtain ⟨store, calls⟩ := outcome
          have hspawn : (calls.map sys.spawn).map (Task.rename f) =
              calls.map sys.spawn := by
            have hnames : Task.rename f ∘ sys.spawn = sys.spawn ∘ f :=
              funext fun call => (h.spawn call).symm
            rw [List.map_map, hnames, ← List.map_map, h.env _ _ _ _ _ henv]
          simp only [Option.map_some, Pool.rename, List.map_append, hspawn]

theorem System.Renames.run (h : sys.Renames f) (actions : List (Action ε κ ν)) :
    sys.run (pool.rename f) (actions.map (Action.rename f)) =
      (sys.run pool actions).map (Pool.rename f) := by
  induction actions generalizing pool with
  | nil => rfl
  | cons action actions ih =>
      simp only [List.map_cons, System.run, h.step]
      cases sys.step pool action with
      | none => rfl
      | some next => exact ih

/-- Runs whose actions are the same once renamed end the same, once renamed. -/
theorem System.Renames.run_eq (h : sys.Renames f)
    {actions actions' : List (Action ε κ ν)}
    (hsame : actions.map (Action.rename f) = actions'.map (Action.rename f)) :
    (sys.run pool actions).map (Pool.rename f) =
      (sys.run pool actions').map (Pool.rename f) := by
  rw [← h.run, hsame, h.run]

end Renaming

end SyncBridge.Foundation
