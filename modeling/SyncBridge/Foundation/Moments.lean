import SyncBridge.Foundation.Monitor

/-!
# The moments of one call

What a call meets that has not been started at a certain moment: its operations
answer, and throw, as the states of the run since then make them.
-/

namespace SyncBridge.Foundation

variable {Op : Type} {Res : Op → Type} {ε α κ σ ν : Type}

namespace System

variable {sys : System Res ε α κ σ ν}
  {ok ok' : Pool Res ε α κ σ → Action ε κ ν → Prop}
  {middle pool : Pool Res ε α κ σ} {index : Nat}

theorem Reach.restrict {G : Pool Res ε α κ σ → Prop}
    (hback : ∀ pool action pool', sys.step pool action = some pool' →
      G pool' → G pool)
    (h : sys.Reach ok middle pool) (hG : G pool) :
    sys.Reach (fun pool action => ok pool action ∧ G pool) middle pool := by
  induction h with
  | refl => exact .refl
  | tail action _ hok hstep ih =>
      have hbefore := hback _ _ _ hstep hG
      exact .tail action (ih hbefore) ⟨hok, hbefore⟩ hstep

structure Meets (sys : System Res ε α κ σ ν)
    (ok : Pool Res ε α κ σ → Action ε κ ν → Prop)
    (middle : Pool Res ε α κ σ) (index : Nat) (call : κ)
    (trace : List (Σ op, Res op)) (pool : Pool Res ε α κ σ) : Prop where
  reach : sys.Reach ok middle pool
  acts : ok pool (.run index)
  task : ∃ prog, pool.tasks[index]? = some ⟨call, trace, prog⟩

/-- The monitor of call number `index`.  Its state is what the call has done. -/
def moments (sys : System Res ε α κ σ ν)
    (ok : Pool Res ε α κ σ → Action ε κ ν → Prop)
    (middle : Pool Res ε α κ σ) (index : Nat) :
    Monitor Res κ (List (Σ op, Res op)) where
  init _ := []
  note _ trace op value := ⟨op, value⟩ :: trace
  guard _ _ _ := True
  facts call trace op value := ∃ pool store',
    sys.Meets ok middle index call trace pool ∧
      sys.exec op pool.store = .ok (value, store')
  fails call trace op := ∃ pool error,
    sys.Meets ok middle index call trace pool ∧
      sys.exec op pool.store = .error error

/-- The call is accepted from where it stands, if its operations fail only where
the store makes them. -/
theorem Reach.accepts_moments {call : κ} {Q : Except ε α → Prop}
    (hlate : middle.tasks.length ≤ index)
    (hspared : ∀ pool error, ¬ ok pool (.fail index error))
    (hbody : (sys.moments ok middle index).Accepts call (fun _ result => Q result)
      (sys.body call) [])
    (h : sys.Reach ok middle pool) {task : Task Res ε α κ}
    (htask : pool.tasks[index]? = some task) (hcall : task.call = call) :
    (sys.moments ok middle index).Accepts call (fun _ result => Q result)
      task.prog task.trace := by
  have hspawn : ∀ (calls : List κ) {tasks : List (Task Res ε α κ)},
      (∀ task, tasks[index]? = some task → task.call = call →
        (sys.moments ok middle index).Accepts call (fun _ result => Q result)
          task.prog task.trace) →
      ∀ task, (tasks ++ calls.map sys.spawn)[index]? = some task →
        task.call = call →
        (sys.moments ok middle index).Accepts call (fun _ result => Q result)
          task.prog task.trace := by
    intro calls tasks hold task hget hcall
    rw [List.getElem?_append] at hget
    split at hget
    · exact hold task hget hcall
    · obtain ⟨call, -, rfl⟩ := List.mem_map.mp (List.mem_of_getElem? hget)
      subst hcall
      exact hbody
  refine h.invariant (I := fun pool => ∀ task, pool.tasks[index]? = some task →
    task.call = call →
    (sys.moments ok middle index).Accepts call (fun _ result => Q result)
      task.prog task.trace) ?_ ?_ ?_ ?_ ?_ task htask hcall
  · intro task hget
    rw [List.getElem?_eq_none hlate] at hget
    cases hget
  · exact fun pool call _ hold _ _ => hspawn [call] hold
  · intro pool pool' other task op next value hreach hold hok hdone task' hget
      hcall
    rw [hdone.tasks_getElem?] at hget
    split at hget
    · rename_i heq
      subst heq
      obtain rfl := Option.some.inj hget
      subst hcall
      have haccepts := hold task hdone.at_index rfl
      rw [hdone.awaits] at haccepts
      exact haccepts.2.1 value
        ⟨pool, _, ⟨hreach, hok, _, hdone.at_index⟩, hdone.exec⟩
    · exact hold task' hget hcall
  · intro pool pool' other task op next error hreach hold hcause hraised task'
      hget hcall
    rw [hraised.tasks_getElem?] at hget
    split at hget
    · rename_i heq
      subst heq
      obtain rfl := Option.some.inj hget
      subst hcall
      have haccepts := hold task hraised.at_index rfl
      rw [hraised.awaits] at haccepts
      rcases hcause with ⟨hok, hexec⟩ | ⟨hok, -⟩
      · exact haccepts.2.2
          ⟨pool, _, ⟨hreach, hok, _, hraised.at_index⟩, hexec⟩ error
      · exact absurd hok (hspared pool error)
    · exact hold task' hget hcall
  · intro pool pool' event calls _ hold _ _ htasks
    rw [htasks]
    exact hspawn calls hold

theorem Reach.ended_moments {call : κ} {Q : Except ε α → Prop}
    (hlate : middle.tasks.length ≤ index)
    (hspared : ∀ pool error, ¬ ok pool (.fail index error))
    (hbody : (sys.moments ok middle index).Accepts call (fun _ result => Q result)
      (sys.body call) [])
    (h : sys.Reach ok middle pool) {task : Task Res ε α κ}
    (htask : pool.tasks[index]? = some task) (hcall : task.call = call)
    (hended : task.prog.finished = true) :
    (∃ answer, task.prog = .ret answer ∧ Q (.ok answer)) ∨
      ∃ error, task.prog = .throw error ∧ Q (.error error) := by
  have haccepts := h.accepts_moments hlate hspared hbody htask hcall
  cases hprog : task.prog with
  | ret answer =>
      rw [hprog] at haccepts
      exact .inl ⟨answer, rfl, haccepts⟩
  | throw error =>
      rw [hprog] at haccepts
      exact .inr ⟨error, rfl, haccepts⟩
  | call op next =>
      rw [hprog] at hended
      cases hended

theorem Reach.stable {J : σ → Prop}
    (hexec : ∀ op store value store', sys.exec op store = .ok (value, store') →
      J store → J store')
    (hevent : ∀ event store count store' calls,
      sys.env event store count = some (store', calls) → J store → J store')
    (h : sys.Reach ok middle pool) (hstart : J middle.store) : J pool.store := by
  refine h.invariant (I := fun pool => J pool.store) hstart ?_ ?_ ?_ ?_
  · exact fun _ _ _ hkept _ _ => hkept
  · exact fun _ _ _ _ _ _ _ _ hkept _ hdone => hexec _ _ _ _ hdone.exec hkept
  · intro pool pool' other task op next error _ hkept _ hraised
    rw [hraised.store]
    exact hkept
  · exact fun _ _ _ _ _ hkept _ henv _ => hevent _ _ _ _ _ henv hkept

/-- What a call has done and what it has ended with stay as they are. -/
theorem Reach.keeps_task (h : sys.Reach ok middle pool)
    {task : Task Res ε α κ} (htask : middle.tasks[index]? = some task) :
    ∃ later, pool.tasks[index]? = some later ∧ later.call = task.call ∧
      task.trace <:+ later.trace ∧ (task.prog.finished = true → later = task) := by
  have happend : ∀ {later : Task Res ε α κ} {tasks new : List (Task Res ε α κ)},
      tasks[index]? = some later → (tasks ++ new)[index]? = some later := by
    intro later tasks new hget
    rw [List.getElem?_append_left (List.getElem?_eq_some_iff.mp hget).1]
    exact hget
  refine h.invariant (I := fun pool => ∃ later, pool.tasks[index]? = some later ∧
    later.call = task.call ∧ task.trace <:+ later.trace ∧
      (task.prog.finished = true → later = task)) ?_ ?_ ?_ ?_ ?_
  · exact ⟨task, htask, rfl, List.suffix_refl _, fun _ => rfl⟩
  · rintro pool call - ⟨later, hget, hsame⟩ - -
    exact ⟨later, happend hget, hsame⟩
  · rintro pool pool' other acting op next value - ⟨later, hget, hcall, htrace,
      hended⟩ - hdone
    have hafter := hdone.tasks_getElem? index
    split at hafter
    · rename_i heq
      subst heq
      obtain rfl := Option.some.inj (hdone.at_index.symm.trans hget)
      refine ⟨_, hafter, hcall, htrace.trans (List.suffix_cons _ _), fun hfin => ?_⟩
      have hnot : acting.prog.finished = false := by rw [hdone.awaits]; rfl
      rw [hended hfin, hfin] at hnot
      cases hnot
    · exact ⟨later, hafter.trans hget, hcall, htrace, hended⟩
  · rintro pool pool' other acting op next error - ⟨later, hget, hcall, htrace,
      hended⟩ - hraised
    have hafter := hraised.tasks_getElem? index
    split at hafter
    · rename_i heq
      subst heq
      obtain rfl := Option.some.inj (hraised.at_index.symm.trans hget)
      refine ⟨_, hafter, hcall, htrace, fun hfin => ?_⟩
      have hnot : acting.prog.finished = false := by rw [hraised.awaits]; rfl
      rw [hended hfin, hfin] at hnot
      cases hnot
    · exact ⟨later, hafter.trans hget, hcall, htrace, hended⟩
  · rintro pool pool' event calls - ⟨later, hget, hsame⟩ - - htasks
    exact ⟨later, htasks ▸ happend hget, hsame⟩

end System

end SyncBridge.Foundation
