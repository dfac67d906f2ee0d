import Mathlib.Logic.Hydra
import SyncBridge.Foundation.Pool

/-!
# Pools settle

What is left to do is a finite collection of items: the bodies of the calls and
the items that the store holds for the outside.  A step takes one item away and
puts any number of lesser ones in its place, so that steps which bring nothing
new from outside come to an end.
-/

namespace SyncBridge.Foundation

open Relation

/-! ## Bodies -/

namespace Prog

variable {Op : Type} {Res : Op → Type} {ε α : Type}

inductive Left : Prog Res ε α → Prog Res ε α → Prop
  | answered (op : Op) (next : Except ε (Res op) → Prog Res ε α)
      (result : Except ε (Res op)) : Left (next result) (.call op next)

theorem wellFounded_left :
    WellFounded (Left : Prog Res ε α → Prog Res ε α → Prop) := by
  refine ⟨fun body => ?_⟩
  induction body with
  | ret value => exact ⟨_, nofun⟩
  | throw error => exact ⟨_, nofun⟩
  | call op next ih =>
      refine ⟨_, fun rest hrest => ?_⟩
      cases hrest with
      | answered _ _ result => exact ih result

end Prog

/-! ## Items -/

section Items

variable {β ι : Type} {r : β → β → Prop}

abbrev Reduced (r : β → β → Prop) : Multiset β → Multiset β → Prop :=
  ReflTransGen (CutExpand r)

abbrev Lessened (r : β → β → Prop) : Multiset β → Multiset β → Prop :=
  TransGen (CutExpand r)

theorem wellFounded_lessened (h : WellFounded r) : WellFounded (Lessened r) :=
  h.cutExpand.transGen

theorem Reduced.add_right {less more : Multiset β} (h : Reduced r less more)
    (others : Multiset β) : Reduced r (less + others) (more + others) :=
  h.lift (· + others) fun _ _ hcut => (cutExpand_add_right others).mpr hcut

theorem Lessened.add_right {less more : Multiset β} (h : Lessened r less more)
    (others : Multiset β) : Lessened r (less + others) (more + others) :=
  h.lift (· + others) fun _ _ hcut => (cutExpand_add_right others).mpr hcut

theorem Reduced.add_left {less more : Multiset β} (h : Reduced r less more)
    (others : Multiset β) : Reduced r (others + less) (others + more) :=
  h.lift (others + ·) fun _ _ hcut => (cutExpand_add_left others).mpr hcut

theorem reduced_map {f g : ι → β} {items : List ι}
    (h : ∀ item ∈ items, f item = g item ∨ r (f item) (g item)) :
    Reduced r (items.map f) (items.map g) := by
  induction items with
  | nil => exact .refl
  | cons item items ih =>
      have hrest := ih fun other hother => h other (List.mem_cons_of_mem _ hother)
      have hhead : Reduced r {f item} {g item} := by
        rcases h item List.mem_cons_self with hsame | hless
        · rw [hsame]
        · exact .single (cutExpand_singleton_singleton hless)
      simp only [List.map_cons, ← Multiset.cons_coe, ← Multiset.singleton_add]
      exact (hhead.add_right _).trans (hrest.add_left _)

theorem coe_set_add {items : List β} {index : Nat} {item : β} (other : β)
    (hget : items[index]? = some item) :
    (↑(items.set index other) : Multiset β) + {item} = ↑items + {other} := by
  induction items generalizing index with
  | nil => cases hget
  | cons head items ih =>
      cases index with
      | zero =>
          obtain rfl := Option.some.inj hget
          simp only [List.set_cons_zero, ← Multiset.cons_coe,
            ← Multiset.singleton_add]
          ac_rfl
      | succ index =>
          simp only [List.set_cons_succ, ← Multiset.cons_coe, Multiset.cons_add]
          rw [ih hget]

end Items

/-! ## Pools -/

section Pools

variable {Op : Type} {Res : Op → Type} {ε α κ σ ν β : Type}
  {sys : System Res ε α κ σ ν} {r : β → β → Prop}

/-- What is left to do by calls and for the store. -/
structure Workload (Res : Op → Type) (ε α κ σ β : Type) where
  ofTask : κ → Prog Res ε α → β
  ofStore : σ → Multiset β

namespace Workload

variable (W : Workload Res ε α κ σ β)

def ofTasks (tasks : List (Task Res ε α κ)) : Multiset β :=
  tasks.map fun task => W.ofTask task.call task.prog

def ofPool (pool : Pool Res ε α κ σ) : Multiset β :=
  W.ofStore pool.store + W.ofTasks pool.tasks

/-- What an operation adds to the work of the store is less than what the call
had left, and the events are calm ones, which only pass work on, still ones,
which leave it alone, or others. -/
structure Lawful (sys : System Res ε α κ σ ν) (init : Pool Res ε α κ σ)
    (r : β → β → Prop) (calm still : ν → Prop) : Prop where
  wellFounded : WellFounded r
  left : ∀ call body rest, Prog.Left rest body →
    r (W.ofTask call rest) (W.ofTask call body)
  done : ∀ pool pool' index task op next value,
    sys.Reach (fun _ _ => True) init pool →
    sys.Done pool pool' index task op next value →
    ∃ new, (∀ item ∈ new, r item (W.ofTask task.call task.prog)) ∧
      Reduced r (W.ofStore pool'.store) (W.ofStore pool.store + new)
  calm : ∀ event store count store' calls, calm event → ¬ still event →
    sys.env event store count = some (store', calls) →
    Lessened r (W.ofStore store' + W.ofTasks (calls.map sys.spawn))
      (W.ofStore store)
  still : ∀ event store count store' calls, still event →
    sys.env event store count = some (store', calls) →
    W.ofStore store' = W.ofStore store ∧ calls = []

variable {W} {pool pool' init : Pool Res ε α κ σ} {calm still : ν → Prop}

theorem ofTasks_append {tasks more : List (Task Res ε α κ)} :
    W.ofTasks (tasks ++ more) = W.ofTasks tasks + W.ofTasks more := by
  simp [ofTasks]

theorem ofTasks_set {tasks : List (Task Res ε α κ)} {index : Nat}
    {task task' : Task Res ε α κ} (hget : tasks[index]? = some task) :
    W.ofTasks (tasks.set index task') + {W.ofTask task.call task.prog} =
      W.ofTasks tasks + {W.ofTask task'.call task'.prog} := by
  simp only [ofTasks, List.map_set]
  exact coe_set_add _ (by simp [hget])

/-- A step of a call takes its body away and puts what is left of it and the new
items in its place. -/
theorem Lawful.lessened_step (h : W.Lawful sys init r calm still) {index : Nat}
    {task task' : Task Res ε α κ} {new : Multiset β}
    (hget : pool.tasks[index]? = some task)
    (htasks : pool'.tasks = pool.tasks.set index task')
    (hcall : task'.call = task.call) (hleft : Prog.Left task'.prog task.prog)
    (hnew : ∀ item ∈ new, r item (W.ofTask task.call task.prog))
    (hstore : Reduced r (W.ofStore pool'.store) (W.ofStore pool.store + new)) :
    Lessened r (W.ofPool pool') (W.ofPool pool) := by
  have hcut : CutExpand r (W.ofStore pool.store + new + W.ofTasks pool'.tasks)
      (W.ofPool pool) := by
    refine ⟨{W.ofTask task'.call task'.prog} + new, W.ofTask task.call task.prog,
      fun item hitem => ?_, ?_⟩
    · rcases Multiset.mem_add.mp hitem with hrest | hadded
      · obtain rfl := Multiset.mem_singleton.mp hrest
        rw [hcall]
        exact h.left _ _ _ hleft
      · exact hnew item hadded
    · rw [add_assoc, htasks, ofTasks_set hget, ofPool]
      ac_rfl
  exact TransGen.trans_right (hstore.add_right _) (.single hcut)

def Drains (calm : ν → Prop) : Action ε κ ν → Prop
  | .start _ => False
  | .env event => calm event
  | _ => True

def Idle (still : ν → Prop) : Action ε κ ν → Prop
  | .env event => still event
  | _ => False

theorem Lawful.step (h : W.Lawful sys init r calm still)
    (hreach : sys.Reach (fun _ _ => True) init pool) {action : Action ε κ ν}
    (hdrains : Drains calm action) (hstep : sys.step pool action = some pool') :
    Idle still action ∧ W.ofPool pool' = W.ofPool pool ∨
      ¬ Idle still action ∧ Lessened r (W.ofPool pool') (W.ofPool pool) := by
  have hraised : ∀ {index task op next error},
      System.Raised pool pool' index task op next error →
      Lessened r (W.ofPool pool') (W.ofPool pool) := by
    intro index task op next error hraised
    refine h.lessened_step hraised.at_index hraised.tasks rfl ?_
      (fun item hitem => absurd hitem (Multiset.notMem_zero item)) ?_
    · rw [hraised.awaits]
      exact .answered op next _
    · rw [hraised.store, add_zero]
  cases action with
  | start call => exact hdrains.elim
  | run index =>
      refine .inr ⟨id, ?_⟩
      rcases System.step_run hstep with ⟨task, op, next, value, hdone⟩ |
        ⟨task, op, next, error, hfailed, -⟩
      · obtain ⟨new, hnew, hstore⟩ := h.done _ _ _ _ _ _ _ hreach hdone
        refine h.lessened_step hdone.at_index hdone.tasks rfl ?_ hnew hstore
        rw [hdone.awaits]
        exact .answered op next _
      · exact hraised hfailed
  | fail index error =>
      obtain ⟨task, op, next, hfailed, -⟩ := System.step_fail hstep
      exact .inr ⟨id, hraised hfailed⟩
  | env event =>
      obtain ⟨calls, henv, htasks⟩ := System.step_env hstep
      by_cases hstill : still event
      · obtain ⟨hstore, rfl⟩ := h.still _ _ _ _ _ hstill henv
        refine .inl ⟨hstill, ?_⟩
        simp [ofPool, hstore, htasks]
      · have hless := h.calm _ _ _ _ _ hdrains hstill henv
        refine .inr ⟨hstill, ?_⟩
        have hsame : W.ofPool pool' = W.ofStore pool'.store +
            W.ofTasks (calls.map sys.spawn) + W.ofTasks pool.tasks := by
          rw [ofPool, htasks, ofTasks_append]
          ac_rfl
        rw [hsame]
        exact hless.add_right _

/-- A sequence of steps that bring no new work is idle from some moment on. -/
theorem Lawful.idle_eventually (h : W.Lawful sys init r calm still)
    {pools : Nat → Pool Res ε α κ σ} {actions : Nat → Action ε κ ν}
    (hreach : sys.Reach (fun _ _ => True) init (pools 0))
    (hdrains : ∀ moment, Drains calm (actions moment))
    (hsteps : ∀ moment,
      sys.step (pools moment) (actions moment) = some (pools (moment + 1))) :
    ∃ bound, ∀ moment ≥ bound, Idle still (actions moment) := by
  have hreached : ∀ moment,
      sys.Reach (fun _ _ => True) init (pools moment) := by
    intro moment
    induction moment with
    | zero => exact hreach
    | succ moment ih => exact .tail (actions moment) ih trivial (hsteps moment)
  have hstep := fun moment =>
    h.step (hreached moment) (hdrains moment) (hsteps moment)
  -- By induction on the work that is left at a moment.
  suffices ∀ load moment, W.ofPool (pools moment) = load →
      ∃ bound, ∀ later ≥ bound, Idle still (actions later) from
    this _ 0 rfl
  intro load
  induction load using (wellFounded_lessened h.wellFounded).induction with
  | _ load ih =>
      rintro moment rfl
      by_contra hnever
      push Not at hnever
      have hkept : ∀ distance, W.ofPool (pools (moment + distance)) =
          W.ofPool (pools moment) := by
        intro distance
        induction distance with
        | zero => rfl
        | succ distance hbefore =>
            rcases hstep (moment + distance) with ⟨-, hsame⟩ | ⟨-, hless⟩
            · exact hsame.trans hbefore
            · rw [hbefore] at hless
              obtain ⟨bound, hidle⟩ := ih _ hless _ rfl
              obtain ⟨later, hlater, hbusy⟩ := hnever bound
              exact absurd (hidle later hlater) hbusy
      obtain ⟨later, hlater, hbusy⟩ := hnever moment
      obtain ⟨distance, rfl⟩ := Nat.exists_eq_add_of_le hlater
      rcases hstep (moment + distance) with ⟨hidle, -⟩ | ⟨-, hless⟩
      · exact hbusy hidle
      · rw [hkept] at hless
        obtain ⟨bound, hidle⟩ := ih _ hless _ rfl
        obtain ⟨later, hlater, hbusy⟩ := hnever bound
        exact hbusy (hidle later hlater)

/-- A pool can be brought to where nothing is left but idling. -/
theorem Lawful.exists_settled (h : W.Lawful sys init r calm still)
    (hreach : sys.Reach (fun _ _ => True) init pool) :
    ∃ actions settled, sys.run pool actions = some settled ∧
      (∀ action ∈ actions, Drains calm action ∧ ¬ Idle still action) ∧
      ∀ action, Drains calm action → ¬ Idle still action →
        sys.step settled action = none := by
  generalize hload : W.ofPool pool = load
  induction load using (wellFounded_lessened h.wellFounded).induction
    generalizing pool with
  | _ load ih =>
      subst hload
      by_cases hbusy : ∃ action pool', Drains calm action ∧ ¬ Idle still action ∧
          sys.step pool action = some pool'
      · obtain ⟨action, pool', hdrains, hidle, hstep⟩ := hbusy
        have hless := (h.step hreach hdrains hstep).resolve_left fun h => hidle h.1
        obtain ⟨actions, settled, hrun, hactions, hsettled⟩ :=
          ih _ hless.2 (.tail action hreach trivial hstep) rfl
        refine ⟨action :: actions, settled, ?_, ?_, hsettled⟩
        · rw [System.run, hstep]
          exact hrun
        · exact List.forall_mem_cons.mpr ⟨⟨hdrains, hidle⟩, hactions⟩
      · refine ⟨[], pool, rfl, fun action haction => ?_, ?_⟩
        · cases haction
        · intro action hdrains hidle
          cases hstep : sys.step pool action with
          | none => rfl
          | some pool' => exact absurd ⟨action, pool', hdrains, hidle, hstep⟩ hbusy

end Workload

end Pools

end SyncBridge.Foundation
