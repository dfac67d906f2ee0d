import SyncBridge.Foundation.Monitor
import SyncBridge.Foundation.Table

/-!
# One owner at a time

A part of the store that only its owner writes.  `Free` describes the part as
long as nobody owns it, and `Held` relates it to what the monitor of its owner
has seen.  A call becomes the owner when nobody else is, and may give the part
up again.
-/

namespace SyncBridge.Foundation

variable {Op : Type} {Res : Op → Type} {ε α κ σ ν γ : Type}

/-- At most one call owns the part, and the part is as its owner expects. -/
structure Owned (M : Monitor Res κ γ) (owns : γ → Prop) (Free : σ → Prop)
    (Held : γ → σ → Prop) (pool : Pool Res ε α κ σ) : Prop where
  one : AtMostOne (fun task => owns (M.state task)) pool.tasks
  free : (∀ task ∈ pool.tasks, ¬ owns (M.state task)) → Free pool.store
  held : ∀ task ∈ pool.tasks, owns (M.state task) →
    Held (M.state task) pool.store

structure Ownership (M : Monitor Res κ γ) (owns : γ → Prop) (Free : σ → Prop)
    (Held : γ → σ → Prop) (sys : System Res ε α κ σ ν)
    (ok : Pool Res ε α κ σ → Action ε κ ν → Prop)
    (init : Pool Res ε α κ σ) : Prop where
  start : ∀ call, sys.starts call = true → ¬ owns (M.init call)
  /-- The owner acts and stays it, or gives the part up. -/
  acts : ∀ pool pool' index task op next value, sys.Reach ok init pool →
    ok pool (.run index) → sys.Done pool pool' index task op next value →
    M.guard task.call (M.state task) op → owns (M.state task) →
    Held (M.state task) pool.store →
    owns (M.note task.call (M.state task) op value) ∧
        Held (M.note task.call (M.state task) op value) pool'.store ∨
      ¬ owns (M.note task.call (M.state task) op value) ∧ Free pool'.store
  /-- Somebody else acts. -/
  passes : ∀ pool pool' index task op next value, sys.Reach ok init pool →
    sys.Done pool pool' index task op next value →
    M.guard task.call (M.state task) op → ¬ owns (M.state task) →
    ¬ owns (M.note task.call (M.state task) op value) →
    (Free pool.store → Free pool'.store) ∧
      ∀ g, Held g pool.store → Held g pool'.store
  /-- Somebody becomes the owner. -/
  takes : ∀ pool pool' index task op next value, sys.Reach ok init pool →
    sys.Done pool pool' index task op next value →
    M.guard task.call (M.state task) op → ¬ owns (M.state task) →
    owns (M.note task.call (M.state task) op value) →
    (∀ g, ¬ Held g pool.store) ∧
      (Free pool.store →
        Held (M.note task.call (M.state task) op value) pool'.store)
  /-- An event hands the part to a new call, or leaves it alone. -/
  event : ∀ (pool pool' : Pool Res ε α κ σ) event calls,
    sys.Reach ok init pool → ok pool (.env event) →
    sys.env event pool.store pool.tasks.length = some (pool'.store, calls) →
    ((Free pool.store → Free pool'.store) ∧
      (∀ g, Held g pool.store → Held g pool'.store) ∧
      ∀ call ∈ calls, ¬ owns (M.init call)) ∨
    ∃ call, calls = [call] ∧ owns (M.init call) ∧
      (∀ task ∈ pool.tasks, ¬ owns (M.state task)) ∧
      (Free pool.store → Held (M.init call) pool'.store)

variable {M : Monitor Res κ γ} {owns : γ → Prop} {Free : σ → Prop}
  {Held : γ → σ → Prop} {sys : System Res ε α κ σ ν}
  {ok : Pool Res ε α κ σ → Action ε κ ν → Prop}
  {init pool pool' : Pool Res ε α κ σ}

theorem System.Done.mem_tasks {index : Nat} {task other : Task Res ε α κ}
    {op : Op} {next : Except ε (Res op) → Prog Res ε α} {value : Res op}
    (hdone : sys.Done pool pool' index task op next value)
    (h : other ∈ pool'.tasks) :
    other = ⟨task.call, ⟨op, value⟩ :: task.trace, next (.ok value)⟩ ∨
      ∃ position, position ≠ index ∧ pool.tasks[position]? = some other := by
  obtain ⟨position, hposition⟩ := List.mem_iff_getElem?.mp h
  rw [hdone.tasks_getElem?] at hposition
  split at hposition
  · exact .inl (Option.some.inj hposition).symm
  · rename_i hne
    exact .inr ⟨position, hne, hposition⟩

section Done

variable {index : Nat} {task : Task Res ε α κ} {op : Op}
  {next : Except ε (Res op) → Prog Res ε α} {value : Res op}

theorem System.Done.acting_mem
    (hdone : sys.Done pool pool' index task op next value) :
    ⟨task.call, ⟨op, value⟩ :: task.trace, next (.ok value)⟩ ∈ pool'.tasks :=
  hdone.tasks ▸ List.mem_set (List.getElem?_eq_some_iff.mp hdone.at_index).1 _

theorem Owned.acted (hrule : Ownership M owns Free Held sys ok init)
    (h : Owned M owns Free Held pool) (hreach : sys.Reach ok init pool)
    (hok : ok pool (.run index))
    (hdone : sys.Done pool pool' index task op next value)
    (hguard : M.guard task.call (M.state task) op)
    (howns : owns (M.state task)) : Owned M owns Free Held pool' := by
  have hone : AtMostOne (fun task => owns (M.state task)) pool'.tasks := by
    rw [hdone.tasks]
    exact h.one.set hdone.at_index fun _ => howns
  have hothers : ∀ (position : Nat) (other : Task Res ε α κ),
      position ≠ index → pool.tasks[position]? = some other →
      ¬ owns (M.state other) := fun position other hne hposition howned =>
    hne (h.one position index other task hposition hdone.at_index howned howns)
  rcases hrule.acts _ _ _ _ _ _ _ hreach hok hdone hguard howns
    (h.held task (List.mem_of_getElem? hdone.at_index) howns) with
    ⟨hkeeps, hheld⟩ | ⟨hgives, hfree⟩
  · refine ⟨hone, fun hnone => absurd hkeeps (hnone _ hdone.acting_mem),
      fun other hother howned => ?_⟩
    rcases hdone.mem_tasks hother with rfl | ⟨position, hne, hposition⟩
    · exact hheld
    · exact absurd howned (hothers position other hne hposition)
  · refine ⟨hone, fun _ => hfree, fun other hother howned => ?_⟩
    rcases hdone.mem_tasks hother with rfl | ⟨position, hne, hposition⟩
    · exact absurd howned hgives
    · exact absurd howned (hothers position other hne hposition)

theorem Owned.taken (hrule : Ownership M owns Free Held sys ok init)
    (h : Owned M owns Free Held pool) (hreach : sys.Reach ok init pool)
    (hdone : sys.Done pool pool' index task op next value)
    (hguard : M.guard task.call (M.state task) op)
    (howns : ¬ owns (M.state task))
    (htakes : owns (M.note task.call (M.state task) op value)) :
    Owned M owns Free Held pool' := by
  obtain ⟨hnobody, hheld⟩ :=
    hrule.takes _ _ _ _ _ _ _ hreach hdone hguard howns htakes
  have hnone : ∀ other ∈ pool.tasks, ¬ owns (M.state other) :=
    fun other hother howned => hnobody _ (h.held other hother howned)
  refine ⟨?_, fun hnone' => absurd htakes (hnone' _ hdone.acting_mem),
    fun other hother howned => ?_⟩
  · rw [hdone.tasks]
    exact AtMostOne.set_of_none hnone
  · rcases hdone.mem_tasks hother with rfl | ⟨position, -, hposition⟩
    · exact hheld (h.free hnone)
    · exact absurd howned (hnone other (List.mem_of_getElem? hposition))

theorem Owned.passed (hrule : Ownership M owns Free Held sys ok init)
    (h : Owned M owns Free Held pool) (hreach : sys.Reach ok init pool)
    (hdone : sys.Done pool pool' index task op next value)
    (hguard : M.guard task.call (M.state task) op)
    (howns : ¬ owns (M.state task))
    (htakes : ¬ owns (M.note task.call (M.state task) op value)) :
    Owned M owns Free Held pool' := by
  obtain ⟨hfree, hheld⟩ :=
    hrule.passes _ _ _ _ _ _ _ hreach hdone hguard howns htakes
  refine ⟨?_, fun hnone => ?_, fun other hother howned => ?_⟩
  · rw [hdone.tasks]
    exact h.one.set hdone.at_index fun howned => absurd howned htakes
  · refine hfree (h.free fun other hother howned => ?_)
    obtain ⟨position, hposition⟩ := List.mem_iff_getElem?.mp hother
    by_cases hsame : position = index
    · subst hsame
      obtain rfl := Option.some.inj (hposition.symm.trans hdone.at_index)
      exact howns howned
    · refine hnone other (List.mem_of_getElem? (i := position) ?_) howned
      rw [hdone.tasks_getElem?, if_neg hsame]
      exact hposition
  · rcases hdone.mem_tasks hother with rfl | ⟨position, -, hposition⟩
    · exact absurd howned htakes
    · exact hheld _ (h.held other (List.mem_of_getElem? hposition) howned)

theorem Owned.done (hrule : Ownership M owns Free Held sys ok init)
    (h : Owned M owns Free Held pool) (hreach : sys.Reach ok init pool)
    (hok : ok pool (.run index))
    (hdone : sys.Done pool pool' index task op next value)
    (hguard : M.guard task.call (M.state task) op) :
    Owned M owns Free Held pool' := by
  by_cases howns : owns (M.state task)
  · exact h.acted hrule hreach hok hdone hguard howns
  · by_cases htakes : owns (M.note task.call (M.state task) op value)
    · exact h.taken hrule hreach hdone hguard howns htakes
    · exact h.passed hrule hreach hdone hguard howns htakes

end Done

theorem Owned.raised {index : Nat} {task : Task Res ε α κ} {op : Op}
    {next : Except ε (Res op) → Prog Res ε α} {error : ε}
    (h : Owned M owns Free Held pool)
    (hraised : System.Raised pool pool' index task op next error) :
    Owned M owns Free Held pool' := by
  have hmem := List.mem_of_getElem? hraised.at_index
  have hback : ∀ other ∈ pool'.tasks, ∃ original ∈ pool.tasks,
      M.state original = M.state other := by
    intro other hother
    rw [hraised.tasks] at hother
    rcases List.mem_or_eq_of_mem_set hother with hold | rfl
    · exact ⟨other, hold, rfl⟩
    · exact ⟨task, hmem, rfl⟩
  refine ⟨?_, fun hnone => ?_, fun other hother howned => ?_⟩
  · rw [hraised.tasks]
    exact h.one.set hraised.at_index fun howned => howned
  · rw [hraised.store]
    refine h.free fun other hother howned => ?_
    obtain ⟨position, hposition⟩ := List.mem_iff_getElem?.mp hother
    by_cases hsame : position = index
    · subst hsame
      obtain rfl := Option.some.inj (hposition.symm.trans hraised.at_index)
      refine hnone ⟨other.call, other.trace, next (.error error)⟩
        (hraised.tasks ▸ List.mem_set
          (List.getElem?_eq_some_iff.mp hraised.at_index).1 _) howned
    · refine hnone other (List.mem_of_getElem? (i := position) ?_) howned
      rw [hraised.tasks_getElem?, if_neg hsame]
      exact hposition
  · rw [hraised.store]
    obtain ⟨original, horiginal, hsame⟩ := hback other hother
    rw [← hsame] at howned ⊢
    exact h.held original horiginal howned

theorem Owned.spawned {calls : List κ}
    (h : Owned M owns Free Held pool)
    (hfree : Free pool.store → Free pool'.store)
    (hheld : ∀ g, Held g pool.store → Held g pool'.store)
    (hcalls : ∀ call ∈ calls, ¬ owns (M.init call))
    (htasks : pool'.tasks = pool.tasks ++ calls.map sys.spawn) :
    Owned M owns Free Held pool' := by
  have hnew : ∀ task ∈ calls.map sys.spawn, ¬ owns (M.state task) := by
    intro task htask
    obtain ⟨call, hcall, rfl⟩ := List.mem_map.mp htask
    exact hcalls call hcall
  refine ⟨?_, fun hnone => ?_, fun other hother howned => ?_⟩
  · rw [htasks]
    exact h.one.append hnew
  · refine hfree (h.free fun other hother => hnone other ?_)
    rw [htasks]
    exact List.mem_append_left _ hother
  · rw [htasks] at hother
    rcases List.mem_append.mp hother with hold | hlast
    · exact hheld _ (h.held other hold howned)
    · exact absurd howned (hnew other hlast)

theorem Owned.handed {call : κ} (h : Owned M owns Free Held pool)
    (hnone : ∀ task ∈ pool.tasks, ¬ owns (M.state task))
    (hheld : Free pool.store → Held (M.init call) pool'.store)
    (howns : owns (M.init call))
    (htasks : pool'.tasks = pool.tasks ++ [sys.spawn call]) :
    Owned M owns Free Held pool' := by
  have hlast : ∀ task ∈ pool'.tasks, owns (M.state task) →
      task = sys.spawn call := by
    intro task htask howned
    rw [htasks] at htask
    rcases List.mem_append.mp htask with hold | hnew
    · exact absurd howned (hnone task hold)
    · exact List.mem_singleton.mp hnew
  refine ⟨?_, fun hnobody => ?_, fun other hother howned => ?_⟩
  · have hindex : ∀ (position : Nat) (task : Task Res ε α κ),
        pool'.tasks[position]? = some task → owns (M.state task) →
        position = pool.tasks.length := by
      intro position task hposition howned
      rw [htasks, List.getElem?_append] at hposition
      split at hposition
      · exact absurd howned (hnone task (List.mem_of_getElem? hposition))
      · have hlt := (List.getElem?_eq_some_iff.mp hposition).1
        simp only [List.length_singleton] at hlt
        omega
    intro i j first second hi hj hfirst hsecond
    rw [hindex i first hi hfirst, hindex j second hj hsecond]
  · refine absurd howns (hnobody (sys.spawn call) ?_)
    rw [htasks]
    simp
  · obtain rfl := hlast other hother howned
    exact hheld (h.free hnone)

theorem Ownership.owned {Q : κ → γ → Except ε α → Prop}
    (hrule : Ownership M owns Free Held sys ok init)
    (haccepts : ∀ pool, sys.Reach ok init pool → ∀ task ∈ pool.tasks,
      M.Accepts task.call (Q task.call) task.prog (M.state task))
    (hinit : init.tasks = []) (hfree : Free init.store)
    (h : sys.Reach ok init pool) : Owned M owns Free Held pool := by
  refine h.invariant (I := Owned M owns Free Held) ?_ ?_ ?_ ?_ ?_
  · refine ⟨?_, fun _ => hfree, ?_⟩
    · rw [hinit]
      exact .nil
    · simp [hinit]
  · intro pool call _ hold _ hstarts
    have htasks : pool.tasks ++ [sys.spawn call] =
        pool.tasks ++ [call].map sys.spawn := rfl
    refine hold.spawned id (fun _ => id) (fun other hother => ?_) htasks
    obtain rfl := List.mem_singleton.mp hother
    exact hrule.start other hstarts
  · intro pool pool' index task op next value hreach hold hok hdone
    have hguard := haccepts pool hreach task (List.mem_of_getElem? hdone.at_index)
    rw [hdone.awaits] at hguard
    exact hold.done hrule hreach hok hdone hguard.1
  · intro pool pool' index task op next error _ hold _ hraised
    exact hold.raised hraised
  · intro pool pool' event calls hreach hold hok henv htasks
    rcases hrule.event _ _ _ _ hreach hok henv with
      ⟨hkeeps, hheld, hcalls⟩ | ⟨call, rfl, howns, hnone, hheld⟩
    · exact hold.spawned hkeeps hheld hcalls htasks
    · exact hold.handed hnone hheld howns htasks

end SyncBridge.Foundation
