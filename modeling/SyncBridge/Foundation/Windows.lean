import SyncBridge.Foundation.Monitor
import SyncBridge.Foundation.Table

/-!
# Check and act

A call looks at a resource, finds it free, and acts on it some operations
later.  From the check to the act the call is in its window.  Nothing is locked,
so several calls can be in their windows for one resource; but as long as no
call enters a window that another call is in, at most one call is in it,
whatever the interleaving.  A resource that an act uses up is then acted on at
most once.
-/

namespace SyncBridge.Foundation

section Windows

variable {Op : Type} {Res : Op → Type} {ε α κ σ ν : Type}
  {sys : System Res ε α κ σ ν} {opens : κ → (op : Op) → Res op → Prop}
  {Inside : Task Res ε α κ → Prop} {pool pool' init : Pool Res ε α κ σ}

/-- A call gets into the window by an operation that opens it. -/
structure Window (sys : System Res ε α κ σ ν)
    (opens : κ → (op : Op) → Res op → Prop)
    (Inside : Task Res ε α κ → Prop) : Prop where
  spawn : ∀ call, ¬ Inside (sys.spawn call)
  done : ∀ pool pool' index task op next value,
    sys.Done pool pool' index task op next value →
    Inside ⟨task.call, ⟨op, value⟩ :: task.trace, next (.ok value)⟩ →
    opens task.call op value ∨ Inside task
  raised : ∀ (pool pool' : Pool Res ε α κ σ) index task op next error,
    System.Raised pool pool' index task op next error →
    Inside ⟨task.call, task.trace, next (.error error)⟩ → Inside task

/-- The step lets a call into a window that another call is in. -/
def Crowds (sys : System Res ε α κ σ ν)
    (opens : κ → (op : Op) → Res op → Prop)
    (Inside : Task Res ε α κ → Prop) (pool : Pool Res ε α κ σ) :
    Action ε κ ν → Prop
  | .run index =>
      match pool.tasks[index]? with
      | some ⟨call, _, .call op _⟩ =>
          match sys.exec op pool.store with
          | .ok (value, _) => opens call op value ∧
              ∃ task ∈ pool.tasks.eraseIdx index, Inside task
          | .error _ => False
      | _ => False
  | _ => False

instance [∀ call op value, Decidable (opens call op value)]
    [DecidablePred Inside] (pool : Pool Res ε α κ σ) :
    DecidablePred (Crowds sys opens Inside pool)
  | .start _ | .fail _ _ | .env _ => inferInstanceAs (Decidable False)
  | .run index =>
      match htask : pool.tasks[index]? with
      | some ⟨call, _, .call op _⟩ =>
          match hexec : sys.exec op pool.store with
          | .ok (value, _) =>
              decidable_of_iff (opens call op value ∧
                ∃ task ∈ pool.tasks.eraseIdx index, Inside task)
                (by simp only [Crowds, htask, hexec])
          | .error _ => isFalse (by simp [Crowds, htask, hexec])
      | some ⟨_, _, .ret _⟩ | some ⟨_, _, .throw _⟩ | none =>
          isFalse (by simp [Crowds, htask])

theorem crowds_of_done {index other : Nat} {task inside : Task Res ε α κ}
    {op : Op} {next : Except ε (Res op) → Prog Res ε α} {value : Res op}
    (hdone : sys.Done pool pool' index task op next value)
    (hopens : opens task.call op value) (hne : other ≠ index)
    (hother : pool.tasks[other]? = some inside) (hinside : Inside inside) :
    Crowds sys opens Inside pool (.run index) := by
  obtain ⟨call, trace, prog⟩ := task
  obtain rfl := hdone.awaits
  simp only [Crowds, hdone.at_index, hdone.exec]
  exact ⟨hopens, inside,
    List.mem_eraseIdx_iff_getElem?.mpr ⟨other, hne, hother⟩, hinside⟩

theorem not_crowds_of_alone {action : Action ε κ ν}
    (hfinished : ∀ task, Inside task → task.prog.finished = false)
    (h : pool.alone action = true) :
    ¬ Crowds sys opens Inside pool action := by
  intro hcrowds
  cases action with
  | run index =>
      simp only [Crowds] at hcrowds
      split at hcrowds
      · split at hcrowds
        · obtain ⟨-, inside, hmem, hinside⟩ := hcrowds
          have hended := List.all_eq_true.mp h inside hmem
          rw [hfinished inside hinside] at hended
          cases hended
        · exact hcrowds
      · exact hcrowds
  | _ => exact hcrowds

theorem not_of_spawned {P : Task Res ε α κ → Prop} {calls : List κ}
    (hspawn : ∀ call, ¬ P (sys.spawn call)) :
    ∀ task ∈ calls.map sys.spawn, ¬ P task := by
  intro task htask
  obtain ⟨call, -, rfl⟩ := List.mem_map.mp htask
  exact hspawn call

theorem Window.atMostOne (hwindow : Window sys opens Inside)
    {ok : Pool Res ε α κ σ → Action ε κ ν → Prop}
    (hok : ∀ pool action, ok pool action →
      ¬ Crowds sys opens Inside pool action)
    (hinit : init.tasks = []) (h : sys.Reach ok init pool) :
    AtMostOne Inside pool.tasks := by
  refine h.invariant (I := fun pool => AtMostOne Inside pool.tasks)
    ?_ ?_ ?_ ?_ ?_
  · rw [hinit]
    exact AtMostOne.nil
  · intro pool call _ hone _ _
    refine hone.append ?_
    simpa using hwindow.spawn call
  · intro pool pool' index task op next value _ hone hkeeps hdone
    rw [hdone.tasks]
    by_cases hnone : ∀ other ∈ pool.tasks, ¬ Inside other
    · exact AtMostOne.set_of_none hnone
    · refine hone.set hdone.at_index fun hnew => ?_
      rcases hwindow.done _ _ _ _ _ _ _ hdone hnew with hopens | hold
      · -- The call that is inside already can only be this one.
        simp only [not_forall, not_not] at hnone
        obtain ⟨inside, hmem, hinside⟩ := hnone
        obtain ⟨other, hother⟩ := List.mem_iff_getElem?.mp hmem
        by_cases heq : other = index
        · subst heq
          obtain rfl := Option.some.inj (hother.symm.trans hdone.at_index)
          exact hinside
        · exact absurd (crowds_of_done hdone hopens heq hother hinside)
            (hok _ _ hkeeps)
      · exact hold
  · intro pool pool' index task op next error _ hone _ hraised
    rw [hraised.tasks]
    exact hone.set hraised.at_index (hwindow.raised _ _ _ _ _ _ _ hraised)
  · intro pool pool' event calls _ hone _ _ htasks
    rw [htasks]
    exact hone.append (not_of_spawned hwindow.spawn)

end Windows

/-! ## Resources -/

structure CheckThenAct {Op : Type} (Res : Op → Type) (κ ι : Type) where
  /-- The resource that the answer of an operation shows to be free. -/
  finds : κ → (op : Op) → Res op → Option ι
  /-- The resource that an operation acts on. -/
  acts : κ → Op → Option ι
  /-- What is known of an answer, whatever the store was. -/
  facts : (op : Op) → Res op → Prop

structure Ledger (ι : Type) where
  free : List ι
  acted : List ι

namespace CheckThenAct

variable {Op : Type} {Res : Op → Type} {ε α κ σ ν ι : Type} [DecidableEq ι]
  (C : CheckThenAct Res κ ι)

def noteFree (call : κ) (free : List ι) (op : Op) (value : Res op) : List ι :=
  match C.finds call op value with
  | some key => key :: free
  | none =>
      match C.acts call op with
      | some key => free.filter fun other => other ≠ key
      | none => free

def monitor : Monitor Res κ (Ledger ι) where
  init _ := ⟨[], []⟩
  note call ledger op value :=
    ⟨C.noteFree call ledger.free op value,
      (C.acts call op).toList ++ ledger.acted⟩
  guard call ledger op := ∀ key, C.acts call op = some key → key ∈ ledger.free
  facts _ _ := C.facts

def InWindow (key : ι) (task : Task Res ε α κ) : Prop :=
  key ∈ (C.monitor.state task).free ∧
    ¬ task.prog.Uses fun op => C.acts task.call op ≠ some key

def HasActed (key : ι) (task : Task Res ε α κ) : Prop :=
  key ∈ (C.monitor.state task).acted

/-- The step finds a resource free while another call is in its window. -/
def Overlaps (sys : System Res ε α κ σ ν) (pool : Pool Res ε α κ σ)
    (action : Action ε κ ν) : Prop :=
  ∃ key, Crowds sys (fun call op value => C.finds call op value = some key)
    (C.InWindow key) pool action

variable {C} {call : κ} {free : List ι} {ledger : Ledger ι} {op : Op}
  {value : Res op} {key : ι}

theorem mem_noteFree (h : key ∈ C.noteFree call free op value) :
    C.finds call op value = some key ∨ key ∈ free := by
  simp only [noteFree] at h
  split at h
  · rename_i found hfound
    rcases List.mem_cons.mp h with rfl | hold
    · exact .inl hfound
    · exact .inr hold
  · split at h
    · exact .inr (List.mem_filter.mp h).1
    · exact .inr h

theorem not_mem_noteFree (hfinds : C.finds call op value = none)
    (hacts : C.acts call op = some key) :
    key ∉ C.noteFree call free op value := by
  simp [noteFree, hfinds, hacts]

theorem silent (hfinds : ∀ value, C.finds call op value = none)
    (hacts : C.acts call op = none) : C.monitor.Silent call ledger op := by
  constructor
  · intro key hkey
    rw [hacts] at hkey
    cases hkey
  · intro value
    simp [monitor, noteFree, hfinds, hacts]

section Spawned

variable (sys : System Res ε α κ σ ν)

theorem not_inWindow_spawn : ¬ C.InWindow key (sys.spawn call) := by
  rintro ⟨hmem, -⟩
  cases hmem

theorem not_hasActed_spawn : ¬ C.HasActed key (sys.spawn call) := by
  intro hmem
  cases hmem

end Spawned

theorem inWindow_of_acts {Q : Ledger ι → Except ε α → Prop}
    {task : Task Res ε α κ} {next : Except ε (Res op) → Prog Res ε α}
    (haccepts : C.monitor.Accepts task.call Q task.prog (C.monitor.state task))
    (hprog : task.prog = .call op next)
    (hacts : C.acts task.call op = some key) : C.InWindow key task := by
  rw [hprog] at haccepts
  refine ⟨haccepts.1 key hacts, fun huses => ?_⟩
  rw [hprog] at huses
  exact huses.1 hacts

section Steps

variable {sys : System Res ε α κ σ ν} {pool pool' init : Pool Res ε α κ σ}
  {index : Nat} {task : Task Res ε α κ}
  {next : Except ε (Res op) → Prog Res ε α}

theorem inWindow_of_done
    (hdone : sys.Done pool pool' index task op next value)
    (h : C.InWindow key
      ⟨task.call, ⟨op, value⟩ :: task.trace, next (.ok value)⟩) :
    C.finds task.call op value = some key ∨ C.InWindow key task := by
  obtain ⟨hmem, huses⟩ := h
  rcases mem_noteFree hmem with hfound | hold
  · exact .inl hfound
  · refine .inr ⟨hold, fun hall => huses ?_⟩
    rw [hdone.awaits] at hall
    exact hall.2 _

theorem inWindow_of_raised {error : ε}
    (hraised : System.Raised pool pool' index task op next error)
    (h : C.InWindow key ⟨task.call, task.trace, next (.error error)⟩) :
    C.InWindow key task := by
  obtain ⟨hmem, huses⟩ := h
  refine ⟨hmem, fun hall => huses ?_⟩
  rw [hraised.awaits] at hall
  exact hall.2 _

theorem not_inWindow_of_acts (hfinds : C.finds task.call op value = none)
    (hacts : C.acts task.call op = some key) (prog : Prog Res ε α) :
    ¬ C.InWindow key ⟨task.call, ⟨op, value⟩ :: task.trace, prog⟩ :=
  fun h => not_mem_noteFree hfinds hacts h.1

theorem hasActed_cons (prog : Prog Res ε α) :
    C.HasActed key ⟨task.call, ⟨op, value⟩ :: task.trace, prog⟩ ↔
      C.acts task.call op = some key ∨ C.HasActed key task := by
  have hacted : (C.monitor.state
      (⟨task.call, ⟨op, value⟩ :: task.trace, prog⟩ : Task Res ε α κ)).acted =
        (C.acts task.call op).toList ++ (C.monitor.state task).acted := rfl
  simp [HasActed, hacted]

theorem acted_iff {task : Task Res ε α κ} :
    C.HasActed key task ↔
      ∃ entry ∈ task.trace, C.acts task.call entry.1 = some key := by
  obtain ⟨call, trace, prog⟩ := task
  induction trace with
  | nil => exact ⟨fun hmem => (nomatch hmem), fun ⟨_, hmem, _⟩ => nomatch hmem⟩
  | cons entry trace ih =>
      have hcons : C.HasActed key ⟨call, entry :: trace, prog⟩ ↔
          C.acts call entry.1 = some key ∨ C.HasActed key ⟨call, trace, prog⟩ := by
        have hacted : (C.monitor.state
            (⟨call, entry :: trace, prog⟩ : Task Res ε α κ)).acted =
              (C.acts call entry.1).toList ++
                (C.monitor.state (⟨call, trace, prog⟩ : Task Res ε α κ)).acted :=
          rfl
        simp [HasActed, hacted]
      rw [hcons, ih]
      simp

variable {ok : Pool Res ε α κ σ → Action ε κ ν → Prop}

theorem window (key : ι) :
    Window sys (fun call op value => C.finds call op value = some key)
      (C.InWindow key) where
  spawn _ := not_inWindow_spawn sys
  done _ _ _ _ _ _ _ := inWindow_of_done
  raised _ _ _ _ _ _ _ := inWindow_of_raised

/-- Without overlaps at most one call is in the window of a resource. -/
theorem atMostOne_inWindow
    (hok : ∀ pool action, ok pool action → ¬ C.Overlaps sys pool action)
    (hinit : init.tasks = []) (h : sys.Reach ok init pool) (key : ι) :
    AtMostOne (C.InWindow key) pool.tasks :=
  (window key).atMostOne
    (fun pool action hkeeps hcrowds => hok pool action hkeeps ⟨key, hcrowds⟩)
    hinit h

end Steps

/-! ## Resources that an act uses up -/

/-- An act leaves the resource spent, nothing undoes that, and a spent resource
is not found free. -/
structure SingleUse (C : CheckThenAct Res κ ι) (sys : System Res ε α κ σ ν)
    (spent : σ → ι → Prop) : Prop where
  apart : ∀ call op value key, C.acts call op = some key →
    C.finds call op value = none
  acts : ∀ call op store value store' key,
    sys.exec op store = .ok (value, store') → C.acts call op = some key →
    spent store' key
  keeps : ∀ op store value store' key,
    sys.exec op store = .ok (value, store') → spent store key →
    spent store' key
  event : ∀ event store count store' calls key,
    sys.env event store count = some (store', calls) → spent store key →
    spent store' key
  finds : ∀ call op store value store' key,
    sys.exec op store = .ok (value, store') →
    C.finds call op value = some key → ¬ spent store key

section Uses

variable {sys : System Res ε α κ σ ν} {pool pool' init : Pool Res ε α κ σ}
  {ok : Pool Res ε α κ σ → Action ε κ ν → Prop} {spent : σ → ι → Prop}
  {Q : κ → Ledger ι → Except ε α → Prop}

structure ActedOnce (C : CheckThenAct Res κ ι) (spent : σ → ι → Prop) (key : ι)
    (pool : Pool Res ε α κ σ) : Prop where
  one : AtMostOne (C.HasActed key) pool.tasks
  closed : (∃ task ∈ pool.tasks, C.HasActed key task) →
    spent pool.store key ∧ ∀ task ∈ pool.tasks, ¬ C.InWindow key task

theorem ActedOnce.append (h : ActedOnce C spent key pool)
    {new : List (Task Res ε α κ)} {store : σ}
    (hspent : spent pool.store key → spent store key)
    (hacted : ∀ task ∈ new, ¬ C.HasActed key task)
    (houtside : ∀ task ∈ new, ¬ C.InWindow key task) :
    ActedOnce C spent key ⟨store, pool.tasks ++ new⟩ := by
  refine ⟨h.one.append hacted, ?_⟩
  rintro ⟨task, htask, hdid⟩
  have hold : task ∈ pool.tasks :=
    (List.mem_append.mp htask).resolve_right fun hnew => hacted task hnew hdid
  obtain ⟨hbefore, hclosed⟩ := h.closed ⟨task, hold, hdid⟩
  refine ⟨hspent hbefore, fun other hother => ?_⟩
  rcases List.mem_append.mp hother with hother | hother
  · exact hclosed other hother
  · exact houtside other hother

theorem ActedOnce.act {index : Nat} {task : Task Res ε α κ} {op : Op}
    {next : Except ε (Res op) → Prog Res ε α} {value : Res op}
    (h : ActedOnce C spent key pool) (huse : SingleUse C sys spent)
    (hone : AtMostOne (C.InWindow key) pool.tasks)
    (hdone : sys.Done pool pool' index task op next value)
    (hacts : C.acts task.call op = some key) (hinside : C.InWindow key task) :
    ActedOnce C spent key pool' := by
  have hmem := List.mem_of_getElem? hdone.at_index
  have hnone : ∀ other ∈ pool.tasks, ¬ C.HasActed key other :=
    fun other hother hdid =>
      (h.closed ⟨other, hother, hdid⟩).2 task hmem hinside
  constructor
  · rw [hdone.tasks]
    exact AtMostOne.set_of_none hnone
  · intro _
    refine ⟨huse.acts _ _ _ _ _ _ hdone.exec hacts, ?_⟩
    intro other hother hwindow
    obtain ⟨position, hposition⟩ := List.mem_iff_getElem?.mp hother
    rw [hdone.tasks_getElem?] at hposition
    split at hposition
    · obtain rfl := Option.some.inj hposition
      exact not_inWindow_of_acts (huse.apart _ _ _ _ hacts) hacts _ hwindow
    · rename_i hne
      exact hne (hone position index other task hposition hdone.at_index
        hwindow hinside)

theorem ActedOnce.other {index : Nat} {task : Task Res ε α κ} {op : Op}
    {next : Except ε (Res op) → Prog Res ε α} {value : Res op}
    (h : ActedOnce C spent key pool) (huse : SingleUse C sys spent)
    (hdone : sys.Done pool pool' index task op next value)
    (hacts : C.acts task.call op ≠ some key) :
    ActedOnce C spent key pool' := by
  have hmem := List.mem_of_getElem? hdone.at_index
  have hback : C.HasActed key
      ⟨task.call, ⟨op, value⟩ :: task.trace, next (.ok value)⟩ →
      C.HasActed key task := fun hnew =>
    ((hasActed_cons _).mp hnew).resolve_left hacts
  constructor
  · rw [hdone.tasks]
    exact h.one.set hdone.at_index hback
  · rintro ⟨other, hother, hdid⟩
    rw [hdone.tasks] at hother
    have hbefore : ∃ acted ∈ pool.tasks, C.HasActed key acted := by
      rcases List.mem_or_eq_of_mem_set hother with hold | rfl
      · exact ⟨other, hold, hdid⟩
      · exact ⟨task, hmem, hback hdid⟩
    obtain ⟨hspent, hclosed⟩ := h.closed hbefore
    refine ⟨huse.keeps _ _ _ _ _ hdone.exec hspent, fun other hother => ?_⟩
    rw [hdone.tasks] at hother
    intro hwindow
    rcases List.mem_or_eq_of_mem_set hother with hold | rfl
    · exact hclosed other hold hwindow
    · rcases inWindow_of_done hdone hwindow with hfound | hinside
      · exact huse.finds _ _ _ _ _ _ hdone.exec hfound hspent
      · exact hclosed task hmem hinside

theorem ActedOnce.raised {index : Nat} {task : Task Res ε α κ} {op : Op}
    {next : Except ε (Res op) → Prog Res ε α} {error : ε}
    (h : ActedOnce C spent key pool)
    (hraised : System.Raised pool pool' index task op next error) :
    ActedOnce C spent key pool' := by
  have hmem := List.mem_of_getElem? hraised.at_index
  constructor
  · rw [hraised.tasks]
    exact h.one.set hraised.at_index fun hdid => hdid
  · rintro ⟨other, hother, hdid⟩
    rw [hraised.tasks] at hother
    have hbefore : ∃ acted ∈ pool.tasks, C.HasActed key acted := by
      rcases List.mem_or_eq_of_mem_set hother with hold | rfl
      · exact ⟨other, hold, hdid⟩
      · exact ⟨task, hmem, hdid⟩
    obtain ⟨hspent, hclosed⟩ := h.closed hbefore
    refine ⟨hraised.store ▸ hspent, fun other hother hwindow => ?_⟩
    rw [hraised.tasks] at hother
    rcases List.mem_or_eq_of_mem_set hother with hold | rfl
    · exact hclosed other hold hwindow
    · exact hclosed task hmem (inWindow_of_raised hraised hwindow)

/-- Without overlaps a resource that an act uses up is acted on once. -/
theorem actedOnce (huse : SingleUse C sys spent)
    (hok : ∀ pool action, ok pool action → ¬ C.Overlaps sys pool action)
    (haccepts : ∀ pool, sys.Reach ok init pool → ∀ task ∈ pool.tasks,
      C.monitor.Accepts task.call (Q task.call) task.prog
        (C.monitor.state task))
    (hinit : init.tasks = []) (h : sys.Reach ok init pool) (key : ι) :
    ActedOnce C spent key pool := by
  refine h.invariant (I := ActedOnce C spent key) ?_ ?_ ?_ ?_ ?_
  · constructor
    · rw [hinit]
      exact AtMostOne.nil
    · rintro ⟨task, htask, -⟩
      rw [hinit] at htask
      cases htask
  · intro pool call _ hold _ _
    exact hold.append id (by simpa using not_hasActed_spawn sys)
      (by simpa using not_inWindow_spawn sys)
  · intro pool pool' index task op next value hreach hold _ hdone
    by_cases hacts : C.acts task.call op = some key
    · have hmem := List.mem_of_getElem? hdone.at_index
      exact hold.act huse (atMostOne_inWindow hok hinit hreach key) hdone hacts
        (inWindow_of_acts (haccepts pool hreach task hmem) hdone.awaits hacts)
    · exact hold.other huse hdone hacts
  · exact fun _ _ _ _ _ _ _ _ hold _ hraised => hold.raised hraised
  · intro pool pool' event calls _ hold _ henv htasks
    have hpool : pool' = ⟨pool'.store, pool.tasks ++ calls.map sys.spawn⟩ := by
      rw [← htasks]
    rw [hpool]
    exact hold.append (huse.event _ _ _ _ _ _ henv)
      (not_of_spawned fun _ => not_hasActed_spawn sys)
      (not_of_spawned fun _ => not_inWindow_spawn sys)

theorem not_hasActed_of_spent {middle : Pool Res ε α κ σ}
    (huse : SingleUse C sys spent) (hspent : spent middle.store key)
    (haccepts : ∀ pool, sys.Reach ok middle pool → ∀ task ∈ pool.tasks,
      C.monitor.Accepts task.call (Q task.call) task.prog
        (C.monitor.state task))
    (h : sys.Reach ok middle pool) :
    spent pool.store key ∧ ∀ (index : Nat) (task : Task Res ε α κ),
      middle.tasks.length ≤ index → pool.tasks[index]? = some task →
      key ∉ (C.monitor.state task).free ∧ ¬ C.HasActed key task := by
  have hnew : ∀ (tasks : List (Task Res ε α κ)) (calls : List κ) (index : Nat)
      (task : Task Res ε α κ),
      (tasks ++ calls.map sys.spawn)[index]? = some task →
      tasks[index]? = some task ∨ ∃ call, task = sys.spawn call := by
    intro tasks calls index task htask
    rw [List.getElem?_append] at htask
    split at htask
    · exact .inl htask
    · obtain ⟨call, -, hcall⟩ := List.mem_map.mp (List.mem_of_getElem? htask)
      exact .inr ⟨call, hcall.symm⟩
  refine h.invariant (I := fun pool => spent pool.store key ∧
    ∀ (index : Nat) (task : Task Res ε α κ), middle.tasks.length ≤ index →
      pool.tasks[index]? = some task →
      key ∉ (C.monitor.state task).free ∧ ¬ C.HasActed key task) ?_ ?_ ?_ ?_ ?_
  · refine ⟨hspent, fun index task hlate htask => ?_⟩
    rw [List.getElem?_eq_none hlate] at htask
    cases htask
  · intro pool call _ hold _ _
    refine ⟨hold.1, fun index task hlate htask => ?_⟩
    rcases hnew pool.tasks [call] index task htask with hbefore | ⟨call, rfl⟩
    · exact hold.2 index task hlate hbefore
    · exact ⟨List.not_mem_nil, not_hasActed_spawn sys⟩
  · intro pool pool' index task op next value hreach hold _ hdone
    have hstore := huse.keeps _ _ _ _ _ hdone.exec hold.1
    refine ⟨hstore, fun position other hlate hother => ?_⟩
    rw [hdone.tasks_getElem?] at hother
    split at hother
    · rename_i heq
      subst heq
      obtain rfl := Option.some.inj hother
      obtain ⟨hfree, hacted⟩ := hold.2 position task hlate hdone.at_index
      have haccepted := haccepts pool hreach task
        (List.mem_of_getElem? hdone.at_index)
      rw [hdone.awaits] at haccepted
      constructor
      · intro hmem
        rcases mem_noteFree hmem with hfound | hbefore
        · exact huse.finds _ _ _ _ _ _ hdone.exec hfound hold.1
        · exact hfree hbefore
      · intro hdid
        rcases (hasActed_cons _).mp hdid with hacts | hbefore
        · exact hfree (haccepted.1 key hacts)
        · exact hacted hbefore
    · exact hold.2 position other hlate hother
  · intro pool pool' index task op next error _ hold _ hraised
    refine ⟨hraised.store ▸ hold.1, fun position other hlate hother => ?_⟩
    rw [hraised.tasks_getElem?] at hother
    split at hother
    · rename_i heq
      subst heq
      obtain rfl := Option.some.inj hother
      exact hold.2 position task hlate hraised.at_index
    · exact hold.2 position other hlate hother
  · intro pool pool' event calls _ hold _ henv htasks
    refine ⟨huse.event _ _ _ _ _ _ henv hold.1, ?_⟩
    intro index task hlate htask
    rw [htasks] at htask
    rcases hnew pool.tasks calls index task htask with hbefore | ⟨call, rfl⟩
    · exact hold.2 index task hlate hbefore
    · exact ⟨List.not_mem_nil, not_hasActed_spawn sys⟩

end Uses

/-! ## Calls that do not overlap -/

theorem not_finished_of_inWindow {task : Task Res ε α κ}
    (h : C.InWindow key task) : task.prog.finished = false := by
  obtain ⟨call, trace, prog⟩ := task
  obtain ⟨-, huses⟩ := h
  cases prog with
  | ret value => exact absurd trivial huses
  | throw error => exact absurd trivial huses
  | call op next => rfl

theorem not_overlaps_of_alone {sys : System Res ε α κ σ ν}
    {pool : Pool Res ε α κ σ} {action : Action ε κ ν}
    (h : pool.alone action = true) : ¬ C.Overlaps sys pool action := by
  rintro ⟨key, hcrowds⟩
  exact not_crowds_of_alone (fun _ => not_finished_of_inWindow) h hcrowds

end CheckThenAct

end SyncBridge.Foundation
