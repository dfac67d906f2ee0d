import SyncBridge.Foundation.Monitor

/-!
# Custody of pending items

Some items of a store are pending and need somebody to finish them.  A call
that makes an item pending owes it, until it finishes the item or hands it over
to the outside, which then holds it and will start a call that owes it.  As
long as no call ends while it owes a pending item, every pending item is held
by the outside or owed by a call that has not ended, whatever the interleaving.
-/

namespace SyncBridge.Foundation

variable {Op : Type} {Res : Op → Type} {ε α κ σ ν ι : Type}
  {sys : System Res ε α κ σ ν} {M : Monitor Res κ (List ι)}

def EndsOwing (pending : σ → ι → Prop) (store : σ) (owed : List ι)
    (prog : Prog Res ε α) : Prop :=
  prog.finished = true ∧ ∃ item ∈ owed, pending store item

instance {pending : σ → ι → Prop} [∀ store item, Decidable (pending store item)]
    (store : σ) (owed : List ι) (prog : Prog Res ε α) :
    Decidable (EndsOwing pending store owed prog) := by
  unfold EndsOwing
  infer_instance

/-- The action ends a call that still owes a pending item. -/
def Abandons (sys : System Res ε α κ σ ν) (M : Monitor Res κ (List ι))
    (pending : σ → ι → Prop) (pool : Pool Res ε α κ σ) :
    Action ε κ ν → Prop
  | .run index =>
      match pool.tasks[index]? with
      | some ⟨call, trace, .call op next⟩ =>
          let owed := M.state ⟨call, trace, .call op next⟩
          match sys.exec op pool.store with
          | .ok (value, store) =>
              EndsOwing pending store (M.note call owed op value)
                (next (.ok value))
          | .error error =>
              EndsOwing pending pool.store owed (next (.error error))
      | _ => False
  | .fail index error =>
      match pool.tasks[index]? with
      | some ⟨call, trace, .call op next⟩ =>
          EndsOwing pending pool.store (M.state ⟨call, trace, .call op next⟩)
            (next (.error error))
      | _ => False
  | _ => False

instance {pending : σ → ι → Prop} [∀ store item, Decidable (pending store item)]
    (pool : Pool Res ε α κ σ) (action : Action ε κ ν) :
    Decidable (Abandons sys M pending pool action) := by
  unfold Abandons
  split
  · split
    · dsimp only
      split <;> infer_instance
    · infer_instance
  · split <;> infer_instance
  · infer_instance

section Abandoning

variable {pending : σ → ι → Prop} {pool pool' : Pool Res ε α κ σ} {index : Nat}
  {task : Task Res ε α κ} {op : Op} {next : Except ε (Res op) → Prog Res ε α}
  {item : ι}

theorem abandons_of_done {value : Res op}
    (hdone : sys.Done pool pool' index task op next value)
    (hended : (next (.ok value)).finished = true)
    (howes : item ∈ M.note task.call (M.state task) op value)
    (hpending : pending pool'.store item) :
    Abandons sys M pending pool (.run index) := by
  obtain ⟨call, trace, prog⟩ := task
  obtain rfl := hdone.awaits
  simp only [Abandons, hdone.at_index, hdone.exec]
  exact ⟨hended, item, howes, hpending⟩

theorem abandons_of_raised {error : ε}
    (hraised : System.Raised pool pool' index task op next error)
    (hexec : sys.exec op pool.store = .error error)
    (hended : (next (.error error)).finished = true)
    (howes : item ∈ M.state task) (hpending : pending pool.store item) :
    Abandons sys M pending pool (.run index) := by
  obtain ⟨call, trace, prog⟩ := task
  obtain rfl := hraised.awaits
  simp only [Abandons, hraised.at_index, hexec]
  exact ⟨hended, item, howes, hpending⟩

theorem abandons_of_failed {error : ε}
    (hraised : System.Raised pool pool' index task op next error)
    (hended : (next (.error error)).finished = true)
    (howes : item ∈ M.state task) (hpending : pending pool.store item) :
    Abandons sys M pending pool (.fail index error) := by
  obtain ⟨call, trace, prog⟩ := task
  obtain rfl := hraised.awaits
  simp only [Abandons, hraised.at_index]
  exact ⟨hended, item, howes, hpending⟩

end Abandoning

/-- The outside holds the item, or a call that has not ended owes it. -/
def Attended (M : Monitor Res κ (List ι)) (held : σ → ι → Prop)
    (pool : Pool Res ε α κ σ) (item : ι) : Prop :=
  held pool.store item ∨
    ∃ task ∈ pool.tasks, task.prog.finished = false ∧ item ∈ M.state task

/-- How the operations and events treat pending items. -/
structure Custody (sys : System Res ε α κ σ ν) (M : Monitor Res κ (List ι))
    (pending held : σ → ι → Prop) (J : Pool Res ε α κ σ → Prop) : Prop where
  /-- A call that starts with an item has something to do. -/
  started : ∀ call item, item ∈ M.init call →
    (sys.body call).finished = false
  /-- After an operation the caller owes every item that it made pending, and
  every pending item that it owed and did not hand over. -/
  done : ∀ pool pool' index task op next value, J pool →
    sys.Done pool pool' index task op next value →
    ∀ item, pending pool'.store item →
      item ∈ M.note task.call (M.state task) op value ∨
        pending pool.store item ∧
          (item ∈ M.state task → held pool'.store item)
  /-- Operations take nothing from the outside. -/
  kept : ∀ op store value store', sys.exec op store = .ok (value, store') →
    ∀ item, held store item → held store' item
  /-- Events make nothing pending, and what the outside gives up is owed by a
  call that it starts. -/
  event : ∀ event store count store' calls,
    sys.env event store count = some (store', calls) →
    ∀ item, pending store' item →
      pending store item ∧
        (held store item → held store' item ∨
          ∃ call ∈ calls, item ∈ M.init call)

section Attendance

variable {pending held : σ → ι → Prop} {J : Pool Res ε α κ σ → Prop}
  {pool pool' init : Pool Res ε α κ σ} {item : ι}

theorem Attended.start {call : κ} (h : Attended M held pool item) :
    Attended M held
      { pool with tasks := pool.tasks ++ [sys.spawn call] } item := by
  rcases h with hout | ⟨task, htask, hrunning, howes⟩
  · exact .inl hout
  · exact .inr ⟨task, List.mem_append_left _ htask, hrunning, howes⟩

theorem attended_set {index : Nat} {acting acting' other : Task Res ε α κ}
    (hat : pool.tasks[index]? = some acting)
    (htasks : pool'.tasks = pool.tasks.set index acting')
    (hother : other ∈ pool.tasks) (hrunning : other.prog.finished = false)
    (howes : item ∈ M.state other)
    (hacting : item ∈ M.state acting → Attended M held pool' item) :
    Attended M held pool' item := by
  by_cases heq : other = acting
  · exact hacting (heq ▸ howes)
  · refine .inr ⟨other, ?_, hrunning, howes⟩
    obtain ⟨position, hposition⟩ := List.mem_iff_getElem?.mp hother
    rw [htasks, List.mem_iff_getElem?]
    refine ⟨position, ?_⟩
    rw [List.getElem?_set_ne]
    · exact hposition
    · rintro rfl
      exact heq (Option.some.inj (hposition.symm.trans hat))

theorem attended_acting {index : Nat} {acting acting' : Task Res ε α κ}
    (hat : pool.tasks[index]? = some acting)
    (htasks : pool'.tasks = pool.tasks.set index acting')
    (hrunning : acting'.prog.finished = false)
    (howes : item ∈ M.state acting') : Attended M held pool' item := by
  refine .inr ⟨acting', ?_, hrunning, howes⟩
  rw [htasks]
  exact List.mem_set (List.getElem?_eq_some_iff.mp hat).1 _

section Steps

variable {index : Nat} {task : Task Res ε α κ} {op : Op}
  {next : Except ε (Res op) → Prog Res ε α}

theorem Custody.attended_done {value : Res op}
    (h : Custody sys M pending held J) (hJ : J pool)
    (hold : ∀ item, pending pool.store item → Attended M held pool item)
    (hkeeps : ¬ Abandons sys M pending pool (.run index))
    (hdone : sys.Done pool pool' index task op next value)
    (hpending : pending pool'.store item) : Attended M held pool' item := by
  rcases h.done _ _ _ _ _ _ _ hJ hdone item hpending with
    howes | ⟨hbefore, hhanded⟩
  · cases hended : (next (.ok value)).finished with
    | true =>
        -- The call would end with a debt.
        exact absurd (abandons_of_done hdone hended howes hpending) hkeeps
    | false => exact attended_acting hdone.at_index hdone.tasks hended howes
  · rcases hold item hbefore with hout | ⟨other, hother, hrunning, howes⟩
    · exact .inl (h.kept _ _ _ _ hdone.exec item hout)
    · exact attended_set hdone.at_index hdone.tasks hother hrunning howes
        fun howes => .inl (hhanded howes)

theorem attended_raised {error : ε}
    (hold : ∀ item, pending pool.store item → Attended M held pool item)
    (hcause : ¬ Abandons sys M pending pool (.run index) ∧
        sys.exec op pool.store = .error error ∨
      ¬ Abandons sys M pending pool (.fail index error) ∧
        sys.fallible op = true)
    (hraised : System.Raised pool pool' index task op next error)
    (hpending : pending pool'.store item) : Attended M held pool' item := by
  rw [hraised.store] at hpending
  rcases hold item hpending with hout | ⟨other, hother, hrunning, howes⟩
  · exact .inl (hraised.store ▸ hout)
  · refine attended_set hraised.at_index hraised.tasks hother hrunning howes
      fun howes => ?_
    cases hended : (next (.error error)).finished with
    | true =>
        rcases hcause with ⟨hkeeps, hexec⟩ | ⟨hkeeps, -⟩
        · exact absurd
            (abandons_of_raised hraised hexec hended howes hpending) hkeeps
        · exact absurd (abandons_of_failed hraised hended howes hpending)
            hkeeps
    | false =>
        exact attended_acting hraised.at_index hraised.tasks hended howes

theorem Custody.attended_event {event : ν} {calls : List κ}
    (h : Custody sys M pending held J)
    (hold : ∀ item, pending pool.store item → Attended M held pool item)
    (henv : sys.env event pool.store pool.tasks.length =
      some (pool'.store, calls))
    (htasks : pool'.tasks = pool.tasks ++ calls.map sys.spawn)
    (hpending : pending pool'.store item) : Attended M held pool' item := by
  obtain ⟨hbefore, hgives⟩ := h.event _ _ _ _ _ henv item hpending
  have hpool : pool' = ⟨pool'.store, pool.tasks ++ calls.map sys.spawn⟩ := by
    rw [← htasks]
  rw [hpool]
  rcases hold item hbefore with hout | ⟨task, htask, hrunning, howes⟩
  · rcases hgives hout with hheld | ⟨call, hcall, howes⟩
    · exact .inl hheld
    · exact .inr ⟨sys.spawn call,
        List.mem_append_right _ (List.mem_map_of_mem hcall),
        h.started call item howes, howes⟩
  · exact .inr ⟨task, List.mem_append_left _ htask, hrunning, howes⟩

end Steps

theorem Custody.attended (h : Custody sys M pending held J)
    (hJ : ∀ pool, System.Reach sys (fun pool action =>
      ¬ Abandons sys M pending pool action) init pool → J pool)
    (hinit : ∀ item, ¬ pending init.store item)
    (hreach : System.Reach sys (fun pool action =>
      ¬ Abandons sys M pending pool action) init pool) :
    ∀ item, pending pool.store item → Attended M held pool item := by
  refine hreach.invariant (I := fun pool =>
    ∀ item, pending pool.store item → Attended M held pool item)
    ?_ ?_ ?_ ?_ ?_
  · exact fun item hpending => absurd hpending (hinit item)
  · exact fun pool call _ hold _ _ item hpending => (hold item hpending).start
  · intro pool pool' index task op next value hpool hold hkeeps hdone item
      hpending
    exact h.attended_done (hJ pool hpool) hold hkeeps hdone hpending
  · intro pool pool' index task op next error _ hold hcause hraised item
      hpending
    exact attended_raised hold hcause hraised hpending
  · intro pool pool' event calls _ hold _ henv htasks item hpending
    exact h.attended_event hold henv htasks hpending

end Attendance

end SyncBridge.Foundation
