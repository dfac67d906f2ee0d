import Mathlib.Data.List.Nodup
import SyncBridge.Foundation.Pool
import SyncBridge.Foundation.Table

/-!
# Items in the hands of calls

Every call of a pool holds a list of items.  The lists stay free of repetitions
and apart from each other as long as a step lets go of items of the acting call
or takes up items that nobody holds.
-/

namespace SyncBridge.Foundation

variable {β ι : Type} {items : List β} {index : Nat} {item : β}
  {holds : β → List ι}

theorem flatMap_set (hget : items[index]? = some item) :
    ∃ before after, items.flatMap holds = before ++ holds item ++ after ∧
      (∀ other, (items.set index other).flatMap holds =
        before ++ holds other ++ after) ∧
      ∀ held ∈ before ++ after, ∃ other ∈ items, held ∈ holds other := by
  obtain ⟨hlt, hitem⟩ := List.getElem?_eq_some_iff.mp hget
  refine ⟨(items.take index).flatMap holds,
    (items.drop (index + 1)).flatMap holds, ?_, fun other => ?_, ?_⟩
  · have hsplit : items = items.take index ++ item :: items.drop (index + 1) := by
      rw [← hitem, List.getElem_cons_drop, List.take_append_drop]
    conv_lhs => rw [hsplit]
    simp
  · rw [List.set_eq_take_append_cons_drop, if_pos hlt]
    simp
  · intro held hheld
    rcases List.mem_append.mp hheld with hbefore | hafter
    · obtain ⟨other, hother, hmem⟩ := List.mem_flatMap.mp hbefore
      exact ⟨other, List.mem_of_mem_take hother, hmem⟩
    · obtain ⟨other, hother, hmem⟩ := List.mem_flatMap.mp hafter
      exact ⟨other, List.mem_of_mem_drop hother, hmem⟩

theorem flatMap_set_of_eq {other : β} (hget : items[index]? = some item)
    (hsame : holds other = holds item) :
    (items.set index other).flatMap holds = items.flatMap holds := by
  obtain ⟨before, after, hitems, hset, -⟩ := @flatMap_set _ _ _ _ _ holds hget
  rw [hset, hsame, hitems]

theorem nodup_set_of_sublist {other : β} (hget : items[index]? = some item)
    (hsub : (holds other).Sublist (holds item))
    (h : (items.flatMap holds).Nodup) :
    ((items.set index other).flatMap holds).Nodup := by
  obtain ⟨before, after, hitems, hset, -⟩ := @flatMap_set _ _ _ _ _ holds hget
  rw [hset]
  rw [hitems] at h
  exact h.sublist (((List.Sublist.refl before).append hsub).append
    (List.Sublist.refl after))

theorem nodup_set_of_fresh {other : β} (hget : items[index]? = some item)
    (hother : (holds other).Nodup)
    (hfresh : ∀ held ∈ holds other, ∀ rest ∈ items, held ∉ holds rest)
    (h : (items.flatMap holds).Nodup) :
    ((items.set index other).flatMap holds).Nodup := by
  obtain ⟨before, after, hitems, hset, hmem⟩ := @flatMap_set _ _ _ _ _ holds hget
  rw [hset]
  rw [hitems] at h
  have haround : (before ++ after).Nodup := by
    refine h.sublist (List.Sublist.append ?_ (List.Sublist.refl after))
    exact List.sublist_append_left before (holds item)
  have hnone : ∀ held ∈ holds other, held ∉ before ++ after := by
    intro held hheld haround
    obtain ⟨rest, hrest, hin⟩ := hmem held haround
    exact hfresh held hheld rest hrest hin
  have hperm : (before ++ holds other ++ after).Perm
      (holds other ++ (before ++ after)) := by
    rw [← List.append_assoc]
    exact List.perm_append_comm.append_right after
  rw [hperm.nodup_iff, List.nodup_append]
  refine ⟨hother, haround, fun held hheld around haround heq => ?_⟩
  rw [heq] at hheld
  exact hnone around hheld haround

theorem perm_set_of_append {other : β} {new : List ι}
    (hget : items[index]? = some item) (hother : holds other = holds item ++ new) :
    ((items.set index other).flatMap holds).Perm
      (items.flatMap holds ++ new) := by
  obtain ⟨before, after, hitems, hset, -⟩ := @flatMap_set _ _ _ _ _ holds hget
  rw [hset, hother, hitems, ← List.append_assoc before, List.append_assoc _ new,
    List.append_assoc _ after]
  exact List.perm_append_comm.append_left _

theorem atMostOne_of_nodup {κ : Type} {key : ι → κ}
    (h : ((items.flatMap holds).map key).Nodup) (wanted : κ) :
    AtMostOne (fun item => ∃ held ∈ holds item, key held = wanted) items := by
  rw [List.map_flatMap, List.nodup_flatMap] at h
  have hapart : ∀ (i j : Nat) (first second : β), i < j →
      items[i]? = some first → items[j]? = some second →
      (∃ held ∈ holds first, key held = wanted) →
      (∃ held ∈ holds second, key held = wanted) → False := by
    rintro i j first second hlt hi hj ⟨held, hheld, hkey⟩
      ⟨held', hheld', hkey'⟩
    obtain ⟨hfirst, rfl⟩ := List.getElem?_eq_some_iff.mp hi
    obtain ⟨hsecond, rfl⟩ := List.getElem?_eq_some_iff.mp hj
    exact List.pairwise_iff_getElem.mp h.2 i j hfirst hsecond hlt
      (List.mem_map.mpr ⟨held, hheld, hkey⟩)
      (List.mem_map.mpr ⟨held', hheld', hkey'⟩)
  intro i j first second hi hj hfirst hsecond
  rcases Nat.lt_trichotomy i j with hlt | heq | hlt
  · exact (hapart i j first second hlt hi hj hfirst hsecond).elim
  · exact heq
  · exact (hapart j i second first hlt hj hi hsecond hfirst).elim

section Pools

variable {Op : Type} {Res : Op → Type} {ε α κ σ ν : Type}
  {sys : System Res ε α κ σ ν}
  {ok : Pool Res ε α κ σ → Action ε κ ν → Prop}
  {init pool : Pool Res ε α κ σ} {holds : Task Res ε α κ → List ι}

/-- Nobody holds an item that is held already. -/
theorem System.Reach.nodup_holds (hspawn : ∀ call, holds (sys.spawn call) = [])
    (hdone : ∀ pool pool' index task op next value, sys.Reach ok init pool →
      ok pool (.run index) → sys.Done pool pool' index task op next value →
      (holds ⟨task.call, ⟨op, value⟩ :: task.trace, next (.ok value)⟩).Sublist
          (holds task) ∨
        (holds ⟨task.call, ⟨op, value⟩ :: task.trace,
            next (.ok value)⟩).Nodup ∧
          ∀ held ∈ holds ⟨task.call, ⟨op, value⟩ :: task.trace,
              next (.ok value)⟩,
            ∀ other ∈ pool.tasks, held ∉ holds other)
    (hraised : ∀ task op next error, task.prog = .call op next →
      (holds ⟨task.call, task.trace, next (.error error)⟩).Sublist
        (holds task))
    (hinit : init.tasks = []) (h : sys.Reach ok init pool) :
    (pool.tasks.flatMap holds).Nodup := by
  have hnew : ∀ calls : List κ, (calls.map sys.spawn).flatMap holds = [] := by
    intro calls
    rw [List.flatMap_map, List.flatMap_eq_nil_iff]
    exact fun call _ => hspawn call
  refine h.invariant (I := fun pool => (pool.tasks.flatMap holds).Nodup)
    ?_ ?_ ?_ ?_ ?_
  · simp [hinit]
  · intro pool call _ hold _ _
    have hcall := hnew [call]
    rw [List.map_singleton] at hcall
    rwa [List.flatMap_append, hcall, List.append_nil]
  · intro pool pool' index task op next value hreach hold hok hstep
    rw [hstep.tasks]
    rcases hdone _ _ _ _ _ _ _ hreach hok hstep with hsub | ⟨hnodup, hfresh⟩
    · exact nodup_set_of_sublist hstep.at_index hsub hold
    · exact nodup_set_of_fresh hstep.at_index hnodup hfresh hold
  · intro pool pool' index task op next error _ hold _ hstep
    rw [hstep.tasks]
    exact nodup_set_of_sublist hstep.at_index
      (hraised task op next error hstep.awaits) hold
  · intro pool pool' event calls _ hold _ _ htasks
    rwa [htasks, List.flatMap_append, hnew, List.append_nil]

def Task.rowsMade (made : (Σ op, Res op) → List ι) (task : Task Res ε α κ) :
    List ι :=
  task.trace.reverse.flatMap made

/-- The rows of a table that is only added to are those of the start and those
that the calls have made, each of them once. -/
theorem System.Reach.rows_accounted {R : σ → List ι}
    {made : (Σ op, Res op) → List ι}
    (hexec : ∀ op store value store', sys.exec op store = .ok (value, store') →
      R store' = R store ++ made ⟨op, value⟩)
    (henv : ∀ event store count store' calls,
      sys.env event store count = some (store', calls) → R store' = R store)
    (hinit : init.tasks = []) (h : sys.Reach ok init pool) :
    (R pool.store).Perm
      (R init.store ++ pool.tasks.flatMap (Task.rowsMade made)) := by
  have hnew : ∀ calls : List κ,
      (calls.map sys.spawn).flatMap (Task.rowsMade made) = [] := by
    intro calls
    rw [List.flatMap_map, List.flatMap_eq_nil_iff]
    exact fun call _ => rfl
  refine h.invariant (I := fun pool => (R pool.store).Perm
    (R init.store ++ pool.tasks.flatMap (Task.rowsMade made))) ?_ ?_ ?_ ?_ ?_
  · simp [hinit]
  · intro pool call _ hold _ _
    have hcall := hnew [call]
    rw [List.map_singleton] at hcall
    rwa [List.flatMap_append, hcall, List.append_nil]
  · intro pool pool' index task op next value _ hold _ hstep
    have hgrown : (pool'.tasks.flatMap (Task.rowsMade made)).Perm
        (pool.tasks.flatMap (Task.rowsMade made) ++ made ⟨op, value⟩) := by
      rw [hstep.tasks]
      exact perm_set_of_append hstep.at_index (by simp [Task.rowsMade])
    rw [hexec _ _ _ _ hstep.exec]
    refine (hold.append_right _).trans ?_
    rw [List.append_assoc]
    exact hgrown.symm.append_left _
  · intro pool pool' index task op next error _ hold _ hstep
    have hsame : pool'.tasks.flatMap (Task.rowsMade made) =
        pool.tasks.flatMap (Task.rowsMade made) := by
      rw [hstep.tasks]
      exact flatMap_set_of_eq hstep.at_index rfl
    rwa [hstep.store, hsame]
  · intro pool pool' event calls _ hold _ hevent htasks
    rw [henv _ _ _ _ _ hevent, htasks, List.flatMap_append, hnew,
      List.append_nil]
    exact hold

end Pools

end SyncBridge.Foundation
