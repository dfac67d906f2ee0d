import Mathlib.Data.List.Induction
import Mathlib.Data.Int.Order.Basic

/-!
# Fixed windows

Hits are counted in windows of one width.  The first hit opens a window, and so
does the first at or after the end of a window; the others count in the window
that is open.  A window that has ended may be forgotten: the next hit opens a
new one either way.
-/

namespace SyncBridge.Foundation

structure FixedWindow where
  opened : ℤ
  hits : Nat
  deriving DecidableEq

namespace FixedWindow

variable {width now later : ℤ} {times inside more : List ℤ}
  {window : FixedWindow} {full kept : Option FixedWindow}

def hit (width now : ℤ) : Option FixedWindow → FixedWindow
  | none => ⟨now, 1⟩
  | some window =>
      if window.opened + width ≤ now then ⟨now, 1⟩
      else ⟨window.opened, window.hits + 1⟩

def after (width : ℤ) (times : List ℤ) : Option FixedWindow :=
  times.foldl (fun window now => some (hit width now window)) none

@[simp] theorem after_nil : after width [] = none := rfl

@[simp] theorem after_concat :
    after width (times ++ [now]) = some (hit width now (after width times)) := by
  simp [after]

theorem hit_of_ended (h : window.opened + width ≤ now) :
    hit width now (some window) = ⟨now, 1⟩ := by
  simp [hit, h]

theorem hit_of_open (h : now < window.opened + width) :
    hit width now (some window) = ⟨window.opened, window.hits + 1⟩ := by
  simp [hit, not_le.mpr h]

/-! ## The hits of a window -/

inductive Since (width : ℤ) : List ℤ → List ℤ → Prop
  | nil : Since width [] []
  | opens {times inside : List ℤ} {now : ℤ} : Since width times inside →
      (∀ opened ∈ inside.head?, opened + width ≤ now) →
      Since width (times ++ [now]) [now]
  | within {times inside : List ℤ} {opened now : ℤ} :
      Since width times (opened :: inside) → now < opened + width →
      Since width (times ++ [now]) (opened :: inside ++ [now])

def ofHits : List ℤ → Option FixedWindow
  | [] => none
  | opened :: inside => some ⟨opened, inside.length + 1⟩

theorem Since.after (h : Since width times inside) :
    after width times = ofHits inside := by
  induction h with
  | nil => rfl
  | @opens times inside now _ hended ih =>
      rw [after_concat, ih]
      cases inside with
      | nil => rfl
      | cons opened inside =>
          have hopened : opened + width ≤ now := hended opened (by simp)
          simp [ofHits, hit, hopened]
  | within _ hopen ih =>
      rw [after_concat, ih]
      simp [ofHits, hit, hopen]

theorem opened_mem (h : after width times = some window) :
    window.opened ∈ times := by
  induction times using List.reverseRecOn generalizing window with
  | nil => cases h
  | append_singleton times now ih =>
      rw [after_concat, Option.some.injEq] at h
      subst h
      cases hbefore : after width times with
      | none => exact List.mem_append_right _ (List.mem_singleton_self now)
      | some before =>
          have hopened : before.opened ∈ times := ih hbefore
          simp only [hit]
          split
          · exact List.mem_append_right _ (List.mem_singleton_self now)
          · exact List.mem_append_left _ hopened

/-! ## Windows to come -/

def reached (bound time : ℤ) : Bool := bound ≤ time

@[simp] theorem reached_iff {bound time : ℤ} :
    reached bound time = true ↔ bound ≤ time := by
  simp [reached]

theorem after_append_within (h : after width times = some window)
    (hmore : ∀ now ∈ more, now < window.opened + width) :
    after width (times ++ more) =
      some ⟨window.opened, window.hits + more.length⟩ := by
  induction more using List.reverseRecOn with
  | nil => simpa using h
  | append_singleton more now ih =>
      have hbefore : ∀ time ∈ more, time < window.opened + width :=
        fun time htime => hmore time (List.mem_append_left _ htime)
      have hnow : now < window.opened + width := hmore now (by simp)
      rw [← List.append_assoc, after_concat, ih hbefore]
      simp [hit, not_le.mpr hnow, Nat.add_assoc]

theorem after_append_ended (h : after width times = some window)
    (hsorted : more.Pairwise (· ≤ ·)) :
    (∀ time ∈ more, time < window.opened + width) ∨
      ∃ fresh, after width (times ++ more) = some fresh ∧
        fresh.opened ∈ more ∧ window.opened + width ≤ fresh.opened ∧
        fresh.hits ≤ more.countP (reached (window.opened + width)) := by
  induction more using List.reverseRecOn with
  | nil => simp
  | append_singleton more now ih =>
      obtain ⟨hbefore, -, hlast⟩ := List.pairwise_append.mp hsorted
      rcases ih hbefore with hwithin | ⟨fresh, hfresh, hmem, hopened, hhits⟩
      · by_cases hnow : now < window.opened + width
        · left
          intro time htime
          rcases List.mem_append.mp htime with hold | hnew
          · exact hwithin time hold
          · rw [List.mem_singleton.mp hnew]
            exact hnow
        · right
          have hended : window.opened + width ≤ now := not_lt.mp hnow
          refine ⟨⟨now, 1⟩, ?_, by simp, hended, by simp [hended]⟩
          rw [← List.append_assoc, after_concat,
            after_append_within h hwithin]
          exact congrArg some (hit_of_ended hended)
      · right
        have hlater : fresh.opened ≤ now := hlast _ hmem now (by simp)
        have hended : window.opened + width ≤ now := le_trans hopened hlater
        rw [← List.append_assoc, after_concat, hfresh]
        by_cases hfreshEnded : fresh.opened + width ≤ now
        · exact ⟨⟨now, 1⟩, by rw [hit_of_ended hfreshEnded], by simp, hended,
            by simp [hended]⟩
        · rw [hit_of_open (not_le.mp hfreshEnded)]
          refine ⟨_, rfl, by simp [hmem], hopened, ?_⟩
          simp [List.countP_append, hended, hhits]

/-! ## Forgetting ended windows -/

def Pruned (width now : ℤ) (full kept : Option FixedWindow) : Prop :=
  kept = full ∨ kept = none ∧ ∀ window ∈ full, window.opened + width ≤ now

theorem Pruned.refl : Pruned width now full full := .inl rfl

theorem Pruned.mono (h : Pruned width now full kept) (hle : now ≤ later) :
    Pruned width later full kept :=
  h.imp_right fun hnone => ⟨hnone.1, fun window hwindow =>
    le_trans (hnone.2 window hwindow) hle⟩

theorem Pruned.forget (h : Pruned width now full kept)
    (hended : ∀ window ∈ kept, window.opened + width ≤ now) :
    Pruned width now full none := by
  rcases h with rfl | ⟨-, hfull⟩
  · exact .inr ⟨rfl, hended⟩
  · exact .inr ⟨rfl, hfull⟩

/-- The next hit does not tell a forgotten window from a kept one. -/
theorem Pruned.hit_eq (h : Pruned width now full kept) :
    hit width now kept = hit width now full := by
  rcases h with rfl | ⟨rfl, hfull⟩
  · rfl
  · cases full with
    | none => rfl
    | some window => rw [hit_of_ended (hfull window rfl), hit]

end FixedWindow

end SyncBridge.Foundation
