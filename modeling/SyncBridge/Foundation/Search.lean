import Mathlib.Order.Basic

/-!
# Bounded searches

A loop that tests a value and moves on to the next one, for a fixed number of
turns.  The successor may fail to exist, which is noticed when it is tested.
The values the loop may come to are its `walk`; how the search ends is read off
the first value on the walk that passes the test.
-/

namespace SyncBridge.Foundation

variable {α : Type}

inductive SearchResult (α : Type) where
  | found (value : α)
  | exhausted
  | stuck

section Search

variable (next : α → Option α) (test : α → Bool)

def walk : Nat → Option α → Option α
  | 0, current => current
  | turn + 1, current => walk turn (current.bind next)

def search : Nat → Option α → SearchResult α
  | 0, _ => .exhausted
  | _ + 1, none => .stuck
  | turns + 1, some current =>
      if test current then .found current
      else search turns (next current)

def Passes (turn : Nat) (start : Option α) : Prop :=
  ∀ earlier < turn, ∃ value, walk next earlier start = some value ∧
    test value = false

end Search

variable {next : α → Option α} {test : α → Bool} {start : Option α}
  {current value : α} {turn turns : Nat}

theorem walk_succ :
    walk next (turn + 1) start = (walk next turn start).bind next := by
  induction turn generalizing start with
  | zero => rfl
  | succ turn ih => exact ih

theorem passes_zero : Passes next test 0 start :=
  fun _ hlt => absurd hlt (Nat.not_lt_zero _)

theorem passes_succ_none : ¬ Passes next test (turn + 1) none := by
  intro h
  obtain ⟨value, hvalue, -⟩ := h 0 (Nat.succ_pos turn)
  cases hvalue

theorem passes_succ_iff : Passes next test (turn + 1) (some current) ↔
    test current = false ∧ Passes next test turn (next current) := by
  constructor
  · intro h
    refine ⟨?_, fun earlier hlt => h (earlier + 1) (Nat.succ_lt_succ hlt)⟩
    obtain ⟨value, hvalue, htest⟩ := h 0 (Nat.succ_pos turn)
    cases hvalue
    exact htest
  · rintro ⟨htest, hrest⟩ earlier hlt
    cases earlier with
    | zero => exact ⟨current, rfl, htest⟩
    | succ earlier => exact hrest earlier (Nat.lt_of_succ_lt_succ hlt)

theorem search_found_iff : search next test turns start = .found value ↔
    ∃ turn < turns, walk next turn start = some value ∧
      test value = true ∧ Passes next test turn start := by
  induction turns generalizing start with
  | zero => simp [search]
  | succ turns ih =>
      cases start with
      | none =>
          simp only [search, reduceCtorEq, false_iff]
          rintro ⟨turn, -, hvalue, -, hpasses⟩
          cases turn with
          | zero => cases hvalue
          | succ turn => exact passes_succ_none hpasses
      | some current =>
          simp only [search]
          split
          · rename_i htest
            simp only [SearchResult.found.injEq]
            constructor
            · rintro rfl
              exact ⟨0, Nat.succ_pos turns, rfl, htest, passes_zero⟩
            · rintro ⟨turn, -, hvalue, -, hpasses⟩
              cases turn with
              | zero => exact Option.some.inj hvalue
              | succ turn =>
                  rw [passes_succ_iff, htest] at hpasses
                  cases hpasses.1
          · rename_i htest
            rw [ih]
            constructor
            · rintro ⟨turn, hlt, hvalue, hpass, hpasses⟩
              exact ⟨turn + 1, Nat.succ_lt_succ hlt, hvalue, hpass,
                passes_succ_iff.mpr ⟨eq_false_of_ne_true htest,
                  hpasses⟩⟩
            · rintro ⟨turn, hlt, hvalue, hpass, hpasses⟩
              cases turn with
              | zero =>
                  obtain rfl := Option.some.inj hvalue
                  exact absurd hpass htest
              | succ turn =>
                  exact ⟨turn, Nat.lt_of_succ_lt_succ hlt, hvalue, hpass,
                    (passes_succ_iff.mp hpasses).2⟩

theorem search_exhausted_iff : search next test turns start = .exhausted ↔
    Passes next test turns start := by
  induction turns generalizing start with
  | zero => simp [search, passes_zero]
  | succ turns ih =>
      cases start with
      | none => simp [search, passes_succ_none]
      | some current =>
          rw [passes_succ_iff]
          simp only [search]
          split
          · rename_i htest
            simp [htest]
          · rename_i htest
            rw [ih, eq_false_of_ne_true htest]
            simp

theorem search_stuck_iff : search next test turns start = .stuck ↔
    ∃ turn < turns, walk next turn start = none ∧
      Passes next test turn start := by
  induction turns generalizing start with
  | zero => simp [search]
  | succ turns ih =>
      cases start with
      | none =>
          have hstuck : ∃ turn < turns + 1,
              walk next turn none = none ∧ Passes next test turn none :=
            ⟨0, Nat.succ_pos turns, rfl, passes_zero⟩
          exact ⟨fun _ => hstuck, fun _ => rfl⟩
      | some current =>
          simp only [search]
          split
          · rename_i htest
            simp only [reduceCtorEq, false_iff]
            rintro ⟨turn, -, hnone, hpasses⟩
            cases turn with
            | zero => cases hnone
            | succ turn =>
                rw [passes_succ_iff, htest] at hpasses
                cases hpasses.1
          · rename_i htest
            rw [ih]
            constructor
            · rintro ⟨turn, hlt, hnone, hpasses⟩
              exact ⟨turn + 1, Nat.succ_lt_succ hlt, hnone,
                passes_succ_iff.mpr ⟨eq_false_of_ne_true htest, hpasses⟩⟩
            · rintro ⟨turn, hlt, hnone, hpasses⟩
              cases turn with
              | zero => cases hnone
              | succ turn =>
                  exact ⟨turn, Nat.lt_of_succ_lt_succ hlt, hnone,
                    (passes_succ_iff.mp hpasses).2⟩

theorem walk_none : walk next turn none = none := by
  induction turn with
  | zero => rfl
  | succ turn ih => exact ih

theorem exists_found (hwalk : walk next turn start = some value)
    (htest : test value = true) (hlt : turn < turns) :
    ∃ earlier ≤ turn, ∃ found, walk next earlier start = some found ∧
      search next test turns start = .found found := by
  induction turn generalizing start turns with
  | zero =>
      obtain ⟨turns, rfl⟩ := Nat.exists_eq_succ_of_ne_zero (Nat.ne_of_gt hlt)
      obtain rfl : start = some value := hwalk
      exact ⟨0, Nat.le_refl _, value, rfl, if_pos htest⟩
  | succ turn ih =>
      obtain ⟨turns, rfl⟩ :=
        Nat.exists_eq_succ_of_ne_zero (Nat.ne_of_gt (Nat.zero_lt_of_lt hlt))
      cases start with
      | none =>
          rw [walk_none] at hwalk
          cases hwalk
      | some current =>
          by_cases hcurrent : test current = true
          · exact ⟨0, Nat.zero_le _, current, rfl, if_pos hcurrent⟩
          · obtain ⟨earlier, hearlier, found, hfound, hsearch⟩ :=
              ih hwalk (Nat.lt_of_succ_lt_succ hlt)
            refine ⟨earlier + 1, Nat.succ_le_succ hearlier, found, hfound, ?_⟩
            rw [search, if_neg hcurrent]
            exact hsearch

end SyncBridge.Foundation
