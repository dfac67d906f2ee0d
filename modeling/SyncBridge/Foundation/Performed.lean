import SyncBridge.Foundation.Solo

/-!
# The calls that a run performs

A run of a body that runs alone, together with its operations and how each of
them has ended.  A pattern of failures determines such a run.
-/

namespace SyncBridge.Foundation

variable {Op : Type} {Res : Op → Type} {ε α β σ : Type}

abbrev Performed {Op : Type} (Res : Op → Type) (ε : Type) :=
  (op : Op) × Except ε (Res op)

namespace Performed

variable (call : Performed Res ε)

def failed : Bool :=
  match call.2 with
  | .ok _ => false
  | .error _ => true

@[simp] theorem failed_ok {op : Op} {value : Res op} :
    Performed.failed (⟨op, .ok value⟩ : Performed Res ε) = false := rfl

@[simp] theorem failed_error {op : Op} {error : ε} :
    Performed.failed (⟨op, .error error⟩ : Performed Res ε) = true := rfl

def GoesThrough (kind : Op → Bool) (calls : List (Performed Res ε)) : Prop :=
  ∃ call ∈ calls, kind call.1 = true ∧ call.failed = false

variable {kind : Op → Bool} {calls first second : List (Performed Res ε)}

theorem goesThrough_append :
    GoesThrough kind (first ++ second) ↔
      GoesThrough kind first ∨ GoesThrough kind second := by
  simp only [GoesThrough, List.mem_append, or_and_right, exists_or]

theorem goesThrough_cons {call : Performed Res ε} :
    GoesThrough kind (call :: calls) ↔
      kind call.1 = true ∧ call.failed = false ∨ GoesThrough kind calls := by
  simp [GoesThrough]

theorem not_goesThrough_of_forall (h : ∀ call ∈ calls, kind call.1 = false) :
    ¬ GoesThrough kind calls := by
  rintro ⟨call, hcall, hkind, -⟩
  rw [h call hcall] at hkind
  cases hkind

end Performed

namespace Machine

def Ends (M : Machine Res ε σ) (op : Op) (store : σ) :
    Except ε (Res op) → σ → Prop
  | .ok value, store' => M.exec op store = .ok (value, store')
  | .error error, store' =>
      (M.exec op store = .error error ∨ M.fallible op = true) ∧ store' = store

inductive Performs (M : Machine Res ε σ) :
    Prog Res ε α → σ → List (Performed Res ε) → Except ε α → σ → Prop
  | ret (value : α) (store : σ) :
      Performs M (.ret value) store [] (.ok value) store
  | throw (error : ε) (store : σ) :
      Performs M (.throw error) store [] (.error error) store
  | call {op : Op} {next : Except ε (Res op) → Prog Res ε α}
      {store middle final : σ} {outcome : Except ε (Res op)}
      {calls : List (Performed Res ε)} {result : Except ε α} :
      M.Ends op store outcome middle →
      Performs M (next outcome) middle calls result final →
      Performs M (.call op next) store (⟨op, outcome⟩ :: calls) result final

variable {M : Machine Res ε σ} {body : Prog Res ε α} {store final : σ}
  {calls : List (Performed Res ε)} {result : Except ε α}

theorem Performs.runs (h : M.Performs body store calls result final) :
    M.Runs body store result final := by
  induction h with
  | ret value store => exact .ret value store
  | throw error store => exact .throw error store
  | @call op next store middle final outcome calls result hends _ ih =>
      cases outcome with
      | ok value => exact .done hends ih
      | error error =>
          obtain ⟨hcause, rfl⟩ := hends
          rcases hcause with hexec | hfallible
          · exact .raised hexec ih
          · exact .failed hfallible ih

/-! ## Patterns of failures -/

def endOf (M : Machine Res ε σ) (op : Op) (fault : Option ε) (store : σ) :
    Except ε (Res op) × σ :=
  match fault.filter fun _ => M.fallible op with
  | some error => (.error error, store)
  | none =>
      match M.exec op store with
      | .ok (value, store') => (.ok value, store')
      | .error error => (.error error, store)

/-- The run under the faults, one for each call as long as there are any. -/
def perform (M : Machine Res ε σ) : Prog Res ε α → List (Option ε) → σ →
    List (Performed Res ε) × Except ε α × σ
  | .ret value, _, store => ([], .ok value, store)
  | .throw error, _, store => ([], .error error, store)
  | .call op next, faults, store =>
      let (outcome, middle) := M.endOf op (faults.head?.getD none) store
      let (calls, result, final) := perform M (next outcome) faults.tail middle
      (⟨op, outcome⟩ :: calls, result, final)

theorem ends_endOf (op : Op) (fault : Option ε) (store : σ) :
    M.Ends op store (M.endOf op fault store).1 (M.endOf op fault store).2 := by
  simp only [endOf]
  split
  · rename_i error hfault
    have hfallible := (Option.filter_eq_some_iff.mp hfault).2
    exact ⟨.inr hfallible, rfl⟩
  · split
    · rename_i value store' hexec
      exact hexec
    · rename_i error hexec
      exact ⟨.inl hexec, rfl⟩

theorem performs_perform (body : Prog Res ε α) (faults : List (Option ε))
    (store : σ) :
    M.Performs body store (M.perform body faults store).1
      (M.perform body faults store).2.1 (M.perform body faults store).2.2 := by
  induction body generalizing faults store with
  | ret value => exact .ret value store
  | throw error => exact .throw error store
  | call op next ih =>
      exact .call (ends_endOf op (faults.head?.getD none) store) (ih _ _ _)

/-! ## The parts of a run -/

theorem performs_await {op : Op} {outcome : Except ε (Res op)} :
    M.Performs (Prog.await op) store calls outcome final ↔
      calls = [⟨op, outcome⟩] ∧ M.Ends op store outcome final := by
  constructor
  · rintro (_ | _ | @⟨_, _, _, middle, _, ended, _, _, hends, hrest⟩)
    cases ended with
    | ok value => cases hrest; exact ⟨rfl, hends⟩
    | error error => cases hrest; exact ⟨rfl, hends⟩
  · rintro ⟨rfl, hends⟩
    refine .call hends ?_
    cases outcome with
    | ok value => exact .ret value final
    | error error => exact .throw error final

theorem performs_bind {rest : α → Prog Res ε β} {result : Except ε β} :
    M.Performs (body.bind rest) store calls result final ↔
      (∃ error, M.Performs body store calls (.error error) final ∧
        result = .error error) ∨
      ∃ value middle first second, M.Performs body store first (.ok value)
          middle ∧
        M.Performs (rest value) middle second result final ∧
        calls = first ++ second := by
  induction body generalizing store calls with
  | ret value =>
      constructor
      · exact fun h => .inr ⟨value, store, [], calls, .ret value store, h, rfl⟩
      · rintro (⟨error, h, -⟩ | ⟨value, middle, first, second, h, hrest, rfl⟩)
        · cases h
        · cases h
          exact hrest
  | throw error =>
      constructor
      · intro h
        cases h
        exact .inl ⟨error, .throw error _, rfl⟩
      · rintro (⟨error, h, rfl⟩ | ⟨value, middle, first, second, h, -, -⟩)
        · cases h
          exact .throw _ _
        · cases h
  | call op next ih =>
      constructor
      · rintro (_ | _ | @⟨_, _, _, middle, _, outcome, later, _, hends, hrest⟩)
        rcases (ih outcome).mp hrest with ⟨error, hbody, hresult⟩ |
          ⟨value, last, first, second, hbody, hlast, rfl⟩
        · exact .inl ⟨error, .call hends hbody, hresult⟩
        · exact .inr ⟨value, last, ⟨op, outcome⟩ :: first, second,
            .call hends hbody, hlast, rfl⟩
      · rintro (⟨error, h, hresult⟩ |
          ⟨value, last, first, second, h, hlast, rfl⟩)
        · cases h with
          | call hends hbody =>
              exact .call hends ((ih _).mpr (.inl ⟨error, hbody, hresult⟩))
        · cases h with
          | call hends hbody =>
              exact .call hends ((ih _).mpr
                (.inr ⟨value, last, _, second, hbody, hlast, rfl⟩))

theorem performs_ofExcept {checked : Except ε α} :
    M.Performs (Prog.ofExcept checked) store calls result final ↔
      calls = [] ∧ result = checked ∧ final = store := by
  constructor
  · intro h
    cases checked with
    | ok value => cases h; exact ⟨rfl, rfl, rfl⟩
    | error error => cases h; exact ⟨rfl, rfl, rfl⟩
  · rintro ⟨rfl, rfl, rfl⟩
    cases result with
    | ok value => exact .ret value _
    | error error => exact .throw error _

theorem performs_tryCatch {handler : ε → Prog Res ε α} :
    M.Performs (body.tryCatch handler) store calls result final ↔
      (∃ value, M.Performs body store calls (.ok value) final ∧
        result = .ok value) ∨
      ∃ error middle first second, M.Performs body store first (.error error)
          middle ∧
        M.Performs (handler error) middle second result final ∧
        calls = first ++ second := by
  induction body generalizing store calls with
  | ret value =>
      constructor
      · intro h
        cases h
        exact .inl ⟨value, .ret value _, rfl⟩
      · rintro (⟨value, h, rfl⟩ | ⟨error, middle, first, second, h, -, -⟩)
        · cases h
          exact .ret _ _
        · cases h
  | throw error =>
      constructor
      · exact fun h =>
          .inr ⟨error, store, [], calls, .throw error store, h, rfl⟩
      · rintro (⟨value, h, -⟩ | ⟨error, middle, first, second, h, hrest, rfl⟩)
        · cases h
        · cases h
          exact hrest
  | call op next ih =>
      constructor
      · rintro (_ | _ | @⟨_, _, _, middle, _, outcome, later, _, hends, hrest⟩)
        rcases (ih outcome).mp hrest with ⟨value, hbody, hresult⟩ |
          ⟨error, last, first, second, hbody, hlast, rfl⟩
        · exact .inl ⟨value, .call hends hbody, hresult⟩
        · exact .inr ⟨error, last, ⟨op, outcome⟩ :: first, second,
            .call hends hbody, hlast, rfl⟩
      · rintro (⟨value, h, hresult⟩ |
          ⟨error, last, first, second, h, hlast, rfl⟩)
        · cases h with
          | call hends hbody =>
              exact .call hends ((ih _).mpr (.inl ⟨value, hbody, hresult⟩))
        · cases h with
          | call hends hbody =>
              exact .call hends ((ih _).mpr
                (.inr ⟨error, last, _, second, hbody, hlast, rfl⟩))

theorem performs_attempt {outcome : Except ε (Except ε α)} :
    M.Performs (Prog.attempt body) store calls outcome final ↔
      ∃ result, outcome = .ok result ∧
        M.Performs body store calls result final := by
  induction body generalizing store calls with
  | ret value =>
      constructor
      · intro h
        cases h
        exact ⟨_, rfl, .ret value _⟩
      · rintro ⟨result, rfl, h⟩
        cases h
        exact .ret _ _
  | throw error =>
      constructor
      · intro h
        cases h
        exact ⟨_, rfl, .throw error _⟩
      · rintro ⟨result, rfl, h⟩
        cases h
        exact .ret _ _
  | call op next ih =>
      constructor
      · rintro (_ | _ | @⟨_, _, _, middle, _, ended, later, _, hends, hrest⟩)
        obtain ⟨result, rfl, hbody⟩ := (ih ended).mp hrest
        exact ⟨result, rfl, .call hends hbody⟩
      · rintro ⟨result, rfl, h⟩
        cases h with
        | call hends hbody =>
            exact .call hends ((ih _).mpr ⟨result, rfl, hbody⟩)

theorem Performs.allowed {allowed : Op → Prop}
    (h : M.Performs body store calls result final)
    (huses : body.Uses allowed) : ∀ call ∈ calls, allowed call.1 := by
  induction h with
  | ret value store => exact fun _ hmem => absurd hmem List.not_mem_nil
  | throw error store => exact fun _ hmem => absurd hmem List.not_mem_nil
  | call hends _ ih =>
      intro call hcall
      rcases List.mem_cons.mp hcall with rfl | hlater
      · exact huses.1
      · exact ih (huses.2 _) call hlater

/-- The loop rule for a loop that gets through.  `J` speaks of the items that
are done and of the calls so far. -/
theorem Performs.foldlM {step : β → α → Prog Res ε β}
    (J : List α → β → σ → List (Performed Res ε) → Prop) {items : List α}
    (hstep : ∀ done item rest acc before earlier calls acc' after,
      items = done ++ item :: rest → J done acc before earlier →
      M.Performs (step acc item) before calls (.ok acc') after →
      J (done ++ [item]) acc' after (earlier ++ calls))
    {acc acc' : β}
    (h : M.Performs (items.foldlM step acc) store calls (.ok acc') final)
    (hstart : J [] acc store []) : J items acc' final calls := by
  suffices hrun : ∀ rest done acc store earlier calls,
      items = done ++ rest → J done acc store earlier →
      M.Performs (rest.foldlM step acc) store calls (.ok acc') final →
      J items acc' final (earlier ++ calls) from
    hrun items [] acc store [] calls rfl hstart h
  intro rest
  induction rest with
  | nil =>
      intro done acc store earlier calls hitems hdone hrest
      cases hrest
      rw [List.append_nil] at hitems ⊢
      exact hitems ▸ hdone
  | cons item rest ih =>
      intro done acc store earlier calls hitems hdone hrest
      rw [List.foldlM_cons, Prog.bind_eq, performs_bind] at hrest
      rcases hrest with ⟨error, -, herror⟩ |
        ⟨next, middle, first, second, hone, hlater, rfl⟩
      · cases herror
      · rw [← List.append_assoc]
        exact ih (done ++ [item]) next middle (earlier ++ first) second
          (by simp [hitems])
          (hstep done item rest acc store earlier first next middle hitems hdone
            hone) hlater

/-! ## Loops -/

/-- A run of a loop, turn by turn: the turn that throws is the last one. -/
inductive Turns (M : Machine Res ε σ) (step : β → α → Prog Res ε β) :
    List α → β → σ → List (List (Performed Res ε)) → Except ε β → σ → Prop
  | nil (acc : β) (store : σ) : Turns M step [] acc store [] (.ok acc) store
  | next {item : α} {items : List α} {acc acc' : β} {store middle final : σ}
      {calls : List (Performed Res ε)} {turns : List (List (Performed Res ε))}
      {result : Except ε β} :
      M.Performs (step acc item) store calls (.ok acc') middle →
      Turns M step items acc' middle turns result final →
      Turns M step (item :: items) acc store (calls :: turns) result final
  | thrown {item : α} {items : List α} {acc : β} {store final : σ}
      {calls : List (Performed Res ε)} {error : ε} :
      M.Performs (step acc item) store calls (.error error) final →
      Turns M step (item :: items) acc store [calls] (.error error) final

theorem performs_foldlM {step : β → α → Prog Res ε β} {items : List α}
    {acc : β} {result : Except ε β} :
    M.Performs (items.foldlM step acc) store calls result final ↔
      ∃ turns, calls = turns.flatten ∧
        M.Turns step items acc store turns result final := by
  induction items generalizing acc store calls with
  | nil =>
      constructor
      · intro h
        cases h
        exact ⟨[], rfl, .nil acc _⟩
      · rintro ⟨turns, rfl, h⟩
        cases h
        exact .ret acc _
  | cons item items ih =>
      rw [List.foldlM_cons, Prog.bind_eq, performs_bind]
      constructor
      · rintro (⟨error, hone, rfl⟩ |
          ⟨acc', middle, first, second, hone, hrest, rfl⟩)
        · exact ⟨[calls], by simp, .thrown hone⟩
        · obtain ⟨turns, rfl, hturns⟩ := ih.mp hrest
          exact ⟨first :: turns, rfl, .next hone hturns⟩
      · rintro ⟨turns, rfl, h⟩
        cases h with
        | next hone hrest =>
            exact .inr ⟨_, _, _, _, hone, ih.mpr ⟨_, rfl, hrest⟩, rfl⟩
        | @thrown _ _ _ _ _ calls error hone =>
            exact .inl ⟨error, by simpa using hone, rfl⟩

end Machine

end SyncBridge.Foundation
