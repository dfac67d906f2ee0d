import SyncBridge.Foundation.Pool

/-!
# A body that runs alone

Runs of one body over a store that nobody else touches.  Operations may raise,
as in a pool.  `Ensures` is the weakest precondition of a run, defined along the
body, with a rule for each way to build one.
-/

namespace SyncBridge.Foundation

variable {Op : Type} {Res : Op → Type} {ε α β κ σ ν : Type}

/-- The outside of a single body: what the operations do, and which ones may
also raise any exception. -/
structure Machine {Op : Type} (Res : Op → Type) (ε σ : Type) where
  exec : (op : Op) → σ → Except ε (Res op × σ)
  fallible : Op → Bool

def System.machine (sys : System Res ε α κ σ ν) : Machine Res ε σ :=
  ⟨sys.exec, sys.fallible⟩

namespace Machine

inductive Runs (M : Machine Res ε σ) :
    Prog Res ε α → σ → Except ε α → σ → Prop
  | ret (value : α) (store : σ) : Runs M (.ret value) store (.ok value) store
  | throw (error : ε) (store : σ) :
      Runs M (.throw error) store (.error error) store
  | done {op : Op} {next : Except ε (Res op) → Prog Res ε α}
      {store store' final : σ} {value : Res op} {result : Except ε α} :
      M.exec op store = .ok (value, store') →
      Runs M (next (.ok value)) store' result final →
      Runs M (.call op next) store result final
  | raised {op : Op} {next : Except ε (Res op) → Prog Res ε α}
      {store final : σ} {error : ε} {result : Except ε α} :
      M.exec op store = .error error →
      Runs M (next (.error error)) store result final →
      Runs M (.call op next) store result final
  | failed {op : Op} {next : Except ε (Res op) → Prog Res ε α}
      {store final : σ} {error : ε} {result : Except ε α} :
      M.fallible op = true →
      Runs M (next (.error error)) store result final →
      Runs M (.call op next) store result final

def eval (M : Machine Res ε σ) : Prog Res ε α → σ → Except ε α × σ
  | .ret value, store => (.ok value, store)
  | .throw error, store => (.error error, store)
  | .call op next, store =>
      match M.exec op store with
      | .ok (value, store') => eval M (next (.ok value)) store'
      | .error error => eval M (next (.error error)) store

variable {M : Machine Res ε σ} {body : Prog Res ε α} {store final : σ}
  {result : Except ε α}

theorem runs_eval (body : Prog Res ε α) (store : σ) :
    M.Runs body store (M.eval body store).1 (M.eval body store).2 := by
  induction body generalizing store with
  | ret value => exact .ret value store
  | throw error => exact .throw error store
  | call op next ih =>
      simp only [eval]
      split
      · rename_i value store' hexec
        exact .done hexec (ih _ store')
      · rename_i error hexec
        exact .raised hexec (ih _ store)

/-! ### The run in which nothing fails -/

section Evaluation

variable {value : α} {middle : σ}

theorem eval_bind (rest : α → Prog Res ε β) :
    M.eval (body.bind rest) store = match M.eval body store with
      | (.ok value, middle) => M.eval (rest value) middle
      | (.error error, middle) => (.error error, middle) := by
  induction body generalizing store with
  | ret value => rfl
  | throw error => rfl
  | call op next ih =>
      simp only [Prog.call_bind, eval]
      split
      · exact ih _
      · exact ih _

theorem eval_bind_ok {rest : α → Prog Res ε β}
    (h : M.eval body store = (.ok value, middle)) :
    M.eval (body.bind rest) store = M.eval (rest value) middle := by
  rw [eval_bind, h]

theorem eval_bind_error {rest : α → Prog Res ε β} {error : ε}
    (h : M.eval body store = (.error error, middle)) :
    M.eval (body.bind rest) store = (.error error, middle) := by
  rw [eval_bind, h]

theorem eval_await {op : Op} {value : Res op}
    (h : M.exec op store = .ok (value, middle)) :
    M.eval (Prog.await op) store = (.ok value, middle) := by
  simp only [Prog.await, eval, h]

theorem eval_tryCatch_ok {handler : ε → Prog Res ε α}
    (h : M.eval body store = (.ok value, middle)) :
    M.eval (body.tryCatch handler) store = (.ok value, middle) := by
  induction body generalizing store with
  | ret value => exact h
  | throw error => cases h
  | call op next ih =>
      simp only [Prog.call_tryCatch, eval] at h ⊢
      split at h
      · exact ih _ h
      · exact ih _ h

theorem eval_tryCatch_error {handler : ε → Prog Res ε α} {error : ε}
    (h : M.eval body store = (.error error, middle)) :
    M.eval (body.tryCatch handler) store = M.eval (handler error) middle := by
  induction body generalizing store with
  | ret value => cases h
  | throw other =>
      cases h
      rfl
  | call op next ih =>
      simp only [Prog.call_tryCatch, eval] at h ⊢
      split at h
      · exact ih _ h
      · exact ih _ h

theorem eval_attempt_ok (h : M.eval body store = (.ok value, middle)) :
    M.eval (Prog.attempt body) store = (.ok (.ok value), middle) :=
  eval_tryCatch_ok (eval_bind_ok h)

/-- Where nothing fails, the body returns a value and a store with the
postcondition. -/
def Yields (M : Machine Res ε σ) (Q : α → σ → Prop) (body : Prog Res ε α)
    (store : σ) : Prop :=
  ∃ value final, M.eval body store = (.ok value, final) ∧ Q value final

variable {Q : α → σ → Prop}

theorem Yields.ret (h : Q value store) : M.Yields Q (.ret value) store :=
  ⟨value, store, rfl, h⟩

theorem Yields.bind {P : α → σ → Prop} {Q : β → σ → Prop}
    {rest : α → Prog Res ε β} (h : M.Yields P body store)
    (hrest : ∀ value middle, P value middle → M.Yields Q (rest value) middle) :
    M.Yields Q (body.bind rest) store := by
  obtain ⟨value, middle, hbody, hP⟩ := h
  obtain ⟨value', final, hfinal, hQ⟩ := hrest value middle hP
  exact ⟨value', final, (eval_bind_ok hbody).trans hfinal, hQ⟩

theorem yields_await {op : Op} {value : Res op} {Q : Res op → σ → Prop}
    (hexec : M.exec op store = .ok (value, middle)) (h : Q value middle) :
    M.Yields Q (Prog.await op) store :=
  ⟨value, middle, eval_await hexec, h⟩

theorem yields_await_bind {op : Op} {value : Res op}
    {rest : Res op → Prog Res ε α}
    (hexec : M.exec op store = .ok (value, middle))
    (h : M.Yields Q (rest value) middle) :
    M.Yields Q ((Prog.await op).bind rest) store := by
  obtain ⟨value', final, hfinal, hQ⟩ := h
  exact ⟨value', final, (eval_bind_ok (eval_await hexec)).trans hfinal, hQ⟩

/-- The loop rule.  `J` speaks of the items that are done. -/
theorem yields_foldlM {step : β → α → Prog Res ε β}
    (J : List α → β → σ → Prop) {items : List α}
    (hstep : ∀ done item rest acc store, items = done ++ item :: rest →
      J done acc store → M.Yields (J (done ++ [item])) (step acc item) store)
    {acc : β} (hstart : J [] acc store) :
    M.Yields (J items) (items.foldlM step acc) store := by
  suffices h : ∀ rest done acc store, items = done ++ rest → J done acc store →
      M.Yields (J items) (rest.foldlM step acc) store from
    h items [] acc store rfl hstart
  intro rest
  induction rest with
  | nil =>
      intro done acc store hitems hdone
      rw [List.append_nil] at hitems
      exact .ret (hitems ▸ hdone)
  | cons item rest ih =>
      intro done acc store hitems hdone
      rw [List.foldlM_cons, Prog.bind_eq]
      exact (hstep done item rest acc store hitems hdone).bind
        fun next middle hnext => ih (done ++ [item]) next middle
          (by simp [hitems]) hnext

/-- The loop rule for an accumulator that the items determine. -/
theorem eval_foldlM {step : β → α → Prog Res ε β} {next : β → α → β}
    (J : List α → σ → Prop) {items : List α}
    (hstep : ∀ done item rest acc store, items = done ++ item :: rest →
      J done store → ∃ store', M.eval (step acc item) store =
        (.ok (next acc item), store') ∧ J (done ++ [item]) store')
    {acc : β} (hstart : J [] store) :
    ∃ final, M.eval (items.foldlM step acc) store =
      (.ok (items.foldl next acc), final) ∧ J items final := by
  obtain ⟨acc', final, hrun, rfl, hfinal⟩ := yields_foldlM
    (fun done acc' store => acc' = done.foldl next acc ∧ J done store)
    (fun done item rest acc' store hitems hdone => by
      obtain ⟨rfl, hdone⟩ := hdone
      obtain ⟨store', hone, hafter⟩ :=
        hstep done item rest (done.foldl next acc) store hitems hdone
      exact ⟨_, store', hone, by simp, hafter⟩) ⟨rfl, hstart⟩
  exact ⟨final, hrun, hfinal⟩

end Evaluation

/-! ## What a run ensures -/

/-- However the run goes, it ends with an outcome and in a store that satisfy
the postcondition. -/
def Ensures (M : Machine Res ε σ) (Q : Except ε α → σ → Prop) :
    Prog Res ε α → σ → Prop
  | .ret value, store => Q (.ok value) store
  | .throw error, store => Q (.error error) store
  | .call op next, store =>
      (∀ value store', M.exec op store = .ok (value, store') →
        Ensures M Q (next (.ok value)) store') ∧
      ∀ error, M.exec op store = .error error ∨ M.fallible op = true →
        Ensures M Q (next (.error error)) store

variable {Q Q' : Except ε α → σ → Prop}

theorem Ensures.of_runs (h : M.Ensures Q body store)
    (hruns : M.Runs body store result final) : Q result final := by
  induction hruns with
  | ret value store => exact h
  | throw error store => exact h
  | done hexec _ ih => exact ih (h.1 _ _ hexec)
  | raised hexec _ ih => exact ih (h.2 _ (.inl hexec))
  | failed hfallible _ ih => exact ih (h.2 _ (.inr hfallible))

theorem ensures_iff : M.Ensures Q body store ↔
    ∀ result final, M.Runs body store result final → Q result final := by
  constructor
  · exact fun h result final => h.of_runs
  · intro h
    induction body generalizing store with
    | ret value => exact h _ _ (.ret value store)
    | throw error => exact h _ _ (.throw error store)
    | call op next ih =>
        constructor
        · exact fun value store' hexec => ih _ fun result final hrest =>
            h result final (.done hexec hrest)
        · rintro error (hexec | hfallible)
          · exact ih _ fun result final hrest =>
              h result final (.raised hexec hrest)
          · exact ih _ fun result final hrest =>
              h result final (.failed hfallible hrest)

theorem Ensures.mono (h : M.Ensures Q body store)
    (himp : ∀ result final, Q result final → Q' result final) :
    M.Ensures Q' body store :=
  ensures_iff.mpr fun result final hruns => himp result final (h.of_runs hruns)

theorem Ensures.and_returns {P : α → Prop} (h : M.Ensures Q body store)
    (hreturns : body.Returns P) :
    M.Ensures (fun result final => Q result final ∧
      ∀ value, result = .ok value → P value) body store := by
  induction body generalizing store with
  | ret value =>
      refine ⟨h, fun other hother => ?_⟩
      cases hother
      exact hreturns
  | throw error => exact ⟨h, nofun⟩
  | call op next ih =>
      exact ⟨fun value store' hexec =>
          ih _ (h.1 value store' hexec) (hreturns _),
        fun error hcause => ih _ (h.2 error hcause) (hreturns _)⟩

/-! ## Rules -/

def Then (M : Machine Res ε σ) (Q : Except ε β → σ → Prop)
    (rest : α → Prog Res ε β) : Except ε α → σ → Prop
  | .ok value, store => M.Ensures Q (rest value) store
  | .error error, store => Q (.error error) store

theorem ensures_bind {Q : Except ε β → σ → Prop} {rest : α → Prog Res ε β} :
    M.Ensures Q (body.bind rest) store ↔
      M.Ensures (M.Then Q rest) body store := by
  induction body generalizing store with
  | ret value => rfl
  | throw error => rfl
  | call op next ih => simp only [Prog.call_bind, Ensures, ih]

theorem Ensures.bind {P : Except ε α → σ → Prop} {Q : Except ε β → σ → Prop}
    {rest : α → Prog Res ε β} (h : M.Ensures P body store)
    (hok : ∀ value middle, P (.ok value) middle →
      M.Ensures Q (rest value) middle)
    (herror : ∀ error middle, P (.error error) middle → Q (.error error) middle) :
    M.Ensures Q (body.bind rest) store := by
  rw [ensures_bind]
  refine h.mono ?_
  rintro (error | value) middle hP
  · exact herror error middle hP
  · exact hok value middle hP

theorem Ensures.tryCatch {P : Except ε α → σ → Prop}
    {handler : ε → Prog Res ε α} (h : M.Ensures P body store)
    (hok : ∀ value middle, P (.ok value) middle → Q (.ok value) middle)
    (herror : ∀ error middle, P (.error error) middle →
      M.Ensures Q (handler error) middle) :
    M.Ensures Q (body.tryCatch handler) store := by
  induction body generalizing store with
  | ret value => exact hok value store h
  | throw error => exact herror error store h
  | call op next ih =>
      exact ⟨fun value store' hexec => ih _ (h.1 value store' hexec),
        fun error hcause => ih _ (h.2 error hcause)⟩

theorem Ensures.attempt {Q : Except ε (Except ε α) → σ → Prop}
    {P : Except ε α → σ → Prop} (h : M.Ensures P body store)
    (hout : ∀ result middle, P result middle → Q (.ok result) middle) :
    M.Ensures Q (Prog.attempt body) store := by
  refine Ensures.tryCatch (P := fun result middle => match result with
    | .ok result => P result middle
    | .error error => P (.error error) middle) ?_ ?_ ?_
  · exact h.bind (fun _ _ hP => hP) fun _ _ hP => hP
  · exact fun result middle hP => hout result middle hP
  · exact fun error middle hP => hout (.error error) middle hP

theorem ensures_await {op : Op} {Q : Except ε (Res op) → σ → Prop}
    (hok : ∀ value store', M.exec op store = .ok (value, store') →
      Q (.ok value) store')
    (herror : ∀ error, M.exec op store = .error error ∨ M.fallible op = true →
      Q (.error error) store) :
    M.Ensures Q (Prog.await op) store := ⟨hok, herror⟩

theorem ensures_await_bind {op : Op} {rest : Res op → Prog Res ε α}
    (hok : ∀ value store', M.exec op store = .ok (value, store') →
      M.Ensures Q (rest value) store')
    (herror : ∀ error, Q (.error error) store) :
    M.Ensures Q ((Prog.await op).bind rest) store :=
  (ensures_await (Q := M.Then Q rest) hok fun error _ => herror error).bind
    (fun _ _ h => h) fun _ _ h => h

theorem ensures_ofExcept_bind {checked : Except ε β}
    {rest : β → Prog Res ε α}
    (hok : ∀ value, checked = .ok value → M.Ensures Q (rest value) store)
    (herror : ∀ error, Q (.error error) store) :
    M.Ensures Q ((Prog.ofExcept checked).bind rest) store := by
  cases checked with
  | ok value => exact hok value rfl
  | error error => exact herror error

/-- The loop rule.  `I` speaks of the items still to come. -/
theorem ensures_foldlM {step : β → α → Prog Res ε β}
    (I : List α → β → σ → Prop) (E : ε → σ → Prop)
    (hstep : ∀ item items acc store, I (item :: items) acc store →
      M.Ensures (fun result store' => match result with
        | .ok acc' => I items acc' store'
        | .error error => E error store') (step acc item) store)
    {items : List α} {acc : β} (hstart : I items acc store) :
    M.Ensures (fun result store' => match result with
      | .ok acc' => I [] acc' store'
      | .error error => E error store') (items.foldlM step acc) store := by
  induction items generalizing acc store with
  | nil => exact hstart
  | cons item items ih =>
      rw [List.foldlM_cons, Prog.bind_eq]
      exact (hstep item items acc store hstart).bind
        (fun acc' middle hnext => ih hnext) fun error middle hE => hE

theorem ensures_of_uses {allowed : Op → Prop} {J : σ → Prop}
    (hkeeps : ∀ op store value store', allowed op →
      M.exec op store = .ok (value, store') → J store → J store')
    (huses : body.Uses allowed) (hstart : J store) :
    M.Ensures (fun _ final => J final) body store := by
  induction body generalizing store with
  | ret value => exact hstart
  | throw error => exact hstart
  | call op next ih =>
      exact ⟨fun value store' hexec => ih _ (huses.2 _)
          (hkeeps op store value store' huses.1 hexec hstart),
        fun error _ => ih _ (huses.2 _) hstart⟩

/-! ## A run inside a pool -/

/-- A call that is run on its own gets through a run of the first part of its
body. -/
theorem reach_of_runs {sys : System Res ε β κ σ ν} {tasks : List (Task Res ε β κ)}
    {call : κ} {trace : List (Σ op, Res op)} {rest : α → Prog Res ε β}
    (hruns : sys.machine.Runs body store result final) :
    ∃ trace', sys.Reach (fun _ _ => True)
      ⟨store, tasks ++ [⟨call, trace, body.bind rest⟩]⟩
      ⟨final, tasks ++ [⟨call, trace', (Prog.ofExcept result).bind rest⟩]⟩ := by
  have hat : ∀ task : Task Res ε β κ,
      (tasks ++ [task])[tasks.length]? = some task := by simp
  have hset : ∀ task task' : Task Res ε β κ,
      (tasks ++ [task]).set tasks.length task' = tasks ++ [task'] := by simp
  induction hruns generalizing trace with
  | ret value store => exact ⟨trace, .refl⟩
  | throw error store => exact ⟨trace, .refl⟩
  | @done op next store store' final value result hexec _ ih =>
      obtain ⟨trace', hrest⟩ := @ih (⟨op, value⟩ :: trace)
      refine ⟨trace', System.Reach.trans
        (.tail (.run tasks.length) .refl trivial ?_) hrest⟩
      have hstep : sys.exec op store = .ok (value, store') := hexec
      simp only [Prog.call_bind, System.step, hat, hstep, hset]
  | @raised op next store final error result hexec _ ih =>
      obtain ⟨trace', hrest⟩ := @ih trace
      refine ⟨trace', System.Reach.trans
        (.tail (.run tasks.length) .refl trivial ?_) hrest⟩
      have hstep : sys.exec op store = .error error := hexec
      simp only [Prog.call_bind, System.step, hat, hstep, hset]
  | @failed op next store final error result hfallible _ ih =>
      obtain ⟨trace', hrest⟩ := @ih trace
      refine ⟨trace', System.Reach.trans
        (.tail (.fail tasks.length error) .refl trivial ?_) hrest⟩
      have hstep : sys.fallible op = true := hfallible
      simp only [Prog.call_bind, System.step, hat, hstep, if_true, hset]

end Machine

end SyncBridge.Foundation
