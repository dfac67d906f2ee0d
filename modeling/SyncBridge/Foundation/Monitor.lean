import SyncBridge.Foundation.Pool

/-!
# Monitors of a call

A monitor watches the operations one call gets through and keeps a state of
its own about them: which obligations the call has taken on, which check it
has made and not yet acted on.  Its guard says which operations the call may
attempt in which state.  `Accepts` is a property of the body alone, for every
answer the outside may give; in a pool of interleaved calls it then holds of
every call at every moment, because a monitor only looks at its own call.
-/

namespace SyncBridge.Foundation

variable {Op : Type} {Res : Op → Type} {ε α β κ σ ν γ : Type}

structure Monitor {Op : Type} (Res : Op → Type) (κ γ : Type) where
  init : κ → γ
  /-- The state after an operation went through with a value. -/
  note : κ → γ → (op : Op) → Res op → γ
  guard : κ → γ → Op → Prop
  /-- What is known of the value of an operation. -/
  facts : κ → γ → (op : Op) → Res op → Prop
  /-- The operations that may raise an exception. -/
  fails : κ → γ → Op → Prop := fun _ _ _ => True

namespace Monitor

variable (M : Monitor Res κ γ)

def after (call : κ) (trace : List (Σ op, Res op)) : γ :=
  trace.foldr (fun entry g => M.note call g entry.1 entry.2) (M.init call)

def Guarded (call : κ) (trace : List (Σ op, Res op)) : Prop :=
  ∀ entry older, entry :: older <:+ trace →
    M.guard call (M.after call older) entry.1

def state (task : Task Res ε α κ) : γ :=
  task.trace.foldr (fun entry g => M.note task.call g entry.1 entry.2)
    (M.init task.call)

/-- From state `g` the body only attempts what the guard allows, and `Q` holds
of its outcome and of the state it ends in. -/
def Accepts (call : κ) (Q : γ → Except ε α → Prop) : Prog Res ε α → γ → Prop
  | .ret value, g => Q g (.ok value)
  | .throw error, g => Q g (.error error)
  | .call op next, g =>
      M.guard call g op ∧
        (∀ value, M.facts call g op value →
          Accepts call Q (next (.ok value)) (M.note call g op value)) ∧
        (M.fails call g op → ∀ error, Accepts call Q (next (.error error)) g)

variable {M} {call : κ} {g : γ}

@[simp] theorem accepts_ret {Q : γ → Except ε α → Prop} {value : α} :
    M.Accepts call Q (.ret value : Prog Res ε α) g ↔ Q g (.ok value) :=
  Iff.rfl

@[simp] theorem accepts_throw {Q : γ → Except ε α → Prop} {error : ε} :
    M.Accepts call Q (.throw error : Prog Res ε α) g ↔ Q g (.error error) :=
  Iff.rfl

theorem accepts_call {Q : γ → Except ε α → Prop} {op : Op}
    {next : Except ε (Res op) → Prog Res ε α} :
    M.Accepts call Q (.call op next) g ↔
      M.guard call g op ∧
        (∀ value, M.facts call g op value →
          M.Accepts call Q (next (.ok value)) (M.note call g op value)) ∧
        (M.fails call g op →
          ∀ error, M.Accepts call Q (next (.error error)) g) := Iff.rfl

theorem Accepts.mono {Q Q' : γ → Except ε α → Prop} {body : Prog Res ε α}
    (himp : ∀ g result, Q g result → Q' g result)
    (h : M.Accepts call Q body g) : M.Accepts call Q' body g := by
  induction body generalizing g with
  | ret value => exact himp _ _ h
  | throw error => exact himp _ _ h
  | call op next ih =>
      obtain ⟨hguard, hok, herror⟩ := h
      exact ⟨hguard, fun value hfacts => ih _ (hok value hfacts),
        fun hfails error => ih _ (herror hfails error)⟩

theorem Accepts.and_returns {Q : γ → Except ε α → Prop} {P : α → Prop}
    {body : Prog Res ε α} (h : M.Accepts call Q body g)
    (hreturns : body.Returns P) :
    M.Accepts call
      (fun g' result => Q g' result ∧ ∀ value, result = .ok value → P value)
      body g := by
  induction body generalizing g with
  | ret value =>
      refine ⟨h, fun other hother => ?_⟩
      cases hother
      exact hreturns
  | throw error => exact ⟨h, nofun⟩
  | call op next ih =>
      obtain ⟨hguard, hok, herror⟩ := h
      exact ⟨hguard,
        fun value hfacts => ih _ (hok value hfacts) (hreturns _),
        fun hfails error => ih _ (herror hfails error) (hreturns _)⟩

def Seq (M : Monitor Res κ γ) (call : κ) (Q : γ → Except ε β → Prop)
    (rest : α → Prog Res ε β) (g : γ) : Except ε α → Prop
  | .ok value => M.Accepts call Q (rest value) g
  | .error error => Q g (.error error)

@[simp] theorem seq_ok {Q : γ → Except ε β → Prop} {rest : α → Prog Res ε β}
    {value : α} :
    M.Seq call Q rest g (.ok value) ↔ M.Accepts call Q (rest value) g :=
  Iff.rfl

@[simp] theorem seq_error {Q : γ → Except ε β → Prop}
    {rest : α → Prog Res ε β} {error : ε} :
    M.Seq call Q rest g (.error error) ↔ Q g (.error error) := Iff.rfl

theorem accepts_bind {Q : γ → Except ε β → Prop} {body : Prog Res ε α}
    {rest : α → Prog Res ε β} :
    M.Accepts call Q (body.bind rest) g ↔
      M.Accepts call (M.Seq call Q rest) body g := by
  induction body generalizing g with
  | ret value => rfl
  | throw error => rfl
  | call op next ih =>
      simp only [Prog.call_bind, accepts_call, ih]

def Handle (M : Monitor Res κ γ) (call : κ) (Q : γ → Except ε α → Prop)
    (handler : ε → Prog Res ε α) (g : γ) : Except ε α → Prop
  | .ok value => Q g (.ok value)
  | .error error => M.Accepts call Q (handler error) g

@[simp] theorem handle_ok {Q : γ → Except ε α → Prop}
    {handler : ε → Prog Res ε α} {value : α} :
    M.Handle call Q handler g (.ok value) ↔ Q g (.ok value) := Iff.rfl

@[simp] theorem handle_error {Q : γ → Except ε α → Prop}
    {handler : ε → Prog Res ε α} {error : ε} :
    M.Handle call Q handler g (.error error) ↔
      M.Accepts call Q (handler error) g := Iff.rfl

theorem accepts_tryCatch {Q : γ → Except ε α → Prop} {body : Prog Res ε α}
    {handler : ε → Prog Res ε α} :
    M.Accepts call Q (body.tryCatch handler) g ↔
      M.Accepts call (M.Handle call Q handler) body g := by
  induction body generalizing g with
  | ret value => rfl
  | throw error => rfl
  | call op next ih =>
      simp only [Prog.call_tryCatch, accepts_call, ih]

theorem accepts_attempt {Q : γ → Except ε (Except ε α) → Prop}
    {body : Prog Res ε α} :
    M.Accepts call Q (Prog.attempt body) g ↔
      M.Accepts call (fun g' result => Q g' (.ok result)) body g := by
  rw [Prog.attempt, accepts_tryCatch, accepts_bind]
  constructor
  · refine Accepts.mono ?_
    rintro g' (error | value) hresult <;> exact hresult
  · refine Accepts.mono ?_
    rintro g' (error | value) hresult <;> exact hresult

theorem accepts_await {op : Op} {Q : γ → Except ε (Res op) → Prop} :
    M.Accepts call Q (Prog.await op) g ↔
      M.guard call g op ∧
        (∀ value, M.facts call g op value →
          Q (M.note call g op value) (.ok value)) ∧
        (M.fails call g op → ∀ error, Q g (.error error)) := Iff.rfl

theorem accepts_await_bind {Q : γ → Except ε β → Prop} {op : Op}
    {rest : Res op → Prog Res ε β} :
    M.Accepts call Q ((Prog.await op).bind rest) g ↔
      M.guard call g op ∧
        (∀ value, M.facts call g op value →
          M.Accepts call Q (rest value) (M.note call g op value)) ∧
        (M.fails call g op → ∀ error, Q g (.error error)) := by
  rw [accepts_bind, accepts_await]
  simp

theorem accepts_ofExcept {Q : γ → Except ε α → Prop} {result : Except ε α} :
    M.Accepts call Q (Prog.ofExcept result : Prog Res ε α) g ↔ Q g result := by
  cases result <;> rfl

theorem accepts_ofExcept_bind {Q : γ → Except ε β → Prop}
    {result : Except ε α} {rest : α → Prog Res ε β}
    (hrest : ∀ value, result = .ok value → M.Accepts call Q (rest value) g)
    (herror : ∀ error, Q g (.error error)) :
    M.Accepts call Q ((Prog.ofExcept result).bind rest) g := by
  cases result with
  | ok value => exact hrest value rfl
  | error error => exact herror error

/-- The loop rule.  `I` speaks of the items still to come, of the accumulator
and of the monitor's state. -/
theorem accepts_foldlM {step : β → α → Prog Res ε β}
    (I : List α → β → γ → Prop) (E : γ → ε → Prop)
    (hstep : ∀ item items acc g, I (item :: items) acc g →
      M.Accepts call
        (fun g' result => match result with
          | .ok acc' => I items acc' g'
          | .error error => E g' error)
        (step acc item) g)
    {items : List α} {acc : β} (hstart : I items acc g) :
    M.Accepts call
      (fun g' result => match result with
        | .ok acc' => I [] acc' g'
        | .error error => E g' error)
      (items.foldlM step acc) g := by
  induction items generalizing acc g with
  | nil => exact hstart
  | cons item items ih =>
      rw [List.foldlM_cons, Prog.bind_eq, accepts_bind]
      refine (hstep item items acc g hstart).mono ?_
      rintro g' (error | acc') hresult
      · exact hresult
      · exact ih hresult

/-- Operations that the monitor lets pass in state `g` without taking notice. -/
def Silent (M : Monitor Res κ γ) (call : κ) (g : γ) (op : Op) : Prop :=
  M.guard call g op ∧ ∀ value, M.note call g op value = g

theorem accepts_of_silent {body : Prog Res ε α}
    (h : body.Uses (M.Silent call g)) :
    M.Accepts call (fun g' _ => g' = g) body g := by
  induction body with
  | ret value => rfl
  | throw error => rfl
  | call op next ih =>
      refine ⟨h.1.1, fun value _ => ?_, fun _ error => ih _ (h.2 _)⟩
      rw [h.1.2 value]
      exact ih _ (h.2 _)

/-- A body that throws nothing of its own throws only where an operation may
raise an exception, and `R` is known there. -/
theorem accepts_raising {R : Prop} {body : Prog Res ε α}
    (hthrows : body.NeverThrows)
    (h : body.Uses fun op => M.Silent call g op ∧ (M.fails call g op → R)) :
    M.Accepts call
      (fun g' result => g' = g ∧ (R ∨ ∃ value, result = .ok value)) body g := by
  induction body with
  | ret value => exact ⟨rfl, .inr ⟨value, rfl⟩⟩
  | throw error => exact hthrows.elim
  | call op next ih =>
      refine ⟨h.1.1.1, fun value _ => ?_, fun hraises error => ?_⟩
      · rw [h.1.1.2 value]
        exact ih _ (hthrows.1 value) (h.2 _)
      · have hR := h.1.2 hraises
        refine (accepts_of_silent ((h.2 _).mono fun _ hop => hop.1)).mono ?_
        exact fun _ _ hsame => ⟨hsame, .inl hR⟩

theorem accepts_of_neverThrows {body : Prog Res ε α}
    (hfails : ∀ op, ¬ M.fails call g op) (hthrows : body.NeverThrows)
    (h : body.Uses (M.Silent call g)) :
    M.Accepts call (fun g' result => g' = g ∧ ∃ value, result = .ok value)
      body g := by
  refine (accepts_raising (R := False) hthrows (h.mono fun op hop =>
    ⟨hop, hfails op⟩)).mono ?_
  rintro g' result ⟨hsame, hnever | hvalue⟩
  · exact hnever.elim
  · exact ⟨hsame, hvalue⟩

/-- A silent part changes nothing for what follows it. -/
theorem accepts_silent_bind {Q : γ → Except ε β → Prop} {body : Prog Res ε α}
    {rest : α → Prog Res ε β} (h : body.Uses (M.Silent call g))
    (hrest : ∀ value, M.Accepts call Q (rest value) g)
    (herror : ∀ error, Q g (.error error)) :
    M.Accepts call Q (body.bind rest) g := by
  rw [accepts_bind]
  refine (accepts_of_silent h).mono ?_
  rintro g' (error | value) rfl
  · exact herror error
  · exact hrest value

/-! ### Parts that keep a property of the state -/

structure Keeps (M : Monitor Res κ γ) (call : κ) (I : γ → Prop)
    (body : Prog Res ε α) : Prop where
  accepts : ∀ g, I g → M.Accepts call (fun g' _ => I g') body g

section Keeping

variable {I : γ → Prop}

theorem Keeps.ret (value : α) : M.Keeps call I (.ret value : Prog Res ε α) :=
  ⟨fun _ h => h⟩

theorem Keeps.throw (error : ε) : M.Keeps call I (.throw error : Prog Res ε α) :=
  ⟨fun _ h => h⟩

theorem Keeps.ofExcept (result : Except ε α) :
    M.Keeps call I (Prog.ofExcept result : Prog Res ε α) := by
  cases result with
  | ok value => exact .ret value
  | error error => exact .throw error

theorem Keeps.of_uses {body : Prog Res ε α}
    (h : body.Uses fun op => ∀ g, I g →
      M.guard call g op ∧ ∀ value, I (M.note call g op value)) :
    M.Keeps call I body := by
  constructor
  intro g hstart
  induction body generalizing g with
  | ret value => exact hstart
  | throw error => exact hstart
  | call op next ih =>
      have hop := h.1 g hstart
      exact ⟨hop.1, fun value _ => ih _ (h.2 _) _ (hop.2 value),
        fun _ error => ih _ (h.2 _) g hstart⟩

theorem Keeps.bind {body : Prog Res ε α} {rest : α → Prog Res ε β}
    (h : M.Keeps call I body) (hrest : ∀ value, M.Keeps call I (rest value)) :
    M.Keeps call I (body.bind rest) := by
  constructor
  intro g hstart
  rw [accepts_bind]
  refine (h.accepts g hstart).mono ?_
  rintro g' (error | value) hkept
  · exact hkept
  · exact (hrest value).accepts g' hkept

theorem Keeps.await {op : Op} {rest : Res op → Prog Res ε α}
    (hop : ∀ g, I g → M.guard call g op ∧
      ∀ value, M.facts call g op value → I (M.note call g op value))
    (hrest : ∀ g value, I g → M.facts call g op value →
      M.Keeps call I (rest value)) :
    M.Keeps call I ((Prog.await op).bind rest) := by
  constructor
  intro g hstart
  obtain ⟨hguard, hnote⟩ := hop g hstart
  exact accepts_await_bind.mpr ⟨hguard,
    fun value hfacts =>
      (hrest g value hstart hfacts).accepts _ (hnote value hfacts),
    fun _ _ => hstart⟩

theorem Keeps.tryCatch {body : Prog Res ε α} {handler : ε → Prog Res ε α}
    (h : M.Keeps call I body)
    (hhandler : ∀ error, M.Keeps call I (handler error)) :
    M.Keeps call I (body.tryCatch handler) := by
  constructor
  intro g hstart
  rw [accepts_tryCatch]
  refine (h.accepts g hstart).mono ?_
  rintro g' (error | value) hkept
  · exact (hhandler error).accepts g' hkept
  · exact hkept

theorem compositional_keeps (M : Monitor Res κ γ) (call : κ) (I : γ → Prop) :
    Prog.Compositional fun {_} (body : Prog Res ε _) => M.Keeps call I body where
  ret := .ret
  throw := .throw
  bind := .bind
  tryCatch := .tryCatch

theorem Keeps.attempt {body : Prog Res ε α} (h : M.Keeps call I body) :
    M.Keeps call I (Prog.attempt body) :=
  (compositional_keeps M call I).attempt h

theorem Keeps.foldlM {step : β → α → Prog Res ε β} {items : List α}
    (hstep : ∀ acc, ∀ item ∈ items, M.Keeps call I (step acc item)) (acc : β) :
    M.Keeps call I (items.foldlM step acc) :=
  (compositional_keeps M call I).foldlM hstep acc

end Keeping

end Monitor

/-! ## Monitors in a pool -/

namespace Monitor

variable {M : Monitor Res κ γ}

@[simp] theorem state_spawn (sys : System Res ε α κ σ ν) (call : κ) :
    M.state (sys.spawn call) = M.init call := rfl

@[simp] theorem state_nil (call : κ) (prog : Prog Res ε α) :
    M.state (⟨call, [], prog⟩ : Task Res ε α κ) = M.init call := rfl

theorem state_cons (call : κ) (op : Op) (value : Res op)
    (trace : List (Σ op, Res op)) (prog prog' : Prog Res ε α) :
    M.state (⟨call, ⟨op, value⟩ :: trace, prog⟩ : Task Res ε α κ) =
      M.note call (M.state (⟨call, trace, prog'⟩ : Task Res ε α κ)) op
        value := rfl

theorem state_eq_after (task : Task Res ε α κ) :
    M.state task = M.after task.call task.trace := rfl

theorem guarded_nil (call : κ) : M.Guarded call [] := by
  intro entry older hsuffix
  exact absurd hsuffix (by simp)

theorem Guarded.cons {call : κ} {trace : List (Σ op, Res op)} {op : Op}
    {value : Res op} (h : M.Guarded call trace)
    (hguard : M.guard call (M.after call trace) op) :
    M.Guarded call (⟨op, value⟩ :: trace) := by
  intro entry older hsuffix
  rcases List.suffix_cons_iff.mp hsuffix with hnew | hold
  · cases hnew
    exact hguard
  · exact h entry older hold

theorem Guarded.after {I : γ → Prop} {P : (Σ op, Res op) → Prop} {call : κ}
    {trace : List (Σ op, Res op)} (h : M.Guarded call trace)
    (hinit : I (M.init call))
    (hnote : ∀ g op value, I g → M.guard call g op → P ⟨op, value⟩ →
      I (M.note call g op value))
    (htrace : ∀ entry ∈ trace, P entry) : I (M.after call trace) := by
  induction trace with
  | nil => exact hinit
  | cons entry trace ih =>
      refine hnote _ _ _ (ih ?_ ?_) (h entry trace (List.suffix_refl _))
        (htrace entry List.mem_cons_self)
      · exact fun later older hsuffix =>
          h later older (hsuffix.trans (List.suffix_cons _ _))
      · exact fun other hother => htrace other (List.mem_cons_of_mem _ hother)

variable {sys : System Res ε α κ σ ν}
  {ok : Pool Res ε α κ σ → Action ε κ ν → Prop}
  {pool init : Pool Res ε α κ σ}

theorem guarded_of_accepts {Q : κ → γ → Except ε α → Prop}
    (haccepts : ∀ pool, sys.Reach ok init pool → ∀ task ∈ pool.tasks,
      M.Accepts task.call (Q task.call) task.prog (M.state task))
    (hinit : init.tasks = []) (h : sys.Reach ok init pool) :
    ∀ task ∈ pool.tasks, M.Guarded task.call task.trace := by
  refine h.invariant
    (I := fun pool => ∀ task ∈ pool.tasks, M.Guarded task.call task.trace)
    ?_ ?_ ?_ ?_ ?_
  · simp [hinit]
  · intro pool call _ hold _ _ task htask
    rcases List.mem_append.mp htask with hbefore | hnew
    · exact hold task hbefore
    · obtain rfl := List.mem_singleton.mp hnew
      exact guarded_nil call
  · intro pool pool' index task op next value hreach hold _ hdone other hother
    have hmem := List.mem_of_getElem? hdone.at_index
    rw [hdone.tasks] at hother
    rcases List.mem_or_eq_of_mem_set hother with hbefore | rfl
    · exact hold other hbefore
    · have hbefore := haccepts pool hreach task hmem
      rw [hdone.awaits] at hbefore
      exact (hold task hmem).cons hbefore.1
  · intro pool pool' index task op next error _ hold _ hraised other hother
    rw [hraised.tasks] at hother
    rcases List.mem_or_eq_of_mem_set hother with hbefore | rfl
    · exact hold other hbefore
    · exact hold task (List.mem_of_getElem? hraised.at_index)
  · intro pool pool' event calls _ hold _ _ htasks task htask
    rw [htasks] at htask
    rcases List.mem_append.mp htask with hbefore | hnew
    · exact hold task hbefore
    · obtain ⟨call, -, rfl⟩ := List.mem_map.mp hnew
      exact guarded_nil call

/-- Every call of a reachable pool is accepted from where it stands. -/
theorem accepts_of_reach {Q : κ → γ → Except ε α → Prop}
    (hfacts : ∀ call g op store value store',
      sys.exec op store = .ok (value, store') → M.facts call g op value)
    (hfails : ∀ call g op, sys.mayRaise op → M.fails call g op)
    (hbody : ∀ call, M.Accepts call (Q call) (sys.body call) (M.init call))
    (hinit : init.tasks = []) (h : sys.Reach ok init pool) :
    ∀ task ∈ pool.tasks,
      M.Accepts task.call (Q task.call) task.prog (M.state task) := by
  refine h.forall_tasks (P := fun _ task =>
    M.Accepts task.call (Q task.call) task.prog (M.state task)) ?_ ?_ ?_ ?_ ?_ ?_
  · simp [hinit]
  · exact fun _ call => hbody call
  · exact fun _ _ _ _ _ _ haccepts => haccepts
  · exact fun _ _ _ _ _ _ _ haccepts => haccepts
  · intro pool pool' index task op next value _ haccepts hdone
    rw [hdone.awaits] at haccepts
    exact haccepts.2.1 value (hfacts _ _ _ _ _ _ hdone.exec)
  · intro store task op next error hraises haccepts hprog
    rw [hprog] at haccepts
    exact haccepts.2.2 (hfails _ _ op hraises) error

/-- What a call learns of the store and nothing undoes is true of the store as
it is. -/
theorem knows_of_reach {K : γ → σ → Prop} (hstart : ∀ call store,
      K (M.init call) store)
    (hnote : ∀ call g op store value store',
      sys.exec op store = .ok (value, store') → K g store →
      K (M.note call g op value) store')
    (hkeeps : ∀ g op store value store',
      sys.exec op store = .ok (value, store') → K g store → K g store')
    (hevent : ∀ g event store count store' calls,
      sys.env event store count = some (store', calls) → K g store →
      K g store')
    (hinit : init.tasks = []) (h : sys.Reach ok init pool) :
    ∀ task ∈ pool.tasks, K (M.state task) pool.store := by
  refine h.forall_tasks (P := fun store task => K (M.state task) store)
    ?_ ?_ ?_ ?_ ?_ ?_
  · simp [hinit]
  · exact fun store call => hstart call store
  · exact fun _ _ _ _ _ hexec hknows => hkeeps _ _ _ _ _ hexec hknows
  · exact fun _ _ _ _ _ _ henv hknows => hevent _ _ _ _ _ _ henv hknows
  · intro pool pool' index task op next value _ hknows hdone
    exact hnote _ _ _ _ _ _ hdone.exec hknows
  · exact fun _ _ _ _ _ _ hknows _ => hknows

end Monitor

end SyncBridge.Foundation
