/-!
# Asynchronous function bodies

An async function runs without interruption up to its next `await`, hands an
operation to the outside, and is resumed with that operation's value or with
the exception it raised.  `Prog` records exactly this shape: a body is a tree
of awaited operations, and the scheduler of a program of several such bodies
chooses which one is resumed next.
-/

namespace SyncBridge.Foundation

variable {Op : Type} {Res : Op → Type} {ε α β γ : Type}

inductive Prog {Op : Type} (Res : Op → Type) (ε α : Type) : Type where
  | ret (value : α)
  | throw (error : ε)
  | call (op : Op) (next : Except ε (Res op) → Prog Res ε α)

namespace Prog

def bind : Prog Res ε α → (α → Prog Res ε β) → Prog Res ε β
  | .ret value, rest => rest value
  | .throw error, _ => .throw error
  | .call op next, rest => .call op fun result => (next result).bind rest

def tryCatch : Prog Res ε α → (ε → Prog Res ε α) → Prog Res ε α
  | .ret value, _ => .ret value
  | .throw error, handler => handler error
  | .call op next, handler =>
      .call op fun result => (next result).tryCatch handler

instance : Monad (Prog Res ε) where
  pure := .ret
  bind := bind

instance : MonadExceptOf ε (Prog Res ε) where
  throw := .throw
  tryCatch := tryCatch

/-- Wait for one operation and rethrow what it raises. -/
def await (op : Op) : Prog Res ε (Res op) :=
  .call op fun
    | .ok value => .ret value
    | .error error => .throw error

def ofExcept : Except ε α → Prog Res ε α
  | .ok value => .ret value
  | .error error => .throw error

/-- The outcome of a body as a value, so that a caller can inspect a throw. -/
def attempt (body : Prog Res ε α) : Prog Res ε (Except ε α) :=
  tryCatch (body.bind fun value => .ret (.ok value))
    fun error => .ret (.error error)

def finished : Prog Res ε α → Bool
  | .call _ _ => false
  | _ => true

@[simp] theorem pure_eq (value : α) :
    (pure value : Prog Res ε α) = .ret value := rfl

@[simp] theorem throw_eq (error : ε) :
    (MonadExcept.throw error : Prog Res ε α) = .throw error := rfl

@[simp] theorem bind_eq (body : Prog Res ε α) (rest : α → Prog Res ε β) :
    body >>= rest = body.bind rest := rfl

@[simp] theorem map_eq (f : α → β) (body : Prog Res ε α) :
    f <$> body = body.bind fun value => .ret (f value) := rfl

@[simp] theorem tryCatch_eq (body : Prog Res ε α)
    (handler : ε → Prog Res ε α) :
    MonadExcept.tryCatch body handler = body.tryCatch handler := rfl

@[simp] theorem ret_bind (value : α) (rest : α → Prog Res ε β) :
    (ret value : Prog Res ε α).bind rest = rest value := rfl

@[simp] theorem throw_bind (error : ε) (rest : α → Prog Res ε β) :
    (throw error : Prog Res ε α).bind rest = .throw error := rfl

@[simp] theorem call_bind (op : Op)
    (next : Except ε (Res op) → Prog Res ε α) (rest : α → Prog Res ε β) :
    (call op next).bind rest =
      .call op fun result => (next result).bind rest := rfl

@[simp] theorem ret_tryCatch (value : α) (handler : ε → Prog Res ε α) :
    (ret value : Prog Res ε α).tryCatch handler = .ret value := rfl

@[simp] theorem throw_tryCatch (error : ε) (handler : ε → Prog Res ε α) :
    (throw error : Prog Res ε α).tryCatch handler = handler error := rfl

@[simp] theorem call_tryCatch (op : Op)
    (next : Except ε (Res op) → Prog Res ε α)
    (handler : ε → Prog Res ε α) :
    (call op next).tryCatch handler =
      .call op fun result => (next result).tryCatch handler := rfl

@[simp] theorem ofExcept_ok (value : α) :
    (ofExcept (.ok value) : Prog Res ε α) = .ret value := rfl

@[simp] theorem ofExcept_error (error : ε) :
    (ofExcept (.error error) : Prog Res ε α) = .throw error := rfl

@[simp] theorem finished_ret (value : α) :
    (ret value : Prog Res ε α).finished = true := rfl

@[simp] theorem finished_throw (error : ε) :
    (throw error : Prog Res ε α).finished = true := rfl

@[simp] theorem finished_call (op : Op)
    (next : Except ε (Res op) → Prog Res ε α) :
    (call op next).finished = false := rfl

theorem bind_assoc (body : Prog Res ε α) (first : α → Prog Res ε β)
    (second : β → Prog Res ε γ) :
    (body.bind first).bind second =
      body.bind fun value => (first value).bind second := by
  induction body with
  | ret value => rfl
  | throw error => rfl
  | call op next ih =>
      simp only [call_bind]
      congr 1
      funext result
      exact ih result

end Prog

theorem toOption_eq_some {result : Except ε α} {value : α} :
    result.toOption = some value ↔ result = .ok value := by
  cases result <;> simp [Except.toOption]

theorem bind_eq_ok {outcome : Except ε α} {rest : α → Except ε β}
    {value : β} :
    outcome >>= rest = .ok value ↔
      ∃ middle, outcome = .ok middle ∧ rest middle = .ok value := by
  cases outcome <;> simp [bind, Except.bind]

/-! ## The operations a body can reach -/

/-- Every operation the body may await, whatever it is answered, is allowed. -/
def Prog.Uses (allowed : Op → Prop) : Prog Res ε α → Prop
  | .ret _ => True
  | .throw _ => True
  | .call op next => allowed op ∧ ∀ result, (next result).Uses allowed

namespace Prog

variable {allowed allowed' : Op → Prop}

@[simp] theorem uses_ret (value : α) :
    (ret value : Prog Res ε α).Uses allowed := trivial

@[simp] theorem uses_throw (error : ε) :
    (throw error : Prog Res ε α).Uses allowed := trivial

@[simp] theorem uses_call (op : Op)
    (next : Except ε (Res op) → Prog Res ε α) :
    (call op next).Uses allowed ↔
      allowed op ∧ ∀ result, (next result).Uses allowed := Iff.rfl

@[simp] theorem uses_await (op : Op) :
    (await op : Prog Res ε (Res op)).Uses allowed ↔ allowed op := by
  constructor
  · exact fun h => h.1
  · intro h
    refine ⟨h, ?_⟩
    rintro (error | value) <;> trivial

@[simp] theorem uses_await_bind (op : Op) (rest : Res op → Prog Res ε α) :
    ((await op).bind rest).Uses allowed ↔
      allowed op ∧ ∀ value, (rest value).Uses allowed := by
  constructor
  · exact fun h => ⟨h.1, fun value => h.2 (.ok value)⟩
  · intro h
    refine ⟨h.1, ?_⟩
    rintro (error | value)
    · trivial
    · exact h.2 value

@[simp] theorem uses_ofExcept_bind (result : Except ε α)
    (rest : α → Prog Res ε β) :
    ((ofExcept result).bind rest).Uses allowed ↔
      ∀ value, result = .ok value → (rest value).Uses allowed := by
  cases result <;> simp [ofExcept]

@[simp] theorem uses_ofExcept (result : Except ε α) :
    (ofExcept result : Prog Res ε α).Uses allowed := by
  cases result <;> trivial

theorem Uses.bind {body : Prog Res ε α} {rest : α → Prog Res ε β}
    (hbody : body.Uses allowed) (hrest : ∀ value, (rest value).Uses allowed) :
    (body.bind rest).Uses allowed := by
  induction body with
  | ret value => exact hrest value
  | throw error => trivial
  | call op next ih => exact ⟨hbody.1, fun result => ih result (hbody.2 result)⟩

theorem Uses.await {op : Op} {rest : Res op → Prog Res ε α}
    (hop : allowed op) (hrest : ∀ value, (rest value).Uses allowed) :
    ((await op).bind rest).Uses allowed :=
  (uses_await_bind op rest).mpr ⟨hop, hrest⟩

theorem Uses.tryCatch {body : Prog Res ε α} {handler : ε → Prog Res ε α}
    (hbody : body.Uses allowed)
    (hhandler : ∀ error, (handler error).Uses allowed) :
    (body.tryCatch handler).Uses allowed := by
  induction body with
  | ret value => trivial
  | throw error => exact hhandler error
  | call op next ih => exact ⟨hbody.1, fun result => ih result (hbody.2 result)⟩

theorem Uses.attempt {body : Prog Res ε α} (hbody : body.Uses allowed) :
    (attempt body).Uses allowed :=
  Uses.tryCatch (Uses.bind hbody fun _ => trivial) fun _ => trivial

theorem Uses.mono {body : Prog Res ε α} (hbody : body.Uses allowed)
    (himp : ∀ op, allowed op → allowed' op) : body.Uses allowed' := by
  induction body with
  | ret value => trivial
  | throw error => trivial
  | call op next ih =>
      exact ⟨himp op hbody.1, fun result => ih result (hbody.2 result)⟩

theorem uses_of_forall (h : ∀ op, allowed op) (body : Prog Res ε α) :
    body.Uses allowed := by
  induction body with
  | ret value => trivial
  | throw error => trivial
  | call op next ih => exact ⟨h op, ih⟩

theorem Uses.foldlM {step : β → α → Prog Res ε β} {items : List α}
    (hstep : ∀ acc, ∀ item ∈ items, (step acc item).Uses allowed) (acc : β) :
    (items.foldlM step acc).Uses allowed := by
  induction items generalizing acc with
  | nil => trivial
  | cons item items ih =>
      rw [List.foldlM_cons]
      refine Uses.bind (hstep acc item List.mem_cons_self) fun next => ?_
      exact ih (fun acc' item' hitem =>
        hstep acc' item' (List.mem_cons_of_mem item hitem)) next

end Prog

/-! ## The values a body can return -/

def Prog.Returns (P : α → Prop) : Prog Res ε α → Prop
  | .ret value => P value
  | .throw _ => True
  | .call _ next => ∀ result, (next result).Returns P

namespace Prog

variable {P : α → Prop} {P' : β → Prop}

@[simp] theorem returns_ret (value : α) :
    (ret value : Prog Res ε α).Returns P ↔ P value := Iff.rfl

@[simp] theorem returns_throw (error : ε) :
    (throw error : Prog Res ε α).Returns P := trivial

theorem Returns.bind {body : Prog Res ε α} {rest : α → Prog Res ε β}
    (hrest : ∀ value, (rest value).Returns P') :
    (body.bind rest).Returns P' := by
  induction body with
  | ret value => exact hrest value
  | throw error => trivial
  | call op next ih => exact ih

theorem Returns.mono {Q : α → Prop} {body : Prog Res ε α}
    (h : body.Returns P) (himp : ∀ value, P value → Q value) :
    body.Returns Q := by
  induction body with
  | ret value => exact himp value h
  | throw error => trivial
  | call op next ih => exact fun result => ih result (h result)

theorem Returns.seq {body : Prog Res ε α} {rest : α → Prog Res ε β}
    (hbody : body.Returns P)
    (hrest : ∀ value, P value → (rest value).Returns P') :
    (body.bind rest).Returns P' := by
  induction body with
  | ret value => exact hrest value hbody
  | throw error => trivial
  | call op next ih => exact fun result => ih result (hbody result)

/-- The loop rule.  `I` speaks of the items still to come. -/
theorem Returns.foldlM {step : β → α → Prog Res ε β} (I : List α → β → Prop)
    (hstep : ∀ item items acc, I (item :: items) acc →
      (step acc item).Returns (I items))
    {items : List α} {acc : β} (hstart : I items acc) :
    (items.foldlM step acc).Returns (I []) := by
  induction items generalizing acc with
  | nil => exact hstart
  | cons item items ih =>
      rw [List.foldlM_cons]
      exact (hstep item items acc hstart).seq fun acc' hnext => ih hnext

end Prog

/-! ## The exceptions a body can throw -/

def Prog.ThrowsOnly (raises : Op → ε → Prop) (E : ε → Prop) :
    Prog Res ε α → Prop
  | .ret _ => True
  | .throw error => E error
  | .call op next => (∀ value, (next (.ok value)).ThrowsOnly raises E) ∧
      ∀ error, raises op error → (next (.error error)).ThrowsOnly raises E

def Prog.ThrowsOnlyAfter (kind : Op → Bool) (raises : Op → ε → Prop)
    (E : ε → Prop) : Prog Res ε α → Prop
  | .ret _ => True
  | .throw _ => True
  | .call op next =>
      (∀ value, if kind op then (next (.ok value)).ThrowsOnly raises E
        else (next (.ok value)).ThrowsOnlyAfter kind raises E) ∧
      ∀ error, (next (.error error)).ThrowsOnlyAfter kind raises E

abbrev Prog.NeverThrows (body : Prog Res ε α) : Prop :=
  body.ThrowsOnly (fun _ _ => False) fun _ => False

namespace Prog

variable {raises : Op → ε → Prop} {E : ε → Prop} {kind : Op → Bool}

theorem ThrowsOnly.bind {body : Prog Res ε α} {rest : α → Prog Res ε β}
    (h : body.ThrowsOnly raises E)
    (hrest : ∀ value, (rest value).ThrowsOnly raises E) :
    (body.bind rest).ThrowsOnly raises E := by
  induction body with
  | ret value => exact hrest value
  | throw error => exact h
  | call op next ih =>
      exact ⟨fun value => ih _ (h.1 value),
        fun error hraises => ih _ (h.2 error hraises)⟩

theorem ThrowsOnly.foldlM {step : β → α → Prog Res ε β} {items : List α}
    (hstep : ∀ acc, ∀ item ∈ items, (step acc item).ThrowsOnly raises E)
    (acc : β) : (items.foldlM step acc).ThrowsOnly raises E := by
  induction items generalizing acc with
  | nil => trivial
  | cons item items ih =>
      rw [List.foldlM_cons]
      refine (hstep acc item List.mem_cons_self).bind fun next => ?_
      exact ih (fun acc' other hother =>
        hstep acc' other (List.mem_cons_of_mem item hother)) next

theorem throwsOnly_await {op : Op} (h : ∀ error, raises op error → E error) :
    (await op : Prog Res ε (Res op)).ThrowsOnly raises E :=
  ⟨fun _ => trivial, h⟩

theorem neverThrows_await (op : Op) :
    (await op : Prog Res ε (Res op)).NeverThrows :=
  throwsOnly_await fun _ h => h

theorem throwsOnlyAfter_await_bind {op : Op} {rest : Res op → Prog Res ε α}
    (hop : kind op = false)
    (hrest : ∀ value, (rest value).ThrowsOnlyAfter kind raises E) :
    ((await op).bind rest).ThrowsOnlyAfter kind raises E := by
  refine ⟨fun value => ?_, fun _ => trivial⟩
  rw [hop]
  exact hrest value

theorem throwsOnlyAfter_ofExcept_bind {result : Except ε α}
    {rest : α → Prog Res ε β}
    (hrest : ∀ value, (rest value).ThrowsOnlyAfter kind raises E) :
    ((ofExcept result).bind rest).ThrowsOnlyAfter kind raises E := by
  cases result with
  | ok value => exact hrest value
  | error error => trivial

theorem throwsOnlyAfter_of_throwsOnly {op : Op} {rest : Res op → Prog Res ε α}
    (hop : kind op = true) (hrest : ∀ value, (rest value).ThrowsOnly raises E) :
    ((await op).bind rest).ThrowsOnlyAfter kind raises E := by
  refine ⟨fun value => ?_, fun _ => trivial⟩
  rw [hop]
  exact hrest value

end Prog

/-! ## Properties of bodies -/

/-- A property that the ways to build a body keep. -/
structure Prog.Compositional (P : ∀ {α : Type}, Prog Res ε α → Prop) :
    Prop where
  ret : ∀ {α : Type} (value : α), P (.ret value)
  throw : ∀ {α : Type} (error : ε), P (.throw error : Prog Res ε α)
  bind : ∀ {α β : Type} {body : Prog Res ε α} {rest : α → Prog Res ε β},
    P body → (∀ value, P (rest value)) → P (body.bind rest)
  tryCatch : ∀ {α : Type} {body : Prog Res ε α} {handler : ε → Prog Res ε α},
    P body → (∀ error, P (handler error)) → P (body.tryCatch handler)

namespace Prog.Compositional

variable {P : ∀ {α : Type}, Prog Res ε α → Prop}

theorem ofExcept (hP : Compositional P) (result : Except ε α) :
    P (Prog.ofExcept result) := by
  cases result with
  | ok value => exact hP.ret value
  | error error => exact hP.throw error

theorem attempt (hP : Compositional P) {body : Prog Res ε α} (h : P body) :
    P (Prog.attempt body) :=
  hP.tryCatch (hP.bind h fun _ => hP.ret _) fun _ => hP.ret _

theorem foldlM (hP : Compositional P) {step : β → α → Prog Res ε β}
    {items : List α} (hstep : ∀ acc, ∀ item ∈ items, P (step acc item))
    (acc : β) : P (items.foldlM step acc) := by
  induction items generalizing acc with
  | nil => exact hP.ret acc
  | cons item items ih =>
      rw [List.foldlM_cons]
      exact hP.bind (hstep acc item List.mem_cons_self) fun acc' =>
        ih (fun acc other hother =>
          hstep acc other (List.mem_cons_of_mem _ hother)) acc'

end Prog.Compositional

theorem Prog.compositional_uses (allowed : Op → Prop) :
    Compositional fun {_} (body : Prog Res ε _) => body.Uses allowed where
  ret _ := trivial
  throw _ := trivial
  bind := Uses.bind
  tryCatch := Uses.tryCatch

end SyncBridge.Foundation
