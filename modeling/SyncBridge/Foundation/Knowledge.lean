import Mathlib.Data.Set.Basic
import SyncBridge.Foundation.Rely

/-!
# What calls have learned

A call learns facts from the answers of its operations and forgets none of them.
An operation may need facts to be known.  `Informed` says of a body that it knows
what its operations need, whatever they answer, and what is known with the value
that it returns.  Facts that stay true once they are true are then true of every
call of a pool at every moment, whatever the others do in between.
-/

namespace SyncBridge.Foundation

variable {Op : Type} {Res : Op → Type} {ε α β κ σ ν φ : Type}

structure Knowledge {Op : Type} (Res : Op → Type) (κ φ : Type) where
  /-- What a call knows when it starts. -/
  given : κ → Set φ
  shows : κ → (op : Op) → Res op → Set φ
  needs : κ → Op → Set φ → Prop
  /-- What is known of the value of an operation. -/
  facts : (op : Op) → Res op → Prop
  needs_mono : ∀ {call op known seen}, known ⊆ seen → needs call op known →
    needs call op seen

namespace Knowledge

variable (K : Knowledge Res κ φ)

def monitor : Monitor Res κ (Set φ) where
  init := K.given
  note call seen op value := seen ∪ K.shows call op value
  guard call seen op := K.needs call op seen
  facts _ _ op value := K.facts op value

structure Informed (call : κ) (known : Set φ) (learned : α → Set φ)
    (body : Prog Res ε α) : Prop where
  accepts : ∀ seen, known ⊆ seen →
    K.monitor.Accepts call
      (fun seen' result => seen ⊆ seen' ∧
        ∀ value, result = .ok value → learned value ⊆ seen') body seen

abbrev Safe (call : κ) (known : Set φ) (body : Prog Res ε α) : Prop :=
  K.Informed call known (fun _ => ∅) body

variable {K} {call : κ} {known known' : Set φ} {learned learned' : α → Set φ}

/-! ## Rules -/

theorem Informed.weaken {body : Prog Res ε α}
    (h : K.Informed call known learned body) (hknown : known ⊆ known')
    (hlearned : ∀ value, learned' value ⊆ learned value) :
    K.Informed call known' learned' body := by
  refine ⟨fun seen hseen => (h.accepts seen (hknown.trans hseen)).mono ?_⟩
  rintro seen' result ⟨hgrows, hvalue⟩
  exact ⟨hgrows, fun value heq => (hlearned value).trans (hvalue value heq)⟩

theorem Informed.safe {body : Prog Res ε α}
    (h : K.Informed call known learned body) : K.Safe call known body :=
  h.weaken subset_rfl fun _ => Set.empty_subset _

theorem Informed.mono {body : Prog Res ε α}
    (h : K.Informed call known learned body) (hknown : known ⊆ known') :
    K.Informed call known' learned body :=
  h.weaken hknown fun _ => subset_rfl

theorem Informed.keep {body : Prog Res ε α}
    (h : K.Informed call known learned body) :
    K.Informed call known (fun value => known ∪ learned value) body := by
  refine ⟨fun seen hseen => (h.accepts seen hseen).mono ?_⟩
  rintro seen' result ⟨hgrows, hvalue⟩
  exact ⟨hgrows, fun value heq =>
    Set.union_subset (hseen.trans hgrows) (hvalue value heq)⟩

theorem informed_ret {value : α} (h : learned value ⊆ known) :
    K.Informed call known learned (.ret value : Prog Res ε α) := by
  refine ⟨fun seen hseen => ⟨subset_rfl, ?_⟩⟩
  rintro _ ⟨⟩
  exact h.trans hseen

theorem informed_throw (error : ε) :
    K.Informed call known learned (.throw error : Prog Res ε α) :=
  ⟨fun _ _ => ⟨subset_rfl, nofun⟩⟩

theorem safe_ret (value : α) : K.Safe call known (.ret value : Prog Res ε α) :=
  informed_ret (Set.empty_subset _)

theorem informed_ofExcept {result : Except ε α}
    (h : ∀ value, result = .ok value → learned value ⊆ known) :
    K.Informed call known learned (Prog.ofExcept result : Prog Res ε α) := by
  cases result with
  | ok value => exact informed_ret (h value rfl)
  | error error => exact informed_throw error

theorem safe_ofExcept (result : Except ε α) :
    K.Safe call known (Prog.ofExcept result : Prog Res ε α) :=
  informed_ofExcept fun _ _ => Set.empty_subset _

theorem Informed.bind {learned' : β → Set φ} {body : Prog Res ε α}
    {rest : α → Prog Res ε β} (h : K.Informed call known learned body)
    (hrest : ∀ value, K.Informed call (known ∪ learned value) learned' (rest value)) :
    K.Informed call known learned' (body.bind rest) := by
  refine ⟨fun seen hseen => Monitor.accepts_bind.mpr
    ((h.accepts seen hseen).mono ?_)⟩
  rintro seen' (error | value) ⟨hgrows, hvalue⟩
  · exact ⟨hgrows, nofun⟩
  · have hafter := (hrest value).accepts seen'
      (Set.union_subset (hseen.trans hgrows) (hvalue value rfl))
    refine hafter.mono ?_
    rintro seen'' result ⟨hmore, hresult⟩
    exact ⟨hgrows.trans hmore, hresult⟩

theorem Informed.seq {learned' : β → Set φ} {body : Prog Res ε α}
    {rest : α → Prog Res ε β} (h : K.Informed call known learned body)
    (hrest : ∀ value, K.Informed call known learned' (rest value)) :
    K.Informed call known learned' (body.bind rest) :=
  h.bind fun value => (hrest value).mono Set.subset_union_left

theorem informed_await {op : Op} (hneeds : K.needs call op known) :
    K.Informed call known (K.shows call op)
      (Prog.await op : Prog Res ε (Res op)) := by
  refine ⟨fun seen hseen => Monitor.accepts_await.mpr
    ⟨K.needs_mono hseen hneeds, fun value _ => ?_, fun _ _ => ?_⟩⟩
  · refine ⟨Set.subset_union_left, ?_⟩
    rintro _ ⟨⟩
    exact Set.subset_union_right
  · exact ⟨subset_rfl, nofun⟩

theorem informed_await_bind {op : Op} {rest : Res op → Prog Res ε α}
    (hneeds : K.needs call op known)
    (hrest : ∀ value, K.facts op value →
      K.Informed call (known ∪ K.shows call op value) learned (rest value)) :
    K.Informed call known learned ((Prog.await op).bind rest) := by
  refine ⟨fun seen hseen => Monitor.accepts_await_bind.mpr
    ⟨K.needs_mono hseen hneeds, fun value hfacts => ?_, fun _ _ => ?_⟩⟩
  · have hafter := (hrest value hfacts).accepts
      (K.monitor.note call seen op value) (Set.union_subset_union_left _ hseen)
    refine hafter.mono ?_
    rintro seen' result ⟨hgrows, hresult⟩
    exact ⟨Set.subset_union_left.trans hgrows, hresult⟩
  · exact ⟨subset_rfl, nofun⟩

theorem informed_ofExcept_bind {checked : Except ε β}
    {rest : β → Prog Res ε α}
    (hrest : ∀ value, checked = .ok value →
      K.Informed call known learned (rest value)) :
    K.Informed call known learned ((Prog.ofExcept checked).bind rest) := by
  cases checked with
  | ok value => exact hrest value rfl
  | error error => exact informed_throw error

theorem Informed.tryCatch {body : Prog Res ε α} {handler : ε → Prog Res ε α}
    (h : K.Informed call known learned body)
    (hhandler : ∀ error, K.Informed call known learned (handler error)) :
    K.Informed call known learned (body.tryCatch handler) := by
  refine ⟨fun seen hseen => Monitor.accepts_tryCatch.mpr
    ((h.accepts seen hseen).mono ?_)⟩
  rintro seen' (error | value) ⟨hgrows, hvalue⟩
  · refine ((hhandler error).accepts seen' (hseen.trans hgrows)).mono ?_
    rintro seen'' result ⟨hmore, hresult⟩
    exact ⟨hgrows.trans hmore, hresult⟩
  · exact ⟨hgrows, hvalue⟩

def ofOutcome (learned : α → Set φ) : Except ε α → Set φ
  | .ok value => learned value
  | .error _ => ∅

theorem Informed.attempt {body : Prog Res ε α}
    (h : K.Informed call known learned body) :
    K.Informed call known (ofOutcome learned) (Prog.attempt body) := by
  refine Informed.tryCatch (h.bind fun value => ?_) fun error => ?_
  · exact informed_ret Set.subset_union_right
  · exact informed_ret (Set.empty_subset _)

/-- The loop rule: what is known with the accumulator grows from turn to turn. -/
theorem informed_foldlM {step : β → α → Prog Res ε β} {learned : β → Set φ}
    {items : List α}
    (hstep : ∀ acc, ∀ item ∈ items,
      K.Informed call (known ∪ learned acc) learned (step acc item))
    (acc : β) :
    K.Informed call (known ∪ learned acc) learned (items.foldlM step acc) := by
  induction items generalizing acc with
  | nil => exact informed_ret Set.subset_union_right
  | cons item items ih =>
      rw [List.foldlM_cons]
      refine (hstep acc item List.mem_cons_self).bind fun next => ?_
      have hnext := ih (fun acc' other hother =>
        hstep acc' other (List.mem_cons_of_mem item hother)) next
      exact hnext.mono (Set.union_subset_union_left _ Set.subset_union_left)

theorem safe_foldlM {step : β → α → Prog Res ε β} {items : List α}
    (hstep : ∀ acc, ∀ item ∈ items, K.Safe call known (step acc item))
    (acc : β) : K.Safe call known (items.foldlM step acc) := by
  have hloop : K.Informed call (known ∪ ∅) (fun _ => ∅)
      (items.foldlM step acc) :=
    informed_foldlM (fun acc item hitem =>
      (hstep acc item hitem).mono Set.subset_union_left) acc
  exact hloop.mono (by simp)

theorem safe_of_uses {body : Prog Res ε α}
    (h : body.Uses fun op => K.needs call op known) :
    K.Safe call known body := by
  induction body generalizing known with
  | ret value => exact safe_ret value
  | throw error => exact informed_throw error
  | call op next ih =>
      refine ⟨fun seen hseen => ⟨K.needs_mono hseen h.1, fun value _ => ?_,
        fun _ error => (ih _ (h.2 _)).accepts seen hseen⟩⟩
      have hafter := (ih _ (h.2 (.ok value))).accepts
        (seen ∪ K.shows call op value) (hseen.trans Set.subset_union_left)
      refine hafter.mono ?_
      rintro seen' result ⟨hgrows, hresult⟩
      exact ⟨Set.subset_union_left.trans hgrows, hresult⟩

theorem compositional_safe (K : Knowledge Res κ φ) (call : κ) (known : Set φ) :
    Prog.Compositional fun {_} (body : Prog Res ε _) => K.Safe call known body where
  ret := safe_ret
  throw := informed_throw
  bind := Informed.seq
  tryCatch := Informed.tryCatch

/-! ## Where a fact comes from -/

theorem mem_after {fact : φ} {trace : List (Σ op, Res op)} :
    fact ∈ K.monitor.after call trace ↔
      fact ∈ K.given call ∨ ∃ entry ∈ trace,
        fact ∈ K.shows call entry.1 entry.2 := by
  induction trace with
  | nil => simp [Monitor.after, monitor]
  | cons entry trace ih =>
      have hcons : K.monitor.after call (entry :: trace) =
          K.monitor.after call trace ∪ K.shows call entry.1 entry.2 := rfl
      rw [hcons, Set.mem_union, ih, or_assoc]
      refine or_congr_right ?_
      simp only [List.mem_cons, exists_eq_or_imp, or_comm]

theorem needs_of_guarded {trace : List (Σ op, Res op)} {entry : Σ op, Res op}
    (h : K.monitor.Guarded call trace) (hmem : entry ∈ trace) :
    ∃ known, K.needs call entry.1 known ∧ ∀ fact ∈ known,
      fact ∈ K.given call ∨ ∃ entry ∈ trace, fact ∈ K.shows call entry.1 entry.2 := by
  obtain ⟨newer, older, rfl⟩ := List.append_of_mem hmem
  refine ⟨K.monitor.after call older,
    h entry older (List.suffix_append newer _), fun fact hfact => ?_⟩
  refine (mem_after.mp hfact).imp_right ?_
  rintro ⟨other, hother, hshown⟩
  exact ⟨other, List.mem_append_right _ (List.mem_cons_of_mem _ hother), hshown⟩

/-! ## In a pool -/

/-- `Holds fact` says of a store that the fact is true there, and `J` holds of
the store throughout. -/
structure Sound (K : Knowledge Res κ φ) (sys : System Res ε α κ σ ν)
    (started : κ → Prop) (Holds : φ → σ → Prop) (J : σ → Prop) : Prop where
  body : ∀ call, started call → K.Safe call (K.given call) (sys.body call)
  starts : ∀ call, sys.starts call = true → started call ∧ K.given call = ∅
  facts : ∀ op store value store',
    sys.exec op store = .ok (value, store') → K.facts op value
  stays : ∀ op store value store' fact,
    sys.exec op store = .ok (value, store') → Holds fact store →
    Holds fact store'
  shown : ∀ call op store value store' fact,
    sys.exec op store = .ok (value, store') → J store →
    fact ∈ K.shows call op value → Holds fact store'
  keeps : ∀ call seen op store value store',
    sys.exec op store = .ok (value, store') → J store →
    (∀ fact ∈ seen, Holds fact store) → K.needs call op seen → J store'
  event : ∀ event store count store' calls,
    sys.env event store count = some (store', calls) → J store →
    J store' ∧ (∀ fact, Holds fact store → Holds fact store') ∧
      ∀ call ∈ calls, started call ∧ ∀ fact ∈ K.given call, Holds fact store'

variable {sys : System Res ε α κ σ ν}
  {ok : Pool Res ε α κ σ → Action ε κ ν → Prop} {pool init : Pool Res ε α κ σ}
  {started : κ → Prop} {Holds : φ → σ → Prop} {J : σ → Prop}

theorem accepts_of_informed {learned : κ → α → Set φ}
    (hbody : ∀ call,
      K.Informed call (K.given call) (learned call) (sys.body call))
    (hfacts : ∀ op store value store',
      sys.exec op store = .ok (value, store') → K.facts op value)
    (hinit : init.tasks = []) (hreach : sys.Reach ok init pool) :
    ∀ task ∈ pool.tasks, K.monitor.Accepts task.call
      (fun seen result => ∀ value, result = .ok value →
        learned task.call value ⊆ seen) task.prog (K.monitor.state task) :=
  Monitor.accepts_of_reach
    (Q := fun call seen result => ∀ value, result = .ok value →
      learned call value ⊆ seen)
    (fun _ _ _ _ _ _ hexec => hfacts _ _ _ _ hexec) (fun _ _ _ _ => trivial)
    (fun call => ((hbody call).accepts _ subset_rfl).mono fun _ _ h => h.2)
    hinit hreach

theorem accepts_of_safe (hbody : ∀ call, K.Safe call (K.given call) (sys.body call))
    (hfacts : ∀ op store value store',
      sys.exec op store = .ok (value, store') → K.facts op value)
    (hinit : init.tasks = []) (hreach : sys.Reach ok init pool) :
    ∀ task ∈ pool.tasks, K.monitor.Accepts task.call (fun _ _ => True) task.prog
      (K.monitor.state task) :=
  fun task htask => (accepts_of_informed hbody hfacts hinit hreach task htask).mono
    fun _ _ _ => trivial

/-- A call that has returned knows what it has learned with the value, and it
has been given or shown that. -/
theorem shown_of_returned {learned : κ → α → Set φ}
    (hbody : ∀ call,
      K.Informed call (K.given call) (learned call) (sys.body call))
    (hfacts : ∀ op store value store',
      sys.exec op store = .ok (value, store') → K.facts op value)
    (hinit : init.tasks = []) (hreach : sys.Reach ok init pool)
    {task : Task Res ε α κ} (htask : task ∈ pool.tasks) {value : α}
    (hvalue : task.prog = .ret value) {fact : φ}
    (hfact : fact ∈ learned task.call value) :
    fact ∈ K.given task.call ∨ ∃ entry ∈ task.trace,
      fact ∈ K.shows task.call entry.1 entry.2 := by
  have haccepts := accepts_of_informed hbody hfacts hinit hreach task htask
  rw [hvalue] at haccepts
  exact mem_after.mp (haccepts value rfl hfact)

theorem guarded_of_safe (hbody : ∀ call, K.Safe call (K.given call) (sys.body call))
    (hfacts : ∀ op store value store',
      sys.exec op store = .ok (value, store') → K.facts op value)
    (hinit : init.tasks = []) (hreach : sys.Reach ok init pool) :
    ∀ task ∈ pool.tasks, K.monitor.Guarded task.call task.trace :=
  Monitor.guarded_of_accepts (Q := fun _ _ _ => True)
    (fun _ hmiddle => accepts_of_safe hbody hfacts hinit hmiddle) hinit hreach

theorem Sound.rely (h : K.Sound sys started Holds J) :
    Monitor.Rely K.monitor sys ok init started J
      (fun store task => ∀ fact ∈ K.monitor.state task, Holds fact store)
      (fun _ _ _ => True) where
  body call hcall :=
    ((h.body call hcall).accepts _ subset_rfl).mono fun _ _ _ => trivial
  start pool call _ _ _ hstarts := by
    obtain ⟨hcall, hgiven⟩ := h.starts call hstarts
    refine ⟨hcall, fun fact hfact => ?_⟩
    rw [Monitor.state_spawn, show K.monitor.init call = ∅ from hgiven] at hfact
    exact hfact.elim
  done := by
    intro pool pool' index task op next value _ hold _ hdone hneeds
    have hknows := hold.knows task (List.mem_of_getElem? hdone.at_index)
    refine ⟨h.facts _ _ _ _ hdone.exec,
      h.keeps _ _ _ _ _ _ hdone.exec hold.store hknows hneeds, ?_, ?_⟩
    · rintro fact (hbefore | hnew)
      · exact h.stays _ _ _ _ _ hdone.exec (hknows fact hbefore)
      · exact h.shown _ _ _ _ _ _ hdone.exec hold.store hnew
    · exact fun _ _ _ _ hother fact hfact =>
        h.stays _ _ _ _ _ hdone.exec (hother fact hfact)
  raised _ _ _ task _ _ _ _ hold _ hraised _ :=
    ⟨trivial, hold.knows task (List.mem_of_getElem? hraised.at_index)⟩
  event := by
    intro pool pool' event calls _ hold _ henv
    obtain ⟨hstore, hstays, hgiven⟩ := h.event _ _ _ _ _ henv hold.store
    exact ⟨hstore, fun task htask fact hfact =>
      hstays fact (hold.knows task htask fact hfact),
      fun call hcall => hgiven call hcall⟩

theorem Sound.holds (h : K.Sound sys started Holds J) (hinit : init.tasks = [])
    (hstore : J init.store) (hreach : sys.Reach ok init pool) :
    J pool.store ∧ ∀ task ∈ pool.tasks, ∀ fact ∈ K.monitor.state task,
      Holds fact pool.store :=
  have hold := h.rely.holds hinit hstore hreach
  ⟨hold.store, hold.knows⟩

theorem Sound.needs_of_done (h : K.Sound sys started Holds J)
    (hinit : init.tasks = []) (hstore : J init.store)
    (hreach : sys.Reach ok init pool) {pool' : Pool Res ε α κ σ} {index : Nat}
    {task : Task Res ε α κ} {op : Op}
    {next : Except ε (Res op) → Prog Res ε α} {value : Res op}
    (hdone : sys.Done pool pool' index task op next value) :
    ∃ known, K.needs task.call op known ∧
      ∀ fact ∈ known, Holds fact pool.store := by
  have hold := h.rely.holds hinit hstore hreach
  have hmem := List.mem_of_getElem? hdone.at_index
  have haccepts := hold.accepts task hmem
  rw [hdone.awaits] at haccepts
  exact ⟨K.monitor.state task, haccepts.1, hold.knows task hmem⟩

end Knowledge

end SyncBridge.Foundation
