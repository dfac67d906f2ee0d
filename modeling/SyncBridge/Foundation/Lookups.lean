import SyncBridge.Foundation.Pool

/-!
# Acting on what was looked up

A body looks an item up and later acts on it, while other calls change the item
in between.  `MayAct` says that a body can still act on an item without looking
again, and `ActsOn` that it only ever acts on items that its last look has
shown.  In a pool an item that a call may still act on is then as the look has
shown it, as long as the changes of the others spare the items in use.
-/

namespace SyncBridge.Foundation

variable {Op : Type} {Res : Op → Type} {ε α β κ σ ν ι : Type}

/-- The operations that look for items, the ones that act on an item, and the
items that the answer to a look shows. -/
structure Lookup {Op : Type} (Res : Op → Type) (ι : Type) where
  looks : Op → Prop
  acts : ι → Op → Prop
  shows : ι → (op : Op) → Res op → Prop

namespace Lookup

variable (L : Lookup Res ι)

def MayAct (item : ι) : Prog Res ε α → Prop
  | .ret _ => False
  | .throw _ => False
  | .call op next => L.acts item op ∨
      ¬ L.looks op ∧ ∃ result, MayAct item (next result)

def Follows : Prog Res ε α → Prop
  | .ret _ => True
  | .throw _ => True
  | .call op next =>
      (L.looks op →
        (∀ item value, L.MayAct item (next (.ok value)) →
          L.shows item op value) ∧
        ∀ item error, ¬ L.MayAct item (next (.error error))) ∧
      ∀ result, Follows (next result)

/-- The body acts on items of `S` and on those that its last look has shown. -/
structure ActsOn (S : ι → Prop) (body : Prog Res ε α) : Prop where
  before : ∀ item, L.MayAct item body → S item
  follows : L.Follows body

variable {L} {S S' : ι → Prop} {item : ι}

@[simp] theorem mayAct_ret (value : α) :
    ¬ L.MayAct item (.ret value : Prog Res ε α) := id

@[simp] theorem mayAct_throw (error : ε) :
    ¬ L.MayAct item (.throw error : Prog Res ε α) := id

theorem of_mayAct {P : Prop} {body : Prog Res ε α}
    (huses : body.Uses fun op => L.acts item op → P)
    (h : L.MayAct item body) : P := by
  induction body with
  | ret value => exact h.elim
  | throw error => exact h.elim
  | call op next ih =>
      rcases h with hacts | ⟨-, result, hnext⟩
      · exact huses.1 hacts
      · exact ih result (huses.2 result) hnext

theorem mayAct_bind {body : Prog Res ε α} {rest : α → Prog Res ε β}
    (h : L.MayAct item (body.bind rest)) :
    L.MayAct item body ∨ ∃ value, L.MayAct item (rest value) := by
  induction body with
  | ret value => exact .inr ⟨value, h⟩
  | throw error => exact absurd h id
  | call op next ih =>
      rcases h with hacts | ⟨hlooks, result, hnext⟩
      · exact .inl (.inl hacts)
      · rcases ih result hnext with hbody | hrest
        · exact .inl (.inr ⟨hlooks, result, hbody⟩)
        · exact .inr hrest

theorem mayAct_tryCatch {body : Prog Res ε α} {handler : ε → Prog Res ε α}
    (h : L.MayAct item (body.tryCatch handler)) :
    L.MayAct item body ∨ ∃ error, L.MayAct item (handler error) := by
  induction body with
  | ret value => exact absurd h id
  | throw error => exact .inr ⟨error, h⟩
  | call op next ih =>
      rcases h with hacts | ⟨hlooks, result, hnext⟩
      · exact .inl (.inl hacts)
      · rcases ih result hnext with hbody | hhandler
        · exact .inl (.inr ⟨hlooks, result, hbody⟩)
        · exact .inr hhandler

/-! ## Rules -/

theorem ActsOn.mono {body : Prog Res ε α} (h : L.ActsOn S body)
    (himp : ∀ item, S item → S' item) : L.ActsOn S' body :=
  ⟨fun item hacts => himp item (h.before item hacts), h.follows⟩

theorem ActsOn.anywhere {body : Prog Res ε α}
    (h : L.ActsOn (fun _ => False) body) : L.ActsOn S body :=
  h.mono fun _ => False.elim

theorem follows_bind {body : Prog Res ε α} {rest : α → Prog Res ε β}
    (hbody : L.Follows body)
    (hrest : ∀ value, L.ActsOn (fun _ => False) (rest value)) :
    L.Follows (body.bind rest) := by
  induction body with
  | ret value => exact (hrest value).follows
  | throw error => trivial
  | call op next ih =>
      refine ⟨fun hlooks => ?_, fun result => ih result (hbody.2 result)⟩
      obtain ⟨hshows, hraised⟩ := hbody.1 hlooks
      refine ⟨fun item value hacts => ?_, fun item error hacts => ?_⟩
      · rcases mayAct_bind hacts with hnext | ⟨result, hlater⟩
        · exact hshows item value hnext
        · exact ((hrest result).before item hlater).elim
      · rcases mayAct_bind hacts with hnext | ⟨result, hlater⟩
        · exact hraised item error hnext
        · exact (hrest result).before item hlater

theorem follows_tryCatch {body : Prog Res ε α} {handler : ε → Prog Res ε α}
    (hbody : L.Follows body)
    (hhandler : ∀ error, L.ActsOn (fun _ => False) (handler error)) :
    L.Follows (body.tryCatch handler) := by
  induction body with
  | ret value => trivial
  | throw error => exact (hhandler error).follows
  | call op next ih =>
      refine ⟨fun hlooks => ?_, fun result => ih result (hbody.2 result)⟩
      obtain ⟨hshows, hraised⟩ := hbody.1 hlooks
      refine ⟨fun item value hacts => ?_, fun item error hacts => ?_⟩
      · rcases mayAct_tryCatch hacts with hnext | ⟨error, hlater⟩
        · exact hshows item value hnext
        · exact ((hhandler error).before item hlater).elim
      · rcases mayAct_tryCatch hacts with hnext | ⟨error, hlater⟩
        · exact hraised item error hnext
        · exact (hhandler error).before item hlater

theorem compositional_actsOn (L : Lookup Res ι) :
    Prog.Compositional fun {_} (body : Prog Res ε _) =>
      L.ActsOn (fun _ => False) body where
  ret _ := ⟨fun _ => id, trivial⟩
  throw _ := ⟨fun _ => id, trivial⟩
  bind := by
    intro _ _ body rest hbody hrest
    refine ⟨fun item hacts => ?_, follows_bind hbody.follows hrest⟩
    rcases mayAct_bind hacts with hfirst | ⟨value, hlater⟩
    · exact hbody.before item hfirst
    · exact (hrest value).before item hlater
  tryCatch := by
    intro _ body handler hbody hhandler
    refine ⟨fun item hacts => ?_, follows_tryCatch hbody.follows hhandler⟩
    rcases mayAct_tryCatch hacts with hfirst | ⟨error, hlater⟩
    · exact hbody.before item hfirst
    · exact (hhandler error).before item hlater

theorem actsOn_await {op : Op} (hacts : ∀ item, ¬ L.acts item op) :
    L.ActsOn (fun _ => False) (Prog.await op : Prog Res ε (Res op)) := by
  refine ⟨?_, fun _ => ⟨fun item value hnext => hnext.elim,
    fun item error => id⟩, ?_⟩
  · rintro item (hactive | ⟨-, error | value, hnext⟩)
    · exact hacts item hactive
    · exact hnext
    · exact hnext
  · rintro (error | value) <;> trivial

theorem actsOn_bind {body : Prog Res ε α} {rest : α → Prog Res ε β}
    (h : body.Uses fun op => ¬ L.looks op ∧ ∀ item, L.acts item op → S item)
    (hrest : ∀ value, L.ActsOn S (rest value)) :
    L.ActsOn S (body.bind rest) := by
  constructor
  · intro item hacts
    rcases mayAct_bind hacts with hfirst | ⟨value, hlater⟩
    · exact of_mayAct (h.mono fun op hop => hop.2 item) hfirst
    · exact (hrest value).before item hlater
  · induction body with
    | ret value => exact (hrest value).follows
    | throw error => trivial
    | call op next ih =>
        exact ⟨fun hlooks => (h.1.1 hlooks).elim,
          fun result => ih result (h.2 result)⟩

theorem actsOn_look {op : Op} {rest : Res op → Prog Res ε α}
    (hlooks : L.looks op) (hacts : ∀ item, ¬ L.acts item op)
    (hrest : ∀ value,
      L.ActsOn (fun item => L.shows item op value) (rest value)) :
    L.ActsOn (fun _ => False) ((Prog.await op).bind rest) := by
  refine ⟨fun item hnow => ?_, fun _ => ⟨fun item value hnext => ?_,
    fun item error => id⟩, ?_⟩
  · rcases hnow with hactive | ⟨hquiet, -⟩
    · exact hacts item hactive
    · exact hquiet hlooks
  · exact (hrest value).before item hnext
  · rintro (error | value)
    · trivial
    · exact (hrest value).follows

end Lookup

/-! ## In a pool -/

namespace Lookup

variable {L : Lookup Res ι} {sys : System Res ε α κ σ ν}
  {ok : Pool Res ε α κ σ → Action ε κ ν → Prop}
  {pool init : Pool Res ε α κ σ} {fit : σ → ι → Prop}

/-- The calls act on fit items only: what a look shows is fit, and an item that
some call may still act on stays fit. -/
structure Fits (L : Lookup Res ι) (sys : System Res ε α κ σ ν)
    (ok : Pool Res ε α κ σ → Action ε κ ν → Prop)
    (init : Pool Res ε α κ σ) (fit : σ → ι → Prop) : Prop where
  body : ∀ call, L.ActsOn (fun _ => False) (sys.body call)
  shown : ∀ pool pool' index task op next value item, sys.Reach ok init pool →
    ok pool (.run index) → sys.Done pool pool' index task op next value →
    L.looks op → L.shows item op value → L.MayAct item (next (.ok value)) →
    fit pool'.store item
  kept : ∀ pool pool' index task op next value item, sys.Reach ok init pool →
    ok pool (.run index) → sys.Done pool pool' index task op next value →
    (∃ other ∈ pool.tasks, L.MayAct item other.prog) → fit pool.store item →
    fit pool'.store item
  event : ∀ event store count store' calls,
    sys.env event store count = some (store', calls) → ∀ item,
    fit store item → fit store' item

theorem Fits.follows (hfits : L.Fits sys ok init fit) (hinit : init.tasks = [])
    (h : sys.Reach ok init pool) : ∀ task ∈ pool.tasks, L.Follows task.prog := by
  refine h.forall_tasks (P := fun _ task => L.Follows task.prog)
    ?_ ?_ ?_ ?_ ?_ ?_
  · simp [hinit]
  · exact fun _ call => (hfits.body call).follows
  · exact fun _ _ _ _ _ _ hfollows => hfollows
  · exact fun _ _ _ _ _ _ _ hfollows => hfollows
  · intro pool pool' index task op next value _ hfollows hdone
    rw [hdone.awaits] at hfollows
    exact hfollows.2 _
  · intro store task op next error _ hfollows hprog
    rw [hprog] at hfollows
    exact hfollows.2 _

/-- What a call may act on without another look is fit. -/
theorem Fits.invariant (hfits : L.Fits sys ok init fit)
    (hinit : init.tasks = []) (h : sys.Reach ok init pool) :
    ∀ task ∈ pool.tasks, ∀ item, L.MayAct item task.prog →
      fit pool.store item := by
  refine h.invariant (I := fun pool => ∀ task ∈ pool.tasks, ∀ item,
    L.MayAct item task.prog → fit pool.store item) ?_ ?_ ?_ ?_ ?_
  · simp [hinit]
  · intro pool call _ hold _ _ task htask item hacts
    rcases List.mem_append.mp htask with hbefore | hnew
    · exact hold task hbefore item hacts
    · obtain rfl := List.mem_singleton.mp hnew
      exact ((hfits.body call).before item hacts).elim
  · intro pool pool' index task op next value hreach hold hok hdone
    have hmem := List.mem_of_getElem? hdone.at_index
    have hkept : ∀ other ∈ pool.tasks, ∀ item, L.MayAct item other.prog →
        fit pool'.store item := fun other hother item hacts =>
      hfits.kept _ _ _ _ _ _ _ _ hreach hok hdone ⟨other, hother, hacts⟩
        (hold other hother item hacts)
    intro other hother item hacts
    rw [hdone.tasks] at hother
    rcases List.mem_or_eq_of_mem_set hother with hbefore | rfl
    · exact hkept other hbefore item hacts
    · by_cases hlooks : L.looks op
      · have hfollows := hfits.follows hinit hreach task hmem
        rw [hdone.awaits] at hfollows
        exact hfits.shown _ _ _ _ _ _ _ _ hreach hok hdone hlooks
          ((hfollows.1 hlooks).1 item value hacts) hacts
      · refine hkept task hmem item ?_
        rw [hdone.awaits]
        exact .inr ⟨hlooks, _, hacts⟩
  · intro pool pool' index task op next error hreach hold _ hraised
    have hmem := List.mem_of_getElem? hraised.at_index
    intro other hother item hacts
    rw [hraised.tasks] at hother
    rw [hraised.store]
    rcases List.mem_or_eq_of_mem_set hother with hbefore | rfl
    · exact hold other hbefore item hacts
    · by_cases hlooks : L.looks op
      · have hfollows := hfits.follows hinit hreach task hmem
        rw [hraised.awaits] at hfollows
        exact ((hfollows.1 hlooks).2 item error hacts).elim
      · refine hold task hmem item ?_
        rw [hraised.awaits]
        exact .inr ⟨hlooks, _, hacts⟩
  · intro pool pool' event calls _ hold _ henv htasks task htask item hacts
    rw [htasks] at htask
    rcases List.mem_append.mp htask with hbefore | hnew
    · exact hfits.event _ _ _ _ _ henv item (hold task hbefore item hacts)
    · obtain ⟨call, -, rfl⟩ := List.mem_map.mp hnew
      exact ((hfits.body call).before item hacts).elim

/-- What a call may act on has all been shown by one look. -/
theorem shown_of_reach
    (hbody : ∀ call, L.ActsOn (fun _ => False) (sys.body call))
    (hinit : init.tasks = []) (h : sys.Reach ok init pool) :
    ∀ task ∈ pool.tasks, ∃ look : Option (Σ op, Res op), ∀ item,
      L.MayAct item task.prog → ∃ entry ∈ look,
        L.shows item entry.1 entry.2 := by
  have hboth := h.forall_tasks (P := fun _ task => L.Follows task.prog ∧
    ∃ look : Option (Σ op, Res op), ∀ item, L.MayAct item task.prog →
      ∃ entry ∈ look, L.shows item entry.1 entry.2) ?_ ?_ ?_ ?_ ?_ ?_
  · exact fun task htask => (hboth task htask).2
  · simp [hinit]
  · exact fun _ call => ⟨(hbody call).follows, none, fun item hacts =>
      ((hbody call).before item hacts).elim⟩
  · exact fun _ _ _ _ _ _ hshown => hshown
  · exact fun _ _ _ _ _ _ _ hshown => hshown
  · intro pool pool' index task op next value _ hshown hdone
    rw [hdone.awaits] at hshown
    obtain ⟨hfollows, look, hlook⟩ := hshown
    refine ⟨hfollows.2 _, ?_⟩
    by_cases hlooks : L.looks op
    · exact ⟨some ⟨op, value⟩, fun item hacts =>
        ⟨_, rfl, (hfollows.1 hlooks).1 item value hacts⟩⟩
    · exact ⟨look, fun item hacts => hlook item (.inr ⟨hlooks, _, hacts⟩)⟩
  · intro store task op next error _ hshown hprog
    rw [hprog] at hshown
    obtain ⟨hfollows, look, hlook⟩ := hshown
    refine ⟨hfollows.2 _, look, fun item hacts => ?_⟩
    by_cases hlooks : L.looks op
    · exact ((hfollows.1 hlooks).2 item error hacts).elim
    · exact hlook item (.inr ⟨hlooks, _, hacts⟩)

end Lookup

end SyncBridge.Foundation
