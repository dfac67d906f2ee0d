import Mathlib.Order.Interval.Set.Nat

/-!
# Enumerated sets

A function that takes each element of a set to the next one.  In a locally finite
order its iterates from an element are all the later ones, in order.
-/

namespace SyncBridge.Foundation

variable {α : Type} [LinearOrder α]

structure Enumerates (P : α → Prop) (next : α → α) : Prop where
  mem : ∀ {item}, P item → P (next item)
  lt : ∀ {item}, P item → item < next item
  le : ∀ {item other}, P item → P other → item < other → next item ≤ other

namespace Enumerates

variable {P : α → Prop} {next : α → α} {start item : α}

theorem mem_iterate (h : Enumerates P next) (hstart : P start) (turn : Nat) :
    P (next^[turn] start) := by
  induction turn with
  | zero => exact hstart
  | succ turn ih =>
      rw [Function.iterate_succ_apply']
      exact h.mem ih

theorem strictMono_iterate (h : Enumerates P next) (hstart : P start) :
    StrictMono fun turn : Nat => next^[turn] start := by
  refine strictMono_nat_of_lt_succ fun turn => ?_
  rw [Function.iterate_succ_apply']
  exact h.lt (h.mem_iterate hstart turn)

theorem lt_iterate (h : Enumerates P next) (hstart : P start) (turn : Nat) :
    start < next^[turn + 1] start :=
  h.strictMono_iterate hstart (Nat.succ_pos turn)

theorem exists_iterate [LocallyFiniteOrder α] (h : Enumerates P next)
    (hstart : P start) (hitem : P item) (hlt : start < item) :
    ∃ turn, next^[turn + 1] start = item := by
  generalize hcard : (Finset.Ioc start item).card = card
  induction card using Nat.strong_induction_on generalizing start with
  | _ card ih =>
      rcases (h.le hstart hitem hlt).eq_or_lt with hnext | hbefore
      · exact ⟨0, hnext⟩
      · have hless : (Finset.Ioc (next start) item).card < card := by
          rw [← hcard]
          refine Finset.card_lt_card (Finset.ssubset_iff.mpr
            ⟨next start, by simp, ?_⟩)
          intro other hother
          rcases Finset.mem_insert.mp hother with rfl | hother
          · exact Finset.mem_Ioc.mpr ⟨h.lt hstart, hbefore.le⟩
          · obtain ⟨hlow, hhigh⟩ := Finset.mem_Ioc.mp hother
            exact Finset.mem_Ioc.mpr ⟨(h.lt hstart).trans hlow, hhigh⟩
        obtain ⟨turn, hturn⟩ := ih _ hless (h.mem hstart) hbefore rfl
        exact ⟨turn + 1, hturn⟩

theorem between_eq_image [LocallyFiniteOrder α] (h : Enumerates P next)
    (hstart : P start) (turn : Nat) :
    {other | P other ∧ start < other ∧ other < next^[turn + 1] start} =
      (fun earlier : Nat => next^[earlier + 1] start) '' Set.Iio turn := by
  have hmono := h.strictMono_iterate hstart
  ext other
  constructor
  · rintro ⟨hother, hlow, hhigh⟩
    obtain ⟨earlier, rfl⟩ := h.exists_iterate hstart hother hlow
    exact ⟨earlier, Nat.lt_of_succ_lt_succ (hmono.lt_iff_lt.mp hhigh), rfl⟩
  · rintro ⟨earlier, hearlier, rfl⟩
    exact ⟨h.mem_iterate hstart _, h.lt_iterate hstart _,
      hmono (Nat.succ_lt_succ hearlier)⟩

theorem ncard_between [LocallyFiniteOrder α] (h : Enumerates P next)
    (hstart : P start) (turn : Nat) :
    {other | P other ∧ start < other ∧ other < next^[turn + 1] start}.ncard =
      turn := by
  have hinjective : Function.Injective fun earlier : Nat =>
      next^[earlier + 1] start :=
    (h.strictMono_iterate hstart).injective.comp (Nat.succ_injective)
  rw [h.between_eq_image hstart, Set.ncard_image_of_injective _ hinjective,
    Set.ncard_Iio_nat]

theorem exists_iterate_lt_iff [LocallyFiniteOrder α] (h : Enumerates P next)
    (hstart : P start) {turns : Nat} :
    (∃ turn < turns, next^[turn + 1] start = item) ↔
      P item ∧ start < item ∧
        {other | P other ∧ start < other ∧ other < item}.ncard < turns := by
  constructor
  · rintro ⟨turn, hturn, rfl⟩
    rw [h.ncard_between hstart]
    exact ⟨h.mem_iterate hstart _, h.lt_iterate hstart turn, hturn⟩
  · rintro ⟨hitem, hlt, hnear⟩
    obtain ⟨turn, rfl⟩ := h.exists_iterate hstart hitem hlt
    rw [h.ncard_between hstart] at hnear
    exact ⟨turn, hnear, rfl⟩

end Enumerates

end SyncBridge.Foundation
