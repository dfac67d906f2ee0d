import Mathlib.Data.List.MinMax
import Mathlib.Data.List.Perm.Lattice
import Mathlib.Data.List.ReduceOption
import SyncBridge.Foundation.Picking

/-!
# Picking by displacement

An item is held until one comes that beats it.  Nothing is asked of the relation
`beats`, which need not be transitive, so the order of the items may decide.  It
does not exactly where the items have a champion: one that beats everything not
alike to it, and whose like nothing else beats.
-/

namespace SyncBridge.Foundation

variable {α : Type} {beats : α → α → Bool} {items : List (Option α)}
  {item held : α}

def displace (beats : α → α → Bool) (held item : α) : α :=
  if beats item held then item else held

theorem displace_mem (held item : α) :
    displace beats held item = held ∨ displace beats held item = item := by
  by_cases h : beats item held <;> simp [displace, h]

theorem pickAll_append {choose : α → α → α} (more : List (Option α)) :
    pickAll choose (items ++ more) =
      pickAll choose (pickAll choose items :: more) := by
  simp [pickAll, List.foldl_append]

theorem pickAll_map {β : Type} {choose : α → α → α} {other : β → β → β}
    (f : α → β)
    (hf : ∀ left right, f (choose left right) = other (f left) (f right)) :
    pickAll other (items.map (Option.map f)) =
      (pickAll choose items).map f := by
  induction items using List.reverseRecOn with
  | nil => rfl
  | append_singleton items last ih =>
      rw [List.map_append, List.map_singleton, pickAll_concat, pickAll_concat,
        ih]
      cases pickAll choose items <;> cases last <;> simp [pick, hf]

theorem pickAll_stays
    (h : ∀ item, some item ∈ items → beats item held = false) :
    pickAll (displace beats) (some held :: items) = some held := by
  induction items using List.reverseRecOn with
  | nil => rfl
  | append_singleton items last ih =>
      have hbefore : pickAll (displace beats) (some held :: items) = some held :=
        ih fun item hitem => h item (List.mem_append_left _ hitem)
      rw [← List.cons_append, pickAll_concat, hbefore]
      cases last with
      | none => simp
      | some last => simp [pick, displace, h last (by simp)]

/-! ## Orders of the items -/

/-- In every order of the items one alike is picked. -/
def OrderFree (choose : α → α → α) (alike : α → α → Prop)
    (items : List (Option α)) : Prop :=
  ∀ permuted, items.Perm permuted →
    Option.Rel alike (pickAll choose items) (pickAll choose permuted)

/-- It beats everything not alike to it, and nothing else beats its like. -/
structure Champion (beats : α → α → Bool) (alike : α → α → Prop)
    (items : List (Option α)) (best : α) : Prop where
  mem : some best ∈ items
  wins : ∀ item, some item ∈ items → ¬ alike item best →
    beats best item = true
  kept : ∀ held item, some held ∈ items → some item ∈ items →
    alike held best → ¬ alike item best → beats item held = false

section Orders

variable {alike : α → α → Prop} {best : α} {permuted : List (Option α)}

theorem Champion.perm (h : Champion beats alike items best)
    (hperm : items.Perm permuted) : Champion beats alike permuted best where
  mem := hperm.mem_iff.mp h.mem
  wins item hitem := h.wins item (hperm.mem_iff.mpr hitem)
  kept held item hheld hitem :=
    h.kept held item (hperm.mem_iff.mpr hheld) (hperm.mem_iff.mpr hitem)

variable (halike : Equivalence alike)
  (hquiet : ∀ left right, alike left right → beats left right = false)

include halike hquiet in
theorem Champion.pickAll (h : Champion beats alike items best) :
    ∃ picked, pickAll (displace beats) items = some picked ∧
      alike picked best := by
  obtain ⟨before, after, hsplit⟩ := List.append_of_mem h.mem
  have hmem : ∀ item, some item ∈ before ∨ some item ∈ after →
      some item ∈ items := by
    intro item hitem
    rw [hsplit]
    rcases hitem with hitem | hitem <;> simp [hitem]
  cases hpicked : Foundation.pickAll (displace beats) items with
  | none => exact absurd h.mem (pickAll_eq_none hpicked best)
  | some picked =>
      refine ⟨picked, rfl, ?_⟩
      rw [hsplit] at hpicked
      refine (@pickAll_good _ _ best picked
        (fun held => some held ∈ items ∧ alike held best) before after
        displace_mem ⟨h.mem, halike.refl best⟩ ?_ ?_ hpicked).2
      · intro left hleft
        have hleft := hmem left (.inl hleft)
        by_cases hlike : alike left best
        · have hquiet := hquiet best left (halike.symm hlike)
          simp [displace, hquiet, hleft, hlike]
        · simp [displace, h.wins left hleft hlike, h.mem, halike.refl best]
      · rintro left right ⟨hleft, hlike⟩ hright
        have hright := hmem right (.inr hright)
        by_cases hother : alike right best
        · have hquiet := hquiet right left
            (halike.trans hother (halike.symm hlike))
          simp [displace, hquiet, hleft, hlike]
        · simp [displace, h.kept left right hleft hright hlike hother, hleft,
            hlike]

theorem exists_strongest
    (hstrong : ∀ left right, alike left right →
      (∀ item, beats left item = true → beats right item = true) ∨
        ∀ item, beats right item = true → beats left item = true)
    (halike : Equivalence alike) {likes : List α} (hsome : likes ≠ [])
    (hlikes : ∀ like ∈ likes, alike like best) :
    ∃ strongest ∈ likes, ∀ like ∈ likes, ∀ item,
      beats like item = true → beats strongest item = true := by
  induction likes with
  | nil => exact absurd rfl hsome
  | cons first likes ih =>
      by_cases hrest : likes = []
      · subst hrest
        exact ⟨first, by simp, by simp⟩
      · obtain ⟨strongest, hmem, hbeat⟩ := ih hrest fun like hlike =>
          hlikes like (List.mem_cons_of_mem first hlike)
        have hfirst := hlikes first List.mem_cons_self
        have hother := hlikes strongest (List.mem_cons_of_mem first hmem)
        rcases hstrong first strongest
          (halike.trans hfirst (halike.symm hother)) with hup | hup
        · refine ⟨strongest, List.mem_cons_of_mem first hmem, ?_⟩
          intro like hlike item hitem
          rcases List.mem_cons.mp hlike with rfl | hlike
          · exact hup item hitem
          · exact hbeat like hlike item hitem
        · refine ⟨first, List.mem_cons_self, ?_⟩
          intro like hlike item hitem
          rcases List.mem_cons.mp hlike with rfl | hlike
          · exact hitem
          · exact hup item (hbeat like hlike item hitem)

theorem pickAll_apart {likes others : List (Option α)}
    (hheld : ∀ like, some like ∈ likes → beats like held = false)
    (hapart : ¬ alike held best)
    (hothers : ∀ other, some other ∈ others → ¬ alike other best) {picked : α}
    (h : pickAll (displace beats) (some held :: (likes ++ others)) =
      some picked) : ¬ alike picked best := by
  rw [← List.cons_append, pickAll_append, pickAll_stays hheld] at h
  rcases List.mem_cons.mp (mem_of_pickAll displace_mem h) with hpicked | hpicked
  · obtain rfl := Option.some.inj hpicked
    exact hapart
  · exact hothers picked hpicked

theorem OrderFree.picked_alike {choose : α → α → α}
    (h : OrderFree choose alike items) (hperm : items.Perm permuted)
    (hbest : pickAll choose items = some best) :
    ∃ picked, pickAll choose permuted = some picked ∧ alike best picked := by
  have hrel := h permuted hperm
  rw [hbest] at hrel
  cases hpicked : pickAll choose permuted with
  | none => rw [hpicked] at hrel; cases hrel
  | some picked =>
      rw [hpicked] at hrel
      cases hrel with
      | some hlike => exact ⟨picked, rfl, hlike⟩

open Classical in
theorem exists_split (items : List (Option α)) (best : α) :
    ∃ likes others : List (Option α), items.Perm (likes ++ others) ∧
      (∀ item, some item ∈ likes ↔ some item ∈ items ∧ alike item best) ∧
      ∀ item, some item ∈ others ↔
        some item ∈ items ∧ ¬ alike item best := by
  refine ⟨items.filter fun item => ∃ like, item = some like ∧ alike like best,
    items.filter fun item => !decide (∃ like, item = some like ∧
      alike like best), (List.filter_append_perm _ items).symm, ?_, ?_⟩ <;>
    simp [List.mem_filter]

section Necessary

variable (halike : Equivalence alike)
  (hquiet : ∀ left right, alike left right → beats left right = false)
  (h : OrderFree (displace beats) alike items)
  (hbest : pickAll (displace beats) items = some best)

include halike hquiet h hbest in
theorem OrderFree.kept {item : α} (hheld : some held ∈ items)
    (hitem : some item ∈ items) (hlike : alike held best)
    (hother : ¬ alike item best) : beats item held = false := by
  by_contra hbeat
  rw [Bool.not_eq_false] at hbeat
  obtain ⟨likes, others, hperm, hlikes, hothers⟩ := exists_split items best
  obtain ⟨before, after, rfl⟩ := List.append_of_mem
    ((hlikes held).mpr ⟨hheld, hlike⟩)
  obtain ⟨before', after', rfl⟩ := List.append_of_mem
    ((hothers item).mpr ⟨hitem, hother⟩)
  -- the like first, then the one that displaces it
  have hturn : items.Perm ((some held :: (before ++ after)) ++
      (some item :: (before' ++ after'))) :=
    hperm.trans (List.perm_middle.append List.perm_middle)
  obtain ⟨picked, hpicked, hpickedLike⟩ := h.picked_alike hturn hbest
  have hstays : pickAll (displace beats) (some held :: (before ++ after)) =
      some held := pickAll_stays fun like hmem =>
    hquiet like held (halike.trans
      ((hlikes like).mp (by simp at hmem ⊢; tauto)).2 (halike.symm hlike))
  have hdisplaced : pickAll (displace beats)
      (some held :: some item :: (before' ++ after')) =
      pickAll (displace beats) (some item :: (before' ++ after')) := by
    simp [pickAll, pick, displace, hbeat]
  rw [pickAll_append, hstays, hdisplaced] at hpicked
  exact @pickAll_apart _ _ item alike best [] _ (by simp) hother
    (fun other hmem => ((hothers other).mp (by simp at hmem ⊢; tauto)).2)
    picked hpicked (halike.symm hpickedLike)

include halike h hbest in
theorem OrderFree.beaten {item : α} (hitem : some item ∈ items)
    (hother : ¬ alike item best) :
    ∃ like, some like ∈ items ∧ alike like best ∧ beats like item = true := by
  by_contra hnone
  obtain ⟨likes, others, hperm, hlikes, hothers⟩ := exists_split items best
  obtain ⟨before, after, rfl⟩ := List.append_of_mem
    ((hothers item).mpr ⟨hitem, hother⟩)
  have hturn : items.Perm (some item :: (likes ++ (before ++ after))) := by
    refine hperm.trans ((List.Perm.append_left likes List.perm_middle).trans ?_)
    exact List.perm_middle
  obtain ⟨picked, hpicked, hpickedLike⟩ := h.picked_alike hturn hbest
  refine pickAll_apart (fun like hlike => ?_) hother (fun other hmem => ?_)
    hpicked (halike.symm hpickedLike)
  · obtain ⟨hmem, hlike⟩ := (hlikes like).mp hlike
    by_contra hbeat
    exact hnone ⟨like, hmem, hlike, by simpa using hbeat⟩
  · exact ((hothers other).mp (by simp at hmem ⊢; tauto)).2

end Necessary

/-- The order of the items does not matter exactly where there is none or a
champion. -/
theorem orderFree_iff (halike : Equivalence alike)
    (hquiet : ∀ left right, alike left right → beats left right = false)
    (hstrong : ∀ left right, alike left right →
      (∀ item, beats left item = true → beats right item = true) ∨
        ∀ item, beats right item = true → beats left item = true) :
    OrderFree (displace beats) alike items ↔
      (∀ item, some item ∉ items) ∨ ∃ best, Champion beats alike items best := by
  constructor
  · intro h
    cases hbest : pickAll (displace beats) items with
    | none => exact .inl (pickAll_eq_none hbest)
    | some best =>
        have hmem := mem_of_pickAll displace_mem hbest
        obtain ⟨likes, others, -, hlikes, -⟩ := exists_split items best
        have hin : ∀ like, like ∈ likes.reduceOption ↔
            some like ∈ items ∧ alike like best := fun like =>
          List.reduceOption_mem_iff.trans (hlikes like)
        obtain ⟨strongest, hstrongest, hbeat⟩ := exists_strongest hstrong halike
          (List.ne_nil_of_mem ((hin best).mpr ⟨hmem, halike.refl best⟩))
          fun like hlike => ((hin like).mp hlike).2
        obtain ⟨hmem, hlike⟩ := (hin strongest).mp hstrongest
        have hclass : ∀ {item}, alike item strongest ↔ alike item best :=
          ⟨fun h => halike.trans h hlike,
            fun h => halike.trans h (halike.symm hlike)⟩
        refine .inr ⟨strongest, hmem, fun item hitem hother => ?_,
          fun held item hheld hitem hheldLike hother => ?_⟩
        · obtain ⟨like, hlikeMem, hlikeBest, hbeats⟩ :=
            h.beaten halike hbest hitem (mt hclass.mpr hother)
          exact hbeat like ((hin like).mpr ⟨hlikeMem, hlikeBest⟩) item hbeats
        · exact h.kept halike hquiet hbest hheld hitem (hclass.mp hheldLike)
            (mt hclass.mpr hother)
  · rintro (hnone | ⟨best, hbest⟩) permuted hperm
    · have hnull : ∀ list : List (Option α), (∀ item, some item ∉ list) →
          pickAll (displace beats) list = none := by
        intro list hlist
        cases hpicked : pickAll (displace beats) list with
        | none => rfl
        | some picked =>
            exact absurd (mem_of_pickAll displace_mem hpicked) (hlist picked)
      rw [hnull items hnone,
        hnull permuted fun item hitem => hnone item (hperm.mem_iff.mpr hitem)]
      exact .none
    · obtain ⟨picked, hpicked, hlike⟩ := hbest.pickAll halike hquiet
      obtain ⟨picked', hpicked', hlike'⟩ :=
        (hbest.perm hperm).pickAll halike hquiet
      rw [hpicked, hpicked']
      exact .some (halike.trans hlike (halike.symm hlike'))

theorem exists_champion {β : Type} [LinearOrder β] (rank : α → β)
    (hbeat : ∀ left right, some left ∈ items → some right ∈ items →
      (beats left right = true ↔ rank right < rank left))
    (halike : ∀ left right, some left ∈ items → some right ∈ items →
      (alike left right ↔ rank left = rank right))
    (hitem : some item ∈ items) : ∃ best, Champion beats alike items best := by
  have hmem : ∀ item, item ∈ items.reduceOption ↔ some item ∈ items :=
    fun item => List.reduceOption_mem_iff
  cases hmax : items.reduceOption.argmax rank with
  | none =>
      rw [List.argmax_eq_none] at hmax
      exact absurd ((hmem item).mpr hitem) (by simp [hmax])
  | some best =>
      have hbest := (hmem best).mp (List.argmax_mem hmax)
      have hle : ∀ other, some other ∈ items → rank other ≤ rank best :=
        fun other hother => List.le_of_mem_argmax ((hmem other).mpr hother) hmax
      refine ⟨best, hbest, fun other hother hapart => ?_,
        fun held other hheld hother hlike hapart => ?_⟩
      · have hne := mt (halike other best hother hbest).mpr hapart
        exact (hbeat best other hbest hother).mpr
          (lt_of_le_of_ne (hle other hother) hne)
      · have hsame := (halike held best hheld hbest).mp hlike
        have hnot : ¬ rank held < rank other :=
          not_lt.mpr (hsame ▸ hle other hother)
        exact Bool.eq_false_iff.mpr
          (mt (hbeat other held hother hheld).mp hnot)

end Orders

end SyncBridge.Foundation
