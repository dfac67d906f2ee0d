import Mathlib.Data.List.Induction

/-!
# Picking one item of a list

A left fold with a function that chooses one of two items, over a list with
gaps.  Nothing is asked of the choice but that it takes one of the two; where
it follows an order, the fold finds the greatest item, and otherwise an item
that nothing displaces decides.
-/

namespace SyncBridge.Foundation

variable {α : Type} (choose : α → α → α)

def pick : Option α → Option α → Option α
  | none, right => right
  | left, none => left
  | some left, some right => some (choose left right)

def pickAll (items : List (Option α)) : Option α :=
  items.foldl (pick choose) none

variable {choose} {items : List (Option α)} {item chosen : α}

@[simp] theorem pick_none_left (right : Option α) :
    pick choose none right = right := by
  cases right <;> rfl

@[simp] theorem pick_none_right (left : Option α) :
    pick choose left none = left := by
  cases left <;> rfl

@[simp] theorem pickAll_nil : pickAll choose [] = none := rfl

theorem pickAll_concat (last : Option α) :
    pickAll choose (items ++ [last]) = pick choose (pickAll choose items) last := by
  simp [pickAll, List.foldl_append]

theorem mem_of_pickAll (hchoose : ∀ left right,
      choose left right = left ∨ choose left right = right)
    (h : pickAll choose items = some chosen) : some chosen ∈ items := by
  induction items using List.reverseRecOn generalizing chosen with
  | nil => cases h
  | append_singleton items last ih =>
      rw [pickAll_concat] at h
      rw [List.mem_append, List.mem_singleton]
      cases hbefore : pickAll choose items with
      | none =>
          rw [hbefore, pick_none_left] at h
          exact .inr h.symm
      | some before =>
          have hmem := ih hbefore
          cases last with
          | none =>
              rw [hbefore, pick_none_right] at h
              obtain rfl := Option.some.inj h
              exact .inl hmem
          | some last =>
              rw [hbefore] at h
              have hchosen : choose before last = chosen := Option.some.inj h
              rcases hchoose before last with hleft | hright
              · rw [← hchosen, hleft]
                exact .inl hmem
              · rw [← hchosen, hright]
                exact .inr rfl

theorem pickAll_eq_none (h : pickAll choose items = none) :
    ∀ item, some item ∉ items := by
  induction items using List.reverseRecOn with
  | nil => exact fun item hitem => nomatch hitem
  | append_singleton items last ih =>
      rw [pickAll_concat] at h
      intro item hitem
      cases hbefore : pickAll choose items with
      | none =>
          rw [hbefore, pick_none_left] at h
          rcases List.mem_append.mp hitem with hold | hlast
          · exact ih hbefore item hold
          · rw [List.mem_singleton, h] at hlast
            cases hlast
      | some before =>
          rw [hbefore] at h
          cases last <;> cases h

theorem le_pickAll {P : α → Prop} {le : α → α → Prop}
    (htrans : ∀ a b c, le a b → le b c → le a c) (hrefl : ∀ a, P a → le a a)
    (hchoose : ∀ left right, P left → P right → P (choose left right) ∧
      le left (choose left right) ∧ le right (choose left right))
    (hitems : ∀ item, some item ∈ items → P item)
    (h : pickAll choose items = some chosen) :
    P chosen ∧ ∀ item, some item ∈ items → le item chosen := by
  induction items using List.reverseRecOn generalizing chosen with
  | nil => cases h
  | append_singleton items last ih =>
      rw [pickAll_concat] at h
      have hbefore : ∀ item, some item ∈ items → P item :=
        fun item hitem => hitems item (List.mem_append_left _ hitem)
      cases hpicked : pickAll choose items with
      | none =>
          rw [hpicked, pick_none_left] at h
          have hlast := hitems chosen (h ▸ List.mem_append_right _
            (List.mem_singleton_self _))
          refine ⟨hlast, fun item hitem => ?_⟩
          rcases List.mem_append.mp hitem with hold | hnew
          · exact absurd hold (pickAll_eq_none hpicked item)
          · rw [List.mem_singleton, h] at hnew
            obtain rfl := Option.some.inj hnew
            exact hrefl item hlast
      | some before =>
          obtain ⟨hP, hle⟩ := ih hbefore hpicked
          cases last with
          | none =>
              rw [hpicked, pick_none_right] at h
              obtain rfl := Option.some.inj h
              refine ⟨hP, fun item hitem => ?_⟩
              rcases List.mem_append.mp hitem with hold | hnew
              · exact hle item hold
              · cases List.mem_singleton.mp hnew
          | some last =>
              rw [hpicked] at h
              obtain rfl := Option.some.inj h
              have hlast := hitems last (List.mem_append_right _
                (List.mem_singleton_self _))
              obtain ⟨hchosen, hleft, hright⟩ := hchoose before last hP hlast
              refine ⟨hchosen, fun item hitem => ?_⟩
              rcases List.mem_append.mp hitem with hold | hnew
              · exact htrans _ _ _ (hle item hold) hleft
              · obtain rfl := Option.some.inj (List.mem_singleton.mp hnew)
                exact hright

/-- A good item is picked if one of the items is taken over everything before it,
or leaves a good one there, and nothing after it displaces a good item. -/
theorem pickAll_good {P : α → Prop} {before after : List (Option α)}
    (hmem : ∀ left right, choose left right = left ∨
      choose left right = right)
    (hgood : P item)
    (htaken : ∀ left, some left ∈ before → P (choose left item))
    (hstays : ∀ left right, P left → some right ∈ after →
      P (choose left right))
    (h : pickAll choose (before ++ some item :: after) = some chosen) :
    P chosen := by
  have hhalf : ∃ half, pickAll choose (before ++ [some item]) = some half ∧
      P half := by
    rw [pickAll_concat]
    cases hbefore : pickAll choose before with
    | none => exact ⟨item, rfl, hgood⟩
    | some left =>
        exact ⟨_, rfl, htaken left (mem_of_pickAll hmem hbefore)⟩
  have hrest : ∀ rest : List (Option α),
      (∀ left right, P left → some right ∈ rest →
        P (choose left right)) →
      ∀ half, P half → ∀ chosen,
        rest.foldl (pick choose) (some half) = some chosen → P chosen := by
    intro rest
    induction rest with
    | nil =>
        intro _ half hhalf chosen hchosen
        obtain rfl := Option.some.inj hchosen
        exact hhalf
    | cons right rest ih =>
        intro hkept half hhalf chosen hchosen
        have hlater : ∀ left right, P left → some right ∈ rest →
            P (choose left right) := fun left other hleft hother =>
          hkept left other hleft (List.mem_cons_of_mem _ hother)
        rw [List.foldl_cons] at hchosen
        cases right with
        | none => exact ih hlater half hhalf chosen hchosen
        | some right =>
            exact ih hlater _ (hkept half right hhalf List.mem_cons_self)
              chosen hchosen
  obtain ⟨half, hpicked, hhalf⟩ := hhalf
  refine hrest after hstays half hhalf chosen ?_
  have hsplit : before ++ some item :: after =
      (before ++ [some item]) ++ after := by simp
  rw [hsplit, pickAll, List.foldl_append] at h
  rw [← hpicked]
  exact h

end SyncBridge.Foundation
