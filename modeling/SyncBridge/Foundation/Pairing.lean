import Mathlib.Data.List.Forall2

/-!
# Lists paired by a relation

The partners of single elements in a pairing of two lists, and when a list has a
pairing at all.
-/

namespace SyncBridge.Foundation

variable {α β : Type} {R : α → β → Prop} {left : List α} {right : List β}

theorem paired_of_mem_left (h : List.Forall₂ R left right) {item : α}
    (hmem : item ∈ left) : ∃ partner ∈ right, R item partner := by
  induction h with
  | nil => cases hmem
  | cons hpair _ ih =>
      rcases List.mem_cons.mp hmem with rfl | hmem
      · exact ⟨_, List.mem_cons_self, hpair⟩
      · obtain ⟨partner, hpartner, hrelated⟩ := ih hmem
        exact ⟨partner, List.mem_cons_of_mem _ hpartner, hrelated⟩

theorem paired_of_mem_right (h : List.Forall₂ R left right) {partner : β}
    (hmem : partner ∈ right) : ∃ item ∈ left, R item partner :=
  paired_of_mem_left h.flip hmem

theorem exists_pairing_iff : (∃ right, List.Forall₂ R left right) ↔
    ∀ item ∈ left, ∃ partner, R item partner := by
  constructor
  · rintro ⟨right, h⟩ item hmem
    obtain ⟨partner, -, hrelated⟩ := paired_of_mem_left h hmem
    exact ⟨partner, hrelated⟩
  · intro h
    induction left with
    | nil => exact ⟨[], .nil⟩
    | cons item left ih =>
        obtain ⟨partner, hpartner⟩ := h item List.mem_cons_self
        obtain ⟨right, hright⟩ := ih fun other hother =>
          h other (List.mem_cons_of_mem item hother)
        exact ⟨partner :: right, .cons hpartner hright⟩

end SyncBridge.Foundation
