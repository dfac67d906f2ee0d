import SyncBridge.Foundation.Async
import SyncBridge.Foundation.Table

/-!
# Queries confined to a part of a state

A query of a state answers or fails.  It is confined to a part of the state when
the part alone answers as the whole does, and fails where the whole fails.  Two
states with the same part cannot be told apart by such a query.
-/

namespace SyncBridge.Foundation

variable {σ ε α β : Type} {good : σ → Prop} {part : σ → σ} {state state' : σ}

def Confined (good : σ → Prop) (part : σ → σ) (query : σ → Except ε α) : Prop :=
  ∀ state, good state →
    (query state).toOption = (query (part state)).toOption

theorem Confined.noninterference {query : σ → Except ε α}
    (h : Confined good part query) (hgood : good state) (hgood' : good state')
    (hsame : part state = part state') :
    (query state).toOption = (query state').toOption := by
  rw [h state hgood, h state' hgood', hsame]

theorem confined_ok {answer : σ → α}
    (h : ∀ state, good state → answer state = answer (part state)) :
    Confined good part fun state => (.ok (answer state) : Except ε α) :=
  fun state hgood => congrArg some (h state hgood)

theorem toOption_eq_none {result : Except ε α} :
    result.toOption = none ↔ ∃ error, result = .error error := by
  cases result <;> simp [Except.toOption]

theorem Confined.bind {query : σ → Except ε α} {rest : α → σ → Except ε β}
    (h : Confined good part query)
    (hrest : ∀ state value, good state → query state = .ok value →
      (rest value state).toOption = (rest value (part state)).toOption) :
    Confined good part fun state =>
      query state >>= fun value => rest value state := by
  intro state hgood
  have hsame := h state hgood
  change (query state >>= fun value => rest value state).toOption =
    (query (part state) >>= fun value => rest value (part state)).toOption
  cases hquery : query state with
  | ok value =>
      rw [hquery] at hsame
      rw [toOption_eq_some.mp hsame.symm]
      exact hrest state value hgood hquery
  | error error =>
      rw [hquery] at hsame
      obtain ⟨other, hother⟩ := toOption_eq_none.mp hsame.symm
      rw [hother]
      rfl

theorem Confined.map {query : σ → Except ε α} (h : Confined good part query)
    (f : α → β) :
    Confined good part fun state =>
      query state >>= fun value => .ok (f value) :=
  h.bind fun _ _ _ _ => rfl

theorem filter_filter_of_imp {p q : α → Bool} {items : List α}
    (h : ∀ item ∈ items, q item = true → p item = true) :
    (items.filter p).filter q = items.filter q := by
  rw [List.filter_filter]
  refine List.filter_congr fun item hitem => ?_
  cases hq : q item with
  | true => rw [h item hitem hq, Bool.true_and]
  | false => rw [Bool.false_and]

theorem filter_of_any {p : α → Bool} {found : Option α}
    (h : found.any p = true) : found.filter p = found := by
  cases found with
  | none => rfl
  | some value => exact if_pos h

namespace Table

variable {ρ κ : Type} [DecidableEq κ] {key : ρ → κ} {rows : List ρ} {id : κ}
  {p : ρ → Bool}

theorem find_eq_some_iff (h : (rows.map key).Nodup) {row : ρ} :
    find key id rows = some row ↔ row ∈ rows ∧ key row = id := by
  constructor
  · exact fun hfind => ⟨find_mem hfind, find_key hfind⟩
  · rintro ⟨hrow, hid⟩
    cases hfind : find key id rows with
    | none => exact absurd hid (find_eq_none.mp hfind row hrow)
    | some found =>
        have hsame := (find_key hfind).trans hid.symm
        rw [List.inj_on_of_nodup_map h (find_mem hfind) hrow hsame]

theorem find_filter (h : (rows.map key).Nodup) :
    find key id (rows.filter p) = (find key id rows).filter p := by
  have honly : ∀ first ∈ rows, ∀ second ∈ rows, key first = id →
      key second = id → first = second :=
    fun first hfirst second hsecond hid hid' =>
      List.inj_on_of_nodup_map h hfirst hsecond (hid.trans hid'.symm)
  cases hfind : find key id rows with
  | none =>
      refine find_eq_none.mpr fun row hrow => ?_
      exact find_eq_none.mp hfind row (List.mem_filter.mp hrow).1
  | some row =>
      have hrow := find_mem hfind
      have hid := find_key hfind
      cases hp : p row with
      | true =>
          rw [Option.filter_some, if_pos hp]
          cases hpart : find key id (rows.filter p) with
          | none =>
              have hmem := List.mem_filter.mpr ⟨hrow, hp⟩
              exact absurd hid (find_eq_none.mp hpart row hmem)
          | some other =>
              have hother := (List.mem_filter.mp (find_mem hpart)).1
              rw [honly other hother row hrow (find_key hpart) hid]
      | false =>
          rw [Option.filter_some, hp]
          refine find_eq_none.mpr fun other hother hsame => ?_
          obtain ⟨hmem, hp'⟩ := List.mem_filter.mp hother
          rw [honly other hmem row hrow hsame hid, hp] at hp'
          cases hp'

theorem any_filter (h : (rows.map key).Nodup) :
    ((rows.filter p).any fun row => key row = id) =
      (find key id rows).any p := by
  have hsome : ((rows.filter p).any fun row => key row = id) =
      (find key id (rows.filter p)).isSome := by
    rw [Bool.eq_iff_iff, find, List.find?_isSome, List.any_eq_true]
  rw [hsome, find_filter h]
  cases find key id rows with
  | none => rfl
  | some row => cases hp : p row <;> simp [Option.filter_some, hp]

end Table

end SyncBridge.Foundation
