import Mathlib.Data.List.Nodup

/-!
# Tables

A table is a list of rows in the order of their insertion, looked up and
updated by a key.
-/

namespace SyncBridge.Foundation.Table

variable {ρ κ : Type} [DecidableEq κ] (key : ρ → κ)

def find (id : κ) (rows : List ρ) : Option ρ :=
  rows.find? fun row => key row = id

def modify (id : κ) (change : ρ → ρ) (rows : List ρ) : List ρ :=
  rows.map fun row => if key row = id then change row else row

variable {key} {id : κ} {change : ρ → ρ} {rows : List ρ} {row : ρ}

theorem find_mem (h : find key id rows = some row) : row ∈ rows :=
  List.mem_of_find?_eq_some h

theorem find_key (h : find key id rows = some row) : key row = id := by
  simpa using List.find?_some h

theorem find_eq_none : find key id rows = none ↔ ∀ row ∈ rows, key row ≠ id := by
  simp [find]

theorem find_of_nodup (hnodup : (rows.map key).Nodup) (hrow : row ∈ rows) :
    find key (key row) rows = some row := by
  cases hfind : find key (key row) rows with
  | none => exact absurd rfl (find_eq_none.mp hfind row hrow)
  | some found =>
      rw [List.inj_on_of_nodup_map hnodup (find_mem hfind) hrow (find_key hfind)]

theorem find_append {new : List ρ} (h : find key id rows = some row) :
    find key id (rows ++ new) = some row := by
  rw [find] at h
  rw [find, List.find?_append, h, Option.some_or]

theorem find_append_new {new : ρ} (h : ∀ row ∈ rows, key row ≠ id)
    (hnew : key new = id) : find key id (rows ++ [new]) = some new := by
  rw [find, List.find?_append, ← find, find_eq_none.mpr h, Option.none_or]
  simp [hnew]

theorem find_modify {written : κ} (hkey : ∀ row, key (change row) = key row) :
    find key id (modify key written change rows) =
      (find key id rows).map fun row =>
        if key row = written then change row else row := by
  have hsame : ∀ row, key (if key row = written then change row else row) =
      key row := by
    intro row
    split
    · exact hkey row
    · rfl
  rw [find, modify, List.find?_map]
  congr 1
  refine congrArg (fun p => List.find? p rows) (funext fun row => ?_)
  simp [hsame]

theorem find_modified (hkey : ∀ row, key (change row) = key row)
    (h : find key id rows = some row) :
    find key id (modify key id change rows) = some (change row) := by
  rw [find_modify hkey, h, Option.map_some, if_pos (find_key h)]

theorem mem_modify :
    row ∈ modify key id change rows ↔
      ∃ old ∈ rows, row = if key old = id then change old else old := by
  simp [modify, eq_comm]

theorem mem_modify_cases (h : row ∈ modify key id change rows) :
    row ∈ rows ∨ ∃ old ∈ rows, key old = id ∧ row = change old := by
  obtain ⟨old, hold, rfl⟩ := mem_modify.mp h
  split
  · rename_i hkey
    exact .inr ⟨old, hold, hkey, rfl⟩
  · exact .inl hold

theorem map_modify {β : Type} {f : ρ → β} (h : ∀ row, f (change row) = f row) :
    (modify key id change rows).map f = rows.map f := by
  simp only [modify, List.map_map]
  refine List.map_congr_left fun row _ => ?_
  by_cases hkey : key row = id <;> simp [hkey, h]

theorem filter_append_of_ne {new : ρ} (h : key new ≠ id) :
    (rows ++ [new]).filter (key · = id) = rows.filter (key · = id) := by
  simp [h]

theorem filter_modify_of_ne {written : κ}
    (hkey : ∀ row, key (change row) = key row) (h : id ≠ written) :
    (modify key written change rows).filter (key · = id) =
      rows.filter (key · = id) := by
  induction rows with
  | nil => rfl
  | cons row rows ih =>
      simp only [modify, List.map_cons] at ih ⊢
      by_cases hrow : key row = written
      · have hother : key row ≠ id := fun heq => h (heq.symm.trans hrow)
        rw [if_pos hrow, List.filter_cons_of_neg (by simpa [hkey] using hother),
          List.filter_cons_of_neg (by simpa using hother)]
        exact ih
      · rw [if_neg hrow, List.filter_cons, List.filter_cons, ih]

theorem forall_modify {P : ρ → Prop} (h : ∀ row ∈ rows, P row)
    (hchange : ∀ row ∈ rows, key row = id → P row → P (change row)) :
    ∀ row ∈ modify key id change rows, P row := by
  intro row hrow
  obtain ⟨old, hold, rfl⟩ := mem_modify.mp hrow
  split
  · rename_i hkey
    exact hchange old hold hkey (h old hold)
  · exact h old hold

def Has (key : ρ → κ) (P : ρ → Prop) (id : κ) (rows : List ρ) : Prop :=
  ∃ row ∈ rows, key row = id ∧ P row

variable {P : ρ → Prop}

instance [DecidablePred P] : Decidable (Has key P id rows) :=
  inferInstanceAs (Decidable (∃ row ∈ rows, key row = id ∧ P row))

omit [DecidableEq κ] in
theorem has_append_singleton {new : ρ} (h : Has key P id (rows ++ [new])) :
    key new = id ∧ P new ∨ Has key P id rows := by
  obtain ⟨row, hrow, hkey, hP⟩ := h
  rcases List.mem_append.mp hrow with hold | hnew
  · exact .inr ⟨row, hold, hkey, hP⟩
  · obtain rfl := List.mem_singleton.mp hnew
    exact .inl ⟨hkey, hP⟩

theorem has_modify {written : κ} (hkey : ∀ row, key (change row) = key row)
    (h : Has key P id (modify key written change rows)) :
    (written = id ∧ ∃ row, P (change row)) ∨
      Has key P id rows ∧ written ≠ id := by
  obtain ⟨row, hrow, hid, hP⟩ := h
  obtain ⟨old, hold, rfl⟩ := mem_modify.mp hrow
  split at hid
  · rename_i hwritten
    rw [if_pos hwritten] at hP
    exact .inl ⟨by rw [← hid, hkey, hwritten], old, hP⟩
  · rename_i hother
    rw [if_neg hother] at hP
    exact .inr ⟨⟨old, hold, hid, hP⟩, fun heq => hother (hid.trans heq.symm)⟩

end SyncBridge.Foundation.Table

/-! ## Lists with at most one item of a kind -/

namespace SyncBridge.Foundation

variable {τ : Type} {P : τ → Prop} {items new : List τ}

def AtMostOne (P : τ → Prop) (items : List τ) : Prop :=
  ∀ (i j : Nat) (first second : τ), items[i]? = some first →
    items[j]? = some second → P first → P second → i = j

theorem AtMostOne.nil : AtMostOne P [] := by
  intro i j first second hi
  simp at hi

theorem getElem?_of_append {index : Nat} {item : τ}
    (hnew : ∀ item ∈ new, ¬ P item) (h : (items ++ new)[index]? = some item)
    (hitem : P item) : items[index]? = some item := by
  rw [List.getElem?_append] at h
  split at h
  · exact h
  · exact absurd hitem (hnew item (List.mem_of_getElem? h))

theorem AtMostOne.append (h : AtMostOne P items)
    (hnew : ∀ item ∈ new, ¬ P item) : AtMostOne P (items ++ new) := by
  intro i j first second hi hj hfirst hsecond
  exact h i j first second (getElem?_of_append hnew hi hfirst)
    (getElem?_of_append hnew hj hsecond) hfirst hsecond

theorem AtMostOne.set {index : Nat} {old item : τ} (h : AtMostOne P items)
    (hold : items[index]? = some old) (himp : P item → P old) :
    AtMostOne P (items.set index item) := by
  have hback : ∀ (i : Nat) (other : τ),
      (items.set index item)[i]? = some other → P other →
      ∃ original, items[i]? = some original ∧ P original := by
    intro i other hi hother
    rw [List.getElem?_set] at hi
    split at hi
    · rename_i heq
      subst heq
      split at hi
      · obtain rfl := Option.some.inj hi
        exact ⟨old, hold, himp hother⟩
      · cases hi
    · exact ⟨other, hi, hother⟩
  intro i j first second hi hj hfirst hsecond
  obtain ⟨first', hi', hfirst'⟩ := hback i first hi hfirst
  obtain ⟨second', hj', hsecond'⟩ := hback j second hj hsecond
  exact h i j first' second' hi' hj' hfirst' hsecond'

theorem AtMostOne.set_of_none {index : Nat} {item : τ}
    (hnone : ∀ other ∈ items, ¬ P other) :
    AtMostOne P (items.set index item) := by
  have hindex : ∀ (i : Nat) (other : τ),
      (items.set index item)[i]? = some other → P other → i = index := by
    intro i other hi hother
    rw [List.getElem?_set] at hi
    split at hi
    · rename_i heq
      exact heq.symm
    · exact absurd hother (hnone other (List.mem_of_getElem? hi))
  intro i j first second hi hj hfirst hsecond
  rw [hindex i first hi hfirst, hindex j second hj hsecond]

/-! ## Keys handed out in order -/

namespace Table

variable {ρ : Type} {key : ρ → Nat} {next : Nat} {rows : List ρ}

/-- The keys are distinct, and the next one to be handed out is new. -/
structure Keyed (key : ρ → Nat) (next : Nat) (rows : List ρ) : Prop where
  nodup : (rows.map key).Nodup
  below : ∀ row ∈ rows, key row < next

theorem Keyed.mono {next' : Nat} (h : Keyed key next rows)
    (hle : next ≤ next') : Keyed key next' rows :=
  ⟨h.nodup, fun row hrow => Nat.lt_of_lt_of_le (h.below row hrow) hle⟩

theorem Keyed.append {new : ρ} (h : Keyed key next rows)
    (hnew : key new = next) : Keyed key (next + 1) (rows ++ [new]) := by
  constructor
  · rw [List.map_append, List.map_singleton, hnew]
    refine List.nodup_append.mpr ⟨h.nodup, by simp, ?_⟩
    intro id hid other hother heq
    obtain ⟨row, hrow, rfl⟩ := List.mem_map.mp hid
    have hbelow := h.below row hrow
    simp only [List.mem_singleton] at hother
    omega
  · intro row hrow
    rcases List.mem_append.mp hrow with hold | hlast
    · have hbelow := h.below row hold
      omega
    · obtain rfl := List.mem_singleton.mp hlast
      omega

theorem Keyed.modify {id : Nat} {change : ρ → ρ} (h : Keyed key next rows)
    (hkey : ∀ row, key (change row) = key row) :
    Keyed key next (modify key id change rows) := by
  constructor
  · rw [map_modify hkey]
    exact h.nodup
  · refine forall_modify h.below fun row _ _ hbelow => ?_
    rw [hkey]
    exact hbelow

theorem Keyed.eq_of_key (h : Keyed key next rows) {first second : ρ}
    (hfirst : first ∈ rows) (hsecond : second ∈ rows)
    (heq : key first = key second) : first = second :=
  List.inj_on_of_nodup_map h.nodup hfirst hsecond heq

theorem Keyed.atMostOne {P : ρ → Prop} (h : Keyed key next rows)
    (hsame : ∀ first ∈ rows, ∀ second ∈ rows, P first → P second →
      key first = key second) : AtMostOne P rows := by
  intro i j first second hi hj hfirst hsecond
  have hkey := hsame first (List.mem_of_getElem? hi) second
    (List.mem_of_getElem? hj) hfirst hsecond
  have hlt : i < (rows.map key).length := by
    simpa using (List.getElem?_eq_some_iff.mp hi).1
  refine (List.getElem?_inj hlt h.nodup).mp ?_
  simp [hi, hj, hkey]

end Table

end SyncBridge.Foundation
