import Mathlib.Data.List.Perm.Basic
import SyncBridge.Transformations.Fields

/-!
# Writes at paths that lie apart

A value written at a path stays there while other values are written at paths
that lie apart from it, and such writes commute up to the order of the keys.
-/

namespace SyncBridge

theorem Record.get_of_mem {record : Record} {key : String} {value : Json}
    (hnodup : (record.map Prod.fst).Nodup) (h : (key, value) ∈ record) :
    record.get key = some value := by
  induction record with
  | nil => cases h
  | cons field record ih =>
      obtain ⟨name, old⟩ := field
      obtain ⟨hname, hnodup⟩ := List.nodup_cons.mp hnodup
      rw [Record.get, List.lookup_cons]
      rcases List.mem_cons.mp h with heq | h
      · obtain ⟨rfl, rfl⟩ := Prod.mk.inj heq
        simp
      · have hne : key ≠ name := fun heq =>
          hname (List.mem_map.mpr ⟨_, h, heq⟩)
        rw [beq_eq_false_iff_ne.mpr hne]
        exact ih hnodup h

namespace Paths

/-- Neither path leads through the other. -/
def Apart (first second : List String) : Prop :=
  ¬ first <+: second ∧ ¬ second <+: first

instance (first second : List String) : Decidable (Apart first second) :=
  inferInstanceAs (Decidable (_ ∧ _))

theorem Apart.symm {first second : List String} (h : Apart first second) :
    Apart second first := ⟨h.2, h.1⟩

theorem not_apart_nil {path : List String} : ¬ Apart [] path :=
  fun h => h.1 List.nil_prefix

theorem apart_cons {segment : String} {first second : List String} :
    Apart (segment :: first) (segment :: second) ↔ Apart first second := by
  simp [Apart, List.cons_prefix_cons]

/-! ## One key -/

section Keys

variable {key other : String} {value : Json} {target : Record}

@[simp] theorem get_assignKey :
    (assignKey key value target).get other =
      if other = key then some value else target.get other := by
  induction target with
  | nil => by_cases h : other = key <;> simp [assignKey, Record.get, h]
  | cons field target ih =>
      obtain ⟨name, old⟩ := field
      simp only [Record.get] at ih ⊢
      by_cases hname : name = key
      · subst hname
        by_cases h : other = name
        · simp [assignKey, h]
        · simp [assignKey, h, List.lookup_cons, beq_eq_false_iff_ne.mpr h]
      · by_cases h : other = name
        · subst h
          simp [assignKey, hname]
        · simp [assignKey, hname, List.lookup_cons, beq_eq_false_iff_ne.mpr h,
            ih]

theorem keys_assignKey :
    (assignKey key value target).map Prod.fst =
      if key ∈ target.map Prod.fst then target.map Prod.fst
      else target.map Prod.fst ++ [key] := by
  induction target with
  | nil => rfl
  | cons field target ih =>
      obtain ⟨name, old⟩ := field
      by_cases hname : name = key
      · simp [assignKey, hname]
      · simp only [assignKey, hname, if_false, List.map_cons, ih,
          List.mem_cons, Ne.symm hname, false_or]
        split <;> rfl

theorem nodup_assignKey (h : (target.map Prod.fst).Nodup) :
    ((assignKey key value target).map Prod.fst).Nodup := by
  rw [keys_assignKey]
  split
  · exact h
  · rename_i hkey
    exact List.nodup_append.mpr ⟨h, List.nodup_singleton key,
      fun name hname _ hsingle heq =>
        hkey (List.mem_singleton.mp hsingle ▸ heq ▸ hname)⟩

end Keys

/-! ## One path -/

def below (value : Json) (segments : List String) (fields : Record) : Json :=
  match segments with
  | [] => value
  | segments => .obj (setSegments value segments fields)

section OnePath

variable {segment key : String} {segments first second : List String}
  {value other : Json} {target : Record}

theorem setSegments_cons :
    setSegments value (segment :: segments) target =
      assignKey segment (below value segments (objectBelow target segment))
        target := by
  cases segments <;> rfl

theorem get_setSegments :
    (setSegments value (segment :: segments) target).get key =
      if key = segment then
        some (below value segments (objectBelow target segment))
      else target.get key := by
  rw [setSegments_cons, get_assignKey]

/-- What `getByPath` returns once the path is split. -/
def readPath (segments : List String) (target : Record) : Option Value :=
  readSegments segments (some (.json (.obj target)))

theorem readPath_cons :
    readPath (segment :: segments) target =
      readSegments segments (readKey target segment) := rfl

theorem readKey_of_get (h : target.get key = some value) :
    readKey target key = some (.json value) := by
  rw [readKey, h]

theorem readPath_setSegments (hpath : segments ≠ []) :
    readPath segments (setSegments value segments target) =
      some (.json value) := by
  induction segments generalizing target with
  | nil => exact absurd rfl hpath
  | cons segment segments ih =>
      rw [readPath_cons, readKey_of_get (by rw [get_setSegments, if_pos rfl])]
      cases segments with
      | nil => rfl
      | cons next rest => exact ih (List.cons_ne_nil next rest)

theorem objectBelow_of_read (hpath : segments ≠ [])
    (h : readPath (key :: segments) target = some (.json value)) :
    target.get key = some (.obj (objectBelow target key)) := by
  obtain ⟨next, rest, rfl⟩ := List.exists_cons_of_ne_nil hpath
  rw [readPath_cons, readKey] at h
  cases hget : target.get key with
  | none =>
      rw [hget] at h
      simp only at h
      split at h <;> cases h
  | some found =>
      rw [hget] at h
      cases found with
      | obj fields => simp only [objectBelow, hget]
      | _ => cases h

theorem readPath_apart (hapart : Apart first second)
    (h : readPath first target = some (.json value)) :
    readPath first (setSegments other second target) =
      some (.json value) := by
  induction first generalizing second target with
  | nil => exact absurd hapart not_apart_nil
  | cons segment first ih =>
      cases second with
      | nil => exact absurd hapart.symm not_apart_nil
      | cons segment' second =>
          by_cases hsegment : segment = segment'
          · subst hsegment
            have hrest : Apart first second := apart_cons.mp hapart
            have hfirst : first ≠ [] := fun hnil =>
              not_apart_nil (hnil ▸ hrest)
            have hsecond : second ≠ [] := fun hnil =>
              not_apart_nil (hnil ▸ hrest.symm)
            have hget := objectBelow_of_read hfirst h
            rw [readPath_cons, readKey_of_get hget] at h
            rw [readPath_cons,
              readKey_of_get (by rw [get_setSegments, if_pos rfl])]
            obtain ⟨next, rest, rfl⟩ := List.exists_cons_of_ne_nil hsecond
            exact ih hrest h
          · rw [readPath_cons, readKey, get_setSegments, if_neg hsegment,
              ← readKey, ← readPath_cons]
            exact h

end OnePath

/-! ## Many paths -/

def writeAll (writes : List (List String × Json)) (target : Record) : Record :=
  writes.foldl (fun target write => setSegments write.2 write.1 target) target

section ManyPaths

variable {key : String} {value : Json} {target : Record}
  {writes writes' : List (List String × Json)}

theorem readPath_writeAll {segments : List String}
    (hapart : ∀ write ∈ writes, Apart segments write.1)
    (h : readPath segments target = some (.json value)) :
    readPath segments (writeAll writes target) = some (.json value) := by
  induction writes generalizing target with
  | nil => exact h
  | cons write writes ih =>
      have hhere : Apart segments write.1 := hapart write List.mem_cons_self
      have hkept : readPath segments (setSegments write.2 write.1 target) =
          some (.json value) := readPath_apart hhere h
      exact ih (fun other hother =>
        hapart other (List.mem_cons_of_mem write hother)) hkept

theorem nodup_setSegments {segments : List String}
    (h : (target.map Prod.fst).Nodup) :
    ((setSegments value segments target).map Prod.fst).Nodup := by
  cases segments with
  | nil => exact h
  | cons segment segments =>
      rw [setSegments_cons]
      exact nodup_assignKey h

theorem nodup_writeAll (h : (target.map Prod.fst).Nodup) :
    ((writeAll writes target).map Prod.fst).Nodup := by
  induction writes generalizing target with
  | nil => exact h
  | cons write writes ih => exact ih (nodup_setSegments h)

def tailAt (key : String) (write : List String × Json) :
    Option (List String × Json) :=
  match write.1 with
  | [] => none
  | segment :: segments =>
      if segment = key then some (segments, write.2) else none

def tailsAt (key : String) (writes : List (List String × Json)) :
    List (List String × Json) :=
  writes.filterMap (tailAt key)

def leftBelow : List (List String × Json) → Json
  | [([], value)] => value
  | tails => .obj (writeAll tails [])

theorem tailAt_eq_some {write tail : List String × Json}
    (h : tailAt key write = some tail) : write = (key :: tail.1, tail.2) := by
  obtain ⟨path, value⟩ := write
  cases path with
  | nil => cases h
  | cons segment segments =>
      simp only [tailAt] at h
      split at h
      · rename_i hsegment
        obtain rfl := Option.some.inj h
        rw [hsegment]
      · cases h

theorem pairwise_tailsAt
    (h : writes.Pairwise fun first second => Apart first.1 second.1) :
    (tailsAt key writes).Pairwise fun first second =>
      Apart first.1 second.1 := by
  refine h.filterMap (tailAt key) ?_
  intro first second hapart tail htail tail' htail'
  rw [tailAt_eq_some htail, tailAt_eq_some htail'] at hapart
  exact apart_cons.mp hapart

theorem tails_singleton
    (h : writes.Pairwise fun first second => Apart first.1 second.1)
    (hmem : ([], value) ∈ writes) : writes = [([], value)] := by
  cases writes with
  | nil => cases hmem
  | cons write writes =>
      obtain ⟨hhead, hrest⟩ := List.pairwise_cons.mp h
      rcases List.mem_cons.mp hmem with rfl | hmem
      · cases writes with
        | nil => rfl
        | cons other writes =>
            exact absurd (hhead other List.mem_cons_self) not_apart_nil
      · exact absurd (hhead _ hmem).symm not_apart_nil

theorem get_of_tailAt_none {write : List String × Json} (hpath : write.1 ≠ [])
    (h : tailAt key write = none) :
    (setSegments write.2 write.1 target).get key = target.get key := by
  obtain ⟨path, value⟩ := write
  cases path with
  | nil => exact absurd rfl hpath
  | cons segment segments =>
      simp only [tailAt] at h
      split at h
      · cases h
      · rename_i hsegment
        rw [get_setSegments, if_neg fun heq => hsegment heq.symm]

theorem get_writeAll_other (hpaths : ∀ write ∈ writes, write.1 ≠ [])
    (h : tailsAt key writes = []) :
    (writeAll writes target).get key = target.get key := by
  induction writes generalizing target with
  | nil => rfl
  | cons write writes ih =>
      have hhere : tailAt key write = none := by
        by_contra hsome
        obtain ⟨tail, htail⟩ := Option.ne_none_iff_exists'.mp hsome
        rw [tailsAt, List.filterMap_cons_some htail] at h
        cases h
      rw [tailsAt, List.filterMap_cons_none hhere] at h
      exact (ih (fun other hother =>
        hpaths other (List.mem_cons_of_mem write hother)) h).trans
          (get_of_tailAt_none (hpaths write List.mem_cons_self) hhere)

theorem get_writeAll_leaf (hpaths : ∀ write ∈ writes, write.1 ≠ [])
    (h : tailsAt key writes = [([], value)]) :
    (writeAll writes target).get key = some value := by
  induction writes generalizing target with
  | nil => cases h
  | cons write writes ih =>
      have hrest : ∀ other ∈ writes, other.1 ≠ [] := fun other hother =>
        hpaths other (List.mem_cons_of_mem write hother)
      cases htail : tailAt key write with
      | none =>
          rw [tailsAt, List.filterMap_cons_none htail] at h
          exact ih hrest h
      | some tail =>
          rw [tailsAt, List.filterMap_cons_some htail] at h
          obtain ⟨rfl, hothers⟩ := List.cons.inj h
          obtain rfl := tailAt_eq_some htail
          have hkept : (writeAll writes (setSegments value [key] target)).get
              key = (setSegments value [key] target).get key :=
            get_writeAll_other hrest hothers
          rw [get_setSegments, if_pos rfl] at hkept
          exact hkept

theorem get_writeAll_nested (hpaths : ∀ write ∈ writes, write.1 ≠ [])
    (hnested : ∀ tail ∈ tailsAt key writes, tail.1 ≠ [])
    (hsome : tailsAt key writes ≠ []) :
    (writeAll writes target).get key =
      some (.obj (writeAll (tailsAt key writes) (objectBelow target key))) := by
  induction writes generalizing target with
  | nil => exact absurd rfl hsome
  | cons write writes ih =>
      have hpath : write.1 ≠ [] := hpaths write List.mem_cons_self
      have hrest : ∀ other ∈ writes, other.1 ≠ [] := fun other hother =>
        hpaths other (List.mem_cons_of_mem write hother)
      cases htail : tailAt key write with
      | none =>
          rw [tailsAt, List.filterMap_cons_none htail] at hnested hsome ⊢
          have hbelow : objectBelow (setSegments write.2 write.1 target) key =
              objectBelow target key := by
            rw [objectBelow, get_of_tailAt_none hpath htail, objectBelow]
          rw [← hbelow]
          exact ih hrest hnested hsome
      | some tail =>
          rw [tailsAt, List.filterMap_cons_some htail] at hnested ⊢
          obtain rfl := tailAt_eq_some htail
          obtain ⟨next, rest, hnext⟩ := List.exists_cons_of_ne_nil
            (hnested tail List.mem_cons_self)
          have hget : (setSegments tail.2 (key :: tail.1) target).get key =
              some (.obj (setSegments tail.2 tail.1
                (objectBelow target key))) := by
            rw [get_setSegments, if_pos rfl, hnext]
            rfl
          by_cases hothers : tailsAt key writes = []
          · rw [show List.filterMap (tailAt key) writes = [] from hothers]
            exact (get_writeAll_other hrest hothers).trans hget
          · have hbelow : objectBelow
                (setSegments tail.2 (key :: tail.1) target) key =
                setSegments tail.2 tail.1 (objectBelow target key) := by
              rw [objectBelow, hget]
            have hlower : ∀ other ∈ tailsAt key writes, other.1 ≠ [] :=
              fun other hother =>
                hnested other (List.mem_cons_of_mem tail hother)
            have hkept := @ih (setSegments tail.2 (key :: tail.1) target)
              hrest hlower hothers
            rw [hbelow] at hkept
            exact hkept

theorem leftBelow_of_nested (hnested : ∀ tail ∈ writes, tail.1 ≠ []) :
    leftBelow writes = .obj (writeAll writes []) := by
  simp only [leftBelow]
  split
  · rename_i value
    exact absurd rfl (hnested _ (List.mem_singleton_self _))
  · rfl

theorem get_writeAll (hpaths : ∀ write ∈ writes, write.1 ≠ [])
    (hapart : writes.Pairwise fun first second => Apart first.1 second.1)
    (hsome : tailsAt key writes ≠ []) :
    (writeAll writes []).get key = some (leftBelow (tailsAt key writes)) := by
  by_cases hleaf : ∃ value, ([], value) ∈ tailsAt key writes
  · obtain ⟨value, hvalue⟩ := hleaf
    have hsingle : tailsAt key writes = [([], value)] :=
      tails_singleton (pairwise_tailsAt hapart) hvalue
    rw [get_writeAll_leaf hpaths hsingle, hsingle]
    rfl
  · have hnested : ∀ tail ∈ tailsAt key writes, tail.1 ≠ [] :=
      fun tail hmem hnil => hleaf ⟨tail.2, hnil ▸ hmem⟩
    rw [get_writeAll_nested hpaths hnested hsome, leftBelow_of_nested hnested]
    rfl

theorem mem_keys_writeAll (hpaths : ∀ write ∈ writes, write.1 ≠ [])
    (hapart : writes.Pairwise fun first second => Apart first.1 second.1) :
    key ∈ (writeAll writes []).map Prod.fst ↔ tailsAt key writes ≠ [] := by
  rw [← Record.get_isSome_iff]
  by_cases htails : tailsAt key writes = []
  · rw [get_writeAll_other hpaths htails]
    simp [htails, Record.get]
  · rw [get_writeAll hpaths hapart htails]
    simp [htails]

theorem writeAll_perm_of_depth (depth : Nat)
    (hdepth : ∀ write ∈ writes, write.1.length ≤ depth)
    (hpaths : ∀ write ∈ writes, write.1 ≠ [])
    (hapart : writes.Pairwise fun first second => Apart first.1 second.1)
    (hperm : writes.Perm writes') :
    Json.Reordered (.obj (writeAll writes [])) (.obj (writeAll writes' [])) := by
  induction depth generalizing writes writes' with
  | zero =>
      have hnone : writes = [] := by
        refine List.eq_nil_iff_forall_not_mem.mpr fun write hmem => ?_
        exact hpaths write hmem (List.eq_nil_of_length_eq_zero
          (Nat.le_zero.mp (hdepth write hmem)))
      subst hnone
      rw [List.nil_perm.mp hperm]
      exact .refl _
  | succ depth ih =>
      have hpaths' : ∀ write ∈ writes', write.1 ≠ [] := fun write hmem =>
        hpaths write (hperm.mem_iff.mpr hmem)
      have hapart' : writes'.Pairwise fun first second =>
          Apart first.1 second.1 :=
        (hperm.pairwise_iff fun h => h.symm).mp hapart
      have htails : ∀ key, (tailsAt key writes).Perm (tailsAt key writes') :=
        fun key => hperm.filterMap (tailAt key)
      have hnodup : ((writeAll writes []).map Prod.fst).Nodup :=
        nodup_writeAll List.nodup_nil
      have hnodup' : ((writeAll writes' []).map Prod.fst).Nodup :=
        nodup_writeAll List.nodup_nil
      refine .obj ((List.perm_ext_iff_of_nodup hnodup hnodup').mpr
        fun key => ?_) fun key value value' hvalue hvalue' => ?_
      · rw [mem_keys_writeAll hpaths hapart, mem_keys_writeAll hpaths' hapart']
        exact not_congr ⟨fun h => List.nil_perm.mp (h ▸ htails key),
          fun h => List.perm_nil.mp (h ▸ htails key)⟩
      · have hkey : tailsAt key writes ≠ [] :=
          (mem_keys_writeAll hpaths hapart).mp
            (List.mem_map.mpr ⟨_, hvalue, rfl⟩)
        have hkey' : tailsAt key writes' ≠ [] :=
          (mem_keys_writeAll hpaths' hapart').mp
            (List.mem_map.mpr ⟨_, hvalue', rfl⟩)
        have hget := Record.get_of_mem hnodup hvalue
        rw [get_writeAll hpaths hapart hkey] at hget
        have hget' := Record.get_of_mem hnodup' hvalue'
        rw [get_writeAll hpaths' hapart' hkey'] at hget'
        obtain rfl := Option.some.inj hget
        obtain rfl := Option.some.inj hget'
        by_cases hleaf : ∃ value, ([], value) ∈ tailsAt key writes
        · obtain ⟨value, hmem⟩ := hleaf
          have hsingle : tailsAt key writes = [([], value)] :=
            tails_singleton (pairwise_tailsAt hapart) hmem
          have hsingle' : tailsAt key writes' = [([], value)] :=
            (List.singleton_perm.mp (hsingle ▸ htails key)).symm
          rw [hsingle, hsingle']
          exact .refl _
        · have hnested : ∀ tail ∈ tailsAt key writes, tail.1 ≠ [] :=
            fun tail hmem hnil => hleaf ⟨tail.2, hnil ▸ hmem⟩
          have hnested' : ∀ tail ∈ tailsAt key writes', tail.1 ≠ [] :=
            fun tail hmem => hnested tail ((htails key).mem_iff.mpr hmem)
          rw [leftBelow_of_nested hnested, leftBelow_of_nested hnested']
          refine ih (fun tail hmem => ?_) hnested (pairwise_tailsAt hapart)
            (htails key)
          obtain ⟨write, hwrite, htail⟩ := List.mem_filterMap.mp hmem
          have hlength := hdepth write hwrite
          rw [tailAt_eq_some htail] at hlength
          exact Nat.le_of_succ_le_succ hlength

/-- Writes at paths that lie apart commute up to the order of the keys. -/
theorem writeAll_perm (hpaths : ∀ write ∈ writes, write.1 ≠ [])
    (hapart : writes.Pairwise fun first second => Apart first.1 second.1)
    (hperm : writes.Perm writes') :
    Json.Reordered (.obj (writeAll writes []))
      (.obj (writeAll writes' [])) := by
  refine writeAll_perm_of_depth
    ((writes.map fun write => write.1.length).max?.getD 0)
    (fun write hmem => ?_) hpaths hapart hperm
  exact List.le_max?_getD_of_mem (List.mem_map.mpr ⟨write, hmem, rfl⟩)

end ManyPaths

end Paths

end SyncBridge
