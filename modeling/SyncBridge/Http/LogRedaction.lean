import SyncBridge.Access.ConfigPolicy
import SyncBridge.Services.StructuredLogger

/-!
# Secret keys in the log

The logger redacts the keys of its own list, in any casing, and the connector
policy forbids every key that contains a marker.  A line depends on what is
stored under a forbidden key exactly where the sanitizer comes to that key and
its list does not have it.
-/

namespace SyncBridge

namespace LogValue

variable {key : String} {x y value : LogValue}

mutual

def fill (key : String) (x : LogValue) : LogValue → LogValue
  | .arr items => .arr (fillItems key x items)
  | .obj fields => .obj (fillFields key x fields)
  | .error message fields => .error message (fillFields key x fields)
  | value => value

def fillItems (key : String) (x : LogValue) : List LogValue → List LogValue
  | [] => []
  | item :: items => fill key x item :: fillItems key x items

def fillFields (key : String) (x : LogValue) : LogFields → LogFields
  | [] => []
  | (name, value) :: fields =>
      (name, if name = key then x else fill key x value) ::
        fillFields key x fields

end

def fillEntry (key : String) (x : LogValue) (entry : String × LogValue) :
    String × LogValue :=
  (entry.1, if entry.1 = key then x else fill key x entry.2)

@[simp] theorem fillItems_eq (items : List LogValue) :
    fillItems key x items = items.map (fill key x) := by
  induction items with
  | nil => rfl
  | cons item items ih => rw [fillItems, ih, List.map_cons]

@[simp] theorem fillFields_eq (fields : LogFields) :
    fillFields key x fields = fields.map (fillEntry key x) := by
  induction fields with
  | nil => rfl
  | cons entry fields ih => rw [fillFields, ih, List.map_cons, fillEntry]

@[simp] theorem fillEntry_fst (entry : String × LogValue) :
    (fillEntry key x entry).1 = entry.1 := rfl

@[simp] theorem fillEntry_here : fillEntry key x (key, value) = (key, x) := by
  simp [fillEntry]

@[simp] theorem fillEntry_below {name : String} (h : name ≠ key) :
    fillEntry key x (name, value) = (name, fill key x value) := by
  simp [fillEntry, h]

mutual

theorem fill_fill : (value : LogValue) →
    fill key y (fill key x value) = fill key y value
  | .undefined | .null | .bool _ | .num _ | .str _ => by simp only [fill]
  | .arr items => by rw [fill, fill, fill, fillItems_fillItems items]
  | .obj fields => by rw [fill, fill, fill, fillFields_fillFields fields]
  | .error message fields => by
      rw [fill, fill, fill, fillFields_fillFields fields]

theorem fillItems_fillItems : (items : List LogValue) →
    fillItems key y (fillItems key x items) = fillItems key y items
  | [] => rfl
  | item :: items => by
      rw [fillItems, fillItems, fillItems, fill_fill item,
        fillItems_fillItems items]

theorem fillFields_fillFields : (fields : LogFields) →
    fillFields key y (fillFields key x fields) = fillFields key y fields
  | [] => rfl
  | (name, value) :: fields => by
      rw [fillFields, fillFields, fillFields, fillFields_fillFields fields]
      by_cases h : name = key
      · rw [if_pos h, if_pos h]
      · rw [if_neg h, if_neg h, if_neg h, fill_fill value]

end

@[simp] theorem isObject_fill : (fill key x value).isObject = value.isObject := by
  cases value <;> rfl

@[simp] theorem isUndefined_fill :
    (fill key x value).isUndefined = value.isUndefined := by
  cases value <;> rfl

theorem fill_of_not_isObject (h : value.isObject = false) :
    fill key x value = value := by
  cases value <;> first | rfl | cases h

theorem entries_fill (hindex : ∀ index : Nat, toString index ≠ key) :
    (fill key x value).entries = value.entries.map (fillEntry key x) := by
  cases value with
  | arr items =>
      simp only [fill, entries, fillItems_eq, List.zipIdx_map, List.map_map]
      refine List.map_congr_left fun item _ => ?_
      exact (fillEntry_below (hindex item.2)).symm
  | obj fields => simp only [fill, entries, fillFields_eq]
  | error message fields => simp only [fill, entries, fillFields_eq]
  | undefined | null | bool _ | num _ | str _ => rfl

/-! ## JSON -/

@[simp] theorem itemsToJson_eq (items : List LogValue) :
    itemsToJson items = items.map fun item => item.toJson.getD .null := by
  induction items with
  | nil => rfl
  | cons item items ih => rw [itemsToJson, ih, List.map_cons]

@[simp] theorem fieldsToJson_eq (fields : LogFields) :
    fieldsToJson fields = fields.filterMap fun entry =>
      entry.2.toJson.map fun json => (entry.1, json) := by
  induction fields with
  | nil => rfl
  | cons entry fields ih =>
      obtain ⟨name, value⟩ := entry
      rw [fieldsToJson]
      cases h : value.toJson with
      | none => simp [h, ih]
      | some json => simp [h, ih]

theorem isSome_toJson : value.toJson.isSome = !value.isUndefined := by
  cases value <;> rfl

end LogValue

open LogValue

/-! ## What is shown -/

namespace StructuredLoggerService

def isKept (key : String) : Bool := !isSensitive key && key != "__proto__"

def objectsBelow : LogValue → List LogFields
  | .arr items => ((items.take 20).filter isObject).map entries
  | .obj fields => [fields]
  | _ => []

/-- The sanitizer, with so many levels left, comes to the key and keeps it. -/
def Shown (key : String) : Nat → LogFields → Prop
  | 0, _ => False
  | levels + 1, fields => ∃ entry ∈ fields, isKept entry.1 = true ∧
      (entry.1 = key ∨
        ∃ inner ∈ objectsBelow entry.2, Shown key levels inner)

structure Plain (key : String) : Prop where
  index : ∀ index : Nat, toString index ≠ key
  requestId : requestIdHeader ≠ key

section Sanitizing

variable {below below' : LogFields → LogFields} {key name : String}
variable {x value : LogValue} {levels : Nat}

theorem sanitizeEntry_sensitive (h : isSensitive name = true) :
    sanitizeEntry below (name, value) = some (name, .str "REDACTED") := by
  rw [sanitizeEntry, if_pos h]

theorem sanitizeEntry_kept (h : isKept name = true) :
    sanitizeEntry below (name, value) =
      some (name, sanitizeValue below value) := by
  simp only [isKept, Bool.and_eq_true, Bool.not_eq_true', bne_iff_ne] at h
  rw [sanitizeEntry, if_neg (by simp [h.1]), if_neg h.2]

theorem sanitizeEntry_congr (h : isKept name = false) {value value' : LogValue} :
    sanitizeEntry below (name, value) = sanitizeEntry below' (name, value') := by
  simp only [isKept, Bool.and_eq_false_iff, Bool.not_eq_false', bne_eq_false_iff_eq]
    at h
  by_cases hsensitive : isSensitive name = true
  · rw [sanitizeEntry_sensitive hsensitive, sanitizeEntry_sensitive hsensitive]
  · have hproto := h.resolve_left hsensitive
    rw [sanitizeEntry, sanitizeEntry, if_neg hsensitive, if_neg hsensitive,
      if_pos hproto, if_pos hproto]

theorem sanitizeValue_fill (hindex : ∀ index : Nat, toString index ≠ key)
    (h : ∀ inner ∈ objectsBelow value,
      below (inner.map (fillEntry key x)) = below inner) :
    sanitizeValue below (fill key x value) = sanitizeValue below value := by
  cases value with
  | arr items =>
      simp only [fill, sanitizeValue, fillItems_eq, ← List.map_take,
        List.map_map, LogValue.arr.injEq]
      refine List.map_congr_left fun item hitem => ?_
      simp only [Function.comp_apply, isObject_fill]
      split
      · rename_i hobject
        rw [entries_fill hindex, h item.entries]
        exact List.mem_map_of_mem (List.mem_filter.mpr ⟨hitem, hobject⟩)
      · rename_i hobject
        exact fill_of_not_isObject (Bool.not_eq_true _ ▸ hobject)
  | obj fields =>
      rw [fill, fillFields_eq, sanitizeValue, sanitizeValue,
        h fields (List.mem_singleton_self fields)]
  | error message fields => rfl
  | undefined | null | bool _ | num _ | str _ => rfl

/-- What is stored under a key that is not shown makes no difference. -/
theorem sanitizeWithin_fill (hindex : ∀ index : Nat, toString index ≠ key)
    {fields : LogFields} (h : ¬ Shown key levels fields) :
    sanitizeWithin levels (fields.map (fillEntry key x)) =
      sanitizeWithin levels fields := by
  induction levels generalizing fields with
  | zero => rfl
  | succ levels ih =>
      rw [sanitizeWithin, sanitizeWithin, List.filterMap_map]
      refine List.filterMap_congr fun entry hentry => ?_
      obtain ⟨name, value⟩ := entry
      by_cases hkept : isKept name = true
      · have hname : name ≠ key := fun heq =>
          h ⟨_, hentry, hkept, .inl heq⟩
        have hbelow : ∀ inner ∈ objectsBelow value,
            sanitizeWithin levels (inner.map (fillEntry key x)) =
              sanitizeWithin levels inner := fun inner hinner =>
          ih fun hshown => h ⟨_, hentry, hkept, .inr ⟨inner, hinner, hshown⟩⟩
        rw [Function.comp_apply, fillEntry_below hname,
          sanitizeEntry_kept hkept, sanitizeEntry_kept hkept,
          sanitizeValue_fill hindex hbelow]
      · exact sanitizeEntry_congr (Bool.not_eq_true _ ▸ hkept)

end Sanitizing

/-! ## The lines of two fillings -/

theorem eq_of_filterMap_eq {α β : Type} {f g : α → Option β} {items : List α}
    (hsome : ∀ item ∈ items, (f item).isSome = (g item).isSome)
    (h : items.filterMap f = items.filterMap g) :
    ∀ item ∈ items, f item = g item := by
  induction items with
  | nil => simp
  | cons first items ih =>
      have hfirst := hsome first List.mem_cons_self
      have hrest := fun item hitem => hsome item (List.mem_cons_of_mem first hitem)
      simp only [List.forall_mem_cons]
      cases hf : f first with
      | none =>
          have hg : g first = none := by simpa [hf] using hfirst.symm
          simp only [List.filterMap_cons, hf, hg] at h
          exact ⟨hg.symm, ih hrest h⟩
      | some left =>
          obtain ⟨right, hg⟩ : ∃ right, g first = some right :=
            Option.isSome_iff_exists.mp (by rw [← hfirst, hf]; rfl)
          simp only [List.filterMap_cons, hf, hg, List.cons.injEq] at h
          exact ⟨by rw [hg, h.1], ih hrest h.2⟩

section Lines

variable {below : LogFields → LogFields} {key name left right : String}
variable {x y value : LogValue} {levels : Nat}

@[simp] theorem isUndefined_sanitizeValue :
    (sanitizeValue below value).isUndefined = value.isUndefined := by
  cases value <;> rfl

def lineEntry (below : LogFields → LogFields) (entry : String × LogValue) :
    Option (String × Json) :=
  (sanitizeEntry below entry).bind fun sanitized =>
    sanitized.2.toJson.map fun json => (sanitized.1, json)

theorem fieldsToJson_sanitizeWithin (fields : LogFields) :
    fieldsToJson (sanitizeWithin (levels + 1) fields) =
      fields.filterMap (lineEntry (sanitizeWithin levels)) := by
  rw [fieldsToJson_eq, sanitizeWithin, List.filterMap_filterMap]
  rfl

theorem lineEntry_kept (h : isKept name = true) :
    lineEntry below (name, value) =
      (sanitizeValue below value).toJson.map fun json => (name, json) := by
  rw [lineEntry, sanitizeEntry_kept h, Option.bind_some]

theorem isSome_lineEntry_fill {entry : String × LogValue}
    (h : x.isUndefined = y.isUndefined) :
    (lineEntry below (fillEntry key x entry)).isSome =
      (lineEntry below (fillEntry key y entry)).isSome := by
  obtain ⟨name, value⟩ := entry
  by_cases hkept : isKept name = true
  · by_cases hname : name = key
    · subst hname
      simp [lineEntry_kept hkept, isSome_toJson, h]
    · simp [fillEntry_below hname, lineEntry_kept hkept, isSome_toJson]
  · simp only [lineEntry, fillEntry]
    rw [sanitizeEntry_congr (Bool.not_eq_true _ ▸ hkept)]

theorem toJson_sanitizeValue_ne (hindex : ∀ index : Nat, toString index ≠ key)
    {inner : LogFields} (hinner : inner ∈ objectsBelow value)
    (h : fieldsToJson (below (inner.map (fillEntry key x))) ≠
      fieldsToJson (below (inner.map (fillEntry key y)))) :
    (sanitizeValue below (fill key x value)).toJson ≠
      (sanitizeValue below (fill key y value)).toJson := by
  intro heq
  cases value with
  | arr items =>
      obtain ⟨item, hitem, rfl⟩ := List.mem_map.mp hinner
      obtain ⟨htake, hobject⟩ := List.mem_filter.mp hitem
      simp only [fill, sanitizeValue, fillItems_eq, toJson, itemsToJson_eq,
        ← List.map_take, List.map_map, Option.some.injEq, Json.arr.injEq] at heq
      have hitems := List.map_inj_left.mp heq item htake
      simp only [Function.comp_apply, isObject_fill, hobject, if_true, toJson,
        Option.getD_some, Json.obj.injEq, entries_fill hindex] at hitems
      exact h hitems
  | obj fields =>
      obtain rfl := List.mem_singleton.mp hinner
      simp only [fill, fillFields_eq, sanitizeValue, toJson, Option.some.injEq,
        Json.obj.injEq] at heq
      exact h heq
  | undefined | null | bool _ | num _ | str _ | error _ _ => cases hinner

theorem lineEntry_ne (hplain : Plain key) (hne : left ≠ right)
    (ih : ∀ fields, Shown key levels fields →
      fieldsToJson (sanitizeWithin levels
          (fields.map (fillEntry key (.str left)))) ≠
        fieldsToJson (sanitizeWithin levels
          (fields.map (fillEntry key (.str right)))))
    (hkept : isKept name = true)
    (hshown : name = key ∨
      ∃ inner ∈ objectsBelow value, Shown key levels inner) :
    lineEntry (sanitizeWithin levels)
        (fillEntry key (.str left) (name, value)) ≠
      lineEntry (sanitizeWithin levels)
        (fillEntry key (.str right) (name, value)) := by
  by_cases hname : name = key
  · subst hname
    simpa [lineEntry_kept hkept, sanitizeValue, toJson] using hne
  · obtain ⟨inner, hinner, hbelow⟩ := hshown.resolve_left hname
    rw [fillEntry_below hname, fillEntry_below hname, lineEntry_kept hkept,
      lineEntry_kept hkept]
    intro heq
    refine toJson_sanitizeValue_ne hplain.index hinner (ih inner hbelow) ?_
    exact Option.map_injective (fun _ _ h => (Prod.mk.inj h).2) heq

theorem fieldsToJson_sanitizeWithin_ne (hplain : Plain key)
    (hne : left ≠ right) {fields : LogFields} (h : Shown key levels fields) :
    fieldsToJson (sanitizeWithin levels
        (fields.map (fillEntry key (.str left)))) ≠
      fieldsToJson (sanitizeWithin levels
        (fields.map (fillEntry key (.str right)))) := by
  induction levels generalizing fields with
  | zero => exact h.elim
  | succ levels ih =>
      obtain ⟨⟨name, value⟩, hentry, hkept, hshown⟩ := h
      rw [fieldsToJson_sanitizeWithin, fieldsToJson_sanitizeWithin,
        List.filterMap_map, List.filterMap_map]
      intro heq
      refine lineEntry_ne hplain hne (fun fields => ih) hkept hshown ?_
      refine eq_of_filterMap_eq (fun entry _ => ?_) heq (name, value) hentry
      exact isSome_lineEntry_fill rfl

end Lines

/-! ## The payload -/

section Payload

variable {below : LogFields → LogFields} {key name : String}
variable {value : LogValue} {fields target source : LogFields}
variable {entry sanitized : String × LogValue} {json : Json}

theorem mem_assign : entry ∈ assign key value fields ↔
    entry = (key, value) ∨ entry.1 ≠ key ∧ entry ∈ fields := by
  simp only [assign, List.any_eq_true, beq_iff_eq]
  split
  · rename_i hhas
    obtain ⟨old, hold, hkey⟩ := hhas
    rw [List.mem_map]
    constructor
    · rintro ⟨other, hother, rfl⟩
      split
      · exact .inl rfl
      · rename_i hne
        exact .inr ⟨hne, hother⟩
    · rintro (rfl | ⟨hne, hmem⟩)
      · exact ⟨old, hold, if_pos hkey⟩
      · exact ⟨entry, hmem, if_neg hne⟩
  · rename_i hnone
    rw [List.mem_append, List.mem_singleton, or_comm]
    refine or_congr_right ⟨fun hmem => ⟨fun hkey => ?_, hmem⟩, And.right⟩
    exact hnone ⟨entry, hmem, hkey⟩

theorem mem_spread (hnodup : (source.map Prod.fst).Nodup) :
    entry ∈ spread target source ↔ entry ∈ source ∨
      entry.1 ∉ source.map Prod.fst ∧ entry ∈ target := by
  induction source generalizing target with
  | nil => simp [spread]
  | cons first source ih =>
      rw [List.map_cons, List.nodup_cons] at hnodup
      have hrest := @ih (assign first.1 first.2 target) hnodup.2
      rw [spread, List.foldl_cons, ← spread, hrest, mem_assign, List.mem_cons,
        List.map_cons, List.mem_cons, not_or]
      constructor
      · rintro (hmem | ⟨hnot, heq | ⟨hne, hmem⟩⟩)
        · exact .inl (.inr hmem)
        · exact .inl (.inl heq)
        · exact .inr ⟨⟨hne, hnot⟩, hmem⟩
      · rintro ((rfl | hmem) | ⟨⟨hne, hnot⟩, hmem⟩)
        · exact .inr ⟨hnodup.1, .inl rfl⟩
        · exact .inl hmem
        · exact .inr ⟨hnot, .inr ⟨hne, hmem⟩⟩

theorem key_sanitizeEntry (h : sanitizeEntry below entry = some sanitized) :
    sanitized.1 = entry.1 := by
  simp only [sanitizeEntry] at h
  split_ifs at h <;> cases h <;> rfl

theorem keys_sanitizeWithin (levels : Nat) (fields : LogFields) :
    ((sanitizeWithin levels fields).map Prod.fst).Sublist
      (fields.map Prod.fst) := by
  cases levels with
  | zero => exact List.nil_sublist _
  | succ levels =>
      rw [sanitizeWithin]
      induction fields with
      | nil => exact List.Sublist.slnil
      | cons first fields ih =>
          cases h : sanitizeEntry (sanitizeWithin levels) first with
          | none =>
              rw [List.filterMap_cons_none h]
              exact ih.cons first.1
          | some sanitized =>
              rw [List.filterMap_cons_some h, List.map_cons, List.map_cons,
                key_sanitizeEntry h]
              exact ih.cons_cons first.1

theorem mem_compact_json :
    (name, json) ∈ fieldsToJson (compact fields) ↔
      ∃ value, (name, value) ∈ fields ∧ value.toJson = some json := by
  simp only [fieldsToJson_eq, compact, List.mem_filterMap, List.mem_filter,
    Option.map_eq_some_iff, Prod.mk.injEq]
  constructor
  · rintro ⟨⟨_, value⟩, ⟨hmem, -⟩, _, hjson, rfl, rfl⟩
    exact ⟨value, hmem, hjson⟩
  · rintro ⟨value, hmem, hjson⟩
    refine ⟨(name, value), ⟨hmem, ?_⟩, json, hjson, rfl, rfl⟩
    rw [← isSome_toJson, hjson]
    rfl

variable {context : Option RequestContext} {timestamp event : String}
variable {level : LogLevel}

theorem mem_line (hnodup : (fields.map Prod.fst).Nodup)
    (hentry : (name, value) ∈ fields) (hkept : isKept name = true) :
    (name, json) ∈
        fieldsToJson (payload context timestamp level event fields) ↔
      lineEntry (sanitizeWithin 4) (name, value) = some (name, json) := by
  have hsource := (keys_sanitizeWithin 5 fields).nodup hnodup
  have hvalue : ∀ sanitized, (name, sanitized) ∈ sanitizeWithin 5 fields ↔
      sanitized = sanitizeValue (sanitizeWithin 4) value := by
    intro sanitized
    rw [sanitizeWithin, List.mem_filterMap]
    constructor
    · rintro ⟨other, hother, hsanitized⟩
      have hsame := List.inj_on_of_nodup_map hnodup hother hentry
        (key_sanitizeEntry hsanitized).symm
      rw [hsame, sanitizeEntry_kept hkept] at hsanitized
      exact (Prod.mk.inj (Option.some.inj hsanitized)).2.symm
    · rintro rfl
      exact ⟨_, hentry, sanitizeEntry_kept hkept⟩
  have hkey : name ∈ (sanitizeWithin 5 fields).map Prod.fst :=
    List.mem_map_of_mem ((hvalue _).mpr rfl)
  rw [payload, mem_compact_json, lineEntry_kept hkept]
  simp only [sanitizeObject, Nat.sub_zero, mem_spread hsource, hkey,
    not_true_eq_false, false_and, or_false, hvalue, exists_eq_left,
    Option.map_eq_some_iff, Prod.mk.injEq, true_and, exists_eq_right]

theorem mem_line_fill {x : LogValue} (hnodup : (fields.map Prod.fst).Nodup)
    (hentry : (name, value) ∈ fields) (hkept : isKept name = true) :
    (name, json) ∈ fieldsToJson (payload context timestamp level event
        (fields.map (fillEntry key x))) ↔
      lineEntry (sanitizeWithin 4) (fillEntry key x (name, value)) =
        some (name, json) := by
  refine mem_line ?_ (List.mem_map_of_mem hentry) hkept
  rwa [List.map_map]

theorem key_lineEntry {line : String × Json}
    (h : lineEntry below entry = some line) : line.1 = entry.1 := by
  obtain ⟨sanitized, hsanitized, hline⟩ := Option.bind_eq_some_iff.mp h
  obtain ⟨json, -, rfl⟩ := Option.map_eq_some_iff.mp hline
  exact key_sanitizeEntry hsanitized

theorem payload_ne (hplain : Plain key) (hnodup : (fields.map Prod.fst).Nodup)
    (hshown : Shown key 5 fields) {left right : String} (hne : left ≠ right) :
    fieldsToJson (payload context timestamp level event
        (fields.map (fillEntry key (.str left)))) ≠
      fieldsToJson (payload context timestamp level event
        (fields.map (fillEntry key (.str right)))) := by
  intro heq
  obtain ⟨⟨name, value⟩, hentry, hkept, hbelow⟩ := hshown
  have hdiffer := lineEntry_ne hplain hne
    (fun fields => fieldsToJson_sanitizeWithin_ne hplain hne) hkept hbelow
  have hsome := @isSome_lineEntry_fill (sanitizeWithin 4) key (.str left)
    (.str right) (name, value) rfl
  cases hleft : lineEntry (sanitizeWithin 4)
      (fillEntry key (.str left) (name, value)) with
  | none =>
      rw [hleft, eq_comm, Option.isSome_none, Option.isSome_eq_false_iff,
        Option.isNone_iff_eq_none] at hsome
      exact hdiffer (hleft.trans hsome.symm)
  | some line =>
      obtain ⟨shown, json⟩ := line
      obtain rfl : shown = name := key_lineEntry hleft
      have hline : (shown, json) ∈ fieldsToJson (payload context timestamp
          level event (fields.map (fillEntry key (.str left)))) :=
        (mem_line_fill hnodup hentry hkept).mpr hleft
      rw [heq, mem_line_fill hnodup hentry hkept] at hline
      exact hdiffer (hleft.trans hline.symm)

/-! ## What is not shown -/

theorem lookup_fill {x : LogValue} (hname : name ≠ key) :
    (fields.map (fillEntry key x)).lookup name =
      (fields.lookup name).map (fill key x) := by
  induction fields with
  | nil => rfl
  | cons first fields ih =>
      obtain ⟨other, value⟩ := first
      by_cases hother : name = other
      · subst hother
        simp [hname]
      · simp [fillEntry, List.lookup_cons, beq_eq_false_iff_ne.mpr hother, ih]

theorem requestIdOf_fill {x : LogValue} (hkey : requestIdHeader ≠ key) :
    requestIdOf context (fields.map (fillEntry key x)) =
      requestIdOf context fields := by
  cases context with
  | some context => rfl
  | none =>
      simp only [requestIdOf, lookup_fill hkey]
      rcases fields.lookup requestIdHeader with _ | value
      · rfl
      · cases value <;> rfl

theorem payload_fill {x : LogValue} (hplain : Plain key)
    (hshown : ¬ Shown key 5 fields) :
    payload context timestamp level event (fields.map (fillEntry key x)) =
      payload context timestamp level event fields := by
  rw [payload, payload, requestIdOf_fill hplain.requestId, sanitizeObject,
    sanitizeObject, sanitizeWithin_fill hplain.index hshown]

end Payload

/-! ## Two runs -/

def SameBut (key : String) (metadata metadata' : Metadata) : Prop :=
  fillFields key .undefined metadata.fields =
    fillFields key .undefined metadata'.fields

def storing (key : String) (x : LogValue) (metadata : Metadata) : Metadata where
  fields := fillFields key x metadata.fields
  nodup := by
    rw [fillFields_eq, List.map_map]
    exact metadata.nodup

section Runs

variable {key : String} {x : LogValue} {metadata metadata' : Metadata}

theorem sameBut_storing : SameBut key metadata (storing key x metadata) :=
  (fillFields_fillFields _).symm

theorem SameBut.storing_eq (h : SameBut key metadata metadata') :
    storing key x metadata = storing key x metadata' := by
  simp only [storing, Metadata.mk.injEq]
  rw [← @fillFields_fillFields key .undefined x metadata.fields, h,
    fillFields_fillFields]

theorem SameBut.not_shown (hplain : Plain key)
    (h : SameBut key metadata metadata')
    (hshown : ¬ Shown key 5 metadata.fields) :
    ¬ Shown key 5 metadata'.fields := by
  intro hshown'
  have hsame : ∀ x, metadata'.fields.map (fillEntry key x) =
      metadata.fields.map (fillEntry key x) := fun x => by
    rw [← fillFields_eq, ← fillFields_eq]
    exact congrArg Metadata.fields h.storing_eq.symm
  have htexts : ("" : String) ≠ "REDACTED" := by decide
  refine fieldsToJson_sanitizeWithin_ne hplain htexts hshown' ?_
  rw [hsame, hsame, sanitizeWithin_fill hplain.index hshown,
    sanitizeWithin_fill hplain.index hshown]

section Lines

variable {isTestEnv : Bool} {context : Option RequestContext}
variable {timestamp event : String} {level : LogLevel}

theorem write_storing (hplain : Plain key)
    (h : isTestEnv = true ∨ ¬ Shown key 5 metadata.fields) :
    write isTestEnv context timestamp level event (storing key x metadata) =
      write isTestEnv context timestamp level event metadata := by
  rcases h with rfl | hshown
  · rfl
  · simp only [write, storing, fillFields_eq, payload_fill hplain hshown]

theorem write_storing_ne (hplain : Plain key)
    (h : Shown key 5 metadata.fields) {left right : String}
    (hne : left ≠ right) :
    write false context timestamp level event
        (storing key (.str left) metadata) ≠
      write false context timestamp level event
        (storing key (.str right) metadata) := by
  intro heq
  simp only [write, storing, fillFields_eq, Bool.false_eq_true, if_false,
    Option.some.injEq, Prod.mk.injEq, true_and] at heq
  exact payload_ne hplain metadata.nodup h hne heq

/-- The line is the same whatever is stored under the key exactly where the key
is not shown. -/
theorem write_independent_iff (hplain : Plain key) :
    (∀ metadata', SameBut key metadata metadata' →
      write isTestEnv context timestamp level event metadata' =
        write isTestEnv context timestamp level event metadata) ↔
      isTestEnv = true ∨ ¬ Shown key 5 metadata.fields := by
  constructor
  · intro h
    by_contra hnot
    rw [not_or, not_not, Bool.not_eq_true] at hnot
    obtain ⟨rfl, hshown⟩ := hnot
    have htexts : ("" : String) ≠ "REDACTED" := by decide
    exact write_storing_ne hplain hshown htexts
      ((h _ sameBut_storing).trans (h _ sameBut_storing).symm)
  · intro h metadata' hsame
    have h' := h.imp_right (hsame.not_shown hplain)
    rw [← write_storing (x := .undefined) hplain h, hsame.storing_eq,
      write_storing hplain h']

end Lines

end Runs

/-! ## The two policies -/

theorem lower_of_isDigit {char : Char} (h : char.isDigit = true) :
    lowerChar char = char ∧ lowerKeyChar char = char := by
  revert char
  exact @forall_isDigit
    (fun char => lowerChar char = char ∧ lowerKeyChar char = char) (by decide)

theorem isDigit_of_mem_index {index : Nat} {char : Char}
    (h : char ∈ (toString index).toList) : char.isDigit = true := by
  refine @Nat.isDigit_of_mem_toDigits 10 index char (by decide) (by decide) ?_
  rwa [← Nat.toList_repr]

theorem isForbiddenKey_index (index : Nat) :
    isForbiddenKey (toString index) = false := by
  by_contra hforbidden
  rw [Bool.not_eq_false, isForbiddenKey_iff] at hforbidden
  obtain ⟨marker, hmarker, hwithin⟩ := hforbidden
  have hletter : ∀ marker ∈ forbiddenConfigKeyMarkers,
      marker.toList.all Char.isDigit = false := by decide
  have hdigits : marker.toList.all Char.isDigit = true := by
    rw [List.all_eq_true]
    intro char hchar
    obtain ⟨digit, hmem, rfl⟩ := List.mem_map.mp
      (List.mem_of_mem_filter (hwithin.subset hchar))
    have hdigit := isDigit_of_mem_index hmem
    rwa [(lower_of_isDigit hdigit).2]
  rw [hletter marker hmarker] at hdigits
  cases hdigits

theorem isSensitive_index (index : Nat) :
    isSensitive (toString index) = false := by
  have hlower : toLowerCase (toString index) = toString index := by
    rw [toLowerCase, List.map_congr_left fun char hchar =>
      (lower_of_isDigit (isDigit_of_mem_index hchar)).1, List.map_id',
      String.ofList_toList]
  by_contra hsensitive
  rw [Bool.not_eq_false, isSensitive, hlower, List.contains_iff_mem] at hsensitive
  have hletter : ∀ key ∈ requestContextSensitiveKeys,
      key.toList.all Char.isDigit = false := by decide
  have hdigits := List.all_eq_true.mpr fun char hchar =>
    @isDigit_of_mem_index index char hchar
  rw [hletter _ hsensitive] at hdigits
  cases hdigits

/-! ### The keys of the logger -/

theorem plain_of_isSensitive {key : String} (h : isSensitive key = true) :
    Plain key where
  index index heq := by
    rw [← heq, isSensitive_index] at h
    cases h
  requestId heq := by
    rw [← heq] at h
    revert h
    decide

theorem not_shown_of_isSensitive {key : String} {levels : Nat}
    {fields : LogFields} (h : isSensitive key = true) :
    ¬ Shown key levels fields := by
  induction levels generalizing fields with
  | zero => exact id
  | succ levels ih =>
      rintro ⟨entry, -, hkept, heq | ⟨inner, -, hshown⟩⟩
      · rw [heq, isKept, h] at hkept
        cases hkept
      · exact ih hshown

/-- No line depends on what is stored under a key of the logger's list. -/
theorem write_independent_of_isSensitive {key : String}
    (h : isSensitive key = true) {metadata metadata' : Metadata}
    (hsame : SameBut key metadata metadata') (isTestEnv : Bool)
    (context : Option RequestContext) (timestamp : String) (level : LogLevel)
    (event : String) :
    write isTestEnv context timestamp level event metadata' =
      write isTestEnv context timestamp level event metadata :=
  (write_independent_iff (plain_of_isSensitive h)).mpr
    (.inr (not_shown_of_isSensitive h)) metadata' hsame

/-! ### The keys of the policy -/

def SecretKey (key : String) : Prop :=
  ∀ value, hasForbiddenConfigKeys (.obj [(key, value)]) = true

theorem secretKey_iff {key : String} :
    SecretKey key ↔ isForbiddenKey key = true := by
  constructor
  · intro h
    simpa [hasForbiddenConfigKeys, anyForbiddenField] using h .null
  · intro h value
    simp [hasForbiddenConfigKeys, anyForbiddenField, h]

theorem SecretKey.plain {key : String} (h : SecretKey key) : Plain key where
  index index heq := by
    rw [secretKey_iff, ← heq, isForbiddenKey_index] at h
    cases h
  requestId heq := by
    rw [secretKey_iff, ← heq] at h
    revert h
    decide

/-- Whatever is stored under a key of the policy, the line is the same. -/
def RedactsSecrets (isTestEnv : Bool) (context : Option RequestContext)
    (timestamp : String) (level : LogLevel) (event : String)
    (metadata : Metadata) : Prop :=
  ∀ key, SecretKey key → ∀ metadata', SameBut key metadata metadata' →
    write isTestEnv context timestamp level event metadata' =
      write isTestEnv context timestamp level event metadata

/-- The secrets are redacted exactly if no line is written or no key of the
policy is shown. -/
theorem redactsSecrets_iff (isTestEnv : Bool) (context : Option RequestContext)
    (timestamp : String) (level : LogLevel) (event : String)
    (metadata : Metadata) :
    RedactsSecrets isTestEnv context timestamp level event metadata ↔
      isTestEnv = true ∨
        ∀ key, SecretKey key → ¬ Shown key 5 metadata.fields := by
  rw [RedactsSecrets, ← forall_or_left]
  refine forall_congr' fun key => ⟨fun h => ?_, fun h hsecret => ?_⟩
  · by_cases hsecret : SecretKey key
    · exact ((write_independent_iff hsecret.plain).mp (h hsecret)).imp_right
        fun hshown _ => hshown
    · exact .inr fun hkey => absurd hkey hsecret
  · exact (write_independent_iff hsecret.plain).mpr
      (h.imp_right fun hshown => hshown hsecret)

def apiKeyMetadata (text : String) : Metadata where
  fields := [("api_key", .str text)]
  nodup := List.nodup_singleton _

/-- A key that is spelled with an underscore. -/
theorem redactsSecrets_fails :
    ¬ RedactsSecrets false none "2026-01-01T00:00:00.000Z" .info
      "request_completed" (apiKeyMetadata "first") := by
  intro h
  have hsecret : SecretKey "api_key" := secretKey_iff.mpr (by decide)
  have hline : ∀ text, write false none "2026-01-01T00:00:00.000Z" .info
      "request_completed" (apiKeyMetadata text) = some (.info,
        [("timestamp", .str "2026-01-01T00:00:00.000Z"),
          ("level", .str "info"), ("event", .str "request_completed"),
          ("api_key", .str text)]) := fun text => rfl
  have hlines := h "api_key" hsecret (apiKeyMetadata "second") rfl
  simp [hline] at hlines

end StructuredLoggerService

end SyncBridge
