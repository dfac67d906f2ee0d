import SyncBridge.Foundation.Pairing
import SyncBridge.Transformations.Engine

/-!
# What compiles

A mapping compiles when each of its entries does, whatever the others are and in
whatever order the keys of its objects come; the result is one field for each
entry.
-/

namespace SyncBridge

/-! ## Equality up to the order of keys -/

/-- The same value, apart from the order of the keys of its objects. -/
inductive Json.Reordered : Json → Json → Prop
  | refl (value : Json) : Reordered value value
  | arr {first second : List Json} (length : first.length = second.length)
      (items : ∀ (index : Nat) value value', first[index]? = some value →
        second[index]? = some value' → Reordered value value') :
      Reordered (.arr first) (.arr second)
  | obj {first second : Record}
      (keys : (first.map Prod.fst).Perm (second.map Prod.fst))
      (values : ∀ key value value', (key, value) ∈ first →
        (key, value') ∈ second → Reordered value value') :
      Reordered (.obj first) (.obj second)

theorem Record.mem_of_get {record : Record} {key : String} {value : Json}
    (h : record.get key = some value) : (key, value) ∈ record := by
  obtain ⟨before, after, hrecord, -⟩ := List.lookup_eq_some_iff.mp h
  simp [hrecord]

theorem Record.get_isSome_iff {record : Record} {key : String} :
    (record.get key).isSome = true ↔ key ∈ record.map Prod.fst := by
  rw [Record.get, List.lookup_isSome_iff, List.mem_map]
  constructor
  · rintro ⟨field, hmem, hkey⟩
    exact ⟨field, hmem, (eq_of_beq hkey).symm⟩
  · rintro ⟨field, hmem, hkey⟩
    exact ⟨field, hmem, beq_iff_eq.mpr hkey.symm⟩

def SameEntry (first second : Option Json) : Prop :=
  match first, second with
  | none, none => True
  | some value, some value' => Json.Reordered value value'
  | _, _ => False

theorem Json.Reordered.get {first second : Record}
    (h : Json.Reordered (.obj first) (.obj second)) (key : String) :
    SameEntry (first.get key) (second.get key) := by
  cases h with
  | refl =>
      cases first.get key with
      | none => trivial
      | some value => exact .refl value
  | obj keys values =>
      have hsome : (first.get key).isSome = (second.get key).isSome := by
        rw [Bool.eq_iff_iff, Record.get_isSome_iff, Record.get_isSome_iff,
          keys.mem_iff]
      cases hfirst : first.get key with
      | none =>
          rw [hfirst] at hsome
          cases hsecond : second.get key with
          | none => trivial
          | some value' =>
              rw [hsecond] at hsome
              cases hsome
      | some value =>
          rw [hfirst] at hsome
          obtain ⟨value', hsecond⟩ := Option.isSome_iff_exists.mp hsome.symm
          rw [hsecond]
          exact values key value value' (Record.mem_of_get hfirst)
            (Record.mem_of_get hsecond)

theorem Json.Reordered.mem_left {first second : Record} {key : String}
    {value' : Json}
    (h : Json.Reordered (.obj first) (.obj second))
    (hmem : (key, value') ∈ second) :
    ∃ value, (key, value) ∈ first ∧ Json.Reordered value value' := by
  cases h with
  | refl => exact ⟨value', hmem, .refl _⟩
  | obj keys values =>
      have hkey : key ∈ first.map Prod.fst :=
        keys.mem_iff.mpr (List.mem_map.mpr ⟨_, hmem, rfl⟩)
      obtain ⟨⟨_, value⟩, hvalue, rfl⟩ := List.mem_map.mp hkey
      exact ⟨value, hvalue, values _ _ _ hvalue hmem⟩

theorem SameEntry.eq_or {first second : Option Json}
    (h : SameEntry first second) :
    first = second ∨
      (∃ items items', first = some (.arr items) ∧
        second = some (.arr items')) ∨
      ∃ fields fields', first = some (.obj fields) ∧
        second = some (.obj fields') := by
  cases first with
  | none =>
      cases second with
      | none => exact .inl rfl
      | some value' => exact h.elim
  | some value =>
      cases second with
      | none => exact h.elim
      | some value' =>
          have hsame : Json.Reordered value value' := h
          cases hsame with
          | refl => exact .inl rfl
          | arr items items' => exact .inr (.inl ⟨_, _, rfl, rfl⟩)
          | obj keys values => exact .inr (.inr ⟨_, _, rfl, rfl⟩)

namespace TransformationEngineService

open Paths SyncBridge.Foundation

variable {runtime : Runtime}

/-! ## Entries -/

def definedField (outputPath : String) (definition : Record)
    (type : TransformationValueType) (compute : Option ComputeMode) :
    NormalizedMappingField where
  outputPath := outputPath
  sourcePath := fieldSourcePath definition
  required := isTrue definition "required"
  hasDefault := (definition.get "default").isSome
  defaultValue := definition.get "default"
  type := type
  trim := isTrue definition "trim"
  lowercase := isTrue definition "lowercase"
  uppercase := isTrue definition "uppercase"
  compute := compute

structure Defines (outputPath : String) (definition : Record)
    (field : NormalizedMappingField) : Prop where
  given : ((fieldSourcePath definition).isEmpty &&
    (definition.get "compute").isNone) = false
  safe : assertSafePaths outputPath (fieldSourcePath definition) = .ok ()
  oneCase : (truthy (definition.get "lowercase") &&
    truthy (definition.get "uppercase")) = false
  field : ∃ type compute, fieldType definition = some type ∧
    fieldCompute definition = some compute ∧
    field = definedField outputPath definition type compute

theorem refused {α : Type} {text : Except Failure α}
    {error : α → TransformationErrorDetail} {field : NormalizedMappingField}
    (h : (do let text ← text; pure (.error (error text)) :
      Except Failure (Except TransformationErrorDetail
        NormalizedMappingField)) = .ok (.ok field)) : False := by
  cases text <;> cases h

theorem compileDefinition_ok_iff {outputPath : String} {definition : Record}
    {field : NormalizedMappingField} :
    compileDefinition runtime outputPath definition = .ok (.ok field) ↔
      Defines outputPath definition field := by
  simp only [compileDefinition]
  constructor
  · intro h
    split at h
    · cases h
    · rename_i hgiven
      split at h
      · cases h
      · rename_i hsafe
        split at h
        · exact (refused h).elim
        · rename_i type htype
          split at h
          · exact (refused h).elim
          · rename_i compute hcompute
            split at h
            · cases h
            · rename_i hcase
              exact ⟨Bool.not_eq_true _ ▸ hgiven, hsafe,
                Bool.not_eq_true _ ▸ hcase, type, compute, htype, hcompute,
                (Except.ok.inj (Except.ok.inj h)).symm⟩
  · rintro ⟨hgiven, hsafe, hcase, type, compute, htype, hcompute, rfl⟩
    simp only [hgiven, hsafe, htype, hcompute, hcase]
    rfl

/-! ## Mappings -/

structure Compiles (runtime : Runtime) (mappingJson : Json)
    (fields : List NormalizedMappingField) : Prop where
  entries : ∃ entries, extractMappingCandidates mappingJson = .ok (.ok entries) ∧
    List.Forall₂ (fun entry field =>
      compileEntry runtime entry = .ok (.ok field)) entries fields

theorem errors_foldlM {entries : List (String × Json)}
    {compiled result : Compiled}
    (h : entries.foldlM (fun compiled entry => do
      let field ← compileEntry runtime entry
      pure (compiled.add field)) compiled = .ok result) :
    compiled.errors.length ≤ result.errors.length := by
  induction entries generalizing compiled with
  | nil =>
      obtain rfl := Except.ok.inj h
      exact Nat.le_refl _
  | cons entry entries ih =>
      rw [List.foldlM_cons] at h
      obtain ⟨next, hnext, hrest⟩ := bind_eq_ok.mp h
      obtain ⟨field, -, hfield⟩ := bind_eq_ok.mp hnext
      obtain rfl := Except.ok.inj hfield
      refine Nat.le_trans ?_ (ih hrest)
      cases field <;> simp [Compiled.add]

theorem foldlM_ok_iff {entries : List (String × Json)} {compiled : Compiled}
    {fields : List NormalizedMappingField} (hnone : compiled.errors = []) :
    entries.foldlM (fun compiled entry => do
        let field ← compileEntry runtime entry
        pure (compiled.add field)) compiled = .ok ⟨[], fields⟩ ↔
      ∃ added, fields = compiled.normalizedFields ++ added ∧
        List.Forall₂ (fun entry field =>
          compileEntry runtime entry = .ok (.ok field)) entries added := by
  induction entries generalizing compiled with
  | nil =>
      obtain ⟨errors, normalizedFields⟩ := compiled
      obtain rfl : errors = [] := hnone
      simp [pure, Except.pure, eq_comm]
  | cons entry entries ih =>
      rw [List.foldlM_cons]
      constructor
      · intro h
        obtain ⟨next, hnext, hrest⟩ := bind_eq_ok.mp h
        obtain ⟨compiledEntry, hentry, hadd⟩ := bind_eq_ok.mp hnext
        obtain rfl := Except.ok.inj hadd
        cases compiledEntry with
        | error error =>
            have hkept := errors_foldlM hrest
            simp [Compiled.add] at hkept
        | ok field =>
            obtain ⟨added, rfl, hadded⟩ :=
              (@ih (compiled.add (.ok field)) hnone).mp hrest
            exact ⟨field :: added, by simp [Compiled.add],
              .cons hentry hadded⟩
      · rintro ⟨added, rfl, hadded⟩
        cases hadded with
        | @cons _ field _ rest hentry hrest =>
            rw [hentry]
            refine (@ih (compiled.add (.ok field)) hnone).mpr
              ⟨rest, ?_, hrest⟩
            simp [Compiled.add]

theorem compileEntries_eq {mappingJson : Json} {entries : List (String × Json)}
    (h : extractMappingCandidates mappingJson = .ok (.ok entries)) :
    compileEntries runtime mappingJson =
      entries.foldlM (fun compiled entry => do
        let field ← compileEntry runtime entry
        pure (compiled.add field)) {} := by
  simp only [compileEntries, h]
  rfl

theorem compileMapping_ok_iff {mappingJson : Json}
    {fields : List NormalizedMappingField} :
    compileMapping runtime mappingJson = .ok fields ↔
      Compiles runtime mappingJson fields := by
  simp only [compileMapping]
  constructor
  · intro h
    obtain ⟨⟨errors, normalizedFields⟩, hcompiled, h⟩ := bind_eq_ok.mp h
    split at h
    · cases h
    · rename_i hnone
      obtain rfl : errors = [] :=
        List.eq_nil_of_length_eq_zero (by simpa using hnone)
      obtain rfl := Except.ok.inj h
      obtain ⟨candidates, hextract, hentries⟩ := bind_eq_ok.mp hcompiled
      cases candidates with
      | error error => cases hentries
      | ok entries =>
          rw [compileEntries_eq hextract, foldlM_ok_iff rfl] at hcompiled
          obtain ⟨added, rfl, hadded⟩ := hcompiled
          exact ⟨entries, hextract, hadded⟩
  · rintro ⟨entries, hextract, hfields⟩
    have hcompiled : compileEntries runtime mappingJson = .ok ⟨[], fields⟩ := by
      rw [compileEntries_eq hextract, foldlM_ok_iff rfl]
      exact ⟨fields, rfl, hfields⟩
    rw [hcompiled]
    rfl

/-! ## The order of the keys -/

section Reordering

variable {outputPath key : String} {first second : Record}
  {field : NormalizedMappingField} {fields : List NormalizedMappingField}

theorem fieldSourcePath_reordered
    (h : Json.Reordered (.obj first) (.obj second)) :
    fieldSourcePath first = fieldSourcePath second := by
  rw [fieldSourcePath, fieldSourcePath]
  rcases (h.get "path").eq_or with hsame | ⟨_, _, hfirst, hsecond⟩ |
    ⟨_, _, hfirst, hsecond⟩
  · rw [hsame]
  · rw [hfirst, hsecond]
  · rw [hfirst, hsecond]

theorem fieldType_reordered
    (h : Json.Reordered (.obj first) (.obj second)) :
    fieldType first = fieldType second := by
  rw [fieldType, fieldType]
  rcases (h.get "type").eq_or with hsame | ⟨_, _, hfirst, hsecond⟩ |
    ⟨_, _, hfirst, hsecond⟩
  · rw [hsame]
  · rw [hfirst, hsecond]
  · rw [hfirst, hsecond]

theorem fieldCompute_reordered
    (h : Json.Reordered (.obj first) (.obj second)) :
    fieldCompute first = fieldCompute second := by
  rw [fieldCompute, fieldCompute]
  rcases (h.get "compute").eq_or with hsame | ⟨_, _, hfirst, hsecond⟩ |
    ⟨_, _, hfirst, hsecond⟩
  · rw [hsame]
  · rw [hfirst, hsecond]
  · rw [hfirst, hsecond]

theorem truthy_reordered
    (h : Json.Reordered (.obj first) (.obj second)) :
    truthy (first.get key) = truthy (second.get key) := by
  rcases (h.get key).eq_or with hsame | ⟨_, _, hfirst, hsecond⟩ |
    ⟨_, _, hfirst, hsecond⟩
  · rw [hsame]
  · rw [hfirst, hsecond]; rfl
  · rw [hfirst, hsecond]; rfl

theorem isNone_reordered
    (h : Json.Reordered (.obj first) (.obj second)) :
    (first.get key).isNone = (second.get key).isNone := by
  rcases (h.get key).eq_or with hsame | ⟨_, _, hfirst, hsecond⟩ |
    ⟨_, _, hfirst, hsecond⟩
  · rw [hsame]
  · rw [hfirst, hsecond]; rfl
  · rw [hfirst, hsecond]; rfl

theorem Defines.reordered (hsame : Json.Reordered (.obj first) (.obj second))
    (h : Defines outputPath first field) :
    ∃ field', Defines outputPath second field' := by
  obtain ⟨hgiven, hsafe, hcase, type, compute, htype, hcompute, -⟩ := h
  refine ⟨definedField outputPath second type compute, ?_, ?_, ?_, type,
    compute, ?_, ?_, rfl⟩
  · rwa [← fieldSourcePath_reordered hsame, ← isNone_reordered hsame]
  · rwa [← fieldSourcePath_reordered hsame]
  · rwa [← truthy_reordered hsame, ← truthy_reordered hsame]
  · rwa [← fieldType_reordered hsame]
  · rwa [← fieldCompute_reordered hsame]

theorem compileEntry_reordered {value value' : Json}
    (hsame : Json.Reordered value value')
    (h : compileEntry runtime (key, value) = .ok (.ok field)) :
    ∃ field', compileEntry runtime (key, value') = .ok (.ok field') := by
  cases hsame with
  | refl => exact ⟨field, h⟩
  | arr _ _ => cases h
  | obj keys values =>
      obtain ⟨field', hfield'⟩ :=
        (compileDefinition_ok_iff.mp h).reordered (.obj keys values)
      exact ⟨field', compileDefinition_ok_iff.mpr hfield'⟩

theorem extract_reordered {entries : List (String × Json)}
    (hsame : Json.Reordered (.obj first) (.obj second))
    (h : extractMappingCandidates (.obj first) = .ok (.ok entries)) :
    ∃ entries', extractMappingCandidates (.obj second) = .ok (.ok entries') ∧
      Json.Reordered (.obj entries) (.obj entries') := by
  have hfields := hsame.get "fields"
  simp only [extractMappingCandidates] at h ⊢
  cases hfirst : first.get "fields" with
  | none =>
      rw [hfirst] at h hfields
      cases hsecond : second.get "fields" with
      | none =>
          obtain rfl := Except.ok.inj (Except.ok.inj h)
          exact ⟨second, rfl, hsame⟩
      | some value' =>
          rw [hsecond] at hfields
          exact hfields.elim
  | some value =>
      rw [hfirst] at h hfields
      cases hsecond : second.get "fields" with
      | none =>
          rw [hsecond] at hfields
          exact hfields.elim
      | some value' =>
          rw [hsecond] at hfields
          have hvalues : Json.Reordered value value' := hfields
          cases value with
          | obj nested =>
              obtain rfl := Except.ok.inj (Except.ok.inj h)
              cases hvalues with
              | refl => exact ⟨nested, rfl, .refl _⟩
              | obj keys values => exact ⟨_, rfl, .obj keys values⟩
          | _ => cases h

/-- What compiles does so in any order of the keys. -/
theorem Compiles.reordered (hsame : Json.Reordered (.obj first) (.obj second))
    (h : Compiles runtime (.obj first) fields) :
    ∃ fields', Compiles runtime (.obj second) fields' := by
  obtain ⟨entries, hextract, hfields⟩ := h
  obtain ⟨entries', hextract', hentries⟩ := extract_reordered hsame hextract
  have hall : ∀ entry' ∈ entries', ∃ field',
      compileEntry runtime entry' = .ok (.ok field') := by
    rintro ⟨key, value'⟩ hmem'
    obtain ⟨value, hmem, hvalue⟩ := hentries.mem_left hmem'
    obtain ⟨field, -, hfield⟩ := paired_of_mem_left hfields hmem
    exact compileEntry_reordered hvalue hfield
  obtain ⟨fields', hfields'⟩ := exists_pairing_iff.mpr hall
  exact ⟨fields', entries', hextract', hfields'⟩

end Reordering

end TransformationEngineService

end SyncBridge
