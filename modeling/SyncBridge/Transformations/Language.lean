import SyncBridge.Transformations.Fields

/-!
# The mapping language

The documented form of a mapping against what compiles.  The options of a field
are read by comparison with `true`, so one of another type counts as absent
instead of being reported; and the text of an error message can itself throw.
-/

namespace SyncBridge

namespace TransformationEngineService

open Paths SyncBridge.Foundation

variable {runtime : Runtime}

/-! ## The documented form -/

structure SafePath (path : String) : Prop where
  nonempty : splitPath path ≠ []
  safe : ∀ segment ∈ splitPath path, segment ∉ dangerousPathKeys

def IsFlag (option : Option Json) : Prop :=
  ∀ value, option = some value → ∃ flag, value = .bool flag

/-- A safe path; a computed field may leave it blank or out. -/
def PathConforms (computed : Bool) : Option Json → Prop
  | none => computed = true
  | some (.str text) => SafePath (trim text) ∨
      (computed = true ∧ (trim text).isEmpty = true)
  | some _ => False

structure Conforms (definition : Record) : Prop where
  path : PathConforms (definition.get "compute").isSome (definition.get "path")
  required : IsFlag (definition.get "required")
  trim : IsFlag (definition.get "trim")
  lowercase : IsFlag (definition.get "lowercase")
  uppercase : IsFlag (definition.get "uppercase")
  oneCase : ¬ (definition.get "lowercase" = some (.bool true) ∧
    definition.get "uppercase" = some (.bool true))
  type : ∀ value, definition.get "type" = some value → ∃ name, value = .str name ∧
    name ∈ ["string", "number", "boolean", "date", "json"]
  compute : ∀ value, definition.get "compute" = some value →
    value = .str "now" ∨ value = .str "uuid"

def EntryConforms (entry : String × Json) : Prop :=
  SafePath entry.1 ∧ match entry.2 with
    | .str path => SafePath path
    | .obj definition => Conforms definition
    | _ => False

def entriesIn (mapping : Record) : Option (List (String × Json)) :=
  match mapping.get "fields" with
  | none => some mapping
  | some (.obj entries) => some entries
  | some _ => none

open Classical in
noncomputable def offending (entries : List (String × Json)) :
    List (String × Json) :=
  entries.filter fun entry => ¬ EntryConforms entry

def Reports (runtime : Runtime) (entries : List (String × Json))
    (failure : Failure) : Prop :=
  ∃ errors, failure = .mappingValidation
      (errors.map TransformationErrorDetail.message) ∧
    List.Forall₂ (fun entry error =>
      compileEntry runtime entry = .ok (.error error) ∧ error.field = entry.1)
        (offending entries) errors

/-- What compiles is what has the documented form, and the rest is reported. -/
structure AcceptsDocumented (runtime : Runtime) (mapping : Record) : Prop where
  accepts : (∃ fields, compileMapping runtime (.obj mapping) = .ok fields) ↔
    ∃ entries, entriesIn mapping = some entries ∧
      ∀ entry ∈ entries, EntryConforms entry
  reports : ∀ entries failure, entriesIn mapping = some entries →
    compileMapping runtime (.obj mapping) = .error failure →
    Reports runtime entries failure

/-! ## What the code checks -/

/-- An option has a type of its own that is not reported. -/
def Mistyped (definition : Record) : Prop :=
  ¬ IsFlag (definition.get "required") ∨ ¬ IsFlag (definition.get "trim") ∨
    ¬ IsFlag (definition.get "lowercase") ∨
    ¬ IsFlag (definition.get "uppercase") ∨
    definition.get "type" = some .null ∨
    ∃ value, definition.get "path" = some value ∧ ∀ text, value ≠ .str text

structure PathsSound (outputPath : String) (definition : Record) : Prop where
  given : ((fieldSourcePath definition).isEmpty &&
    (definition.get "compute").isNone) = false
  safe : assertSafePaths outputPath (fieldSourcePath definition) = .ok ()

structure Unobjected (outputPath : String) (definition : Record) : Prop
    extends PathsSound outputPath definition where
  typed : (fieldType definition).isSome = true
  computed : (fieldCompute definition).isSome = true
  oneCase : (truthy (definition.get "lowercase") &&
    truthy (definition.get "uppercase")) = false

/-- A definition with a mistyped option and no other fault. -/
def Overlooked (entry : String × Json) : Prop :=
  ∃ definition, entry.2 = .obj definition ∧ Mistyped definition ∧
    Unobjected entry.1 definition

/-- The option has a value whose text cannot be put into an error message. -/
def HidesText (definition : Record) (key : String) : Prop :=
  ∃ value, definition.get key = some value ∧ value.HidesToString

/-- A definition with a type or a compute mode that is to be reported, but hides
its text. -/
def Unprintable (entry : String × Json) : Prop :=
  ∃ definition, entry.2 = .obj definition ∧ PathsSound entry.1 definition ∧
    (HidesText definition "type" ∨
      ((fieldType definition).isSome = true ∧ HidesText definition "compute"))

/-! ## Paths -/

theorem exists_assertSafePath_iff {path : String} :
    (∃ segments, assertSafePath path = .ok segments) ↔ SafePath path := by
  rw [assertSafePath]
  cases hsplit : splitPath path with
  | nil =>
      refine iff_of_false (by simp) fun h => ?_
      exact h.nonempty hsplit
  | cons segment rest =>
      simp only
      cases hfind : (segment :: rest).find? dangerousPathKeys.contains with
      | none =>
          refine iff_of_true ⟨_, rfl⟩ ⟨by simp [hsplit], fun other hother => ?_⟩
          rw [hsplit] at hother
          simpa using List.find?_eq_none.mp hfind other hother
      | some dangerous =>
          refine iff_of_false (by simp) fun h => ?_
          have hmem := List.mem_of_find?_eq_some hfind
          have hunsafe := List.find?_some hfind
          exact h.safe dangerous (hsplit ▸ hmem) (by simpa using hunsafe)

theorem compilePath_ok_iff {outputPath sourcePath : String} :
    (∃ field, compilePath outputPath sourcePath = .ok field) ↔
      SafePath outputPath ∧ SafePath sourcePath := by
  rw [← exists_assertSafePath_iff, ← exists_assertSafePath_iff, compilePath]
  cases assertSafePath outputPath with
  | error failure => simp [bind, Except.bind]
  | ok segments =>
      cases assertSafePath sourcePath with
      | error failure => simp [bind, Except.bind]
      | ok segments => simp [bind, Except.bind]

theorem assertSafePaths_ok_iff {outputPath sourcePath : String} :
    assertSafePaths outputPath sourcePath = .ok () ↔
      SafePath outputPath ∧
        (sourcePath.isEmpty = false → SafePath sourcePath) := by
  rw [← exists_assertSafePath_iff, ← exists_assertSafePath_iff, assertSafePaths]
  cases assertSafePath outputPath with
  | error failure => simp [bind, Except.bind]
  | ok segments =>
      cases hempty : sourcePath.isEmpty with
      | true => simp [bind, Except.bind, pure, Except.pure]
      | false =>
          cases assertSafePath sourcePath with
          | error failure => simp [bind, Except.bind]
          | ok segments => simp [bind, Except.bind, pure, Except.pure]

/-! ## Definitions -/

section Definitions

variable {outputPath key : String} {definition : Record} {entry : String × Json}

theorem exists_defines_iff : (∃ field, Defines outputPath definition field) ↔
    Unobjected outputPath definition := by
  constructor
  · rintro ⟨_, hgiven, hsafe, hcase, type, compute, htype, hcompute, -⟩
    exact ⟨⟨hgiven, hsafe⟩, by simp [htype], by simp [hcompute], hcase⟩
  · rintro ⟨⟨hgiven, hsafe⟩, htyped, hcomputed, hcase⟩
    obtain ⟨type, htype⟩ := Option.isSome_iff_exists.mp htyped
    obtain ⟨compute, hcompute⟩ := Option.isSome_iff_exists.mp hcomputed
    exact ⟨_, hgiven, hsafe, hcase, type, compute, htype, hcompute, rfl⟩

theorem not_hides_of_type (h : (fieldType definition).isSome = true) :
    ¬ HidesText definition "type" := by
  rintro ⟨value, hvalue, hhides⟩
  rw [fieldType, hvalue] at h
  cases hhides <;> cases h

theorem exists_reported_iff (hvalue : (definition.get key).isSome = true) :
    (∃ text, textOf runtime ((definition.get key).getD .null) = .ok text) ↔
      ¬ HidesText definition key := by
  obtain ⟨value, hsome⟩ := Option.isSome_iff_exists.mp hvalue
  rw [hsome, Option.getD_some, textOf_ok_iff]
  refine not_congr ⟨fun h => ⟨value, hsome, h⟩, ?_⟩
  rintro ⟨other, hother, hhides⟩
  rw [hsome] at hother
  rwa [Option.some.inj hother]

theorem isSome_of_fieldType_none (h : fieldType definition = none) :
    (definition.get "type").isSome = true := by
  rw [fieldType] at h
  cases hvalue : definition.get "type" with
  | none =>
      rw [hvalue] at h
      cases h
  | some value => rfl

theorem isSome_of_fieldCompute_none (h : fieldCompute definition = none) :
    (definition.get "compute").isSome = true := by
  rw [fieldCompute] at h
  cases hvalue : definition.get "compute" with
  | none =>
      rw [hvalue] at h
      cases h
  | some value => rfl

theorem throws_of_hides (h : HidesText definition key) :
    ∃ failure, textOf runtime ((definition.get key).getD .null) =
      .error failure := by
  have hsome : (definition.get key).isSome = true := by
    obtain ⟨value, hvalue, -⟩ := h
    rw [hvalue]
    rfl
  cases htext : textOf runtime ((definition.get key).getD .null) with
  | error failure => exact ⟨failure, rfl⟩
  | ok text => exact absurd h ((exists_reported_iff hsome).mp ⟨text, htext⟩)

/-- A definition with a fault is reported, if the message has a text. -/
theorem compileDefinition_reports
    (hfault : ¬ Unobjected outputPath definition)
    (hprints : ¬ (PathsSound outputPath definition ∧
      (HidesText definition "type" ∨ ((fieldType definition).isSome = true ∧
        HidesText definition "compute")))) :
    ∃ error, compileDefinition runtime outputPath definition =
      .ok (.error error) ∧ error.field = outputPath := by
  simp only [compileDefinition]
  split
  · exact ⟨_, rfl, rfl⟩
  · rename_i hgiven
    split
    · exact ⟨_, rfl, rfl⟩
    · rename_i hsafe
      have hpaths : PathsSound outputPath definition :=
        ⟨Bool.not_eq_true _ ▸ hgiven, hsafe⟩
      split
      · rename_i htype
        obtain ⟨text, htext⟩ := (@exists_reported_iff runtime _ _
          (isSome_of_fieldType_none htype)).mpr
            fun hhides => hprints ⟨hpaths, .inl hhides⟩
        rw [htext]
        exact ⟨_, rfl, rfl⟩
      · rename_i type htype
        have htyped : (fieldType definition).isSome = true := by simp [htype]
        split
        · rename_i hcompute
          obtain ⟨text, htext⟩ := (@exists_reported_iff runtime _ _
            (isSome_of_fieldCompute_none hcompute)).mpr
              fun hhides => hprints ⟨hpaths, .inr ⟨htyped, hhides⟩⟩
          rw [htext]
          exact ⟨_, rfl, rfl⟩
        · rename_i compute hcompute
          split
          · exact ⟨_, rfl, rfl⟩
          · rename_i hcase
            exact absurd ⟨hpaths, htyped, by simp [hcompute],
              Bool.not_eq_true _ ▸ hcase⟩ hfault

theorem fieldType_none_of_hides (h : HidesText definition "type") :
    fieldType definition = none := by
  cases htype : fieldType definition with
  | none => rfl
  | some type => exact absurd h (not_hides_of_type (by simp [htype]))

theorem fieldCompute_none_of_hides (h : HidesText definition "compute") :
    fieldCompute definition = none := by
  obtain ⟨value, hvalue, hhides⟩ := h
  rw [fieldCompute, hvalue]
  cases hhides <;> rfl

/-- A message without a text is thrown instead. -/
theorem compileDefinition_throws (hpaths : PathsSound outputPath definition)
    (hhides : HidesText definition "type" ∨ ((fieldType definition).isSome = true ∧
      HidesText definition "compute")) :
    ∃ failure, compileDefinition runtime outputPath definition =
      .error failure := by
  simp only [compileDefinition, hpaths.given, hpaths.safe, Bool.false_eq_true,
    if_false]
  rcases hhides with hhides | ⟨htyped, hhides⟩
  · obtain ⟨failure, hfailure⟩ := @throws_of_hides runtime _ _ hhides
    rw [fieldType_none_of_hides hhides, hfailure]
    exact ⟨failure, rfl⟩
  · obtain ⟨type, htype⟩ := Option.isSome_iff_exists.mp htyped
    obtain ⟨failure, hfailure⟩ := @throws_of_hides runtime _ _ hhides
    rw [htype, fieldCompute_none_of_hides hhides, hfailure]
    exact ⟨failure, rfl⟩

/-! ## The documented form and the checks -/

theorem valueTypeOf_isSome_iff {name : String} :
    (valueTypeOf name).isSome = true ↔
      name ∈ ["string", "number", "boolean", "date", "json"] := by
  simp only [valueTypeOf]
  split <;> simp_all

theorem truthy_flag {option : Option Json} (hflag : IsFlag option)
    (h : truthy option = true) : option = some (.bool true) := by
  cases option with
  | none => cases h
  | some value =>
      obtain ⟨flag, rfl⟩ := hflag value rfl
      obtain rfl : flag = true := h
      rfl

theorem not_safePath_of_isEmpty {path : String} (h : path.isEmpty = true) :
    ¬ SafePath path := by
  obtain rfl := String.isEmpty_iff.mp h
  intro hsafe
  exact hsafe.nonempty (by decide)

theorem pathConforms_iff {computed : Bool} :
    PathConforms computed (definition.get "path") ↔
      (∀ value, definition.get "path" = some value → ∃ text, value = .str text) ∧
        ((fieldSourcePath definition).isEmpty = true → computed = true) ∧
        ((fieldSourcePath definition).isEmpty = false →
          SafePath (fieldSourcePath definition)) := by
  rw [fieldSourcePath]
  cases hpath : definition.get "path" with
  | none => simp [PathConforms]
  | some value =>
      cases value with
      | str text =>
          simp only [PathConforms, Option.some.injEq, forall_eq']
          cases hempty : (trim text).isEmpty with
          | true => simp [not_safePath_of_isEmpty hempty]
          | false => simp
      | _ => simp [PathConforms]

theorem unobjected_of_conforms (hpath : SafePath outputPath)
    (h : Conforms definition) : Unobjected outputPath definition := by
  have hcase : (truthy (definition.get "lowercase") &&
      truthy (definition.get "uppercase")) = false := by
    by_contra hboth
    rw [Bool.not_eq_false, Bool.and_eq_true] at hboth
    exact h.oneCase ⟨truthy_flag h.lowercase hboth.1,
      truthy_flag h.uppercase hboth.2⟩
  have htyped : (fieldType definition).isSome = true := by
    rw [fieldType]
    cases hvalue : definition.get "type" with
    | none => rfl
    | some value =>
        obtain ⟨name, rfl, hname⟩ := h.type value hvalue
        exact valueTypeOf_isSome_iff.mpr hname
  have hcomputed : (fieldCompute definition).isSome = true := by
    rw [fieldCompute]
    cases hvalue : definition.get "compute" with
    | none => rfl
    | some value => rcases h.compute value hvalue with rfl | rfl <;> rfl
  obtain ⟨-, hblank, hsafe⟩ := pathConforms_iff.mp h.path
  refine ⟨⟨?_, assertSafePaths_ok_iff.mpr ⟨hpath, hsafe⟩⟩, htyped, hcomputed,
    hcase⟩
  cases hempty : (fieldSourcePath definition).isEmpty with
  | true => simp [hblank hempty, ← Option.not_isSome]
  | false => rfl

theorem conforms_of_unobjected (h : Unobjected outputPath definition)
    (htypes : ¬ Mistyped definition) : Conforms definition := by
  obtain ⟨⟨hgiven, hsafe⟩, htyped, hcomputed, hcase⟩ := h
  simp only [Mistyped, not_or, not_not, not_exists, not_and] at htypes
  obtain ⟨hrequired, htrim, hlowercase, huppercase, htype, hpath⟩ := htypes
  refine ⟨pathConforms_iff.mpr ⟨?_, ?_, (assertSafePaths_ok_iff.mp hsafe).2⟩,
    hrequired, htrim, hlowercase, huppercase, ?_, ?_, ?_⟩
  · intro value hvalue
    simpa using hpath value hvalue
  · intro hempty
    rw [hempty, Bool.true_and] at hgiven
    rw [← Option.not_isSome, Bool.not_eq_false'] at hgiven
    exact hgiven
  · rintro ⟨hlower, hupper⟩
    rw [hlower, hupper] at hcase
    cases hcase
  · intro value hvalue
    rw [fieldType, hvalue] at htyped
    cases value with
    | null => exact absurd hvalue htype
    | str name => exact ⟨name, rfl, valueTypeOf_isSome_iff.mp htyped⟩
    | _ => cases htyped
  · intro value hvalue
    rw [fieldCompute, hvalue] at hcomputed
    split at hcomputed
    · rename_i hnone
      cases hnone
    · rename_i hnow
      exact .inl (Option.some.inj hnow)
    · rename_i huuid
      exact .inr (Option.some.inj huuid)
    · cases hcomputed

theorem not_conforms_of_mistyped (h : Mistyped definition) :
    ¬ Conforms definition := by
  intro hconforms
  rcases h with h | h | h | h | hnull | ⟨value, hvalue, hother⟩
  · exact h hconforms.required
  · exact h hconforms.trim
  · exact h hconforms.lowercase
  · exact h hconforms.uppercase
  · obtain ⟨name, hname, -⟩ := hconforms.type .null hnull
    cases hname
  · obtain ⟨text, rfl⟩ := (pathConforms_iff.mp hconforms.path).1 value hvalue
    exact hother text rfl

end Definitions

/-! ## Entries -/

section Entries

variable {entry : String × Json} {entries : List (String × Json)}
  {mapping : Record}

theorem compileEntry_ok_iff :
    (∃ field, compileEntry runtime entry = .ok (.ok field)) ↔
      EntryConforms entry ∨ Overlooked entry := by
  obtain ⟨outputPath, value⟩ := entry
  simp only [EntryConforms, Overlooked, compileEntry]
  cases value with
  | str path =>
      simp only [Except.ok.injEq, compilePath_ok_iff, reduceCtorEq, false_and,
        exists_false, or_false]
  | obj definition =>
      simp only [compileDefinition_ok_iff, exists_defines_iff, Json.obj.injEq]
      constructor
      · intro h
        by_cases hmistyped : Mistyped definition
        · exact .inr ⟨definition, rfl, hmistyped, h⟩
        · exact .inl ⟨(assertSafePaths_ok_iff.mp h.safe).1,
            conforms_of_unobjected h hmistyped⟩
      · rintro (⟨hpath, hconforms⟩ | ⟨_, rfl, -, h⟩)
        · exact unobjected_of_conforms hpath hconforms
        · exact h
  | _ => simp

theorem not_entryConforms_of_overlooked (h : Overlooked entry) :
    ¬ EntryConforms entry := by
  obtain ⟨definition, hvalue, hmistyped, -⟩ := h
  rintro ⟨-, hconforms⟩
  rw [hvalue] at hconforms
  exact not_conforms_of_mistyped hmistyped hconforms

theorem compileEntry_throws (h : Unprintable entry) :
    ∃ failure, compileEntry runtime entry = .error failure := by
  obtain ⟨definition, hvalue, hpaths, hhides⟩ := h
  rw [compileEntry, hvalue]
  exact compileDefinition_throws hpaths hhides

theorem not_entryConforms_of_unprintable (h : Unprintable entry) :
    ¬ EntryConforms entry := by
  intro hconforms
  obtain ⟨failure, hthrows⟩ := @compileEntry_throws Sample.runtime entry h
  obtain ⟨field, hfield⟩ := (@compileEntry_ok_iff Sample.runtime entry).mpr
    (.inl hconforms)
  rw [hthrows] at hfield
  cases hfield

theorem compileEntry_reports (hoffends : ¬ EntryConforms entry)
    (hseen : ¬ Overlooked entry) (hprints : ¬ Unprintable entry) :
    ∃ error, compileEntry runtime entry = .ok (.error error) ∧
      error.field = entry.1 := by
  obtain ⟨outputPath, value⟩ := entry
  have hrefused : ¬ ∃ field,
      compileEntry runtime (outputPath, value) = .ok (.ok field) := by
    rw [compileEntry_ok_iff]
    exact not_or.mpr ⟨hoffends, hseen⟩
  rw [compileEntry] at hrefused ⊢
  cases value with
  | str path =>
      simp only [Except.ok.injEq] at hrefused ⊢
      simp only [compilePath] at hrefused ⊢
      split
      · exact ⟨_, rfl, rfl⟩
      · rename_i hsafe
        rw [hsafe] at hrefused
        exact absurd ⟨_, rfl⟩ hrefused
  | obj definition =>
      refine compileDefinition_reports ?_ ?_
      · intro hsound
        obtain ⟨field, hfield⟩ := exists_defines_iff.mpr hsound
        exact hrefused ⟨field, compileDefinition_ok_iff.mpr hfield⟩
      · rintro ⟨hpaths, hhides⟩
        exact hprints ⟨definition, rfl, hpaths, hhides⟩
  | _ => exact ⟨_, rfl, rfl⟩

/-! ## Mappings -/

theorem offending_cons_of_conforms (h : EntryConforms entry) :
    offending (entry :: entries) = offending entries := by
  simp [offending, h]

theorem offending_cons_of_not (h : ¬ EntryConforms entry) :
    offending (entry :: entries) = entry :: offending entries := by
  simp [offending, h]

theorem offending_eq_nil_iff : offending entries = [] ↔
    ∀ entry ∈ entries, EntryConforms entry := by
  simp [offending, List.filter_eq_nil_iff]

theorem mem_offending_iff : entry ∈ offending entries ↔
    entry ∈ entries ∧ ¬ EntryConforms entry := by
  simp [offending]

theorem foldlM_reports {compiled : Compiled}
    (hall : ∀ entry ∈ entries, ¬ Overlooked entry ∧ ¬ Unprintable entry) :
    ∃ errors fields, entries.foldlM (fun compiled entry => do
        let field ← compileEntry runtime entry
        pure (compiled.add field)) compiled =
          .ok ⟨compiled.errors ++ errors, fields⟩ ∧
      List.Forall₂ (fun entry error =>
        compileEntry runtime entry = .ok (.error error) ∧
          error.field = entry.1) (offending entries) errors := by
  induction entries generalizing compiled with
  | nil => exact ⟨[], compiled.normalizedFields, by simp [pure, Except.pure], .nil⟩
  | cons entry entries ih =>
      obtain ⟨hseen, hprints⟩ := hall entry List.mem_cons_self
      have hrest := fun compiled => @ih compiled fun other hother =>
        hall other (List.mem_cons_of_mem entry hother)
      rw [List.foldlM_cons]
      by_cases hconforms : EntryConforms entry
      · obtain ⟨field, hfield⟩ :=
          (@compileEntry_ok_iff runtime entry).mpr (.inl hconforms)
        obtain ⟨errors, fields, hloop, herrors⟩ := hrest (compiled.add (.ok field))
        rw [hfield, offending_cons_of_conforms hconforms]
        exact ⟨errors, fields, hloop, herrors⟩
      · obtain ⟨error, herror, hfield⟩ :=
          @compileEntry_reports runtime entry hconforms hseen hprints
        obtain ⟨errors, fields, hloop, herrors⟩ :=
          hrest (compiled.add (.error error))
        rw [herror, offending_cons_of_not hconforms]
        refine ⟨error :: errors, fields, ?_, .cons ⟨herror, hfield⟩ herrors⟩
        rw [List.append_cons]
        exact hloop

theorem extractMappingCandidates_ok_iff :
    extractMappingCandidates (.obj mapping) = .ok (.ok entries) ↔
      entriesIn mapping = some entries := by
  cases hfields : mapping.get "fields" with
  | none => simp [extractMappingCandidates, entriesIn, hfields]
  | some value =>
      cases value <;> simp [extractMappingCandidates, entriesIn, hfields]

theorem compiled_of_ok {fields : List NormalizedMappingField}
    (hentries : entriesIn mapping = some entries)
    (h : compileMapping runtime (.obj mapping) = .ok fields)
    (hmem : entry ∈ entries) :
    ∃ field, compileEntry runtime entry = .ok (.ok field) := by
  obtain ⟨entries', hextract, hfields⟩ := compileMapping_ok_iff.mp h
  rw [extractMappingCandidates_ok_iff.mpr hentries] at hextract
  obtain rfl := Except.ok.inj (Except.ok.inj hextract)
  obtain ⟨field, -, hfield⟩ := paired_of_mem_left hfields hmem
  exact ⟨field, hfield⟩

theorem reported_of_accepts (h : AcceptsDocumented runtime mapping)
    (hentries : entriesIn mapping = some entries) (hmem : entry ∈ entries)
    (hoffends : ¬ EntryConforms entry) :
    ∃ error, compileEntry runtime entry = .ok (.error error) := by
  cases hcompiled : compileMapping runtime (.obj mapping) with
  | ok fields =>
      obtain ⟨entries', hentries', hall⟩ := h.accepts.mp ⟨fields, hcompiled⟩
      rw [hentries] at hentries'
      obtain rfl := Option.some.inj hentries'
      exact absurd (hall entry hmem) hoffends
  | error failure =>
      obtain ⟨errors, -, herrors⟩ := h.reports entries failure hentries hcompiled
      obtain ⟨error, -, herror, -⟩ :=
        paired_of_mem_left herrors (mem_offending_iff.mpr ⟨hmem, hoffends⟩)
      exact ⟨error, herror⟩

/-- The documented language is what is accepted exactly when no entry has a
mistyped option as its only fault, and none hides the text of its fault. -/
theorem accepts_documented_iff : AcceptsDocumented runtime mapping ↔
    ∀ entries, entriesIn mapping = some entries →
      ∀ entry ∈ entries, ¬ Overlooked entry ∧ ¬ Unprintable entry := by
  constructor
  · intro h entries hentries entry hmem
    constructor
    · intro hoverlooked
      obtain ⟨error, herror⟩ := reported_of_accepts h hentries hmem
        (not_entryConforms_of_overlooked hoverlooked)
      obtain ⟨field, hfield⟩ :=
        (@compileEntry_ok_iff runtime entry).mpr (.inr hoverlooked)
      rw [herror] at hfield
      cases hfield
    · intro hunprintable
      obtain ⟨error, herror⟩ := reported_of_accepts h hentries hmem
        (not_entryConforms_of_unprintable hunprintable)
      obtain ⟨failure, hfailure⟩ :=
        @compileEntry_throws runtime entry hunprintable
      rw [herror] at hfailure
      cases hfailure
  · intro hall
    cases hentries : entriesIn mapping with
    | none =>
        constructor
        · refine iff_of_false ?_ (by simp [hentries])
          rintro ⟨fields, hfields⟩
          obtain ⟨entries, hextract, -⟩ := compileMapping_ok_iff.mp hfields
          rw [extractMappingCandidates_ok_iff.mp hextract] at hentries
          cases hentries
        · intro entries failure hsome
          rw [hentries] at hsome
          cases hsome
    | some entries =>
        obtain ⟨errors, fields, hloop, herrors⟩ :=
          @foldlM_reports runtime entries {} (hall entries hentries)
        have hcompiled : compileEntries runtime (.obj mapping) =
            .ok ⟨errors, fields⟩ := by
          rw [compileEntries_eq (extractMappingCandidates_ok_iff.mpr hentries)]
          exact hloop
        refine ⟨⟨?_, ?_⟩, ?_⟩
        · rintro ⟨compiled, hok⟩
          refine ⟨entries, hentries, fun entry hmem => ?_⟩
          have hconforms := (@compileEntry_ok_iff runtime entry).mp
            (compiled_of_ok hentries hok hmem)
          exact hconforms.resolve_right (hall entries hentries entry hmem).1
        · rintro ⟨entries', hentries', hconform⟩
          rw [hentries] at hentries'
          obtain rfl := Option.some.inj hentries'
          rw [offending_eq_nil_iff.mpr hconform] at herrors
          cases herrors
          exact ⟨fields, by simp [compileMapping, hcompiled, bind, Except.bind,
            pure, Except.pure]⟩
        · intro entries' failure hentries' hfails
          rw [hentries] at hentries'
          obtain rfl := Option.some.inj hentries'
          simp only [compileMapping, hcompiled, bind, Except.bind] at hfails
          split at hfails
          · exact ⟨errors, (Except.error.inj hfails).symm, herrors⟩
          · cases hfails

def looselyRequired : Record :=
  [("fields", .obj [("email", .obj [("path", .str "contact.email"),
    ("required", .str "yes")])])]

/-- It compiles to a field that is not required. -/
theorem accepts_documented_fails :
    (∃ field, compileMapping Sample.runtime (.obj looselyRequired) =
      .ok [field] ∧ field.required = false) ∧
      ¬ AcceptsDocumented Sample.runtime looselyRequired := by
  have hcompiles : ∃ field, compileMapping Sample.runtime
      (.obj looselyRequired) = .ok [field] ∧ field.required = false :=
    ⟨_, rfl, rfl⟩
  refine ⟨hcompiles, fun haccepts => ?_⟩
  obtain ⟨field, hfield, -⟩ := hcompiles
  obtain ⟨entries, hentries, hall⟩ := haccepts.accepts.mp ⟨_, hfield⟩
  obtain rfl := Option.some.inj hentries
  obtain ⟨-, hconforms⟩ := hall _ List.mem_cons_self
  obtain ⟨flag, hflag⟩ := (show Conforms _ from hconforms).required (.str "yes") rfl
  cases hflag

end Entries

end TransformationEngineService

end SyncBridge
