import SyncBridge.Transformations.Writes

/-!
# Fields whose paths overlap

A later field overwrites an earlier one when one output path leads through the
other.  Where no two of them do, each field of a record without errors keeps its
value, and the order of the entries does not matter.
-/

namespace SyncBridge

namespace TransformationEngineService

open Paths

def Present (runtime : Runtime) (ambient : Ambient) (rawRecord : Record)
    (field : NormalizedMappingField) : Prop :=
  ∃ value, currentValue runtime ambient rawRecord field = .ok (some value) ∧
    isMissingValue (some value) = false

def Turn.isReject : Turn → Bool
  | .reject _ _ => true
  | _ => false

def Clean (runtime : Runtime) (ambient : Ambient) (rawRecord : Record)
    (field : NormalizedMappingField) : Prop :=
  ∃ turn, fieldTurn runtime ambient rawRecord field = .ok turn ∧
    turn.isReject = false

def fieldWrite (runtime : Runtime) (ambient : Ambient) (rawRecord : Record)
    (field : NormalizedMappingField) : Option (List String × Json) :=
  match fieldTurn runtime ambient rawRecord field with
  | .ok (.write value) => some (splitPath field.outputPath, value)
  | _ => none

variable {runtime : Runtime} {ambient : Ambient} {rawRecord : Record}
  {field : NormalizedMappingField} {fields : List NormalizedMappingField}
  {state result : TransformationResult}

/-! ## Records without errors -/

theorem apply_errors {turn : Turn} (h : turn.apply field state = .ok result) :
    state.errors.length ≤ result.errors.length ∧
      (turn.isReject = true → result.errors ≠ []) := by
  cases turn with
  | reject code message =>
      obtain rfl := Except.ok.inj h
      simp [fieldError]
  | skip =>
      obtain rfl := Except.ok.inj h
      simp [Turn.isReject]
  | write value =>
      simp only [Turn.apply] at h
      cases hset : setByPath state.normalized field.outputPath value with
      | error failure =>
          rw [hset] at h
          cases h
      | ok normalized =>
          rw [hset] at h
          obtain rfl := Except.ok.inj h
          simp [Turn.isReject]

theorem transformFields_errors
    (h : fields.foldlM (transformField runtime ambient rawRecord) state =
      .ok result) : state.errors.length ≤ result.errors.length := by
  induction fields generalizing state with
  | nil =>
      obtain rfl := Except.ok.inj h
      exact Nat.le_refl _
  | cons field fields ih =>
      obtain ⟨turn, next, -, happly, hrest⟩ := transformFields_cons_ok_iff.mp h
      exact Nat.le_trans (apply_errors happly).1 (ih hrest)

theorem apply_clean (hfield : Runnable field) {turn : Turn}
    {target : Record}
    (hturn : fieldTurn runtime ambient rawRecord field = .ok turn)
    (hclean : turn.isReject = false) :
    turn.apply field ⟨target, []⟩ =
      .ok ⟨writeAll (fieldWrite runtime ambient rawRecord field).toList target,
        []⟩ := by
  rw [fieldWrite, hturn]
  cases turn with
  | reject code message => cases hclean
  | skip => rfl
  | write value =>
      simp only [Turn.apply, setByPath, hfield.output]
      rfl

theorem writeAll_append {writes writes' : List (List String × Json)}
    {target : Record} :
    writeAll (writes ++ writes') target =
      writeAll writes' (writeAll writes target) := List.foldl_append

theorem filterMap_cons_toList :
    (field :: fields).filterMap (fieldWrite runtime ambient rawRecord) =
      (fieldWrite runtime ambient rawRecord field).toList ++
        fields.filterMap (fieldWrite runtime ambient rawRecord) := by
  cases h : fieldWrite runtime ambient rawRecord field with
  | none => rw [List.filterMap_cons_none h]; rfl
  | some write => rw [List.filterMap_cons_some h]; rfl

/-- A record is transformed without errors exactly when each field is clean, and
then the result holds their writes. -/
theorem transformFields_clean_iff
    (hfields : ∀ field ∈ fields, Runnable field) {target : Record} :
    (fields.foldlM (transformField runtime ambient rawRecord) ⟨target, []⟩ =
        .ok result ∧ result.errors = []) ↔
      (∀ field ∈ fields, Clean runtime ambient rawRecord field) ∧
        result = ⟨writeAll
          (fields.filterMap (fieldWrite runtime ambient rawRecord)) target,
          []⟩ := by
  induction fields generalizing target with
  | nil =>
      constructor
      · rintro ⟨h, -⟩
        exact ⟨fun _ hmem => absurd hmem List.not_mem_nil,
          (Except.ok.inj h).symm⟩
      · rintro ⟨-, rfl⟩
        exact ⟨rfl, rfl⟩
  | cons field fields ih =>
      have hfield : Runnable field := hfields field List.mem_cons_self
      have hrest : ∀ other ∈ fields, Runnable other := fun other hother =>
        hfields other (List.mem_cons_of_mem field hother)
      rw [transformFields_cons_ok_iff, List.forall_mem_cons,
        filterMap_cons_toList, writeAll_append]
      constructor
      · rintro ⟨⟨turn, next, hturn, happly, h⟩, hclean⟩
        have hnext : next.errors = [] := by
          have hkept := transformFields_errors h
          rw [hclean] at hkept
          exact List.eq_nil_of_length_eq_zero (Nat.le_zero.mp hkept)
        have hhere : turn.isReject = false := by
          by_contra hreject
          exact (apply_errors happly).2 (by simpa using hreject) hnext
        obtain rfl :=
          Except.ok.inj (happly.symm.trans (apply_clean hfield hturn hhere))
        obtain ⟨hothers, hresult⟩ := (ih hrest).mp ⟨h, hclean⟩
        exact ⟨⟨⟨turn, hturn, hhere⟩, hothers⟩, hresult⟩
      · rintro ⟨⟨⟨turn, hturn, hhere⟩, hothers⟩, hresult⟩
        obtain ⟨h, hclean⟩ := (ih hrest).mpr ⟨hothers, hresult⟩
        exact ⟨⟨turn, _, hturn, apply_clean hfield hturn hhere, h⟩, hclean⟩

/-! ## The values of the fields -/

theorem Clean.write (h : Clean runtime ambient rawRecord field) {value : Value}
    (hvalue : currentValue runtime ambient rawRecord field = .ok (some value))
    (hpresent : isMissingValue (some value) = false) :
    ∃ coerced, coerceValue runtime value field = .ok (.ok coerced) ∧
      fieldWrite runtime ambient rawRecord field =
        some (splitPath field.outputPath, coerced) := by
  obtain ⟨turn, hturn, hclean⟩ := h
  obtain ⟨current, hcurrent, hcomes⟩ := comesTo_of_fieldTurn hturn
  obtain rfl := Except.ok.inj (hvalue.symm.trans hcurrent)
  rw [fieldWrite, hturn]
  cases hcomes with
  | missing => cases hclean
  | absent _ hmissing => exact absurd hmissing (by simp [hpresent])
  | refused => cases hclean
  | written hread _ hcoerced =>
      obtain rfl := Option.some.inj hread
      exact ⟨_, hcoerced, rfl⟩

theorem fieldWrite_eq_some {write : List String × Json}
    (h : fieldWrite runtime ambient rawRecord field = some write) :
    Present runtime ambient rawRecord field ∧
      write.1 = splitPath field.outputPath := by
  rw [fieldWrite] at h
  cases hturn : fieldTurn runtime ambient rawRecord field with
  | error failure =>
      rw [hturn] at h
      cases h
  | ok turn =>
      rw [hturn] at h
      cases turn with
      | reject code message => cases h
      | skip => cases h
      | write value =>
          obtain rfl := Option.some.inj h
          obtain ⟨current, hcurrent, hcomes⟩ := comesTo_of_fieldTurn hturn
          cases hcomes with
          | written hread hpresent _ =>
              subst hread
              exact ⟨⟨_, hcurrent, hpresent⟩, rfl⟩

theorem fieldTurn_ambient {ambient' : Ambient} (hfree : field.compute = none) :
    fieldTurn runtime ambient' rawRecord field =
      fieldTurn runtime ambient rawRecord field := by
  simp only [fieldTurn, currentValue, sourceValue, hfree]

theorem fieldWrite_ambient {ambient' : Ambient} (hfree : field.compute = none) :
    fieldWrite runtime ambient' rawRecord field =
      fieldWrite runtime ambient rawRecord field := by
  rw [fieldWrite, fieldTurn_ambient hfree, fieldWrite]

theorem Clean.anyAmbient {ambient' : Ambient} (hfree : field.compute = none)
    (h : Clean runtime ambient rawRecord field) :
    Clean runtime ambient' rawRecord field := by
  obtain ⟨turn, hturn, hclean⟩ := h
  exact ⟨turn, (fieldTurn_ambient hfree).trans hturn, hclean⟩

/-! ## The order of the entries -/

theorem Runnable.path_ne_nil (h : Runnable field) :
    splitPath field.outputPath ≠ [] := (assertSafePath_ok h.output).2

theorem fieldWrites_paths (hfields : ∀ field ∈ fields, Runnable field) :
    ∀ write ∈ fields.filterMap (fieldWrite runtime ambient rawRecord),
      write.1 ≠ [] := by
  intro write hmem
  obtain ⟨field, hfield, hwrite⟩ := List.mem_filterMap.mp hmem
  rw [(fieldWrite_eq_some hwrite).2]
  exact (hfields field hfield).path_ne_nil

/-- No two fields with a value have overlapping output paths. -/
def PathsApart (runtime : Runtime) (ambient : Ambient) (rawRecord : Record)
    (fields : List NormalizedMappingField) : Prop :=
  fields.Pairwise fun first second =>
    Present runtime ambient rawRecord first →
    Present runtime ambient rawRecord second →
    Apart (splitPath first.outputPath) (splitPath second.outputPath)

theorem fieldWrites_apart (h : PathsApart runtime ambient rawRecord fields) :
    (fields.filterMap (fieldWrite runtime ambient rawRecord)).Pairwise
      fun first second => Apart first.1 second.1 := by
  refine List.Pairwise.filterMap _ ?_ h
  intro first second hapart write hwrite write' hwrite'
  obtain ⟨hpresent, hpath⟩ := fieldWrite_eq_some hwrite
  obtain ⟨hpresent', hpath'⟩ := fieldWrite_eq_some hwrite'
  rw [hpath, hpath']
  exact hapart hpresent hpresent'

theorem Compiles.perm {mappingJson mappingJson' : Json}
    {entries entries' : List (String × Json)}
    (h : Compiles runtime mappingJson fields)
    (hextract : extractMappingCandidates mappingJson = .ok (.ok entries))
    (hextract' : extractMappingCandidates mappingJson' = .ok (.ok entries'))
    (hperm : entries'.Perm entries) :
    ∃ fields', Compiles runtime mappingJson' fields' ∧
      fields'.Perm fields := by
  obtain ⟨found, hfound, hfields⟩ := h
  obtain rfl := Except.ok.inj (Except.ok.inj (hextract.symm.trans hfound))
  obtain ⟨fields', hfields', hperm'⟩ := List.perm_comp_forall₂ hperm hfields
  exact ⟨fields', ⟨entries', hextract', hfields'⟩, hperm'⟩

theorem transform_perm {ambient' : Ambient}
    {fields' : List NormalizedMappingField}
    (hfields : ∀ field ∈ fields, Runnable field)
    (hfree : ComputeFree fields)
    (hpaths : PathsApart runtime ambient rawRecord fields)
    (hresult : transformRecordWithCompiledMapping runtime ambient rawRecord
      fields = .ok result) (hclean : result.errors = [])
    (hperm : fields'.Perm fields) :
    ∃ result', transformRecordWithCompiledMapping runtime ambient' rawRecord
        fields' = .ok result' ∧ result'.errors = [] ∧
      Json.Reordered (.obj result.normalized) (.obj result'.normalized) := by
  obtain ⟨hall, rfl⟩ := (transformFields_clean_iff hfields).mp
    ⟨hresult, hclean⟩
  have hall' : ∀ field ∈ fields', Clean runtime ambient' rawRecord field :=
    fun field hmem =>
      (hall field (hperm.mem_iff.mp hmem)).anyAmbient
        (hfree field (hperm.mem_iff.mp hmem))
  have hfields' : ∀ field ∈ fields', Runnable field := fun field hmem =>
    hfields field (hperm.mem_iff.mp hmem)
  obtain ⟨hresult', hclean'⟩ := (@transformFields_clean_iff runtime ambient'
    rawRecord fields' _ hfields' []).mpr ⟨hall', rfl⟩
  refine ⟨_, hresult', hclean', ?_⟩
  have hsame : fields'.filterMap (fieldWrite runtime ambient' rawRecord) =
      fields'.filterMap (fieldWrite runtime ambient rawRecord) :=
    List.filterMap_congr fun field hmem =>
      fieldWrite_ambient (hfree field (hperm.mem_iff.mp hmem))
  simp only [hsame]
  exact writeAll_perm (fieldWrites_paths hfields)
    (fieldWrites_apart hpaths) (hperm.symm.filterMap _)

/-! ## No silent overwriting -/

theorem value_kept {before after : List NormalizedMappingField} {value : Value}
    (hfields : ∀ field ∈ fields, Runnable field)
    (hresult : transformRecordWithCompiledMapping runtime ambient rawRecord
      fields = .ok result) (hclean : result.errors = [])
    (hsplit : fields = before ++ field :: after)
    (hvalue : currentValue runtime ambient rawRecord field = .ok (some value))
    (hpresent : isMissingValue (some value) = false)
    (hlater : ∀ later ∈ after, Present runtime ambient rawRecord later →
      Apart (splitPath field.outputPath) (splitPath later.outputPath)) :
    ∃ coerced, coerceValue runtime value field = .ok (.ok coerced) ∧
      getByPath result.normalized field.outputPath =
        .ok (some (.json coerced)) := by
  have hmem : field ∈ fields := by simp [hsplit]
  have hfield : Runnable field := hfields field hmem
  obtain ⟨hall, rfl⟩ := (transformFields_clean_iff hfields).mp
    ⟨hresult, hclean⟩
  obtain ⟨coerced, hcoerced, hwrite⟩ :=
    (hall field hmem).write hvalue hpresent
  refine ⟨coerced, hcoerced, ?_⟩
  have hapart : ∀ write ∈
      after.filterMap (fieldWrite runtime ambient rawRecord),
      Apart (splitPath field.outputPath) write.1 := by
    intro write hmem
    obtain ⟨later, hafter, hlaterWrite⟩ := List.mem_filterMap.mp hmem
    obtain ⟨hthere, hpath⟩ := fieldWrite_eq_some hlaterWrite
    rw [hpath]
    exact hlater later hafter hthere
  rw [getByPath, hfield.output, hsplit, List.filterMap_append,
    List.filterMap_cons_some hwrite, writeAll_append]
  have hwritten : readPath (splitPath field.outputPath)
      (setSegments coerced (splitPath field.outputPath) (writeAll
        (before.filterMap (fieldWrite runtime ambient rawRecord)) [])) =
      some (.json coerced) := readPath_setSegments hfield.path_ne_nil
  have hkept := readPath_writeAll hapart hwritten
  exact congrArg Except.ok hkept

/-- In a record without errors each field with a value keeps it, where no later
such field overlaps it; and the order of the entries does not matter where no
two such fields overlap. -/
theorem mapped_fields_kept {mappingJson : Json}
    (hcompiled : compileMapping runtime mappingJson = .ok fields)
    (hresult : transformRecordWithCompiledMapping runtime ambient rawRecord
      fields = .ok result) (hclean : result.errors = []) :
    (∀ before field after value, fields = before ++ field :: after →
      currentValue runtime ambient rawRecord field = .ok (some value) →
      isMissingValue (some value) = false →
      (∀ later ∈ after, Present runtime ambient rawRecord later →
        Apart (splitPath field.outputPath) (splitPath later.outputPath)) →
      ∃ coerced, coerceValue runtime value field = .ok (.ok coerced) ∧
        getByPath result.normalized field.outputPath =
          .ok (some (.json coerced))) ∧
    (ComputeFree fields → PathsApart runtime ambient rawRecord fields →
      ∀ mappingJson' entries entries' ambient',
        extractMappingCandidates mappingJson = .ok (.ok entries) →
        extractMappingCandidates mappingJson' = .ok (.ok entries') →
        entries'.Perm entries →
        ∃ fields' result', compileMapping runtime mappingJson' = .ok fields' ∧
          transformRecordWithCompiledMapping runtime ambient' rawRecord
            fields' = .ok result' ∧ result'.errors = [] ∧
          Json.Reordered (.obj result.normalized)
            (.obj result'.normalized)) := by
  have hcompiles : Compiles runtime mappingJson fields :=
    compileMapping_ok_iff.mp hcompiled
  have hfields : ∀ field ∈ fields, Runnable field :=
    runnable_of_compiles hcompiles
  constructor
  · intro before field after value hsplit hvalue hpresent hlater
    exact value_kept hfields hresult hclean hsplit hvalue hpresent hlater
  · intro hfree hpaths mappingJson' entries entries' ambient' hextract
      hextract' hperm
    obtain ⟨fields', hcompiles', hperm'⟩ :=
      hcompiles.perm hextract hextract' hperm
    obtain ⟨result', hresult', hclean', hsame⟩ :=
      transform_perm hfields hfree hpaths hresult hclean hperm'
    exact ⟨fields', result', compileMapping_ok_iff.mpr hcompiles', hresult',
      hclean', hsame⟩

end TransformationEngineService

namespace Sample

open TransformationEngineService

def overlapping : Record := [("a", .str "x"), ("a.b", .str "y")]

def overlappingRecord : Record := [("x", .nat 1), ("y", .nat 2)]

/-- The first field is overwritten by the second, and the other way round in the
other order of the entries. -/
theorem mapped_fields_kept_fails :
    transformRecord runtime ⟨0, 0⟩ overlappingRecord (.obj overlapping) =
        .ok ⟨[("a", .obj [("b", .nat 2)])], []⟩ ∧
      transformRecord runtime ⟨0, 0⟩ overlappingRecord
        (.obj overlapping.reverse) = .ok ⟨[("a", .nat 1)], []⟩ ∧
      (∃ field fields, compileMapping runtime (.obj overlapping) =
          .ok (field :: fields) ∧ field.outputPath = "a" ∧
        currentValue runtime ⟨0, 0⟩ overlappingRecord field =
          .ok (some (.json (.nat 1))) ∧
        coerceValue runtime (.json (.nat 1)) field = .ok (.ok (.nat 1))) ∧
      Paths.getByPath [("a", .obj [("b", .nat 2)])] "a" =
        .ok (some (.json (.obj [("b", .nat 2)]))) :=
  ⟨rfl, rfl, ⟨_, _, rfl, rfl, rfl, rfl⟩, rfl⟩

def apartMapping : Record :=
  [("name", .str "contact.name"), ("meta.sequence", .str "sequence")]

def pathField (outputPath sourcePath : String) : NormalizedMappingField where
  outputPath := outputPath
  sourcePath := sourcePath
  required := false
  hasDefault := false
  defaultValue := none
  type := .json
  trim := false
  lowercase := false
  uppercase := false
  compute := none

def apartFields : List NormalizedMappingField :=
  [pathField "name" "contact.name", pathField "meta.sequence" "sequence"]

theorem computeFree_apartFields : ComputeFree apartFields := by
  simp [ComputeFree, apartFields, pathField]

theorem pathsApart_apartFields :
    PathsApart runtime ⟨0, 0⟩ (ensureRecordObject contact.raw) apartFields := by
  refine List.pairwise_pair.mpr fun _ _ => ?_
  decide +kernel

/-- In the other order the entries give the same data. -/
theorem mapped_fields_kept_of_contact :
    ∃ fields' result', compileMapping runtime (.obj apartMapping.reverse) =
        .ok fields' ∧
      transformRecordWithCompiledMapping runtime ⟨0, 0⟩
        (ensureRecordObject contact.raw) fields' = .ok result' ∧
      result'.errors = [] ∧
      Json.Reordered (.obj [("name", .str "Ada"),
        ("meta", .obj [("sequence", .nat 1)])]) (.obj result'.normalized) := by
  have hcompiled : compileMapping runtime (.obj apartMapping) =
      .ok apartFields := rfl
  have hresult : transformRecordWithCompiledMapping runtime ⟨0, 0⟩
      (ensureRecordObject contact.raw) apartFields =
        .ok ⟨[("name", .str "Ada"), ("meta", .obj [("sequence", .nat 1)])],
          []⟩ := rfl
  exact (mapped_fields_kept hcompiled hresult rfl).2 computeFree_apartFields
    pathsApart_apartFields _ _ _ ⟨0, 0⟩ rfl rfl (List.reverse_perm _)

end Sample

end SyncBridge
