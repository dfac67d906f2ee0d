import Mathlib.Data.List.Pairwise
import SyncBridge.Transformations.PathLaws
import SyncBridge.Transformations.Required

/-!
# Transformed records conform to their mapping

A transformed record holds values of the mapped types at the mapped paths and
nothing anywhere else, and it was made from the source paths alone: whatever
else there is in the raw record neither gets into the result nor changes it.
-/

namespace SyncBridge

namespace Paths

/-! ## Values held by own properties -/

section Own

variable {path other : List String} {value held : Json} {target : Record}

theorem ownValue_cons {key : String} (hpath : path ≠ []) :
    ownValue (key :: path) target =
      match target.get key with
      | some (.obj fields) => ownValue path fields
      | _ => none := by
  cases path with
  | nil => exact absurd rfl hpath
  | cons segment path => rfl

theorem ownValue_setSegments (hpath : path ≠ []) :
    ownValue path (setSegments value path target) = some value := by
  induction path generalizing target with
  | nil => exact absurd rfl hpath
  | cons segment path ih =>
      cases path with
      | nil => simp [ownValue, setSegments]
      | cons next rest =>
          rw [ownValue_cons (List.cons_ne_nil next rest), get_setSegments,
            if_pos rfl]
          exact ih (List.cons_ne_nil next rest)

theorem ownValue_objectBelow {key : String} (hpath : path ≠ []) :
    ownValue (key :: path) target = ownValue path (objectBelow target key) := by
  have hempty : ownValue path [] = none := by
    cases path with
    | nil => exact absurd rfl hpath
    | cons segment rest => cases rest <;> rfl
  rw [ownValue_cons hpath]
  cases hget : target.get key with
  | none => simp only [objectBelow, hget, hempty]
  | some value =>
      cases value with
      | obj fields => simp only [objectBelow, hget]
      | _ => simp only [objectBelow, hget, hempty]

theorem ownValue_apart (hapart : Apart path other) :
    ownValue path (setSegments value other target) = ownValue path target := by
  induction path generalizing other target with
  | nil => exact absurd hapart not_apart_nil
  | cons segment path ih =>
      cases other with
      | nil => exact absurd hapart.symm not_apart_nil
      | cons segment' other =>
          by_cases hsegment : segment = segment'
          · subst hsegment
            have hrest : Apart path other := apart_cons.mp hapart
            have hpath : path ≠ [] := fun hnil => not_apart_nil (hnil ▸ hrest)
            have hother : other ≠ [] := fun hnil =>
              not_apart_nil (hnil ▸ hrest.symm)
            obtain ⟨next, rest, rfl⟩ := List.exists_cons_of_ne_nil hother
            rw [ownValue_cons hpath, get_setSegments, if_pos rfl,
              ownValue_objectBelow hpath]
            exact ih hrest
          · have hget : (setSegments value (segment' :: other) target).get
                segment = target.get segment := by
              rw [get_setSegments, if_neg hsegment]
            cases path with
            | nil => exact hget
            | cons next rest =>
                rw [ownValue_cons (List.cons_ne_nil next rest), hget,
                  ownValue_cons (List.cons_ne_nil next rest)]

theorem ownValue_writeAll_apart {writes : List (List String × Json)}
    (hapart : ∀ write ∈ writes, Apart path write.1) :
    ownValue path (writeAll writes target) = ownValue path target := by
  induction writes generalizing target with
  | nil => rfl
  | cons write writes ih =>
      have hrest := @ih (setSegments write.2 write.1 target)
        fun other hother => hapart other (List.mem_cons_of_mem write hother)
      exact hrest.trans (ownValue_apart (hapart write List.mem_cons_self))

/-- Where no two writes overlap, each of them shows. -/
theorem ownValue_writeAll {writes : List (List String × Json)}
    {write : List String × Json} (hmem : write ∈ writes)
    (hpath : write.1 ≠ [])
    (hapart : writes.Pairwise fun first second => Apart first.1 second.1) :
    ownValue write.1 (writeAll writes target) = some write.2 := by
  obtain ⟨before, after, rfl⟩ := List.append_of_mem hmem
  have hlater : ∀ later ∈ after, Apart write.1 later.1 := by
    rw [List.pairwise_append, List.pairwise_cons] at hapart
    exact hapart.2.1.1
  rw [writeAll, List.foldl_append]
  exact (ownValue_writeAll_apart hlater).trans (ownValue_setSegments hpath)

@[simp] theorem readSegments_none : readSegments path none = none := by
  cases path <;> rfl

/-- Where there is no object, nothing is read from below.  The members of
`Object.prototype` would be. -/
theorem readPath_objectBelow {key : String} (hpath : path ≠ [])
    (hplain : ∀ segment ∈ path, segment ∉ prototypeMethods) :
    readPath path (objectBelow target key) =
      readSegments path (readKey target key) := by
  obtain ⟨segment, rest, rfl⟩ := List.exists_cons_of_ne_nil hpath
  have hempty : readPath (segment :: rest) [] = none := by
    have hsegment := hplain segment List.mem_cons_self
    simp [readPath_cons, readKey, Record.get, hsegment]
  simp only [objectBelow, readKey]
  split
  · rename_i fields hget
    rw [hget]
    rfl
  · rename_i hother
    rw [hempty]
    cases hget : target.get key with
    | none =>
        simp only
        split <;> rfl
    | some found =>
        cases found with
        | obj fields => exact absurd hget (hother fields)
        | _ => rfl

theorem readPath_apart_of_plain (hapart : Apart path other)
    (hplain : ∀ segment ∈ path, segment ∉ prototypeMethods) :
    readPath path (setSegments value other target) = readPath path target := by
  induction path generalizing other target with
  | nil => exact absurd hapart not_apart_nil
  | cons segment path ih =>
      obtain ⟨-, hplainRest⟩ := List.forall_mem_cons.mp hplain
      cases other with
      | nil => exact absurd hapart.symm not_apart_nil
      | cons segment' other =>
          by_cases hsegment : segment = segment'
          · subst hsegment
            have hrest : Apart path other := apart_cons.mp hapart
            have hpath : path ≠ [] := fun hnil => not_apart_nil (hnil ▸ hrest)
            have hother : other ≠ [] := fun hnil =>
              not_apart_nil (hnil ▸ hrest.symm)
            obtain ⟨next, rest, rfl⟩ := List.exists_cons_of_ne_nil hother
            rw [readPath_cons,
              readKey_of_get (by rw [get_setSegments, if_pos rfl])]
            exact (ih hrest hplainRest).trans
              (readPath_objectBelow hpath hplainRest)
          · rw [readPath_cons, readKey, get_setSegments, if_neg hsegment,
              ← readKey, ← readPath_cons]

end Own

end Paths

namespace TransformationEngineService

open Paths SyncBridge.Foundation

variable {runtime : Runtime} {ambient : Ambient} {rawRecord : Record}
  {field : NormalizedMappingField} {fields : List NormalizedMappingField}
  {result : TransformationResult}

/-! ## Types -/

def Fits (runtime : Runtime) (field : NormalizedMappingField) (value : Json) :
    Prop :=
  match field.type with
  | .string => ∃ text, value = .str (coerceString runtime field text)
  | .number => ∃ candidate, value = .num candidate
  | .boolean => ∃ flag, value = .bool flag
  | .date => ∃ date, value = .str (runtime.dates.toISOString date)
  | .json => True

theorem fits_of_coerceValue {value : Value} {coerced : Json}
    (h : coerceValue runtime value field = .ok (.ok coerced)) :
    Fits runtime field coerced := by
  simp only [coerceValue] at h
  rw [Fits]
  cases htype : field.type with
  | json => trivial
  | string =>
      rw [htype] at h
      obtain ⟨text, -, h⟩ := bind_eq_ok.mp h
      obtain rfl := Except.ok.inj (Except.ok.inj h)
      exact ⟨text, rfl⟩
  | number =>
      rw [htype] at h
      simp only at h
      split at h
      · obtain rfl := Except.ok.inj (Except.ok.inj h)
        exact ⟨_, rfl⟩
      · cases h
  | boolean =>
      rw [htype] at h
      simp only at h
      split at h
      · obtain rfl := Except.ok.inj (Except.ok.inj h)
        exact ⟨_, rfl⟩
      · cases h
  | date =>
      rw [htype] at h
      obtain ⟨text, -, h⟩ := bind_eq_ok.mp h
      simp only [pure, Except.pure, Except.ok.injEq] at h
      split at h
      · obtain rfl := Except.ok.inj h
        exact ⟨_, rfl⟩
      · cases h

theorem fits_of_fieldWrite {write : List String × Json}
    (h : fieldWrite runtime ambient rawRecord field = some write) :
    Fits runtime field write.2 := by
  rw [fieldWrite] at h
  cases hturn : fieldTurn runtime ambient rawRecord field with
  | error failure =>
      rw [hturn] at h
      cases h
  | ok turn =>
      rw [hturn] at h
      cases turn with
      | reject code message => cases h
      | skip => cases h
      | write value =>
          obtain rfl := Option.some.inj h
          obtain ⟨current, -, hcomes⟩ := comesTo_of_fieldTurn hturn
          cases hcomes with
          | written _ _ hcoerced => exact fits_of_coerceValue hcoerced

/-! ## Conformance -/

/-- A record as a mapping describes it. -/
structure OutputConforms (runtime : Runtime) (fields : List NormalizedMappingField)
    (normalized : Record) : Prop where
  typed : ∀ field ∈ fields, ∀ value,
    ownValue (splitPath field.outputPath) normalized = some value →
    Fits runtime field value
  required : ∀ field ∈ fields, field.required = true →
    (ownValue (splitPath field.outputPath) normalized).isSome
  /-- What there is lies on the way to a mapped path or below one. -/
  mapped : ∀ path value, path ≠ [] → ownValue path normalized = some value →
    ∃ field ∈ fields, ¬ Apart path (splitPath field.outputPath)

theorem apply_normalized (hfield : Runnable field) {turn : Turn}
    {state next : TransformationResult}
    (hturn : fieldTurn runtime ambient rawRecord field = .ok turn)
    (happly : turn.apply field state = .ok next) :
    next.normalized = writeAll (fieldWrite runtime ambient rawRecord
      field).toList state.normalized := by
  rw [fieldWrite, hturn]
  cases turn with
  | reject code message =>
      obtain rfl := Except.ok.inj happly
      rfl
  | skip =>
      obtain rfl := Except.ok.inj happly
      rfl
  | write value =>
      simp only [Turn.apply, setByPath, hfield.output] at happly
      obtain rfl := Except.ok.inj happly
      rfl

/-- What a record is transformed to, with errors or without, are the writes of
its fields. -/
theorem transformFields_normalized (hfields : ∀ field ∈ fields, Runnable field)
    {state : TransformationResult}
    (h : fields.foldlM (transformField runtime ambient rawRecord) state =
      .ok result) :
    result.normalized = writeAll
      (fields.filterMap (fieldWrite runtime ambient rawRecord))
      state.normalized := by
  induction fields generalizing state with
  | nil =>
      obtain rfl := Except.ok.inj h
      rfl
  | cons field fields ih =>
      obtain ⟨turn, next, hturn, happly, hrest⟩ :=
        transformFields_cons_ok_iff.mp h
      have hfield : Runnable field := hfields field List.mem_cons_self
      rw [filterMap_cons_toList, writeAll_append,
        ← apply_normalized hfield hturn happly]
      exact ih (fun other hother =>
        hfields other (List.mem_cons_of_mem field hother)) hrest

theorem ownValue_empty {path : List String} (hpath : path ≠ []) :
    ownValue path [] = none := by
  cases path with
  | nil => exact absurd rfl hpath
  | cons segment rest => cases rest <;> rfl

theorem written_of_ownValue (hfields : ∀ field ∈ fields, Runnable field)
    (hresult : transformRecordWithCompiledMapping runtime ambient rawRecord
      fields = .ok result) {path : List String} {value : Json}
    (hpath : path ≠ [])
    (hvalue : ownValue path result.normalized = some value) :
    ∃ field ∈ fields, ∃ write,
      fieldWrite runtime ambient rawRecord field = some write ∧
        ¬ Apart path (splitPath field.outputPath) := by
  rw [transformFields_normalized hfields hresult] at hvalue
  by_contra hnone
  have hapart : ∀ write ∈
      fields.filterMap (fieldWrite runtime ambient rawRecord),
      Apart path write.1 := by
    intro write hmem
    obtain ⟨field, hfield, hwrite⟩ := List.mem_filterMap.mp hmem
    rw [(fieldWrite_eq_some hwrite).2]
    by_contra hoverlap
    exact hnone ⟨field, hfield, write, hwrite, hoverlap⟩
  rw [ownValue_writeAll_apart hapart, ownValue_empty hpath] at hvalue
  cases hvalue

theorem fieldWrite_of_ownValue (hfields : ∀ field ∈ fields, Runnable field)
    (hpaths : fields.Pairwise fun first second =>
      Apart (splitPath first.outputPath) (splitPath second.outputPath))
    (hresult : transformRecordWithCompiledMapping runtime ambient rawRecord
      fields = .ok result) (hmem : field ∈ fields) {value : Json}
    (hvalue : ownValue (splitPath field.outputPath) result.normalized =
      some value) :
    fieldWrite runtime ambient rawRecord field =
      some (splitPath field.outputPath, value) := by
  have hpath : splitPath field.outputPath ≠ [] :=
    (hfields field hmem).path_ne_nil
  obtain ⟨other, hother, write, hwrite, hoverlap⟩ :=
    written_of_ownValue hfields hresult hpath hvalue
  have hsymm : Std.Symm fun first second : NormalizedMappingField =>
      Apart (splitPath first.outputPath) (splitPath second.outputPath) :=
    ⟨fun _ _ h => h.symm⟩
  have hsame : other = field := by
    by_contra hne
    exact hoverlap (hpaths.forall hmem hother (Ne.symm hne))
  subst hsame
  obtain ⟨path, written⟩ := write
  obtain rfl : path = splitPath other.outputPath := (fieldWrite_eq_some hwrite).2
  have happears : ownValue (splitPath other.outputPath) result.normalized =
      some written := by
    rw [transformFields_normalized hfields hresult]
    refine ownValue_writeAll (List.mem_filterMap.mpr ⟨other, hmem, hwrite⟩)
      hpath ?_
    exact fieldWrites_apart (hpaths.imp fun h _ _ => h)
  obtain rfl := Option.some.inj (happears.symm.trans hvalue)
  exact hwrite

theorem conforms_of_transform (hfields : ∀ field ∈ fields, Runnable field)
    (hpaths : fields.Pairwise fun first second =>
      Apart (splitPath first.outputPath) (splitPath second.outputPath))
    (hresult : transformRecordWithCompiledMapping runtime ambient rawRecord
      fields = .ok result) (hclean : result.errors = []) :
    OutputConforms runtime fields result.normalized where
  typed field hmem value hvalue := by
    have hwrite := fieldWrite_of_ownValue hfields hpaths hresult hmem hvalue
    exact fits_of_fieldWrite hwrite
  required field hmem hrequired := by
    have hall := ((transformFields_clean_iff hfields).mp ⟨hresult, hclean⟩).1
    obtain ⟨value, hvalue, hpresent⟩ := (hall field hmem).present hrequired
    obtain ⟨coerced, -, hwrite⟩ := (hall field hmem).write hvalue hpresent
    have hheld := @ownValue_writeAll [] _ _
      (List.mem_filterMap.mpr ⟨field, hmem, hwrite⟩)
      (hfields field hmem).path_ne_nil
      (fieldWrites_apart (hpaths.imp fun h _ _ => h))
    rw [transformFields_normalized hfields hresult, hheld]
    rfl
  mapped path value hpath hvalue := by
    obtain ⟨field, hfield, -, -, hoverlap⟩ :=
      written_of_ownValue hfields hresult hpath hvalue
    exact ⟨field, hfield, hoverlap⟩

/-- A record that is transformed without errors is as its mapping describes it,
where no two output paths overlap. -/
theorem outputs_conform {mappingJson : Json}
    (hcompiled : compileMapping runtime mappingJson = .ok fields)
    (hpaths : fields.Pairwise fun first second =>
      Apart (splitPath first.outputPath) (splitPath second.outputPath))
    (hresult : transformRecordWithCompiledMapping runtime ambient rawRecord
      fields = .ok result) (hclean : result.errors = []) :
    OutputConforms runtime fields result.normalized :=
  conforms_of_transform
    (runnable_of_compiles (compileMapping_ok_iff.mp hcompiled)) hpaths hresult
    hclean

/-! ## Unmapped data -/

/-- Nothing that lies apart from the source paths plays a part. -/
theorem sourceValue_apart {segments : List String} {value : Json}
    (hfield : Runnable field)
    (happart : field.compute = none →
      Apart (splitPath field.sourcePath) segments ∧
        ∀ segment ∈ splitPath field.sourcePath, segment ∉ prototypeMethods) :
    sourceValue runtime ambient (setSegments value segments rawRecord) field =
      sourceValue runtime ambient rawRecord field := by
  simp only [sourceValue]
  cases hcompute : field.compute with
  | some mode => rfl
  | none =>
      obtain ⟨hapart, hplain⟩ := happart hcompute
      have hsource := hfield.source hcompute
      rw [getByPath_of_safe hsource, getByPath_of_safe hsource,
        readPath_apart_of_plain hapart hplain]

theorem transformField_apart {segments : List String} {value : Json}
    {state : TransformationResult} (hfield : Runnable field)
    (hapart : field.compute = none →
      Apart (splitPath field.sourcePath) segments ∧
        ∀ segment ∈ splitPath field.sourcePath, segment ∉ prototypeMethods) :
    transformField runtime ambient (setSegments value segments rawRecord) state
        field =
      transformField runtime ambient rawRecord state field := by
  simp only [transformField, sourceValue_apart hfield hapart]

theorem transformFields_apart {segments : List String} {value : Json}
    {state : TransformationResult} (hfields : ∀ field ∈ fields, Runnable field)
    (hapart : ∀ field ∈ fields, field.compute = none →
      Apart (splitPath field.sourcePath) segments ∧
        ∀ segment ∈ splitPath field.sourcePath, segment ∉ prototypeMethods) :
    fields.foldlM (transformField runtime ambient
        (setSegments value segments rawRecord)) state =
      fields.foldlM (transformField runtime ambient rawRecord) state := by
  induction fields generalizing state with
  | nil => rfl
  | cons field fields ih =>
      obtain ⟨hfield, hrest⟩ := List.forall_mem_cons.mp hfields
      obtain ⟨hhere, hothers⟩ := List.forall_mem_cons.mp hapart
      have hturn := @transformField_apart runtime ambient rawRecord field
        segments value state hfield hhere
      simp only [List.foldlM_cons, hturn, ih hrest hothers]

/-- With errors or without, the result has values on the mapped paths only, and
it does not depend on what the raw record has apart from the source paths. -/
theorem only_mapped_data {mappingJson : Json}
    (hcompiled : compileMapping runtime mappingJson = .ok fields)
    (hresult : transformRecordWithCompiledMapping runtime ambient rawRecord
      fields = .ok result) :
    (∀ path value, path ≠ [] → ownValue path result.normalized = some value →
      ∃ field ∈ fields, ¬ Apart path (splitPath field.outputPath)) ∧
    ∀ path value changed, setByPath rawRecord path value = .ok changed →
      (∀ field ∈ fields, field.compute = none →
        Apart (splitPath field.sourcePath) (splitPath path) ∧
          ∀ segment ∈ splitPath field.sourcePath,
            segment ∉ prototypeMethods) →
      transformRecordWithCompiledMapping runtime ambient changed fields =
        .ok result := by
  have hfields := runnable_of_compiles (compileMapping_ok_iff.mp hcompiled)
  refine ⟨fun path value hpath hvalue => ?_,
    fun path value changed hset hapart => ?_⟩
  · obtain ⟨field, hfield, write, -, hoverlap⟩ :=
      written_of_ownValue hfields hresult hpath hvalue
    exact ⟨field, hfield, hoverlap⟩
  · obtain ⟨segments, hsegments, hset⟩ := bind_eq_ok.mp hset
    obtain rfl := Except.ok.inj hset
    obtain rfl : segments = splitPath path :=
      Except.ok.inj (hsegments.symm.trans (assertSafePath_ok hsegments).1)
    exact (transformFields_apart hfields hapart).trans hresult

end TransformationEngineService

namespace Sample

open Paths TransformationEngineService

def personMapping : Record :=
  [("person.email", .obj [("path", .str "email"), ("required", .bool true),
    ("type", .str "string"), ("lowercase", .bool true)]),
   ("person.age", .obj [("path", .str "age"), ("type", .str "number")])]

def personFields : List NormalizedMappingField :=
  [{ outputPath := "person.email"
     sourcePath := "email"
     required := true
     hasDefault := false
     defaultValue := none
     type := .string
     trim := false
     lowercase := true
     uppercase := false
     compute := none },
   { outputPath := "person.age"
     sourcePath := "age"
     required := false
     hasDefault := false
     defaultValue := none
     type := .number
     trim := false
     lowercase := false
     uppercase := false
     compute := none }]

theorem compile_personMapping :
    compileMapping runtime (.obj personMapping) = .ok personFields := rfl

def person : Record :=
  [("email", .str "Ada@Example.org"), ("age", .num 36), ("notes", .str "new")]

def normalizedPerson : Record :=
  [("person", .obj [("email", .str "ada@example.org"), ("age", .num 36)])]

theorem transform_person :
    transformRecordWithCompiledMapping runtime ⟨0, 0⟩ person personFields =
      .ok ⟨normalizedPerson, []⟩ := rfl

theorem outputs_conform_of_person :
    OutputConforms runtime personFields normalizedPerson :=
  outputs_conform compile_personMapping (by decide +kernel) transform_person rfl

/-- The notes are not mapped. -/
theorem only_mapped_data_of_person :
    ∃ changed, setByPath person "notes" .null = .ok changed ∧
      transformRecordWithCompiledMapping runtime ⟨0, 0⟩ changed personFields =
        .ok ⟨normalizedPerson, []⟩ := by
  refine ⟨[("email", .str "Ada@Example.org"), ("age", .num 36),
    ("notes", .null)], rfl, ?_⟩
  refine (only_mapped_data compile_personMapping transform_person).2 "notes"
    .null _ rfl fun field hmem _ => ?_
  revert field
  decide +kernel

end Sample

end SyncBridge
