import SyncBridge.Transformations.Paths

/-!
# The transformation engine

`TransformationEngineService`: compiling the mapping of a pipeline, and
transforming a record by the compiled fields.
-/

namespace SyncBridge

/-- What the engine takes from the runtime. -/
structure Runtime where
  dates : Dates
  /-- `String(value)` of a number. -/
  numberText : ℚ → String
  toLowerCase : String → String
  toUpperCase : String → String
  /-- The text of a random value. -/
  randomUUID : Nat → String

namespace TransformationEngineService

open Paths

def createTransformationError (field code message : String)
    (path : Option String) : TransformationErrorDetail :=
  ⟨field, code, message, path⟩

section Conversions

variable (runtime : Runtime)

/-- The exception of `String(value)` for an object that hides `toString`. -/
def noPrimitive : Failure := .error "Cannot convert object to primitive value"

mutual

/-- `String(value)`.  A JSON object that has a `toString` of its own has none
that can be called. -/
def textOf : Json → Except Failure String
  | .null => .ok "null"
  | .bool value => .ok (if value then "true" else "false")
  | .num value => .ok (runtime.numberText value)
  | .str text => .ok text
  | .arr items => (textsOf items).map (",".intercalate)
  | .obj fields =>
      if fields.any fun field => field.1 = "toString" then .error noPrimitive
      else .ok "[object Object]"

/-- The items of an array, where `null` is left out. -/
def textsOf : List Json → Except Failure (List String)
  | [] => .ok []
  | item :: items => do
      let text ← match item with
        | .null => .ok ""
        | item => textOf item
      let texts ← textsOf items
      pure (text :: texts)

end

def methodText (name : String) : String := s!"function {name}() \x7b [native code] \x7d"

def textOfValue : Value → Except Failure String
  | .json value => textOf runtime value
  | .method name => .ok (methodText name)

end Conversions

def structuredClone : Value → Except Failure Json
  | .json value => .ok value
  | .method name => .error (.error s!"{methodText name} could not be cloned.")

/-- `!!value`. -/
def truthy : Option Json → Bool
  | none | some .null => false
  | some (.bool value) => value
  | some (.num value) => value ≠ 0
  | some (.str text) => !text.isEmpty
  | some (.arr _) | some (.obj _) => true

/-! ## Compiling a mapping -/

/-- `Object.entries(value)`. -/
def entriesOf : Json → List (String × Json)
  | .obj fields => fields
  | .arr items => items.zipIdx.map fun (item, index) => (toString index, item)
  | .str text => text.toList.zipIdx.map fun (char, index) =>
      (toString index, .str (String.singleton char))
  | _ => []

def extractMappingCandidates (mappingJson : Json) :
    Except Failure
      (Except TransformationErrorDetail (List (String × Json))) :=
  match mappingJson with
  | .null => .error
      (.error "Cannot read properties of null (reading 'fields')")
  | .obj fields =>
      match Record.get fields "fields" with
      | none => .ok (.ok fields)
      | some (.obj entries) => .ok (.ok entries)
      | some _ => .ok (.error (createTransformationError "fields"
          "MAPPING_INVALID" "mappingJson.fields must be an object" none))
  | value => .ok (.ok (entriesOf value))

def valueTypeOf : String → Option TransformationValueType
  | "string" => some .string
  | "number" => some .number
  | "boolean" => some .boolean
  | "date" => some .date
  | "json" => some .json
  | _ => none

/-- `definition.type ?? 'json'`, where it is a supported type. -/
def fieldType (definition : Record) : Option TransformationValueType :=
  match definition.get "type" with
  | none | some .null => some .json
  | some (.str text) => valueTypeOf text
  | some _ => none

def fieldCompute (definition : Record) : Option (Option ComputeMode) :=
  match definition.get "compute" with
  | none => some none
  | some (.str "now") => some (some .now)
  | some (.str "uuid") => some (some .uuid)
  | some _ => none

def fieldSourcePath (definition : Record) : String :=
  match definition.get "path" with
  | some (.str text) => trim text
  | _ => ""

/-- The paths of a field are safe; a computed field may have no source path. -/
def assertSafePaths (outputPath sourcePath : String) : Except Failure Unit := do
  let _ ← assertSafePath outputPath
  if sourcePath.isEmpty then pure ()
  else let _ ← assertSafePath sourcePath

def compilePath (outputPath sourcePath : String) :
    Except TransformationErrorDetail NormalizedMappingField :=
  match (do let _ ← assertSafePath outputPath
            assertSafePath sourcePath : Except Failure (List String)) with
  | .error failure => .error (createTransformationError outputPath
      "PATH_UNSAFE" failure.message (some sourcePath))
  | .ok _ => .ok {
      outputPath := outputPath
      sourcePath := sourcePath
      required := false
      hasDefault := false
      defaultValue := none
      type := .json
      trim := false
      lowercase := false
      uppercase := false
      compute := none }

def isTrue (definition : Record) (key : String) : Bool :=
  match definition.get key with
  | some (.bool value) => value
  | _ => false

section Compiling

variable (runtime : Runtime)

/-- An entry that is a definition.  The texts of the errors may themselves
throw. -/
def compileDefinition (outputPath : String) (definition : Record) :
    Except Failure
      (Except TransformationErrorDetail NormalizedMappingField) := do
  let sourcePath := fieldSourcePath definition
  if sourcePath.isEmpty && (definition.get "compute").isNone then
    return .error (createTransformationError outputPath "MAPPING_INVALID"
      s!"Field mapping for {outputPath} must include a non-empty path or compute mode"
      none)
  match assertSafePaths outputPath sourcePath with
  | .error failure => return .error (createTransformationError outputPath
      "PATH_UNSAFE" failure.message (some sourcePath))
  | .ok _ =>
  match fieldType definition with
  | none =>
      let text ← textOf runtime ((definition.get "type").getD .null)
      return .error (createTransformationError outputPath "UNSUPPORTED_TYPE"
        s!"Unsupported field type for {outputPath}: {text}" (some sourcePath))
  | some type =>
  match fieldCompute definition with
  | none =>
      let text ← textOf runtime ((definition.get "compute").getD .null)
      return .error (createTransformationError outputPath "MAPPING_INVALID"
        s!"Unsupported compute mode for {outputPath}: {text}" (some sourcePath))
  | some compute =>
  if truthy (definition.get "lowercase") && truthy (definition.get "uppercase")
  then
    return .error (createTransformationError outputPath "MAPPING_INVALID"
      s!"Field {outputPath} cannot set both lowercase and uppercase"
      (some sourcePath))
  return .ok {
    outputPath := outputPath
    sourcePath := sourcePath
    required := isTrue definition "required"
    hasDefault := (definition.get "default").isSome
    defaultValue := definition.get "default"
    type := type
    trim := isTrue definition "trim"
    lowercase := isTrue definition "lowercase"
    uppercase := isTrue definition "uppercase"
    compute := compute }

def compileEntry (entry : String × Json) :
    Except Failure (Except TransformationErrorDetail NormalizedMappingField) :=
  match entry.2 with
  | .str sourcePath => .ok (compilePath entry.1 sourcePath)
  | .obj definition => compileDefinition runtime entry.1 definition
  | _ => .ok (.error (createTransformationError entry.1 "MAPPING_INVALID"
      s!"Field mapping for {entry.1} must be an object" none))

structure Compiled where
  errors : List TransformationErrorDetail := []
  normalizedFields : List NormalizedMappingField := []

def Compiled.add (compiled : Compiled) :
    Except TransformationErrorDetail NormalizedMappingField → Compiled
  | .error error => { compiled with errors := compiled.errors ++ [error] }
  | .ok field => { compiled with
      normalizedFields := compiled.normalizedFields ++ [field] }

def compileEntries (mappingJson : Json) : Except Failure Compiled := do
  match ← extractMappingCandidates mappingJson with
  | .error error => pure { errors := [error] }
  | .ok entries => entries.foldlM (fun compiled entry => do
      let field ← compileEntry runtime entry
      pure (compiled.add field)) {}

def compileMapping (mappingJson : Json) :
    Except Failure (List NormalizedMappingField) := do
  let compiled ← compileEntries runtime mappingJson
  if compiled.errors.length > 0 then
    .error (.mappingValidation (compiled.errors.map
      TransformationErrorDetail.message))
  else pure compiled.normalizedFields

end Compiling

/-! ## Transforming a record -/

def isMissingValue : Option Value → Bool
  | none | some (.json .null) => true
  | some (.json (.str text)) => (trim text).isEmpty
  | some _ => false

def valueOrDefault (field : NormalizedMappingField) (value : Option Value) :
    Option Value :=
  if isMissingValue value && field.hasDefault then
    field.defaultValue.map Value.json
  else value

section Transforming

variable (runtime : Runtime)

def coerceString (field : NormalizedMappingField) (text : String) : String :=
  let text := if field.trim then trim text else text
  let text := if field.lowercase then runtime.toLowerCase text else text
  if field.uppercase then runtime.toUpperCase text else text

def coerceNumber : Value → Option ℚ
  | .json (.num value) => some value
  | .json (.str text) => number (trim text)
  | _ => none

def coerceBoolean : Value → Option Bool
  | .json (.bool value) => some value
  | .json (.num value) =>
      if value = 1 then some true else if value = 0 then some false else none
  | .json (.str text) =>
      let normalized := toLowerCase (trim text)
      if ["true", "1", "yes"].contains normalized then some true
      else if ["false", "0", "no"].contains normalized then some false
      else none
  | _ => none

def coerceValue (value : Value) (field : NormalizedMappingField) :
    Except Failure (Except String Json) :=
  match field.type with
  | .json => (structuredClone value).map .ok
  | .string => do
      let text ← textOfValue runtime value
      pure (.ok (.str (coerceString runtime field text)))
  | .number =>
      match coerceNumber value with
      | some candidate => .ok (.ok (.num candidate))
      | none => .ok
          (.error s!"Cannot coerce field {field.outputPath} to number")
  | .boolean =>
      match coerceBoolean value with
      | some flag => .ok (.ok (.bool flag))
      | none => .ok
          (.error s!"Cannot coerce field {field.outputPath} to boolean")
  | .date => do
      let text ← textOfValue runtime value
      pure (match runtime.dates.parse text with
      | some date => .ok (.str (runtime.dates.toISOString date))
      | none => .error s!"Cannot coerce field {field.outputPath} to date")

def computeValue (ambient : Ambient) : ComputeMode → Json
  | .now => runtime.dates.json (some ambient.now)
  | .uuid => .str (runtime.randomUUID ambient.random)

def sourceValue (ambient : Ambient) (rawRecord : Record)
    (field : NormalizedMappingField) : Except Failure (Option Value) :=
  match field.compute with
  | some mode => .ok (some (.json (computeValue runtime ambient mode)))
  | none => getByPath rawRecord field.sourcePath

def fieldError (state : TransformationResult) (field : NormalizedMappingField)
    (code message : String) : TransformationResult :=
  { state with
    errors := state.errors ++ [createTransformationError field.outputPath code
      message (some field.sourcePath)] }

/-- One turn of the loop over the fields. -/
def transformField (ambient : Ambient) (rawRecord : Record)
    (state : TransformationResult) (field : NormalizedMappingField) :
    Except Failure TransformationResult := do
  let read ← sourceValue runtime ambient rawRecord field
  let current := valueOrDefault field read
  if field.required && isMissingValue current then
    return fieldError state field "REQUIRED_FIELD_MISSING"
      s!"Required field {field.outputPath} is missing"
  match current with
  | none => return state
  | some value =>
      if isMissingValue (some value) then return state
      match ← coerceValue runtime value field with
      | .error message =>
          return fieldError state field "TYPE_COERCION_FAILED" message
      | .ok coerced =>
          let normalized ←
            setByPath state.normalized field.outputPath coerced
          return { state with normalized := normalized }

def transformRecordWithCompiledMapping (ambient : Ambient) (rawRecord : Record)
    (fields : List NormalizedMappingField) :
    Except Failure TransformationResult :=
  fields.foldlM (transformField runtime ambient rawRecord) ⟨[], []⟩

def transformRecord (ambient : Ambient) (rawRecord : Record)
    (mappingJson : Json) : Except Failure TransformationResult := do
  let fields ← compileMapping runtime mappingJson
  transformRecordWithCompiledMapping runtime ambient rawRecord fields

def engine : TransformationEngine where
  compileMapping := compileMapping runtime
  transformRecordWithCompiledMapping :=
    transformRecordWithCompiledMapping runtime

/-! ## Mappings without compute mode -/

def ComputeFree (fields : List NormalizedMappingField) : Prop :=
  ∀ field ∈ fields, field.compute = none

variable {runtime} {first second : Ambient} {rawRecord : Record}

theorem transformField_ambient {state : TransformationResult}
    {field : NormalizedMappingField} (hfree : field.compute = none) :
    transformField runtime first rawRecord state field =
      transformField runtime second rawRecord state field := by
  have hsource : sourceValue runtime first rawRecord field =
      sourceValue runtime second rawRecord field := by
    simp only [sourceValue, hfree]
  simp only [transformField, hsource]

theorem transformRecord_ambient {fields : List NormalizedMappingField}
    (hfree : ComputeFree fields) :
    transformRecordWithCompiledMapping runtime first rawRecord fields =
      transformRecordWithCompiledMapping runtime second rawRecord fields := by
  simp only [transformRecordWithCompiledMapping]
  generalize (⟨[], []⟩ : TransformationResult) = state
  induction fields generalizing state with
  | nil => rfl
  | cons field fields ih =>
      have hfield : field.compute = none := hfree field List.mem_cons_self
      have hrest : ComputeFree fields := fun other hother =>
        hfree other (List.mem_cons_of_mem field hother)
      have hturn : transformField runtime first rawRecord state field =
          transformField runtime second rawRecord state field :=
        transformField_ambient hfield
      simp only [List.foldlM_cons, hturn, ih hrest]

end Transforming

end TransformationEngineService

end SyncBridge
