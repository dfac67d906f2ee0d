import SyncBridge.Sample
import SyncBridge.Services.Pipelines
import SyncBridge.Transformations.Compile

/-!
# Transforming a record, field by field

A turn of the loop over the fields reads a value, converts it and writes it.
Only the conversion can throw, so that a record is transformed exactly when each
of its values can be converted to the type of its field.
-/

namespace SyncBridge

/-- An object that has a key `toString` of its own, or an array with such an
item. -/
inductive Json.HidesToString : Json → Prop
  | obj {fields : Record} {value : Json} :
      ("toString", value) ∈ fields → HidesToString (.obj fields)
  | item {items : List Json} {value : Json} :
      value ∈ items → HidesToString value → HidesToString (.arr items)

/-- The values that can be converted to a type, or rejected as not convertible:
a function is not cloned, and a hidden `toString` is not called. -/
def Value.Convertible (type : TransformationValueType) : Value → Prop
  | .method _ => type ≠ .json
  | .json value => type = .string ∨ type = .date → ¬ value.HidesToString

namespace TransformationEngineService

open Paths SyncBridge.Foundation

variable {runtime : Runtime}

/-! ## Conversion -/

theorem hidesToString_arr_cons {item : Json} {items : List Json} :
    (Json.arr (item :: items)).HidesToString ↔
      item.HidesToString ∨ (Json.arr items).HidesToString := by
  constructor
  · rintro (_ | ⟨hmem, hhides⟩)
    rcases List.mem_cons.mp hmem with rfl | hmem
    · exact .inl hhides
    · exact .inr (.item hmem hhides)
  · rintro (hhides | ⟨_ | ⟨hmem, hhides⟩⟩)
    · exact .item List.mem_cons_self hhides
    · exact .item (List.mem_cons_of_mem _ hmem) hhides

theorem text_cons_ok_iff {text : Except Failure String}
    {texts : Except Failure (List String)} :
    (∃ result, (do
      let text ← text
      let texts ← texts
      pure (text :: texts) : Except Failure (List String)) = .ok result) ↔
      (∃ value, text = .ok value) ∧ ∃ values, texts = .ok values := by
  cases text <;> cases texts <;> simp [bind, Except.bind, pure, Except.pure]

mutual

theorem textOf_ok_iff : (value : Json) →
    ((∃ text, textOf runtime value = .ok text) ↔ ¬ value.HidesToString)
  | .null | .bool _ | .num _ | .str _ => by
      simp only [textOf, Except.ok.injEq, exists_eq', true_iff]
      intro hhides
      cases hhides
  | .arr items => by
      rw [← textsOf_ok_iff items]
      cases htexts : textsOf runtime items with
      | error failure => simp [textOf, htexts, Except.map]
      | ok texts => simp [textOf, htexts, Except.map]
  | .obj fields => by
      simp only [textOf]
      split
      · rename_i hkey
        obtain ⟨⟨key, value⟩, hmem, hname⟩ := List.any_eq_true.mp hkey
        obtain rfl : key = "toString" := by simpa using hname
        simp only [reduceCtorEq, exists_false, false_iff, not_not]
        exact .obj hmem
      · rename_i hkey
        simp only [Except.ok.injEq, exists_eq', true_iff]
        rintro (hmem | _)
        exact hkey (List.any_eq_true.mpr ⟨_, hmem, by simp⟩)

theorem textsOf_ok_iff : (items : List Json) →
    ((∃ texts, textsOf runtime items = .ok texts) ↔
      ¬ (Json.arr items).HidesToString)
  | [] => by
      simp only [textsOf, Except.ok.injEq, exists_eq', true_iff]
      rintro (_ | ⟨hmem, -⟩)
      cases hmem
  | item :: items => by
      rw [hidesToString_arr_cons, not_or, ← textsOf_ok_iff items,
        ← textOf_ok_iff item]
      by_cases hnull : item = .null
      · subst hnull
        rw [textsOf, text_cons_ok_iff]
        simp [textOf]
      · rw [textsOf, text_cons_ok_iff]
        exact hnull

end

theorem textOfValue_ok_iff {value : Value} :
    (∃ text, textOfValue runtime value = .ok text) ↔
      ∀ json, value = .json json → ¬ json.HidesToString := by
  cases value with
  | json json =>
      rw [textOfValue, textOf_ok_iff]
      exact ⟨fun h _ heq => Value.json.inj heq ▸ h, fun h => h json rfl⟩
  | method name => simp [textOfValue]

theorem map_ok_iff {α β : Type} {result : Except Failure α} {f : α → β} :
    (∃ value, result.map f = .ok value) ↔ ∃ value, result = .ok value := by
  cases result <;> simp [Except.map]

theorem structuredClone_ok_iff {value : Value} :
    (∃ json, structuredClone value = .ok json) ↔
      ∀ name, value ≠ .method name := by
  cases value <;> simp [structuredClone]

theorem bind_pure_ok_iff {α β : Type} {result : Except Failure α} {f : α → β} :
    (∃ value, (do
      let value ← result
      pure (f value) : Except Failure β) = .ok value) ↔
      ∃ value, result = .ok value := by
  cases result <;> simp [bind, Except.bind, pure, Except.pure]

theorem coerceValue_ok_iff {value : Value} {field : NormalizedMappingField} :
    (∃ coerced, coerceValue runtime value field = .ok coerced) ↔
      value.Convertible field.type := by
  simp only [coerceValue]
  cases htype : field.type with
  | json =>
      rw [map_ok_iff, structuredClone_ok_iff]
      cases value <;> simp [Value.Convertible]
  | string =>
      rw [bind_pure_ok_iff, textOfValue_ok_iff]
      cases value <;> simp [Value.Convertible]
  | date =>
      rw [bind_pure_ok_iff, textOfValue_ok_iff]
      cases value <;> simp [Value.Convertible]
  | number =>
      cases coerceNumber value <;> cases value <;> simp [Value.Convertible]
  | boolean =>
      cases coerceBoolean value <;> cases value <;> simp [Value.Convertible]

/-! ## A turn of the loop -/

def currentValue (runtime : Runtime) (ambient : Ambient) (rawRecord : Record)
    (field : NormalizedMappingField) : Except Failure (Option Value) :=
  (sourceValue runtime ambient rawRecord field).map (valueOrDefault field)

inductive Turn where
  | reject (code message : String)
  | skip
  | write (value : Json)

def turnOf (runtime : Runtime) (field : NormalizedMappingField)
    (current : Option Value) : Except Failure Turn :=
  if field.required && isMissingValue current then
    .ok (.reject "REQUIRED_FIELD_MISSING"
      s!"Required field {field.outputPath} is missing")
  else match current with
  | none => .ok .skip
  | some value =>
      if isMissingValue (some value) then .ok .skip
      else do
        match ← coerceValue runtime value field with
        | .error message => pure (.reject "TYPE_COERCION_FAILED" message)
        | .ok coerced => pure (.write coerced)

def Turn.apply (field : NormalizedMappingField) (state : TransformationResult) :
    Turn → Except Failure TransformationResult
  | .reject code message => .ok (fieldError state field code message)
  | .skip => .ok state
  | .write value => do
      let normalized ← setByPath state.normalized field.outputPath value
      pure { state with normalized := normalized }

def fieldTurn (runtime : Runtime) (ambient : Ambient) (rawRecord : Record)
    (field : NormalizedMappingField) : Except Failure Turn := do
  let current ← currentValue runtime ambient rawRecord field
  turnOf runtime field current

section Turns

variable {ambient : Ambient} {rawRecord : Record}
  {field : NormalizedMappingField} {fields : List NormalizedMappingField}
  {state : TransformationResult}

theorem transformField_eq :
    transformField runtime ambient rawRecord state field =
      fieldTurn runtime ambient rawRecord field >>= Turn.apply field state := by
  simp only [transformField, fieldTurn, currentValue]
  cases sourceValue runtime ambient rawRecord field with
  | error failure => rfl
  | ok read =>
      simp only [bind, Except.bind, Except.map, turnOf]
      split
      · rfl
      · cases valueOrDefault field read with
        | none => rfl
        | some value =>
            simp only
            split
            · rfl
            · cases coerceValue runtime value field with
              | error failure => rfl
              | ok coerced => cases coerced <;> rfl

inductive ComesTo (runtime : Runtime) (field : NormalizedMappingField)
    (current : Option Value) : Turn → Prop
  | missing : field.required = true → isMissingValue current = true →
      ComesTo runtime field current (.reject "REQUIRED_FIELD_MISSING"
        s!"Required field {field.outputPath} is missing")
  | absent : field.required = false → isMissingValue current = true →
      ComesTo runtime field current .skip
  | refused {value : Value} {message : String} : current = some value →
      isMissingValue current = false →
      coerceValue runtime value field = .ok (.error message) →
      ComesTo runtime field current (.reject "TYPE_COERCION_FAILED" message)
  | written {value : Value} {coerced : Json} : current = some value →
      isMissingValue current = false →
      coerceValue runtime value field = .ok (.ok coerced) →
      ComesTo runtime field current (.write coerced)

theorem comesTo_of_turnOf {current : Option Value} {turn : Turn}
    (h : turnOf runtime field current = .ok turn) :
    ComesTo runtime field current turn := by
  simp only [turnOf] at h
  split at h
  · rename_i hrequired
    simp only [Bool.and_eq_true] at hrequired
    obtain rfl := Except.ok.inj h
    exact .missing hrequired.1 hrequired.2
  · rename_i hrequired
    cases current with
    | none =>
        obtain rfl := Except.ok.inj h
        exact .absent (by simpa [isMissingValue] using hrequired) rfl
    | some value =>
        simp only at h
        split at h
        · rename_i hmissing
          obtain rfl := Except.ok.inj h
          exact .absent (by simpa [hmissing] using hrequired) hmissing
        · rename_i hpresent
          obtain ⟨outcome, hcoerced, h⟩ := bind_eq_ok.mp h
          rw [Bool.not_eq_true] at hpresent
          cases outcome with
          | error message =>
              obtain rfl := Except.ok.inj h
              exact .refused rfl hpresent hcoerced
          | ok coerced =>
              obtain rfl := Except.ok.inj h
              exact .written rfl hpresent hcoerced

theorem comesTo_of_fieldTurn {turn : Turn}
    (h : fieldTurn runtime ambient rawRecord field = .ok turn) :
    ∃ current, currentValue runtime ambient rawRecord field = .ok current ∧
      ComesTo runtime field current turn := by
  obtain ⟨current, hcurrent, hturn⟩ := bind_eq_ok.mp h
  exact ⟨current, hcurrent, comesTo_of_turnOf hturn⟩

theorem transformFields_cons_ok_iff {result : TransformationResult} :
    (field :: fields).foldlM (transformField runtime ambient rawRecord) state =
        .ok result ↔
      ∃ turn next, fieldTurn runtime ambient rawRecord field = .ok turn ∧
        turn.apply field state = .ok next ∧
        fields.foldlM (transformField runtime ambient rawRecord) next =
          .ok result := by
  rw [List.foldlM_cons, transformField_eq, bind_eq_ok]
  simp only [bind_eq_ok]
  constructor
  · rintro ⟨next, ⟨turn, hturn, happly⟩, hrest⟩
    exact ⟨turn, next, hturn, happly, hrest⟩
  · rintro ⟨turn, next, hturn, happly, hrest⟩
    exact ⟨next, ⟨turn, hturn, happly⟩, hrest⟩

structure Runnable (field : NormalizedMappingField) : Prop where
  output : assertSafePath field.outputPath = .ok (splitPath field.outputPath)
  source : field.compute = none →
    assertSafePath field.sourcePath = .ok (splitPath field.sourcePath)

theorem assertSafePath_ok {path : String} {segments : List String}
    (h : assertSafePath path = .ok segments) :
    assertSafePath path = .ok (splitPath path) ∧ splitPath path ≠ [] := by
  rw [assertSafePath] at h ⊢
  cases hsplit : splitPath path with
  | nil =>
      rw [hsplit] at h
      cases h
  | cons segment rest =>
      rw [hsplit] at h
      simp only at h ⊢
      cases hfind : (segment :: rest).find? dangerousPathKeys.contains with
      | none => exact ⟨rfl, List.cons_ne_nil segment rest⟩
      | some unsafeSegment =>
          rw [hfind] at h
          cases h

theorem runnable_of_compilePath {outputPath sourcePath : String}
    (h : compilePath outputPath sourcePath = .ok field) : Runnable field := by
  simp only [compilePath] at h
  split at h
  · cases h
  · rename_i hsafe
    obtain ⟨output, houtput, hsource⟩ := bind_eq_ok.mp hsafe
    obtain rfl := Except.ok.inj h
    exact ⟨(assertSafePath_ok houtput).1,
      fun _ => (assertSafePath_ok hsource).1⟩

theorem compute_of_none {definition : Record}
    (h : fieldCompute definition = some none) :
    (definition.get "compute").isNone = true := by
  simp only [fieldCompute] at h
  split at h
  · rename_i hnone
    rw [hnone]
    rfl
  all_goals cases h

theorem Defines.runnable {outputPath : String} {definition : Record}
    (h : Defines outputPath definition field) : Runnable field := by
  obtain ⟨hgiven, hsafe, -, type, compute, -, hcompute, rfl⟩ := h
  simp only [assertSafePaths] at hsafe
  obtain ⟨output, houtput, hsafe⟩ := bind_eq_ok.mp hsafe
  refine ⟨(assertSafePath_ok houtput).1, fun hnone => ?_⟩
  have hmode : compute = none := hnone
  rw [hmode] at hcompute
  rw [compute_of_none hcompute, Bool.and_true] at hgiven
  rw [hgiven] at hsafe
  obtain ⟨source, hsource, -⟩ := bind_eq_ok.mp hsafe
  exact (assertSafePath_ok hsource).1

theorem runnable_of_compiles {mappingJson : Json}
    (h : Compiles runtime mappingJson fields) :
    ∀ field ∈ fields, Runnable field := by
  obtain ⟨entries, -, hfields⟩ := h
  intro field hmem
  induction hfields with
  | nil => cases hmem
  | @cons entry compiled _ _ hentry _ ih =>
      rcases List.mem_cons.mp hmem with rfl | hmem
      · obtain ⟨outputPath, value⟩ := entry
        cases value with
        | str sourcePath =>
            exact runnable_of_compilePath (Except.ok.inj hentry)
        | obj definition => exact (compileDefinition_ok_iff.mp hentry).runnable
        | _ => cases hentry
      · exact ih hmem

theorem currentValue_ok (hfield : Runnable field) :
    ∃ current, currentValue runtime ambient rawRecord field = .ok current := by
  rw [currentValue, map_ok_iff, sourceValue]
  cases hcompute : field.compute with
  | some mode => exact ⟨_, rfl⟩
  | none =>
      rw [getByPath, hfield.source hcompute]
      exact ⟨_, rfl⟩

theorem convertible_of_missing {value : Value} {type : TransformationValueType}
    (h : isMissingValue (some value) = true) : value.Convertible type := by
  cases value with
  | method name => cases h
  | json json =>
      intro _ hhides
      cases hhides <;> cases h

theorem turnOf_ok_iff {current : Option Value} :
    (∃ turn, turnOf runtime field current = .ok turn) ↔
      ∀ value, current = some value → value.Convertible field.type := by
  simp only [turnOf]
  split
  · rename_i hrequired
    simp only [Except.ok.injEq, exists_eq', true_iff]
    rintro value rfl
    simp only [Bool.and_eq_true] at hrequired
    exact convertible_of_missing hrequired.2
  · cases current with
    | none => simp
    | some value =>
        simp only [Option.some.injEq, forall_eq']
        split
        · rename_i hmissing
          simp [convertible_of_missing hmissing]
        · rw [← @coerceValue_ok_iff runtime]
          cases coerceValue runtime value field with
          | error failure => simp [bind, Except.bind]
          | ok coerced => cases coerced <;> simp [bind, Except.bind, pure,
              Except.pure]

theorem apply_ok (hfield : Runnable field) (turn : Turn) :
    ∃ result, turn.apply field state = .ok result := by
  cases turn with
  | reject code message => exact ⟨_, rfl⟩
  | skip => exact ⟨_, rfl⟩
  | write value =>
      simp only [Turn.apply, setByPath, hfield.output]
      exact ⟨_, rfl⟩

theorem fieldTurn_ok_iff (hfield : Runnable field) :
    (∃ turn, fieldTurn runtime ambient rawRecord field = .ok turn) ↔
      ∀ value, currentValue runtime ambient rawRecord field =
        .ok (some value) → value.Convertible field.type := by
  obtain ⟨current, hcurrent⟩ :=
    @currentValue_ok runtime ambient rawRecord field hfield
  simp only [fieldTurn, hcurrent, Except.ok.injEq]
  exact turnOf_ok_iff

/-- One field that cannot be converted is enough for the loop to throw. -/
theorem transformFields_ok_iff (hfields : ∀ field ∈ fields, Runnable field) :
    (∃ result, fields.foldlM (transformField runtime ambient rawRecord) state =
      .ok result) ↔
      ∀ field ∈ fields, ∃ turn,
        fieldTurn runtime ambient rawRecord field = .ok turn := by
  induction fields generalizing state with
  | nil => exact ⟨fun _ _ hmem => absurd hmem List.not_mem_nil,
      fun _ => ⟨state, rfl⟩⟩
  | cons field fields ih =>
      have hfield : Runnable field := hfields field List.mem_cons_self
      have hrest : ∀ other ∈ fields, Runnable other := fun other hother =>
        hfields other (List.mem_cons_of_mem field hother)
      simp only [transformFields_cons_ok_iff, List.forall_mem_cons]
      constructor
      · rintro ⟨result, turn, next, hturn, -, hothers⟩
        exact ⟨⟨turn, hturn⟩, (ih hrest).mp ⟨result, hothers⟩⟩
      · rintro ⟨⟨turn, hturn⟩, hothers⟩
        obtain ⟨next, happly⟩ := @apply_ok field state hfield turn
        obtain ⟨result, hresult⟩ := (@ih next hrest).mpr hothers
        exact ⟨result, turn, next, hturn, happly, hresult⟩

end Turns

/-! ## The engine never throws -/

/-- Transforming a record by a mapping that is accepted gives a result exactly
when the value of each field can be converted to its type. -/
theorem transformRecord_returns {ambient : Ambient} {rawRecord : Record}
    {mappingJson : Json}
    (hvalid : (engine runtime).validateMapping mappingJson = none) :
    (∃ result, transformRecord runtime ambient rawRecord mappingJson =
      .ok result) ↔
      ∀ fields, compileMapping runtime mappingJson = .ok fields →
        ∀ field ∈ fields, ∀ value,
          currentValue runtime ambient rawRecord field = .ok (some value) →
          value.Convertible field.type := by
  have hcompiled : ∃ fields, compileMapping runtime mappingJson = .ok fields := by
    simp only [TransformationEngine.validateMapping, engine] at hvalid
    cases hresult : compileMapping runtime mappingJson with
    | ok fields => exact ⟨fields, rfl⟩
    | error failure =>
        rw [hresult] at hvalid
        cases failure <;> cases hvalid
  obtain ⟨fields, hfields⟩ := hcompiled
  have hrunnable : ∀ field ∈ fields, Runnable field :=
    runnable_of_compiles (compileMapping_ok_iff.mp hfields)
  simp only [transformRecord, hfields, Except.ok.injEq, forall_eq']
  refine (transformFields_ok_iff hrunnable).trans ?_
  exact forall₂_congr fun field hmem => fieldTurn_ok_iff (hrunnable field hmem)

end TransformationEngineService

namespace Sample

/-- A key that a record does not have, but inherits. -/
def inheritedMapping : Record := [("description", .str "toString")]

/-- The mapping is valid, and the record is one that transforms. -/
theorem transformRecord_returns_of_contact :
    ∃ result, TransformationEngineService.transformRecord runtime ⟨0, 0⟩
      (ensureRecordObject contact.raw) (.obj nameMapping) = .ok result := by
  refine (TransformationEngineService.transformRecord_returns rfl).mpr ?_
  intro fields hfields field hmem value hvalue
  obtain rfl := Except.ok.inj (compile_nameMapping.symm.trans hfields)
  have hread : ∀ field ∈ nameFields, field.type = .json ∧
      TransformationEngineService.currentValue runtime ⟨0, 0⟩
        (ensureRecordObject contact.raw) field =
          .ok (some (.json (.str "Ada"))) :=
    List.forall_mem_singleton.mpr ⟨rfl, rfl⟩
  obtain ⟨htype, hada⟩ := hread field hmem
  obtain rfl := Option.some.inj (Except.ok.inj (hada.symm.trans hvalue))
  rw [htype]
  rintro (hstring | hdate)
  · cases hstring
  · cases hdate

/-- The function that is read instead is not cloned. -/
theorem transformRecord_returns_fails :
    (TransformationEngineService.engine runtime).validateMapping
        (.obj inheritedMapping) = none ∧
      ∀ ambient result, TransformationEngineService.transformRecord runtime
        ambient [] (.obj inheritedMapping) ≠ .ok result := by
  refine ⟨rfl, fun ambient result h => ?_⟩
  cases h

end Sample

end SyncBridge
