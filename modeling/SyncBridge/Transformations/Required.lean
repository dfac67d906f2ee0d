import SyncBridge.Transformations.Overlaps

/-!
# Required fields

A required field is tested before its value is converted.  The test survives the
conversion, except for an array whose text is blank.
-/

namespace SyncBridge

/-! ## Blank texts -/

def isBlank (text : String) : Bool := (trim text).isEmpty

theorem trimChars_eq_nil_iff {chars : List Char} :
    trimChars chars = [] ↔ ∀ char ∈ chars, isWhiteSpace char = true := by
  rw [trimChars, List.reverse_eq_nil_iff, List.dropWhile_eq_nil_iff]
  constructor
  · intro h
    have hnone : chars.dropWhile isWhiteSpace = [] := by
      by_contra hsome
      have hhead := List.head_dropWhile_not isWhiteSpace hsome
      rw [h _ (List.mem_reverse.mpr (List.head_mem hsome))] at hhead
      cases hhead
    exact List.dropWhile_eq_nil_iff.mp hnone
  · intro h char hmem
    exact h char ((List.dropWhile_sublist _).mem (List.mem_reverse.mp hmem))

theorem isBlank_iff {text : String} :
    isBlank text = true ↔ ∀ char ∈ text.toList, isWhiteSpace char = true := by
  rw [← trimChars_eq_nil_iff, isBlank, trim]
  simp

inductive Json.BlankArray : Json → Prop
  | nil : BlankArray (.arr [])
  | null : BlankArray (.arr [.null])
  | str {text : String} : isBlank text = true → BlankArray (.arr [.str text])
  | arr {items : List Json} :
      BlankArray (.arr items) → BlankArray (.arr [.arr items])

/-- What the conversions of the language keep: texts of numbers and of dates are
not blank, and the case of letters has nothing to do with white space. -/
structure Runtime.Lawful (runtime : Runtime) : Prop where
  numberText : ∀ value, isBlank (runtime.numberText value) = false
  toLowerCase : ∀ text, isBlank (runtime.toLowerCase text) = isBlank text
  toUpperCase : ∀ text, isBlank (runtime.toUpperCase text) = isBlank text
  toISOString : ∀ date, isBlank (runtime.dates.toISOString date) = false

theorem not_isBlank_of_mem {text : String} (char : Char)
    (hmem : char ∈ text.toList) (hblack : isWhiteSpace char = false) :
    isBlank text = false := by
  rw [Bool.eq_false_iff]
  intro hblank
  rw [isBlank_iff.mp hblank char hmem] at hblack
  cases hblack

@[simp] theorem isBlank_trim (text : String) :
    isBlank (trim text) = isBlank text := by
  rw [isBlank, trim_trim, isBlank]

namespace TransformationEngineService

open Paths SyncBridge.Foundation

variable {runtime : Runtime}

theorem isBlank_methodText (name : String) :
    isBlank (methodText name) = false := by
  refine not_isBlank_of_mem 'f' ?_ rfl
  simp only [methodText, String.toList_append, List.mem_append]
  exact .inl (.inl (by decide))

theorem isBlank_intercalate {first second : String} {texts : List String} :
    isBlank (",".intercalate (first :: second :: texts)) = false := by
  refine not_isBlank_of_mem ',' ?_ rfl
  simp [String.intercalate_cons_cons]

def BlankText (value : Json) : Prop :=
  (∃ blank, value = .str blank ∧ isBlank blank = true) ∨ value.BlankArray

theorem blank_item_iff {item : Json} :
    (Json.arr [item]).BlankArray ↔ item = .null ∨ BlankText item := by
  constructor
  · rintro (_ | _ | hblank | hblank)
    · exact .inl rfl
    · exact .inr (.inl ⟨_, rfl, hblank⟩)
    · exact .inr (.inr hblank)
  · rintro (rfl | ⟨blank, rfl, hblank⟩ | hblank)
    · exact .null
    · exact .str hblank
    · obtain ⟨items, rfl⟩ : ∃ items, item = .arr items := by
        cases hblank <;> exact ⟨_, rfl⟩
      exact .arr hblank

theorem textsOf_cons {item : Json} {items : List Json} {texts : List String}
    (h : textsOf runtime (item :: items) = .ok texts) :
    ∃ text rest, texts = text :: rest ∧ textsOf runtime items = .ok rest ∧
      (item = .null ∧ text = "" ∨
        item ≠ .null ∧ textOf runtime item = .ok text) := by
  by_cases hnull : item = .null
  · subst hnull
    rw [textsOf] at h
    cases hrest : textsOf runtime items with
    | error failure =>
        rw [hrest] at h
        cases h
    | ok rest =>
        rw [hrest] at h
        obtain rfl := Except.ok.inj h
        exact ⟨"", rest, rfl, rfl, .inl ⟨rfl, rfl⟩⟩
  · rw [textsOf] at h
    · cases htext : textOf runtime item with
      | error failure =>
          rw [htext] at h
          cases h
      | ok text =>
          cases hrest : textsOf runtime items with
          | error failure =>
              rw [htext, hrest] at h
              cases h
          | ok rest =>
              rw [htext, hrest] at h
              obtain rfl := Except.ok.inj h
              exact ⟨text, rest, rfl, rfl, .inr ⟨hnull, rfl⟩⟩
    · exact hnull

theorem textOf_blank_iff (hlawful : runtime.Lawful) : (value : Json) →
    {text : String} → textOf runtime value = .ok text →
    (isBlank text = true ↔ BlankText value)
  | .null, text, htext => by
      obtain rfl := Except.ok.inj htext
      refine ⟨fun h => absurd h (by decide), ?_⟩
      rintro (⟨_, h, -⟩ | h) <;> cases h
  | .bool flag, text, htext => by
      obtain rfl := Except.ok.inj htext
      refine ⟨fun h => absurd h (by cases flag <;> decide), ?_⟩
      rintro (⟨_, h, -⟩ | h) <;> cases h
  | .num number, text, htext => by
      obtain rfl := Except.ok.inj htext
      rw [hlawful.numberText number]
      refine ⟨fun h => (Bool.false_ne_true h).elim, ?_⟩
      rintro (⟨_, h, -⟩ | h) <;> cases h
  | .str blank, text, htext => by
      obtain rfl := Except.ok.inj htext
      refine ⟨fun h => .inl ⟨blank, rfl, h⟩, ?_⟩
      rintro (⟨_, h, hblank⟩ | h)
      · exact Json.str.inj h ▸ hblank
      · cases h
  | .arr [], text, htext => by
      obtain rfl := Except.ok.inj htext
      exact ⟨fun _ => .inr .nil, fun _ => rfl⟩
  | .arr [item], text, htext => by
      simp only [textOf] at htext
      cases htexts : textsOf runtime [item] with
      | error failure =>
          rw [htexts] at htext
          cases htext
      | ok texts =>
          rw [htexts] at htext
          obtain rfl := Except.ok.inj htext
          obtain ⟨text, rest, rfl, hrest, hitem⟩ := textsOf_cons htexts
          obtain rfl := Except.ok.inj hrest
          have hblank : BlankText (.arr [item]) ↔
              item = .null ∨ BlankText item := by
            rw [← blank_item_iff, BlankText]
            exact ⟨fun h => h.resolve_left (by rintro ⟨_, h, -⟩; cases h),
              .inr⟩
          rw [String.intercalate_singleton, hblank]
          rcases hitem with ⟨rfl, rfl⟩ | ⟨hnull, hitem⟩
          · exact ⟨fun _ => .inl rfl, fun _ => rfl⟩
          · rw [textOf_blank_iff hlawful item hitem]
            exact ⟨.inr, fun h => h.resolve_left hnull⟩
  | .arr (first :: second :: items), text, htext => by
      simp only [textOf] at htext
      cases htexts : textsOf runtime (first :: second :: items) with
      | error failure =>
          rw [htexts] at htext
          cases htext
      | ok texts =>
          rw [htexts] at htext
          obtain rfl := Except.ok.inj htext
          obtain ⟨text, rest, rfl, hrest, -⟩ := textsOf_cons htexts
          obtain ⟨text', rest', rfl, -, -⟩ := textsOf_cons hrest
          rw [isBlank_intercalate]
          refine ⟨fun h => (Bool.false_ne_true h).elim, ?_⟩
          rintro (⟨_, h, -⟩ | h) <;> cases h
  | .obj fields, text, htext => by
      simp only [textOf] at htext
      split at htext
      · cases htext
      · obtain rfl := Except.ok.inj htext
        refine ⟨fun h => absurd h (by decide), ?_⟩
        rintro (⟨_, h, -⟩ | h) <;> cases h

/-! ## Conversion -/

variable {field : NormalizedMappingField} {value : Value} {coerced : Json}

theorem isBlank_coerceString (hlawful : runtime.Lawful) (text : String) :
    isBlank (coerceString runtime field text) = isBlank text := by
  simp only [coerceString]
  split <;> split <;> split <;>
    simp [hlawful.toLowerCase, hlawful.toUpperCase]

theorem isMissing_str {text : String} :
    isMissingValue (some (.json (.str text))) = isBlank text := rfl

theorem textOfValue_blank_iff (hlawful : runtime.Lawful) {text : String}
    (hpresent : isMissingValue (some value) = false)
    (htext : textOfValue runtime value = .ok text) :
    isBlank text = true ↔
      ∃ items, value = .json (.arr items) ∧ (Json.arr items).BlankArray := by
  cases value with
  | method name =>
      obtain rfl := Except.ok.inj htext
      rw [isBlank_methodText]
      refine ⟨fun h => (Bool.false_ne_true h).elim, ?_⟩
      rintro ⟨items, h, -⟩
      cases h
  | json json =>
      rw [textOf_blank_iff hlawful json htext]
      constructor
      · rintro (⟨blank, rfl, hblank⟩ | hblank)
        · rw [isMissing_str, hblank] at hpresent
          cases hpresent
        · obtain ⟨items, rfl⟩ : ∃ items, json = .arr items := by
            cases hblank <;> exact ⟨_, rfl⟩
          exact ⟨items, rfl, hblank⟩
      · rintro ⟨items, h, hblank⟩
        obtain rfl := Value.json.inj h
        exact .inr hblank

theorem coerced_missing_iff (hlawful : runtime.Lawful)
    (hpresent : isMissingValue (some value) = false)
    (hcoerced : coerceValue runtime value field = .ok (.ok coerced)) :
    isMissingValue (some (.json coerced)) = true ↔ field.type = .string ∧
      ∃ items, value = .json (.arr items) ∧ (Json.arr items).BlankArray := by
  simp only [coerceValue] at hcoerced
  cases htype : field.type with
  | json =>
      rw [htype] at hcoerced
      cases value with
      | method name => cases hcoerced
      | json json =>
          obtain rfl := Except.ok.inj (Except.ok.inj hcoerced)
          rw [hpresent]
          simp
  | string =>
      rw [htype] at hcoerced
      obtain ⟨text, htext, hcoerced⟩ := bind_eq_ok.mp hcoerced
      obtain rfl := Except.ok.inj (Except.ok.inj hcoerced)
      rw [isMissing_str, isBlank_coerceString hlawful,
        textOfValue_blank_iff hlawful hpresent htext]
      simp
  | number =>
      rw [htype] at hcoerced
      cases hnumber : coerceNumber value with
      | none =>
          rw [hnumber] at hcoerced
          cases hcoerced
      | some candidate =>
          rw [hnumber] at hcoerced
          obtain rfl := Except.ok.inj (Except.ok.inj hcoerced)
          simp [isMissingValue]
  | boolean =>
      rw [htype] at hcoerced
      cases hflag : coerceBoolean value with
      | none =>
          rw [hflag] at hcoerced
          cases hcoerced
      | some flag =>
          rw [hflag] at hcoerced
          obtain rfl := Except.ok.inj (Except.ok.inj hcoerced)
          simp [isMissingValue]
  | date =>
      rw [htype] at hcoerced
      obtain ⟨text, htext, hcoerced⟩ := bind_eq_ok.mp hcoerced
      cases hdate : runtime.dates.parse text with
      | none =>
          rw [hdate] at hcoerced
          cases hcoerced
      | some date =>
          rw [hdate] at hcoerced
          obtain rfl := Except.ok.inj (Except.ok.inj hcoerced)
          rw [isMissing_str, hlawful.toISOString date]
          simp

/-! ## The required fields of a record without errors -/

section Records

variable {ambient : Ambient} {rawRecord : Record}
  {fields : List NormalizedMappingField} {result : TransformationResult}

theorem Clean.present (h : Clean runtime ambient rawRecord field)
    (hrequired : field.required = true) :
    Present runtime ambient rawRecord field := by
  obtain ⟨turn, hturn, hclean⟩ := h
  obtain ⟨current, hcurrent, hcomes⟩ := comesTo_of_fieldTurn hturn
  cases hcomes with
  | missing => cases hclean
  | absent hoptional _ => exact absurd hrequired (by simp [hoptional])
  | refused => cases hclean
  | written hread hpresent _ =>
      subst hread
      exact ⟨_, hcurrent, hpresent⟩

/-- In a record without errors the required fields are all there and not
missing, exactly when none of them that is a string is read as an array whose
text is blank. -/
theorem required_fields_present {mappingJson : Json}
    (hlawful : runtime.Lawful)
    (hcompiled : compileMapping runtime mappingJson = .ok fields)
    (hpaths : fields.Pairwise fun first second =>
      Apart (splitPath first.outputPath) (splitPath second.outputPath))
    (hresult : transformRecordWithCompiledMapping runtime ambient rawRecord
      fields = .ok result) (hclean : result.errors = []) :
    (∀ field ∈ fields, field.required = true →
      ∃ value, getByPath result.normalized field.outputPath =
        .ok (some value) ∧ isMissingValue (some value) = false) ↔
      ∀ field ∈ fields, field.required = true → field.type = .string →
        ∀ items, currentValue runtime ambient rawRecord field =
          .ok (some (.json (.arr items))) → ¬ (Json.arr items).BlankArray := by
  have hfields : ∀ field ∈ fields, Runnable field :=
    runnable_of_compiles (compileMapping_ok_iff.mp hcompiled)
  have hall := ((transformFields_clean_iff hfields).mp ⟨hresult, hclean⟩).1
  refine forall₂_congr fun field hmem => forall_congr' fun hrequired => ?_
  obtain ⟨value, hvalue, hpresent⟩ := (hall field hmem).present hrequired
  obtain ⟨before, after, hsplit⟩ := List.append_of_mem hmem
  have hlater : ∀ later ∈ after,
      Apart (splitPath field.outputPath) (splitPath later.outputPath) := by
    rw [hsplit, List.pairwise_append, List.pairwise_cons] at hpaths
    exact hpaths.2.1.1
  obtain ⟨coerced, hcoerced, hread⟩ := value_kept hfields hresult hclean hsplit
    hvalue hpresent fun later hafter _ => hlater later hafter
  rw [hread, hvalue]
  simp only [Except.ok.injEq, Option.some.injEq, exists_eq_left',
    ← Bool.not_eq_true, coerced_missing_iff hlawful hpresent hcoerced,
    not_and, not_exists]

end Records

end TransformationEngineService

namespace Sample

open TransformationEngineService

theorem isWhiteSpace_toUpper (char : Char) :
    isWhiteSpace char.toUpper = isWhiteSpace char := by
  by_cases hletter : 97 ≤ char.toNat ∧ char.toNat ≤ 122
  · have hletters : ∀ code < 123, 97 ≤ code →
        isWhiteSpace (Char.ofNat code).toUpper =
          isWhiteSpace (Char.ofNat code) := by decide
    have hchar := hletters char.toNat (by omega) hletter.1
    rwa [Char.ofNat_toNat] at hchar
  · have hsame : char.toUpper = char := by
      refine dif_neg fun h => hletter ?_
      exact ⟨UInt32.le_iff_toNat_le.mp h.1, UInt32.le_iff_toNat_le.mp h.2⟩
    rw [hsame]

theorem isBlank_map {f : Char → Char}
    (hf : ∀ char, isWhiteSpace (f char) = isWhiteSpace char) (text : String) :
    isBlank (String.ofList (text.toList.map f)) = isBlank text := by
  rw [Bool.eq_iff_iff, isBlank_iff, isBlank_iff]
  simp [hf]

theorem isWhiteSpace_of_isDigit {char : Char} (h : char.isDigit = true) :
    isWhiteSpace char = false := by
  revert char
  exact @forall_isDigit (isWhiteSpace · = false) (by decide)

theorem isBlank_repr (value : Nat) : isBlank value.repr = false := by
  obtain ⟨digit, hdigit⟩ :=
    List.exists_mem_of_ne_nil (Nat.toDigits 10 value) Nat.toDigits_ne_nil
  refine not_isBlank_of_mem digit ?_ ?_
  · rwa [Nat.toList_repr]
  · exact isWhiteSpace_of_isDigit
      (Nat.isDigit_of_mem_toDigits (by decide) (by decide) hdigit)

theorem lawful_runtime : runtime.Lawful where
  numberText value := by
    simp only [runtime, Int.toString_eq_repr, Int.repr_eq_if]
    split
    · exact isBlank_repr _
    · exact not_isBlank_of_mem '-'
        (by simp [String.toList_append]) rfl
  toLowerCase := isBlank_map isWhiteSpace_lowerChar
  toUpperCase := isBlank_map isWhiteSpace_toUpper
  toISOString date := by
    simp only [runtime, dates, toISOString]
    split
    · decide
    · simp only [tally]
      split
      · exact not_isBlank_of_mem 'p' (by simp) rfl
      · exact not_isBlank_of_mem 'n' (by simp) rfl

def tagsMapping : Record :=
  [("tags", .obj [("path", .str "tags"), ("required", .bool true),
    ("type", .str "string")])]

def tagsField : NormalizedMappingField :=
  { pathField "tags" "tags" with required := true, type := .string }

theorem compile_tagsMapping :
    compileMapping runtime (.obj tagsMapping) = .ok [tagsField] := rfl

/-- No tags are a blank text, and no error. -/
theorem required_fields_present_fails :
    compileMapping runtime (.obj tagsMapping) = .ok [tagsField] ∧
      tagsField.required = true ∧
      transformRecordWithCompiledMapping runtime ⟨0, 0⟩ [("tags", .arr [])]
        [tagsField] = .ok ⟨[("tags", .str "")], []⟩ ∧
      Paths.getByPath [("tags", .str "")] tagsField.outputPath =
        .ok (some (.json (.str ""))) ∧
      isMissingValue (some (.json (.str ""))) = true :=
  ⟨rfl, rfl, rfl, rfl, rfl⟩

/-- One tag is a text that is there. -/
theorem required_fields_present_of_tag :
    ∃ value, Paths.getByPath [("tags", .str "new")] tagsField.outputPath =
        .ok (some value) ∧ isMissingValue (some value) = false := by
  have hresult : transformRecordWithCompiledMapping runtime ⟨0, 0⟩
      [("tags", .arr [.str "new"])] [tagsField] =
        .ok ⟨[("tags", .str "new")], []⟩ := rfl
  refine (required_fields_present lawful_runtime compile_tagsMapping
    (List.pairwise_singleton _ _) hresult rfl).mpr ?_ tagsField
      (List.mem_singleton_self _) rfl
  intro field hmem _ _ items hitems hblank
  obtain rfl := List.mem_singleton.mp hmem
  have hread : currentValue runtime ⟨0, 0⟩ [("tags", .arr [.str "new"])]
      tagsField = .ok (some (.json (.arr [.str "new"]))) := rfl
  obtain rfl := Json.arr.inj (Value.json.inj (Option.some.inj
    (Except.ok.inj (hread.symm.trans hitems))))
  cases hblank with
  | str hnew => exact absurd hnew (by decide)

end Sample

end SyncBridge
