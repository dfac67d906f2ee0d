import SyncBridge.Schedule.CronParser

/-!
# Segments of the grammar as they are read

What the parser makes of the texts of the grammar: the digits of a number, the
two ends of a range, the step behind a slash, and the five fields.
-/

namespace SyncBridge.Cron

open SyncBridge.Foundation

/-! ## Numbers -/

structure CronFieldSpec.Usual (spec : CronFieldSpec) : Prop where
  ordered : spec.min ≤ spec.max
  nonneg : 0 ≤ spec.min
  small : spec.max ≤ 59
  week : spec.allowSevenAsSunday = true → spec.min = 0 ∧ spec.max = 6

theorem usual_of_mem (spec : CronFieldSpec) (h : spec ∈ cronFieldSpecs) :
    spec.Usual := by
  have hspecs : ∀ spec ∈ cronFieldSpecs, spec.min ≤ spec.max ∧ 0 ≤ spec.min ∧
      spec.max ≤ 59 ∧ (spec.allowSevenAsSunday = true →
        spec.min = 0 ∧ spec.max = 6) := by
    decide
  obtain ⟨hordered, hnonneg, hsmall, hweek⟩ := hspecs spec h
  exact ⟨hordered, hnonneg, hsmall, hweek⟩

def wholeNumber (value : Nat) : Option ℤ :=
  match toDouble (value : ℚ) with
  | some double => if double.den = 1 then some double.num else none
  | none => none

variable {spec : CronFieldSpec} {text text' base : List Char}
  {number first last : Nat} {value : ℤ} {segment : Segment}

theorem integer_of_digits (h : digits 10 text = some number) :
    integer text = wholeNumber number := by
  rw [integer, number_of_digits h]
  rfl

theorem wholeNumber_small (h : number < 2 ^ 53) :
    wholeNumber number = some (number : ℤ) := by
  simp [wholeNumber, toDouble_natCast h]

theorem wholeNumber_large (hlarge : 2 ^ 53 ≤ number)
    (h : wholeNumber number = some value) : 2 ^ 53 ≤ value := by
  simp only [wholeNumber] at h
  cases hdouble : toDouble (number : ℚ) with
  | none =>
      rw [hdouble] at h
      cases h
  | some double =>
      obtain ⟨whole, rfl, hwhole⟩ := toDouble_natCast_large hlarge hdouble
      rw [hdouble] at h
      simp only [Rat.den_natCast, if_true, Rat.num_natCast,
        Option.some.injEq] at h
      rw [← h]
      exact_mod_cast hwhole

theorem wholeNumber_isSome_iff : (wholeNumber number).isSome = true ↔
    (toDouble (number : ℚ)).isSome = true := by
  simp only [wholeNumber]
  cases hdouble : toDouble (number : ℚ) with
  | none => rfl
  | some double =>
      rcases Nat.lt_or_ge number (2 ^ 53) with hsmall | hlarge
      · obtain rfl := Option.some.inj ((toDouble_natCast hsmall).symm.trans hdouble)
        simp
      · obtain ⟨whole, rfl, -⟩ := toDouble_natCast_large hlarge hdouble
        simp

theorem wholeNumber_cases (h : wholeNumber number = some value) :
    value = number ∨ (2 ^ 53 ≤ number ∧ 2 ^ 53 ≤ value) := by
  rcases Nat.lt_or_ge number (2 ^ 53) with hsmall | hlarge
  · rw [wholeNumber_small hsmall] at h
    exact .inl (Option.some.inj h).symm
  · exact .inr ⟨hlarge, wholeNumber_large hlarge h⟩

theorem wholeNumber_pos_iff (h : wholeNumber number = some value) :
    0 < value ↔ 0 < number := by
  rcases wholeNumber_cases h with rfl | hlarge
  · exact Int.natCast_pos
  · omega

theorem readStep_of_digits (h : digits 10 text = some number) :
    readStep (some text) = some value ↔
      0 < number ∧ wholeNumber number = some value := by
  rw [readStep, Option.filter_eq_some_iff, integer_of_digits h, and_comm]
  refine and_congr_left fun hvalue => ?_
  rw [decide_eq_true_eq, wholeNumber_pos_iff hvalue]

theorem parseFieldValue_of_digits (husual : spec.Usual)
    (h : digits 10 text = some number) :
    parseFieldValue spec text = .ok value ↔
      spec.Allows number ∧ value = sunday spec number := by
  obtain ⟨-, -, hsmall, hweek⟩ := husual
  rw [parseFieldValue, integer_of_digits h]
  simp only [CronFieldSpec.Allows, sunday]
  rcases Nat.lt_or_ge number (2 ^ 53) with hnumber | hlarge
  · rw [wholeNumber_small hnumber]
    simp only [Bool.and_eq_true, decide_eq_true_eq]
    split
    · rename_i hseven
      have heq : number = 7 := by omega
      simp [hseven.1, heq, eq_comm]
    · rename_i hseven
      split
      · rename_i hout
        simp only [reduceCtorEq, false_iff]
        rintro ⟨hin | ⟨hallow, hnumber⟩, -⟩
        · omega
        · exact hseven ⟨hallow, by omega⟩
      · rename_i hin
        simp only [Except.ok.injEq]
        constructor
        · rintro rfl
          exact ⟨.inl (by omega), rfl⟩
        · rintro ⟨-, rfl⟩
          rfl
  · have hnot : ¬ ((spec.min ≤ (number : ℤ) ∧ (number : ℤ) ≤ spec.max) ∨
        (spec.allowSevenAsSunday = true ∧ number = 7)) := by
      omega
    simp only [hnot, false_and, iff_false]
    cases hwhole : wholeNumber number with
    | none => simp
    | some whole =>
        have hwhole := wholeNumber_large hlarge hwhole
        have hseven : ¬ (spec.allowSevenAsSunday = true ∧ whole = 7) := by omega
        have hout : whole < spec.min ∨ spec.max < whole := by omega
        simp [hseven, hout]

/-! ## The texts of segments -/

theorem slash_not_mem_of_digits (h : digits 10 text = some number) :
    '/' ∉ text :=
  not_mem_of_digits h (by decide)

theorem hyphen_not_mem_of_digits (h : digits 10 text = some number) :
    '-' ∉ text :=
  not_mem_of_digits h (by decide)

theorem stepMatch_eq_some {step : List Char}
    (h : stepMatch text = some (base, step)) :
    text = base ++ '/' :: step ∧ ∃ number, digits 10 step = some number := by
  have htext := List.takeWhile_append_dropWhile (p := isDecimalDigit)
    (l := text.reverse)
  simp only [stepMatch] at h
  split at h
  · rename_i rest hdrop
    split at h
    · cases h
    · rename_i hgiven
      obtain ⟨rfl, rfl⟩ := Prod.mk.inj (Option.some.inj h)
      rw [hdrop] at htext
      refine ⟨?_, Option.isSome_iff_exists.mp (digits_isSome_iff.mpr ⟨?_, ?_⟩)⟩
      · have hreverse := congrArg List.reverse htext
        simpa using hreverse.symm
      · intro hnil
        simp [hnil] at hgiven
      · intro char hchar
        exact List.mem_takeWhile_imp (List.mem_reverse.mp hchar)
  · cases h

theorem stepMatch_append (hbase : base ≠ [])
    (h : digits 10 text = some number) :
    stepMatch (base ++ '/' :: text) = some (base, text) := by
  have hall : ∀ char ∈ text.reverse, isDecimalDigit char = true := fun char hchar =>
    isDecimalDigit_of_digits h char (List.mem_reverse.mp hchar)
  have hslash : isDecimalDigit '/' = false := by decide
  have hreverse : (base ++ '/' :: text).reverse =
      text.reverse ++ '/' :: base.reverse := by
    simp
  have htake : (text.reverse ++ '/' :: base.reverse).takeWhile isDecimalDigit =
      text.reverse := by
    rw [List.takeWhile_append_of_pos hall]
    simp [hslash]
  have hdrop : (text.reverse ++ '/' :: base.reverse).dropWhile isDecimalDigit =
      '/' :: base.reverse := by
    rw [List.dropWhile_append_of_pos hall]
    simp [hslash]
  simp [stepMatch, hreverse, htake, hdrop, hbase, ne_nil_of_digits h]

theorem stepMatch_of_not_mem (h : '/' ∉ text) : stepMatch text = none := by
  cases hmatch : stepMatch text with
  | none => rfl
  | some parts =>
      obtain ⟨base, step⟩ := parts
      rw [(stepMatch_eq_some hmatch).1] at h
      simp at h

theorem segmentParts_append (hbase : base ≠ [])
    (h : digits 10 text = some number) :
    segmentParts (base ++ '/' :: text) = (base, some text) := by
  simp [segmentParts, stepMatch_append hbase h]

theorem segmentParts_of_not_mem (h : '/' ∉ text) :
    segmentParts text = (text, none) := by
  simp [segmentParts, stepMatch_of_not_mem h]

theorem slash_not_mem_of_range (h : digits 10 text = some first)
    (h' : digits 10 text' = some last) : '/' ∉ text ++ '-' :: text' := by
  simp [slash_not_mem_of_digits h, slash_not_mem_of_digits h']

theorem star_not_mem_of_digits (h : digits 10 text = some number) :
    '*' ∉ text :=
  not_mem_of_digits h (by decide)

theorem split_range (h : digits 10 text = some first)
    (h' : digits 10 text' = some last) :
    split '-' (text ++ '-' :: text') = [text, text'] := by
  rw [split_append (hyphen_not_mem_of_digits h),
    split_of_not_mem (hyphen_not_mem_of_digits h')]

theorem range_ne_star : text ++ '-' :: text' ≠ ['*'] := by
  intro heq
  have hmem : '-' ∈ ['*'] := by
    rw [← heq]
    simp
  simp at hmem

theorem hyphen_mem_range : '-' ∈ text ++ '-' :: text' := by
  simp

theorem digits_ne_star (h : digits 10 text = some number) : text ≠ ['*'] := by
  rintro rfl
  exact star_not_mem_of_digits h List.mem_cons_self

theorem parseRange_of_digits (husual : spec.Usual) {bounds : ℤ × ℤ}
    (h : digits 10 text = some first) (h' : digits 10 text' = some last) :
    parseRange spec (text ++ '-' :: text') = .ok bounds ↔
      (spec.Allows first ∧ spec.Allows last) ∧
        sunday spec first ≤ sunday spec last ∧
        bounds = (sunday spec first, sunday spec last) := by
  rw [parseRange, split_range h h']
  simp only [bind_eq_ok, parseFieldValue_of_digits husual h,
    parseFieldValue_of_digits husual h']
  constructor
  · rintro ⟨_, ⟨hfirst, rfl⟩, _, ⟨hlast, rfl⟩, hbounds⟩
    split at hbounds
    · cases hbounds
    · rename_i hle
      exact ⟨⟨hfirst, hlast⟩, Int.not_lt.mp hle, (Except.ok.inj hbounds).symm⟩
  · rintro ⟨⟨hfirst, hlast⟩, hle, rfl⟩
    exact ⟨_, ⟨hfirst, rfl⟩, _, ⟨hlast, rfl⟩, if_neg (Int.not_lt.mpr hle)⟩

/-! ## What is read of a segment of the grammar -/

theorem sunday_min (husual : spec.Usual) : sunday spec spec.min = spec.min := by
  refine if_neg fun h => ?_
  have hweek := husual.week h.1
  omega

theorem sunday_max (husual : spec.Usual) : sunday spec spec.max = spec.max := by
  refine if_neg fun h => ?_
  have hweek := husual.week h.1
  omega

/-- A segment of the grammar is read if its values are in range and in order
once 7 has become Sunday. -/
theorem readSegment_of_spells (husual : spec.Usual) {reading : Reading}
    (h : Segment.Spells text segment) :
    readSegment spec text = some reading ↔
      segment.InRange spec ∧ wholeNumber segment.step = some reading.step ∧
        sunday spec (segment.first spec) ≤ sunday spec (segment.last spec) ∧
        reading.first = sunday spec (segment.first spec) ∧
        reading.last = sunday spec (segment.last spec) := by
  have hone : wholeNumber 1 = some 1 := wholeNumber_small (by decide)
  rw [readSegment_eq_some_iff]
  cases h with
  | all =>
      have hparts : segmentParts ['*'] = (['*'], none) := by decide
      rw [hparts]
      simp [readStep, readBounds, Segment.InRange, Segment.step, Segment.first,
        Segment.last, sunday_min husual, sunday_max husual, hone,
        husual.ordered, eq_comm]
  | allBy hstep =>
      rw [segmentParts_append (by simp) hstep]
      simp only [readStep_of_digits hstep, readBounds, if_true, Segment.InRange,
        Segment.step, Segment.first, Segment.last, sunday_min husual,
        sunday_max husual, husual.ordered, Option.some.injEq, Prod.mk.injEq]
      simp [eq_comm, and_assoc]
  | value hvalue =>
      rw [segmentParts_of_not_mem (slash_not_mem_of_digits hvalue)]
      simp only [readStep, readBounds, if_neg (digits_ne_star hvalue),
        Option.isSome_none, Bool.false_or, List.contains_iff_mem,
        if_neg (hyphen_not_mem_of_digits hvalue), Option.map_eq_some_iff,
        toOption_eq_some, parseFieldValue_of_digits husual hvalue,
        Segment.InRange, Segment.step, Segment.first, Segment.last, hone,
        List.isEmpty_eq_false_iff, ne_eq, ne_nil_of_digits hvalue,
        not_false_eq_true, true_and, Int.le_refl, Prod.mk.injEq]
      constructor
      · rintro ⟨hstep, value, ⟨hallows, rfl⟩, hfirst, hlast⟩
        exact ⟨hallows, hstep, hfirst.symm, hlast.symm⟩
      · rintro ⟨hallows, hstep, hfirst, hlast⟩
        exact ⟨hstep, _, ⟨hallows, rfl⟩, hfirst.symm, hlast.symm⟩
  | range hfirst hlast =>
      rw [segmentParts_of_not_mem (slash_not_mem_of_range hfirst hlast)]
      simp only [readStep, readBounds, if_neg range_ne_star,
        Option.isSome_none, Bool.false_or, List.contains_iff_mem,
        if_pos hyphen_mem_range, toOption_eq_some,
        parseRange_of_digits husual hfirst hlast,
        Segment.InRange, Segment.step, Segment.first, Segment.last, hone,
        List.isEmpty_eq_false_iff, Prod.mk.injEq]
      simp [and_left_comm, and_assoc]
  | rangeBy hfirst hlast hstep =>
      rw [segmentParts_append (by simp) hstep]
      simp only [readStep_of_digits hstep, readBounds, if_neg range_ne_star,
        Option.isSome_some, Bool.true_or, if_true, toOption_eq_some,
        parseRange_of_digits husual hfirst hlast, Segment.InRange,
        Segment.step, Segment.first, Segment.last, List.isEmpty_eq_false_iff,
        Prod.mk.injEq]
      simp [and_left_comm, and_assoc]

/-! ## Expressions -/

variable {expression : String}

def ParsedCron.sets (parsed : ParsedCron) : List (List ℤ) :=
  [parsed.minute, parsed.hour, parsed.dayOfMonth, parsed.month,
    parsed.dayOfWeek]

theorem parsed_fields {parsed : ParsedCron}
    (h : parseCronExpression expression = .ok parsed) :
    List.Forall₂ (fun field result => parseField field.1 field.2 = .ok result)
        (cronFieldSpecs.zip (fieldTexts expression)) parsed.sets ∧
      (fieldTexts expression).length = 5 := by
  simp only [parseCronExpression] at h
  split at h
  · cases h
  · split at h
    · rename_i htexts
      obtain ⟨minute, hminute, h⟩ := bind_eq_ok.mp h
      obtain ⟨hour, hhour, h⟩ := bind_eq_ok.mp h
      obtain ⟨dayOfMonth, hday, h⟩ := bind_eq_ok.mp h
      obtain ⟨month, hmonth, h⟩ := bind_eq_ok.mp h
      obtain ⟨dayOfWeek, hweekday, h⟩ := bind_eq_ok.mp h
      obtain rfl := Except.ok.inj h
      rw [fieldTexts, htexts]
      exact ⟨.cons hminute (.cons hhour (.cons hday (.cons hmonth
        (.cons hweekday .nil)))), rfl⟩
    · cases h

theorem exists_five {α : Type} {items : List α} (h : items.length = 5) :
    ∃ minute hour dayOfMonth month dayOfWeek,
      items = [minute, hour, dayOfMonth, month, dayOfWeek] := by
  rcases items with _ | ⟨minute, _ | ⟨hour, _ | ⟨dayOfMonth, _ | ⟨month, _ |
    ⟨dayOfWeek, _ | ⟨other, items⟩⟩⟩⟩⟩⟩
  all_goals first
    | exact ⟨_, _, _, _, _, rfl⟩
    | simp at h

theorem parsed_of_fields {results : List (List ℤ)}
    (hlength : (fieldTexts expression).length = 5)
    (h : List.Forall₂ (fun field result => parseField field.1 field.2 = .ok result)
      (cronFieldSpecs.zip (fieldTexts expression)) results) :
    ∃ parsed, parseCronExpression expression = .ok parsed ∧
      parsed.sets = results := by
  generalize htexts : fieldTexts expression = texts at h hlength
  obtain ⟨minute, hour, dayOfMonth, month, dayOfWeek, rfl⟩ :=
    exists_five hlength
  obtain _ | ⟨hminute, _ | ⟨hhour, _ | ⟨hday, _ | ⟨hmonth, _ |
    ⟨hweekday, _ | _⟩⟩⟩⟩⟩ := h
  simp only [fieldTexts] at htexts
  simp only at hminute hhour hday hmonth hweekday
  simp only [parseCronExpression, htexts, hminute, hhour, hday, hmonth,
    hweekday]
  split
  · rename_i hempty
    rw [List.isEmpty_iff.mp hempty] at htexts
    cases htexts
  · exact ⟨_, rfl, rfl⟩

theorem exists_parsed_iff :
    (∃ parsed, parseCronExpression expression = .ok parsed) ↔
      List.Forall₂ (fun spec text => ∃ result, parseField spec text = .ok result)
        cronFieldSpecs (fieldTexts expression) := by
  rw [List.forall₂_iff_zip]
  constructor
  · rintro ⟨parsed, hparsed⟩
    obtain ⟨hfields, hlength⟩ := parsed_fields hparsed
    refine ⟨hlength.symm, fun hmem => ?_⟩
    obtain ⟨result, -, hresult⟩ := paired_of_mem_left hfields hmem
    exact ⟨result, hresult⟩
  · rintro ⟨hlength, h⟩
    obtain ⟨results, hresults⟩ := exists_pairing_iff.mpr
      fun field (hmem : field ∈ cronFieldSpecs.zip (fieldTexts expression)) =>
        h hmem
    obtain ⟨parsed, hparsed, -⟩ := parsed_of_fields hlength.symm hresults
    exact ⟨parsed, hparsed⟩

end SyncBridge.Cron
