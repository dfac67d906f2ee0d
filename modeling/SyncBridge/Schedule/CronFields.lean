import SyncBridge.Schedule.CronSegments

/-!
# The sets of a well-formed expression

The set of a field is the union of what its segments stand for, except where the
parser takes 7 for Sunday before it orders and expands a range.
-/

namespace SyncBridge.Cron

open SyncBridge.Foundation

variable {spec : CronFieldSpec} {expression : String} {text : List Char}
  {number first last : Nat} {value : ℤ} {segment : Segment}

/-! ## What the sets are -/

/-- No step is so large that `Number` takes it for infinity. -/
def StepsFinite (segments : List Segment) : Prop :=
  ∀ segment ∈ segments, (toDouble (segment.step : ℚ)).isSome = true

/-- A range that ends on a Sunday called 7 starts on a Sunday, and if it is the
whole week, other segments name the days that it stands for. -/
structure SundaySafe (spec : CronFieldSpec) (segments : List Segment) :
    Prop where
  ends : ∀ segment ∈ segments, ∀ first, segment.ends = some (first, 7) →
    first = 0 ∨ first = 7
  week : ∀ segment ∈ segments, segment.ends = some (0, 7) →
    ∀ day ∈ segment.denotes spec, day = 0 ∨
      ∃ other ∈ segments, other.ends ≠ some (0, 7) ∧ day ∈ other.denotes spec

def UnionOf (spec : CronFieldSpec) (segments : List Segment)
    (result : List ℤ) : Prop :=
  ∀ value, value ∈ result ↔ ∃ segment ∈ segments, value ∈ segment.denotes spec

theorem progression_self_of_large {first last step : ℤ} (hle : first ≤ last)
    (hstep : last - first < step) : progression first last step = {first} := by
  ext value
  rw [Set.mem_singleton_iff]
  constructor
  · rintro ⟨turn, rfl, hlast⟩
    rcases Nat.eq_zero_or_pos turn with rfl | hpos
    · simp
    · have hone : step ≤ turn * step :=
        le_mul_of_one_le_left (by omega) (by exact_mod_cast hpos)
      omega
  · rintro rfl
    exact ⟨0, by simp, hle⟩

theorem progression_wholeNumber {first last : ℤ} {step : Nat}
    (hle : first ≤ last) (hwidth : last - first < 2 ^ 53)
    (h : wholeNumber step = some value) :
    progression first last value = progression first last step := by
  rcases wholeNumber_cases h with rfl | ⟨hlarge, hvalue⟩
  · rfl
  · rw [progression_self_of_large hle (by omega),
      progression_self_of_large hle (by omega)]

theorem allows_bounds (husual : spec.Usual) (h : spec.Allows number) :
    0 ≤ (number : ℤ) ∧ (number : ℤ) ≤ 59 ∧
      (spec.allowSevenAsSunday = true → number ≤ 7) := by
  have hnonneg := husual.nonneg
  have hsmall := husual.small
  have hweek := husual.week
  rcases h with hin | ⟨hallow, rfl⟩
  · refine ⟨by omega, by omega, fun hallow => ?_⟩
    have hmax := (hweek hallow).2
    omega
  · omega

theorem segment_bounds (husual : spec.Usual) (h : segment.InRange spec) :
    0 ≤ segment.first spec ∧ segment.last spec ≤ 59 ∧
      (spec.allowSevenAsSunday = true → segment.last spec ≤ 7) := by
  have hweek := husual.week
  have hend : spec.allowSevenAsSunday = true → spec.max ≤ 7 := by
    intro hallow
    have hmax := (hweek hallow).2
    omega
  cases segment with
  | all => exact ⟨husual.nonneg, husual.small, hend⟩
  | allBy step => exact ⟨husual.nonneg, husual.small, hend⟩
  | value number =>
      obtain ⟨hnonneg, hsmall, hseven⟩ := allows_bounds husual h
      exact ⟨hnonneg, hsmall, fun hallow =>
        Int.ofNat_le.mpr (hseven hallow)⟩
  | range first last =>
      obtain ⟨hnonneg, -, -⟩ := allows_bounds husual h.1
      obtain ⟨-, hsmall, hseven⟩ := allows_bounds husual h.2
      exact ⟨hnonneg, hsmall, fun hallow =>
        Int.ofNat_le.mpr (hseven hallow)⟩
  | rangeBy first last step =>
      obtain ⟨hnonneg, -, -⟩ := allows_bounds husual h.1
      obtain ⟨-, hsmall, hseven⟩ := allows_bounds husual h.2.1
      exact ⟨hnonneg, hsmall, fun hallow =>
        Int.ofNat_le.mpr (hseven hallow)⟩

theorem first_le_last (husual : spec.Usual) (h : segment.Ordered) :
    segment.first spec ≤ segment.last spec := by
  cases segment with
  | all => exact husual.ordered
  | allBy step => exact husual.ordered
  | value number => exact Int.le_refl _
  | range first last => exact Int.ofNat_le.mpr (h first last rfl)
  | rangeBy first last step => exact Int.ofNat_le.mpr (h first last rfl)

theorem step_pos_of_inRange (h : segment.InRange spec) :
    (0 : ℤ) < segment.step := by
  cases segment with
  | allBy step => exact_mod_cast h
  | rangeBy first last step => exact_mod_cast h.2.2
  | _ => exact Int.one_pos

theorem first_eq_of_last_eq_seven (husual : spec.Usual)
    (hallow : spec.allowSevenAsSunday = true)
    (hlast : segment.last spec = 7) :
    segment.first spec = 7 ∨ ∃ first : Nat, segment.ends = some (first, 7) ∧
      segment.first spec = first := by
  have hmax := (husual.week hallow).2
  cases segment with
  | all => simp only [Segment.last] at hlast; omega
  | allBy step => simp only [Segment.last] at hlast; omega
  | value number => exact .inl hlast
  | range first last =>
      obtain rfl : last = 7 := Int.ofNat.inj hlast
      exact .inr ⟨first, rfl, rfl⟩
  | rangeBy first last step =>
      obtain rfl : last = 7 := Int.ofNat.inj hlast
      exact .inr ⟨first, rfl, rfl⟩

theorem sunday_seven (hallow : spec.allowSevenAsSunday = true) :
    sunday spec 7 = 0 :=
  if_pos ⟨hallow, rfl⟩

theorem sunday_of_ne (h : spec.allowSevenAsSunday = true → value ≠ 7) :
    sunday spec value = value :=
  if_neg fun hseven => h hseven.1 hseven.2

theorem values_eq_denotes (husual : spec.Usual) (hrange : segment.InRange spec)
    (hordered : segment.Ordered)
    (hsafe : spec.allowSevenAsSunday = true → ∀ first,
      segment.ends = some (first, 7) → first = 7)
    {step : ℤ} (hstep : wholeNumber segment.step = some step) :
    progression (sunday spec (segment.first spec))
      (sunday spec (segment.last spec)) step = segment.denotes spec := by
  have hbounds := segment_bounds husual hrange
  have hle := first_le_last husual hordered
  have hpos := step_pos_of_inRange hrange
  rw [Segment.denotes]
  by_cases hseven : spec.allowSevenAsSunday = true ∧ segment.last spec = 7
  · obtain ⟨hallow, hlast⟩ := hseven
    have hfirst : segment.first spec = 7 := by
      rcases first_eq_of_last_eq_seven husual hallow hlast with
        hfirst | ⟨first, hends, hfirst⟩
      · exact hfirst
      · rw [hfirst, hsafe hallow first hends]
        rfl
    rw [hfirst, hlast, sunday_seven hallow,
      progression_wholeNumber (Int.le_refl _) (by omega) hstep,
      progression_self_of_large (Int.le_refl _) (by omega),
      progression_self_of_large (Int.le_refl _) (by omega),
      Set.image_singleton, sunday_seven hallow]
  · have hbelow : ∀ value ≤ segment.last spec, sunday spec value = value := by
      intro value hvalue
      refine sunday_of_ne fun hallow heq => ?_
      have hmax := hbounds.2.2 hallow
      exact hseven ⟨hallow, by omega⟩
    rw [hbelow _ hle, hbelow _ (Int.le_refl _),
      progression_wholeNumber hle (by omega) hstep]
    ext value
    constructor
    · rintro ⟨turn, rfl, hlast⟩
      exact ⟨_, ⟨turn, rfl, hlast⟩, hbelow _ hlast⟩
    · rintro ⟨other, ⟨turn, rfl, hlast⟩, rfl⟩
      rw [hbelow _ hlast]
      exact ⟨turn, rfl, hlast⟩

theorem sunday_le_iff (husual : spec.Usual) (hrange : segment.InRange spec)
    (hordered : segment.Ordered) :
    sunday spec (segment.first spec) ≤ sunday spec (segment.last spec) ↔
      (spec.allowSevenAsSunday = true → ∀ first,
        segment.ends = some (first, 7) → first = 0 ∨ first = 7) := by
  have hbounds := segment_bounds husual hrange
  have hle := first_le_last husual hordered
  by_cases hseven : spec.allowSevenAsSunday = true ∧ segment.last spec = 7
  · obtain ⟨hallow, hlast⟩ := hseven
    rw [hlast, sunday_seven hallow]
    constructor
    · intro hzero _ first hends
      have hfirst : segment.first spec = first := by
        cases segment <;> simp_all [Segment.ends, Segment.first]
      rw [hfirst] at hzero
      by_cases hfirst : first = 7
      · exact .inr hfirst
      · rw [sunday_of_ne fun _ => by omega] at hzero
        omega
    · intro h
      rcases first_eq_of_last_eq_seven husual hallow hlast with
        hfirst | ⟨first, hends, hfirst⟩
      · rw [hfirst, sunday_seven hallow]
      · rcases h hallow first hends with rfl | rfl
        · rw [hfirst, sunday_of_ne fun _ => by decide]
          rfl
        · rw [hfirst, Nat.cast_ofNat, sunday_seven hallow]
  · have hbelow : ∀ value ≤ segment.last spec, sunday spec value = value := by
      intro value hvalue
      refine sunday_of_ne fun hallow heq => ?_
      have hmax := hbounds.2.2 hallow
      exact hseven ⟨hallow, by omega⟩
    rw [hbelow _ hle, hbelow _ (Int.le_refl _)]
    refine iff_of_true hle fun hallow first hends => ?_
    exfalso
    refine hseven ⟨hallow, ?_⟩
    cases segment <;> simp_all [Segment.ends, Segment.last]

theorem values_of_week (hallow : spec.allowSevenAsSunday = true)
    (hweek : segment.ends = some (0, 7)) {step : ℤ} (hstep : 0 < step) :
    progression (sunday spec (segment.first spec))
      (sunday spec (segment.last spec)) step = {0} := by
  have hends : segment.first spec = 0 ∧ segment.last spec = 7 := by
    cases segment <;> simp_all [Segment.ends, Segment.first, Segment.last]
  rw [hends.1, hends.2, sunday_seven hallow, sunday_of_ne fun _ => by decide]
  exact progression_self_of_large (Int.le_refl _) (by omega)

theorem zero_mem_denotes_of_week (hweek : segment.ends = some (0, 7)) :
    0 ∈ segment.denotes spec := by
  have hends : segment.first spec = 0 ∧ segment.last spec = 7 := by
    cases segment <;> simp_all [Segment.ends, Segment.first, Segment.last]
  rw [Segment.denotes, hends.1, hends.2]
  exact ⟨0, ⟨0, by simp, by decide⟩, sunday_of_ne fun _ => by decide⟩

/-- A segment of the grammar is read if its step is finite and the range, if it
is one that ends on 7, starts on a Sunday. -/
theorem exists_reading_iff (husual : spec.Usual)
    (hvalid : segment.InRange spec ∧ segment.Ordered)
    (hspelled : Segment.Spells text segment) :
    (∃ reading, readSegment spec text = some reading) ↔
      (toDouble (segment.step : ℚ)).isSome = true ∧
        (spec.allowSevenAsSunday = true → ∀ first,
          segment.ends = some (first, 7) → first = 0 ∨ first = 7) := by
  obtain ⟨hrange, hordered⟩ := hvalid
  rw [← wholeNumber_isSome_iff, ← sunday_le_iff husual hrange hordered,
    Option.isSome_iff_exists]
  simp only [readSegment_of_spells husual hspelled]
  constructor
  · rintro ⟨reading, -, hstep, hle, -⟩
    exact ⟨⟨_, hstep⟩, hle⟩
  · rintro ⟨⟨step, hstep⟩, hle⟩
    exact ⟨⟨_, _, step⟩, hrange, hstep, hle, rfl, rfl⟩

theorem values_of_not_week (husual : spec.Usual)
    (hvalid : segment.InRange spec ∧ segment.Ordered)
    (hends : spec.allowSevenAsSunday = true → ∀ first,
      segment.ends = some (first, 7) → first = 0 ∨ first = 7)
    (hweek : spec.allowSevenAsSunday = true → segment.ends ≠ some (0, 7))
    {step : ℤ} (hstep : wholeNumber segment.step = some step) :
    progression (sunday spec (segment.first spec))
      (sunday spec (segment.last spec)) step = segment.denotes spec := by
  refine values_eq_denotes husual hvalid.1 hvalid.2 ?_ hstep
  intro hallow first hfirst
  rcases hends hallow first hfirst with rfl | hseven
  · exact absurd hfirst (hweek hallow)
  · exact hseven

def WholeWeek (spec : CronFieldSpec) (segment : Segment) : Prop :=
  spec.allowSevenAsSunday = true ∧ segment.ends = some (0, 7)

theorem mem_values_iff (husual : spec.Usual)
    (hvalid : segment.InRange spec ∧ segment.Ordered)
    (hends : spec.allowSevenAsSunday = true → ∀ first,
      segment.ends = some (first, 7) → first = 0 ∨ first = 7)
    {step : ℤ} (hstep : wholeNumber segment.step = some step) :
    value ∈ progression (sunday spec (segment.first spec))
        (sunday spec (segment.last spec)) step ↔
      WholeWeek spec segment ∧ value = 0 ∨
        ¬ WholeWeek spec segment ∧ value ∈ segment.denotes spec := by
  by_cases hweek : WholeWeek spec segment
  · have hpos : 0 < step := (wholeNumber_pos_iff hstep).mpr
      (Int.natCast_pos.mp (step_pos_of_inRange hvalid.1))
    rw [values_of_week hweek.1 hweek.2 hpos]
    simp [hweek]
  · rw [values_of_not_week husual hvalid hends
      (fun hallow heq => hweek ⟨hallow, heq⟩) hstep]
    simp [hweek]

section Fields

variable {segments : List Segment} (husual : spec.Usual)
  (htrimmed : ∀ segmentText ∈ split ',' text, trimChars segmentText = segmentText)
  (hspells : List.Forall₂ Segment.Spells (split ',' text) segments)

include husual htrimmed hspells

theorem mem_parseField_of_spells {result : List ℤ}
    (hparsed : parseField spec text = .ok result) :
    value ∈ result ↔ ∃ segment ∈ segments, ∃ step,
      wholeNumber segment.step = some step ∧
        value ∈ progression (sunday spec (segment.first spec))
          (sunday spec (segment.last spec)) step := by
  rw [mem_parseField_iff husual.ordered hparsed]
  constructor
  · rintro ⟨segmentText, hsegment, ⟨first, last, step⟩, hread, hvalue⟩
    obtain ⟨segment, hmem, hspelled⟩ := paired_of_mem_left hspells hsegment
    rw [htrimmed segmentText hsegment] at hread
    obtain ⟨-, hstep, -, rfl, rfl⟩ :=
      (readSegment_of_spells husual hspelled).mp hread
    exact ⟨segment, hmem, step, hstep, hvalue⟩
  · rintro ⟨segment, hmem, step, hstep, hvalue⟩
    obtain ⟨segmentText, hsegment, hspelled⟩ := paired_of_mem_right hspells hmem
    obtain ⟨reading, hread⟩ :=
      (exists_parseField_iff husual.ordered).mp ⟨result, hparsed⟩
        segmentText hsegment
    refine ⟨segmentText, hsegment, reading, hread, ?_⟩
    rw [htrimmed segmentText hsegment] at hread
    obtain ⟨-, hstep', -, hfirst, hlast⟩ :=
      (readSegment_of_spells husual hspelled).mp hread
    rw [hstep] at hstep'
    rw [Reading.values, hfirst, hlast, ← Option.some.inj hstep']
    exact hvalue

variable
  (hvalid : ∀ segment ∈ segments, segment.InRange spec ∧ segment.Ordered)

include hvalid

theorem exists_parseField_of_spells :
    (∃ result, parseField spec text = .ok result) ↔
      StepsFinite segments ∧ (spec.allowSevenAsSunday = true →
        ∀ segment ∈ segments, ∀ first, segment.ends = some (first, 7) →
          first = 0 ∨ first = 7) := by
  have hread := fun segment hmem {segmentText} hspelled =>
    @exists_reading_iff spec segmentText segment husual (hvalid segment hmem)
      hspelled
  rw [exists_parseField_iff husual.ordered]
  constructor
  · intro h
    have hsome : ∀ segment ∈ segments, ∃ segmentText,
        Segment.Spells segmentText segment ∧
          ∃ reading, readSegment spec segmentText = some reading := by
      intro segment hmem
      obtain ⟨segmentText, hsegment, hspelled⟩ :=
        paired_of_mem_right hspells hmem
      have hread := h segmentText hsegment
      rw [htrimmed segmentText hsegment] at hread
      exact ⟨segmentText, hspelled, hread⟩
    constructor
    · intro segment hmem
      obtain ⟨segmentText, hspelled, hreading⟩ := hsome segment hmem
      exact ((hread segment hmem hspelled).mp hreading).1
    · intro hallow segment hmem
      obtain ⟨segmentText, hspelled, hreading⟩ := hsome segment hmem
      exact ((hread segment hmem hspelled).mp hreading).2 hallow
  · rintro ⟨hfinite, hends⟩ segmentText hsegment
    obtain ⟨segment, hmem, hspelled⟩ := paired_of_mem_left hspells hsegment
    rw [htrimmed segmentText hsegment]
    exact (hread segment hmem hspelled).mpr ⟨hfinite segment hmem,
      fun hallow => hends hallow segment hmem⟩

theorem mem_result_iff {result : List ℤ}
    (hparsed : parseField spec text = .ok result) :
    value ∈ result ↔ ∃ segment ∈ segments,
      WholeWeek spec segment ∧ value = 0 ∨
        ¬ WholeWeek spec segment ∧ value ∈ segment.denotes spec := by
  obtain ⟨hfinite, hends⟩ := (exists_parseField_of_spells husual htrimmed
    hspells hvalid).mp ⟨result, hparsed⟩
  rw [mem_parseField_of_spells husual htrimmed hspells hparsed]
  refine exists_congr fun segment => and_congr_right fun hmem => ?_
  have hvalues := fun {step} => @mem_values_iff spec value segment husual
    (hvalid segment hmem) (fun hallow => hends hallow segment hmem) step
  constructor
  · rintro ⟨step, hstep, hvalue⟩
    exact (hvalues hstep).mp hvalue
  · intro hvalue
    obtain ⟨step, hstep⟩ := Option.isSome_iff_exists.mp
      (wholeNumber_isSome_iff.mpr (hfinite segment hmem))
    exact ⟨step, hstep, (hvalues hstep).mpr hvalue⟩

/-- A field means what its segments say if its steps are finite, and its ranges
do not stumble over Sunday. -/
theorem field_means_iff :
    (∃ result, parseField spec text = .ok result ∧
        UnionOf spec segments result) ↔
      StepsFinite segments ∧
        (spec.allowSevenAsSunday = true → SundaySafe spec segments) := by
  constructor
  · rintro ⟨result, hparsed, hunion⟩
    obtain ⟨hfinite, hends⟩ := (exists_parseField_of_spells husual htrimmed
      hspells hvalid).mp ⟨result, hparsed⟩
    refine ⟨hfinite, fun hallow => ⟨hends hallow, ?_⟩⟩
    intro segment hmem _ day hday
    have hresult := (hunion day).mpr ⟨segment, hmem, hday⟩
    rw [mem_result_iff husual htrimmed hspells hvalid hparsed] at hresult
    obtain ⟨other, hother, ⟨-, hzero⟩ | ⟨hweek, hdenotes⟩⟩ := hresult
    · exact .inl hzero
    · exact .inr ⟨other, hother, fun heq => hweek ⟨hallow, heq⟩, hdenotes⟩
  · rintro ⟨hfinite, hsafe⟩
    obtain ⟨result, hparsed⟩ := (exists_parseField_of_spells husual htrimmed
      hspells hvalid).mpr ⟨hfinite, fun hallow => (hsafe hallow).ends⟩
    refine ⟨result, hparsed, fun value => ?_⟩
    rw [mem_result_iff husual htrimmed hspells hvalid hparsed]
    constructor
    · rintro ⟨segment, hmem, ⟨hweek, rfl⟩ | ⟨-, hdenotes⟩⟩
      · exact ⟨segment, hmem, zero_mem_denotes_of_week hweek.2⟩
      · exact ⟨segment, hmem, hdenotes⟩
    · rintro ⟨segment, hmem, hdenotes⟩
      by_cases hweek : WholeWeek spec segment
      · rcases (hsafe hweek.1).week segment hmem hweek.2 value hdenotes with
          rfl | ⟨other, hother, hnot, hvalue⟩
        · exact ⟨segment, hmem, .inl ⟨hweek, rfl⟩⟩
        · exact ⟨other, hother, .inr ⟨fun hboth => hnot hboth.2, hvalue⟩⟩
      · exact ⟨segment, hmem, .inr ⟨hweek, hdenotes⟩⟩

end Fields

/-- The expression is parsed, and each of its sets is what the segments of the
field stand for. -/
def MeansSegments (expression : String) (fields : List (List Segment)) : Prop :=
  ∃ parsed, parseCronExpression expression = .ok parsed ∧
    List.Forall₂ (fun field result => UnionOf field.1 field.2 result)
      (cronFieldSpecs.zip fields) parsed.sets

theorem meansSegments_iff {fields : List (List Segment)}
    (htexts : (fieldTexts expression).length = 5) (hfields : fields.length = 5) :
    MeansSegments expression fields ↔
      ∀ field ∈ cronFieldSpecs.zip ((fieldTexts expression).zip fields),
        ∃ result, parseField field.1 field.2.1 = .ok result ∧
          UnionOf field.1 field.2.2 result := by
  obtain ⟨_, _, _, _, _, rfl⟩ := exists_five hfields
  obtain ⟨_, _, _, _, _, hfive⟩ := exists_five htexts
  simp only [hfive, cronFieldSpecs, List.zip_cons_cons, List.zip_nil_right,
    List.forall_mem_cons, List.not_mem_nil, false_imp_iff, implies_true,
    and_true]
  constructor
  · rintro ⟨parsed, hparsed, hunion⟩
    have hresults := (parsed_fields hparsed).1
    simp only [hfive, cronFieldSpecs, ParsedCron.sets, List.zip_cons_cons,
      List.zip_nil_right, List.forall₂_cons, List.Forall₂.nil, and_true]
      at hresults hunion
    obtain ⟨hminute, hhour, hday, hmonth, hweekday⟩ := hresults
    obtain ⟨hminute', hhour', hday', hmonth', hweekday'⟩ := hunion
    exact ⟨⟨_, hminute, hminute'⟩, ⟨_, hhour, hhour'⟩, ⟨_, hday, hday'⟩,
      ⟨_, hmonth, hmonth'⟩, _, hweekday, hweekday'⟩
  · rintro ⟨⟨minute, hminute, hminute'⟩, ⟨hour, hhour, hhour'⟩,
      ⟨dayOfMonth, hday, hday'⟩, ⟨month, hmonth, hmonth'⟩,
      ⟨dayOfWeek, hweekday, hweekday'⟩⟩
    have hresults : List.Forall₂
        (fun field result => parseField field.1 field.2 = .ok result)
        (cronFieldSpecs.zip (fieldTexts expression))
        [minute, hour, dayOfMonth, month, dayOfWeek] := by
      rw [hfive]
      exact .cons hminute (.cons hhour (.cons hday (.cons hmonth
        (.cons hweekday .nil))))
    obtain ⟨parsed, hparsed, hsets⟩ := parsed_of_fields htexts hresults
    refine ⟨parsed, hparsed, ?_⟩
    rw [hsets]
    exact .cons hminute' (.cons hhour' (.cons hday' (.cons hmonth'
      (.cons hweekday' .nil))))

/-- An expression of the grammar means what it says exactly when its steps are
finite, and its weekdays do not stumble over Sunday. -/
theorem expression_means_iff {fields : List (List Segment)}
    (h : Expresses expression fields) :
    MeansSegments expression fields ↔
      ∀ field ∈ cronFieldSpecs.zip fields, StepsFinite field.2 ∧
        (field.1.allowSevenAsSunday = true → SundaySafe field.1 field.2) := by
  obtain ⟨hspells, hvalid⟩ := h
  have hfields : fields.length = 5 := hvalid.length_eq.symm
  have htexts : (fieldTexts expression).length = 5 :=
    hspells.length_eq.trans hfields
  rw [meansSegments_iff htexts hfields]
  have htrimmed : ∀ text ∈ fieldTexts expression, ∀ segmentText ∈ split ',' text,
      trimChars segmentText = segmentText := fun text htext segmentText =>
    trimChars_segment htext
  generalize fieldTexts expression = texts at hspells htexts htrimmed
  obtain ⟨_, _, _, _, _, rfl⟩ := exists_five hfields
  obtain ⟨_, _, _, _, _, rfl⟩ := exists_five htexts
  have husual := usual_of_mem
  simp only [cronFieldSpecs, List.zip_cons_cons, List.zip_nil_right,
    List.forall_mem_cons, List.not_mem_nil, false_imp_iff, implies_true,
    and_true, List.forall₂_cons, List.Forall₂.nil]
    at hspells hvalid htrimmed husual ⊢
  exact and_congr
    (field_means_iff husual.1 htrimmed.1 hspells.1 hvalid.1)
    (and_congr
      (field_means_iff husual.2.1 htrimmed.2.1 hspells.2.1 hvalid.2.1)
      (and_congr
        (field_means_iff husual.2.2.1 htrimmed.2.2.1 hspells.2.2.1 hvalid.2.2.1)
        (and_congr
          (field_means_iff husual.2.2.2.1 htrimmed.2.2.2.1 hspells.2.2.2.1
            hvalid.2.2.2.1)
          (field_means_iff husual.2.2.2.2 htrimmed.2.2.2.2 hspells.2.2.2.2
            hvalid.2.2.2.2))))

/-! ## Two expressions -/

def officeHours : List (List Segment) :=
  [[.allBy 15], [.range 9 17], [.all], [.all], [.range 1 5]]

theorem expresses_officeHours : Expresses "*/15 9-17 * * 1-5" officeHours where
  spells := by
    have htexts : fieldTexts "*/15 9-17 * * 1-5" =
        [['*'] ++ '/' :: ['1', '5'], ['9'] ++ '-' :: ['1', '7'], ['*'], ['*'],
          ['1'] ++ '-' :: ['5']] := by
      decide
    have hhours : Segment.Spells (['9'] ++ '-' :: ['1', '7']) (.range 9 17) :=
      @Segment.Spells.range ['9'] ['1', '7'] 9 17 (by decide) (by decide)
    have hdays : Segment.Spells (['1'] ++ '-' :: ['5']) (.range 1 5) :=
      @Segment.Spells.range ['1'] ['5'] 1 5 (by decide) (by decide)
    rw [htexts]
    exact .cons (.cons (.allBy (by decide)) .nil)
      (.cons (.cons hhours .nil)
        (.cons (.cons .all .nil) (.cons (.cons .all .nil)
          (.cons (.cons hdays .nil) .nil))))
  inRange := by
    simp [officeHours, cronFieldSpecs, Segment.InRange, Segment.Ordered,
      Segment.ends, CronFieldSpec.Allows, hourSpec, dayOfWeekSpec]

theorem expression_means_of_officeHours :
    MeansSegments "*/15 9-17 * * 1-5" officeHours := by
  have hsmall : ∀ step : Nat, step < 2 ^ 53 →
      (toDouble (step : ℚ)).isSome = true := fun step hstep => by
    rw [toDouble_natCast hstep]
    rfl
  refine (expression_means_iff expresses_officeHours).mpr ?_
  simp only [officeHours, cronFieldSpecs, List.zip_cons_cons,
    List.zip_nil_right, List.forall_mem_cons, List.not_mem_nil, false_imp_iff,
    implies_true, and_true, StepsFinite]
  have hnever : ∀ spec segments, spec.allowSevenAsSunday = false →
      spec.allowSevenAsSunday = true → SundaySafe spec segments := by
    intro spec segments hoff hon
    rw [hoff] at hon
    cases hon
  refine ⟨⟨hsmall _ (by decide), hnever _ _ rfl⟩,
    ⟨hsmall _ (by decide), hnever _ _ rfl⟩,
    ⟨hsmall _ (by decide), hnever _ _ rfl⟩,
    ⟨hsmall _ (by decide), hnever _ _ rfl⟩,
    hsmall _ (by decide), fun _ => ⟨?_, ?_⟩⟩
  · simp [Segment.ends]
  · simp [Segment.ends]

def weekend : List (List Segment) :=
  [[.value 0], [.value 0], [.all], [.all], [.range 5 7]]

theorem expresses_weekend : Expresses "0 0 * * 5-7" weekend where
  spells := by
    have htexts : fieldTexts "0 0 * * 5-7" =
        [['0'], ['0'], ['*'], ['*'], ['5'] ++ '-' :: ['7']] := by
      decide
    have hdays : Segment.Spells (['5'] ++ '-' :: ['7']) (.range 5 7) :=
      @Segment.Spells.range ['5'] ['7'] 5 7 (by decide) (by decide)
    rw [htexts]
    exact .cons (.cons (.value (by decide)) .nil)
      (.cons (.cons (.value (by decide)) .nil)
        (.cons (.cons .all .nil) (.cons (.cons .all .nil)
          (.cons (.cons hdays .nil) .nil))))
  inRange := by
    simp [weekend, cronFieldSpecs, Segment.InRange, Segment.Ordered,
      Segment.ends, CronFieldSpec.Allows, minuteSpec, hourSpec, dayOfWeekSpec]

/-- The parser takes 7 for 0 first, and rejects the range. -/
theorem expression_means_fails :
    Expresses "0 0 * * 5-7" weekend ∧ ¬ MeansSegments "0 0 * * 5-7" weekend := by
  refine ⟨expresses_weekend, ?_⟩
  rintro ⟨parsed, hparsed, -⟩
  have hnone : (parseCronExpression "0 0 * * 5-7").toOption.isSome = false := by
    decide +kernel
  rw [hparsed] at hnone
  cases hnone

end SyncBridge.Cron
