import SyncBridge.Schedule.CronSegments

/-!
# Expressions that are accepted

The parser takes more than the grammar: `Number` reads other texts than decimal
digits as a whole number, and a third piece of a range is dropped.
-/

namespace SyncBridge.Cron

open SyncBridge.Foundation

variable {expression : String} {text : List Char} {segment : Segment}

def valueTexts (text : List Char) : List (List Char) :=
  if (segmentParts text).1 = ['*'] then [] else split '-' (segmentParts text).1

/-- The values of the segment are written in decimal digits, and a range has a
single hyphen. -/
structure PlainlyWritten (text : List Char) : Prop where
  oneHyphen : (valueTexts text).length ≤ 2
  inDigits : ∀ valueText ∈ valueTexts text, ∃ number,
    digits 10 valueText = some number

theorem plainlyWritten_of_two {valueText valueText' : List Char}
    (h : valueTexts text = [valueText, valueText'])
    (hfirst : digits 10 valueText = some first)
    (hlast : digits 10 valueText' = some last) : PlainlyWritten text := by
  refine ⟨by simp [h], fun other hmem => ?_⟩
  rw [h] at hmem
  rcases List.mem_cons.mp hmem with rfl | hmem
  · exact ⟨first, hfirst⟩
  · obtain rfl := List.mem_singleton.mp hmem
    exact ⟨last, hlast⟩

theorem valueTexts_of_parts {stepText : Option (List Char)}
    (h : segmentParts text = (base, stepText)) (hbase : base ≠ ['*']) :
    valueTexts text = split '-' base := by
  simp [valueTexts, h, hbase]

theorem plainlyWritten_of_spells (h : Segment.Spells text segment) :
    PlainlyWritten text := by
  have hnone : ∀ {text : List Char}, valueTexts text = [] →
      PlainlyWritten text := by
    intro text hnil
    refine ⟨by simp [hnil], fun valueText hmem => ?_⟩
    rw [hnil] at hmem
    cases hmem
  cases h with
  | all => exact hnone (by decide)
  | allBy hstep =>
      refine hnone ?_
      rw [valueTexts, segmentParts_append (by simp) hstep, if_pos rfl]
  | value hvalue =>
      have htexts := valueTexts_of_parts
        (segmentParts_of_not_mem (slash_not_mem_of_digits hvalue))
        (digits_ne_star hvalue)
      rw [split_of_not_mem (hyphen_not_mem_of_digits hvalue)] at htexts
      refine ⟨by simp [htexts], fun valueText hmem => ?_⟩
      rw [htexts] at hmem
      obtain rfl := List.mem_singleton.mp hmem
      exact ⟨_, hvalue⟩
  | range hfirst hlast =>
      have htexts := valueTexts_of_parts
        (segmentParts_of_not_mem (slash_not_mem_of_range hfirst hlast))
        range_ne_star
      rw [split_range hfirst hlast] at htexts
      exact plainlyWritten_of_two htexts hfirst hlast
  | @rangeBy text text' text'' first last step hfirst hlast hstep =>
      have hparts : segmentParts ((text ++ '-' :: text') ++ '/' :: text'') =
          (text ++ '-' :: text', some text'') :=
        segmentParts_append (by simp) hstep
      have htexts := valueTexts_of_parts hparts range_ne_star
      rw [split_range hfirst hlast] at htexts
      exact plainlyWritten_of_two htexts hfirst hlast

theorem pieces_of_plainlyWritten {stepText : Option (List Char)}
    (hparts : segmentParts text = (base, stepText)) (hbase : base ≠ ['*'])
    (hplain : PlainlyWritten text) :
    (∃ number, digits 10 base = some number) ∨
      ∃ text text' first last, base = text ++ '-' :: text' ∧
        digits 10 text = some first ∧ digits 10 text' = some last := by
  obtain ⟨hshort, hdigits⟩ := hplain
  rw [valueTexts_of_parts hparts hbase] at hshort hdigits
  have hjoin := intercalate_split '-' base
  rcases hsplit : split '-' base with _ | ⟨text, _ | ⟨text', _ | ⟨_, _⟩⟩⟩
  · rw [split_eq_splitOn] at hsplit
    exact absurd hsplit (List.splitOn_ne_nil '-' base)
  · rw [hsplit] at hjoin hdigits
    obtain rfl : text = base := by simpa using hjoin
    exact .inl (hdigits text List.mem_cons_self)
  · rw [hsplit] at hjoin hdigits
    obtain ⟨first, hfirst⟩ := hdigits text List.mem_cons_self
    obtain ⟨last, hlast⟩ :=
      hdigits text' (List.mem_cons_of_mem _ List.mem_cons_self)
    refine .inr ⟨text, text', first, last, ?_, hfirst, hlast⟩
    rw [← hjoin]
    simp [List.intercalate]
  · rw [hsplit] at hshort
    simp at hshort

theorem spells_of_plainlyWritten {reading : Reading}
    (hread : readSegment spec text = some reading)
    (hplain : PlainlyWritten text) : ∃ segment, Segment.Spells text segment := by
  have hbounds := (readSegment_eq_some_iff.mp hread).2.2
  cases hmatch : stepMatch text with
  | some parts =>
      obtain ⟨base, stepText⟩ := parts
      obtain ⟨rfl, step, hstep⟩ := stepMatch_eq_some hmatch
      have hparts : segmentParts (base ++ '/' :: stepText) =
          (base, some stepText) := by
        simp [segmentParts, hmatch]
      by_cases hbase : base = ['*']
      · subst hbase
        exact ⟨_, .allBy hstep⟩
      · rcases pieces_of_plainlyWritten hparts hbase hplain with
          ⟨number, hnumber⟩ | ⟨text, text', first, last, rfl, hfirst, hlast⟩
        · rw [hparts] at hbounds
          simp [readBounds, hbase, parseRange,
            split_of_not_mem (hyphen_not_mem_of_digits hnumber),
            Except.toOption] at hbounds
        · exact ⟨_, .rangeBy hfirst hlast hstep⟩
  | none =>
      have hparts : segmentParts text = (text, none) := by
        simp [segmentParts, hmatch]
      by_cases hbase : text = ['*']
      · subst hbase
        exact ⟨_, .all⟩
      · rcases pieces_of_plainlyWritten hparts hbase hplain with
          ⟨number, hnumber⟩ | ⟨text, text', first, last, rfl, hfirst, hlast⟩
        · exact ⟨_, .value hnumber⟩
        · exact ⟨_, .range hfirst hlast⟩

def Readable (expression : String) : Prop :=
  List.Forall₂ (fun spec text => ∀ segmentText ∈ split ',' text,
      ∃ reading, readSegment spec segmentText = some reading)
    cronFieldSpecs (fieldTexts expression)

theorem exists_parsed_iff_readable :
    (∃ parsed, parseCronExpression expression = .ok parsed) ↔
      Readable expression := by
  rw [exists_parsed_iff, Readable, List.forall₂_iff_zip, List.forall₂_iff_zip]
  refine and_congr_right fun _ => ?_
  refine forall_congr' fun spec => forall_congr' fun text =>
    forall_congr' fun hmem => ?_
  obtain ⟨hspec, htext⟩ := List.of_mem_zip hmem
  rw [exists_parseField_iff (usual_of_mem spec hspec).ordered]
  refine forall_congr' fun segmentText => forall_congr' fun hsegment => ?_
  rw [trimChars_segment htext hsegment]

/-- An expression that the parser takes is one of the grammar exactly when its
values are written in digits and its ranges have two ends. -/
theorem parsed_well_formed_iff :
    ((∃ parsed, parseCronExpression expression = .ok parsed) →
        WellFormedExpression expression) ↔
      (Readable expression → ∀ text ∈ fieldTexts expression,
        ∀ segmentText ∈ split ',' text, PlainlyWritten segmentText) := by
  rw [exists_parsed_iff_readable]
  refine imp_congr_right fun hreadable => ?_
  constructor
  · intro hformed text htext segmentText hsegment
    obtain ⟨spec, -, hsegments⟩ := paired_of_mem_right hformed htext
    obtain ⟨segment, hspells, -⟩ := hsegments segmentText hsegment
    exact plainlyWritten_of_spells hspells
  · intro hplain
    rw [Readable, List.forall₂_iff_zip] at hreadable
    refine List.forall₂_iff_zip.mpr ⟨hreadable.1, fun {spec text} hmem => ?_⟩
    obtain ⟨hspec, htext⟩ := List.of_mem_zip hmem
    intro segmentText hsegment
    obtain ⟨reading, hread⟩ := hreadable.2 hmem segmentText hsegment
    obtain ⟨segment, hspells⟩ := spells_of_plainlyWritten hread
      (hplain text htext segmentText hsegment)
    exact ⟨segment, hspells,
      ((readSegment_of_spells (usual_of_mem spec hspec) hspells).mp hread).1⟩

/-- A minute in hexadecimal digits is accepted. -/
theorem parsed_well_formed_fails :
    (∃ parsed, parseCronExpression "0x5 * * * *" = .ok parsed) ∧
      ¬ WellFormedExpression "0x5 * * * *" := by
  have hparsed : (parseCronExpression "0x5 * * * *").toOption.isSome = true := by
    decide +kernel
  obtain ⟨parsed, hsome⟩ := Option.isSome_iff_exists.mp hparsed
  refine ⟨⟨parsed, toOption_eq_some.mp hsome⟩, fun hformed => ?_⟩
  have htext : ['0', 'x', '5'] ∈ fieldTexts "0x5 * * * *" := by decide
  obtain ⟨spec, -, hsegments⟩ := paired_of_mem_right hformed htext
  obtain ⟨segment, hspells, -⟩ := hsegments ['0', 'x', '5'] (by decide)
  obtain ⟨number, hnumber⟩ := (plainlyWritten_of_spells hspells).inDigits
    ['0', 'x', '5'] (by decide)
  have hnone : digits 10 ['0', 'x', '5'] = none := by decide
  rw [hnone] at hnumber
  cases hnumber

end SyncBridge.Cron
