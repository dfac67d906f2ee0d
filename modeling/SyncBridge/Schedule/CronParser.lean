import SyncBridge.Foundation.Pairing
import SyncBridge.Schedule.CronGrammar

/-!
# What the parser reads

Each segment is read as a progression, or refused; a field is parsed when each
of its segments is read, and its set is the union of their progressions.
-/

namespace SyncBridge.Cron

open SyncBridge.Foundation

/-! ## Reading a segment -/

structure Reading where
  first : ℤ
  last : ℤ
  step : ℤ

def Reading.values (reading : Reading) : Set ℤ :=
  progression reading.first reading.last reading.step

def Reading.addTo (reading : Reading) (target : List ℤ) : List ℤ :=
  (List.range
    ((reading.last - reading.first) / reading.step + 1).toNat).foldl
      (fun target (turn : Nat) =>
        target.insert (reading.first + turn * reading.step)) target

def segmentParts (segment : List Char) : List Char × Option (List Char) :=
  match stepMatch segment with
  | some (base, step) => (base, some step)
  | none => (segment, none)

def readStep : Option (List Char) → Option ℤ
  | none => some 1
  | some raw => (integer raw).filter fun step => 0 < step

section Reading

variable (spec : CronFieldSpec)

def readBounds (base : List Char) (stepped : Bool) : Option (ℤ × ℤ) :=
  if base = ['*'] then some (spec.min, spec.max)
  else if stepped || base.contains '-' then (parseRange spec base).toOption
  else (parseFieldValue spec base).toOption.map fun value => (value, value)

def readSegment (segment : List Char) : Option Reading :=
  if segment.isEmpty then none
  else do
    let (base, stepText) := segmentParts segment
    let step ← readStep stepText
    let (first, last) ← readBounds spec base stepText.isSome
    some ⟨first, last, step⟩

end Reading

variable {spec : CronFieldSpec} {reading : Reading} {segment text : List Char}
  {result result' target : List ℤ} {first last step value : ℤ}

theorem addRange_eq (hstep : 0 < step) :
    addRange spec target first last step =
      .ok (Reading.addTo ⟨first, last, step⟩ target) := by
  rw [addRange, if_neg (Int.not_le.mpr hstep)]
  rfl

theorem addTo_single : Reading.addTo ⟨value, value, 1⟩ target =
    target.insert value := by
  simp [Reading.addTo]

theorem addParsedRange_ok_iff {base : List Char} (hstep : 0 < step) :
    (do
      let (start, stop) ← parseRange spec base
      addRange spec result start stop step) = .ok result' ↔
      ∃ first last, parseRange spec base = .ok (first, last) ∧
        result' = Reading.addTo ⟨first, last, step⟩ result := by
  rw [bind_eq_ok]
  constructor
  · rintro ⟨⟨first, last⟩, hrange, hadded⟩
    simp only [addRange_eq hstep, Except.ok.injEq] at hadded
    exact ⟨first, last, hrange, hadded.symm⟩
  · rintro ⟨first, last, hrange, rfl⟩
    exact ⟨(first, last), hrange, addRange_eq hstep⟩

theorem readStep_pos {raw : Option (List Char)} (h : readStep raw = some step) :
    0 < step := by
  cases raw with
  | none =>
      obtain rfl := Option.some.inj h
      decide
  | some raw => exact of_decide_eq_true (Option.filter_eq_some_iff.mp h).2

theorem readSegment_eq_some_iff : readSegment spec segment = some reading ↔
    segment.isEmpty = false ∧
      readStep (segmentParts segment).2 = some reading.step ∧
      readBounds spec (segmentParts segment).1
        (segmentParts segment).2.isSome = some (reading.first, reading.last) := by
  obtain ⟨first, last, step⟩ := reading
  cases hempty : segment.isEmpty with
  | true => simp [readSegment, hempty]
  | false =>
      simp only [readSegment, hempty, Bool.false_eq_true, if_false,
        Option.bind_eq_bind, Option.bind_eq_some_iff, true_and]
      constructor
      · rintro ⟨step, hstep, ⟨first, last⟩, hbounds, hreading⟩
        cases hreading
        exact ⟨hstep, hbounds⟩
      · rintro ⟨hstep, hbounds⟩
        exact ⟨step, hstep, (first, last), hbounds, rfl⟩

theorem addStepped_ok_iff {base : List Char} (hstep : 0 < step) :
    (if base = ['*'] then addRange spec result spec.min spec.max step
      else do
        let (start, stop) ← parseRange spec base
        addRange spec result start stop step) = .ok result' ↔
      ∃ first last, readBounds spec base true = some (first, last) ∧
        result' = Reading.addTo ⟨first, last, step⟩ result := by
  by_cases hbase : base = ['*']
  · rw [if_pos hbase, addRange_eq hstep]
    simp only [readBounds, if_pos hbase, Option.some.injEq, Prod.mk.injEq,
      Except.ok.injEq]
    constructor
    · rintro rfl
      exact ⟨_, _, ⟨rfl, rfl⟩, rfl⟩
    · rintro ⟨_, _, ⟨rfl, rfl⟩, rfl⟩
      rfl
  · rw [if_neg hbase, addParsedRange_ok_iff hstep]
    simp [readBounds, hbase, toOption_eq_some]

theorem addPlain_ok_iff (hstar : segment ≠ ['*']) :
    (if segment.contains '-' then do
        let (start, stop) ← parseRange spec segment
        addRange spec result start stop 1
      else do
        let value ← parseFieldValue spec segment
        .ok (result.insert value)) = .ok result' ↔
      ∃ first last, readBounds spec segment false = some (first, last) ∧
        result' = Reading.addTo ⟨first, last, 1⟩ result := by
  simp only [readBounds, if_neg hstar, Bool.false_or]
  split
  · rw [addParsedRange_ok_iff Int.one_pos]
    simp only [toOption_eq_some]
  · rw [bind_eq_ok]
    simp only [Option.map_eq_some_iff, toOption_eq_some, Prod.mk.injEq,
      Except.ok.injEq]
    constructor
    · rintro ⟨value, hvalue, rfl⟩
      exact ⟨value, value, ⟨value, hvalue, rfl, rfl⟩, addTo_single.symm⟩
    · rintro ⟨_, _, ⟨value, hvalue, rfl, rfl⟩, rfl⟩
      exact ⟨value, hvalue, addTo_single.symm⟩

theorem parseSegment_ok_iff :
    parseSegment spec result segment = .ok result' ↔
      ∃ reading, readSegment spec (trimChars segment) = some reading ∧
        result' = reading.addTo result := by
  simp only [readSegment_eq_some_iff, parseSegment]
  generalize trimChars segment = trimmed
  cases hempty : trimmed.isEmpty with
  | true => simp
  | false =>
      simp only [Bool.false_eq_true, if_false, true_and]
      by_cases hstar : trimmed = ['*']
      · subst hstar
        have hparts : segmentParts ['*'] = (['*'], none) := by decide
        rw [if_pos rfl, addRange_eq Int.one_pos, hparts]
        simp only [readStep, readBounds, if_true, Option.some.injEq,
          Prod.mk.injEq, Except.ok.injEq]
        constructor
        · rintro rfl
          exact ⟨⟨spec.min, spec.max, 1⟩, ⟨rfl, rfl, rfl⟩, rfl⟩
        · rintro ⟨⟨_, _, _⟩, ⟨rfl, rfl, rfl⟩, rfl⟩
          rfl
      · rw [if_neg hstar]
        cases hmatch : stepMatch trimmed with
        | some parts =>
            obtain ⟨base, raw⟩ := parts
            have hparts : segmentParts trimmed = (base, some raw) := by
              simp [segmentParts, hmatch]
            rw [hparts]
            simp only [readStep, Option.filter_eq_some_iff, Option.isSome_some,
              decide_eq_true_eq]
            cases hinteger : integer raw with
            | none => simp
            | some step =>
                by_cases hstep : step ≤ 0
                · simp only [hstep, if_true, reduceCtorEq, false_iff]
                  rintro ⟨reading, ⟨⟨hread, hpos⟩, -⟩, -⟩
                  exact absurd (Option.some.inj hread ▸ hstep)
                    (Int.not_le.mpr hpos)
                · have hpos : 0 < step := Int.not_le.mp hstep
                  simp only [hstep, if_false, Option.some.injEq]
                  rw [addStepped_ok_iff hpos]
                  constructor
                  · rintro ⟨first, last, hbounds, rfl⟩
                    exact ⟨⟨first, last, step⟩, ⟨⟨rfl, hpos⟩, hbounds⟩, rfl⟩
                  · rintro ⟨⟨first, last, _⟩, ⟨⟨rfl, _⟩, hbounds⟩, rfl⟩
                    exact ⟨first, last, hbounds, rfl⟩
        | none =>
            have hparts : segmentParts trimmed = (trimmed, none) := by
              simp [segmentParts, hmatch]
            simp only [hparts, readStep, Option.some.injEq, Option.isSome_none]
            rw [addPlain_ok_iff hstar]
            constructor
            · rintro ⟨first, last, hbounds, rfl⟩
              exact ⟨⟨first, last, 1⟩, ⟨rfl, hbounds⟩, rfl⟩
            · rintro ⟨⟨first, last, _⟩, ⟨rfl, hbounds⟩, rfl⟩
              exact ⟨first, last, hbounds, rfl⟩

/-! ## Fields -/

theorem mem_foldl_insert {turns : List Nat} {valueOf : Nat → ℤ} :
    value ∈ turns.foldl (fun target turn => target.insert (valueOf turn))
        target ↔
      value ∈ target ∨ ∃ turn ∈ turns, value = valueOf turn := by
  induction turns generalizing target with
  | nil => simp
  | cons turn turns ih =>
      rw [List.foldl_cons, ih, List.mem_insert_iff]
      constructor
      · rintro ((rfl | hmem) | ⟨later, hlater, rfl⟩)
        · exact .inr ⟨turn, List.mem_cons_self, rfl⟩
        · exact .inl hmem
        · exact .inr ⟨later, List.mem_cons_of_mem _ hlater, rfl⟩
      · rintro (hmem | ⟨later, hlater, rfl⟩)
        · exact .inl (.inr hmem)
        · rcases List.mem_cons.mp hlater with rfl | hlater
          · exact .inl (.inl rfl)
          · exact .inr ⟨later, hlater, rfl⟩

theorem mem_addTo_iff (hstep : 0 < reading.step) :
    value ∈ reading.addTo target ↔ value ∈ target ∨ value ∈ reading.values := by
  rw [Reading.addTo, mem_foldl_insert]
  refine or_congr_right (exists_congr fun turn => ?_)
  have hlast : turn ∈ List.range
      ((reading.last - reading.first) / reading.step + 1).toNat ↔
        reading.first + turn * reading.step ≤ reading.last := by
    rw [List.mem_range, Int.lt_toNat, Int.lt_add_one_iff,
      Int.le_ediv_iff_mul_le hstep]
    omega
  rw [hlast, and_comm]
  refine and_congr_right fun heq => ?_
  rw [heq]

theorem foldlM_parseSegment_ok_iff {segments : List (List Char)} :
    segments.foldlM (parseSegment spec) target = .ok result ↔
      ∃ readings, List.Forall₂ (fun segment reading =>
          readSegment spec (trimChars segment) = some reading)
            segments readings ∧
        result = readings.foldl (fun target reading => reading.addTo target)
          target := by
  induction segments generalizing target with
  | nil => simp [pure, Except.pure, eq_comm]
  | cons segment segments ih =>
      rw [List.foldlM_cons, bind_eq_ok]
      simp only [parseSegment_ok_iff, ih]
      constructor
      · rintro ⟨_, ⟨reading, hreading, rfl⟩, readings, hreadings, rfl⟩
        exact ⟨reading :: readings, .cons hreading hreadings, rfl⟩
      · rintro ⟨_, _ | ⟨hreading, hreadings⟩, rfl⟩
        exact ⟨_, ⟨_, hreading, rfl⟩, _, hreadings, rfl⟩

theorem mem_foldl_addTo_iff {readings : List Reading}
    (hstep : ∀ reading ∈ readings, 0 < reading.step) :
    value ∈ readings.foldl (fun target reading => reading.addTo target) target ↔
      value ∈ target ∨ ∃ reading ∈ readings, value ∈ reading.values := by
  induction readings generalizing target with
  | nil => simp
  | cons reading readings ih =>
      rw [List.foldl_cons, ih fun other hother =>
          hstep other (List.mem_cons_of_mem _ hother),
        mem_addTo_iff (hstep reading List.mem_cons_self), or_assoc]
      simp

theorem step_pos_of_readSegment
    (h : readSegment spec segment = some reading) : 0 < reading.step :=
  readStep_pos (readSegment_eq_some_iff.mp h).2.1

theorem le_of_parseRange {base : List Char}
    (h : parseRange spec base = .ok (first, last)) : first ≤ last := by
  simp only [parseRange] at h
  split at h
  · obtain ⟨start, -, h⟩ := bind_eq_ok.mp h
    obtain ⟨stop, -, h⟩ := bind_eq_ok.mp h
    split at h
    · cases h
    · rename_i hle
      cases h
      exact Int.not_lt.mp hle
  · cases h

theorem le_of_readSegment (hspec : spec.min ≤ spec.max)
    (h : readSegment spec segment = some reading) :
    reading.first ≤ reading.last := by
  obtain ⟨first, last, step⟩ := reading
  have hbounds := (readSegment_eq_some_iff.mp h).2.2
  simp only [readBounds] at hbounds
  split at hbounds
  · cases hbounds
    exact hspec
  · split at hbounds
    · exact le_of_parseRange (toOption_eq_some.mp hbounds)
    · obtain ⟨value, -, hends⟩ := Option.map_eq_some_iff.mp hbounds
      cases hends
      exact Int.le_refl _

theorem step_pos_of_readings {segments : List (List Char)}
    {readings : List Reading}
    (h : List.Forall₂ (fun segment reading =>
      readSegment spec (trimChars segment) = some reading) segments readings) :
    ∀ reading ∈ readings, 0 < reading.step := by
  intro reading hmem
  obtain ⟨segment, -, hreading⟩ := paired_of_mem_right h hmem
  exact step_pos_of_readSegment hreading

theorem parseField_ok_iff (hspec : spec.min ≤ spec.max) :
    parseField spec text = .ok result ↔
      ∃ readings, List.Forall₂ (fun segment reading =>
          readSegment spec (trimChars segment) = some reading)
            (split ',' text) readings ∧
        result = readings.foldl (fun target reading => reading.addTo target)
          [] := by
  simp only [parseField, bind_eq_ok, foldlM_parseSegment_ok_iff]
  constructor
  · rintro ⟨_, ⟨readings, hreadings, rfl⟩, hresult⟩
    split at hresult
    · cases hresult
    · exact ⟨readings, hreadings, (Except.ok.inj hresult).symm⟩
  · rintro ⟨readings, hreadings, rfl⟩
    refine ⟨_, ⟨readings, hreadings, rfl⟩, if_neg fun hempty => ?_⟩
    have hne : split ',' text ≠ [] := by
      rw [split_eq_splitOn]
      exact List.splitOn_ne_nil ',' text
    obtain ⟨segment, hsegment⟩ := List.exists_mem_of_ne_nil _ hne
    obtain ⟨reading, hmem, hreading⟩ := paired_of_mem_left hreadings hsegment
    have hfirst : reading.first ∈ readings.foldl
        (fun target reading => reading.addTo target) [] := by
      rw [mem_foldl_addTo_iff (step_pos_of_readings hreadings)]
      exact .inr ⟨reading, hmem, 0, by simp, le_of_readSegment hspec hreading⟩
    rw [List.isEmpty_iff.mp hempty] at hfirst
    cases hfirst

theorem mem_parseField_iff (hspec : spec.min ≤ spec.max)
    (h : parseField spec text = .ok result) :
    value ∈ result ↔ ∃ segment ∈ split ',' text, ∃ reading,
      readSegment spec (trimChars segment) = some reading ∧
        value ∈ reading.values := by
  obtain ⟨readings, hreadings, rfl⟩ := (parseField_ok_iff hspec).mp h
  rw [mem_foldl_addTo_iff (step_pos_of_readings hreadings)]
  constructor
  · rintro (hnil | ⟨reading, hmem, hvalue⟩)
    · cases hnil
    · obtain ⟨segment, hsegment, hreading⟩ := paired_of_mem_right hreadings hmem
      exact ⟨segment, hsegment, reading, hreading, hvalue⟩
  · rintro ⟨segment, hsegment, reading, hreading, hvalue⟩
    obtain ⟨other, hmem, hother⟩ := paired_of_mem_left hreadings hsegment
    obtain rfl := Option.some.inj (hreading.symm.trans hother)
    exact .inr ⟨reading, hmem, hvalue⟩

theorem exists_parseField_iff (hspec : spec.min ≤ spec.max) :
    (∃ result, parseField spec text = .ok result) ↔
      ∀ segment ∈ split ',' text, ∃ reading,
        readSegment spec (trimChars segment) = some reading := by
  simp only [parseField_ok_iff hspec, ← exists_pairing_iff]
  constructor
  · rintro ⟨_, readings, hreadings, -⟩
    exact ⟨readings, hreadings⟩
  · rintro ⟨readings, hreadings⟩
    exact ⟨_, readings, hreadings, rfl⟩

end SyncBridge.Cron
