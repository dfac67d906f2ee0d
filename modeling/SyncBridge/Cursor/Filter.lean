import SyncBridge.Cursor.Order
import SyncBridge.Sample

/-!
# What the incremental filter skips

A record is skipped for a sequence up to the cursor's, or else for a time up to
the cursor's.  A sequence may be a text, and `Number` makes 0 of a blank one:
under a cursor whose sequence is not negative such a record is skipped although
it carries no sequence.
-/

namespace SyncBridge

namespace SyncRunsService

variable (dates : Dates)

def carriedSequence (raw : Record) : Option ℚ :=
  match Record.get raw "sequence" with
  | some (.num sequence) => some sequence
  | some (.str text) => if trim text = "" then none else number text
  | _ => none

def carriedTime (raw : Record) : Option DateValue :=
  (Record.get raw "updatedAt").bind dates.newDate

def SequenceKnown (raw : Record) (cursor : CursorState) : Prop :=
  ∃ sequence known, carriedSequence raw = some sequence ∧
    cursor.sequence = some known ∧ sequence ≤ known

def TimeKnown (raw : Record) (cursor : CursorState) : Prop :=
  ∃ time known, carriedTime dates raw = some time ∧
    cursor.updatedAt = some known ∧ time ≤ known

/-- A record skipped under the stored cursor is known by its sequence, or has
no sequence in common with the cursor and is known by its time. -/
def SkipsKnownOnly (stored : Option Json) (record : SyncRunMockRecordPayload) :
    Prop :=
  shouldProcessRecord dates record (normalizeCursorState dates stored) =
      false →
    ∃ cursor, normalizeCursorState dates stored = some cursor ∧
      (SequenceKnown (ensureRecordObject record.raw) cursor ∨
        (carriedSequence (ensureRecordObject record.raw) = none ∨
            cursor.sequence = none) ∧
          TimeKnown dates (ensureRecordObject record.raw) cursor)

def BlankSequence (raw : Record) : Prop :=
  ∃ text, Record.get raw "sequence" = some (.str text) ∧ trim text = ""

/-- The text counts as 0, and neither does the cursor's sequence lie below that
nor its time tell the record to be old. -/
def BlankCounts (raw : Record) (cursor : CursorState) : Prop :=
  BlankSequence raw ∧ (∃ known, cursor.sequence = some known ∧ 0 ≤ known) ∧
    ¬ TimeKnown dates raw cursor

theorem number_of_blank {text : String} (h : trim text = "") :
    number text = some 0 := by
  have hchars : trimChars text.toList = [] := by
    simpa [trim] using h
  simp [number, stringNumericLiteral, hchars, toDouble]

section Extraction

variable {dates} {raw : Record} {cursor : CursorState}

theorem extractCursorCandidate_eq (h : ¬ BlankSequence raw) :
    extractCursorCandidate dates raw =
      cursorOfParts (carriedSequence raw) (carriedTime dates raw) := by
  simp only [extractCursorCandidate, carriedTime, carriedSequence]
  congr 1
  cases hget : Record.get raw "sequence" with
  | none => rfl
  | some value =>
      cases value with
      | str text =>
          have htext : trim text ≠ "" := fun hblank => h ⟨text, hget, hblank⟩
          simp [htext]
      | _ => rfl

theorem extractCursorCandidate_of_blank (h : BlankSequence raw) :
    extractCursorCandidate dates raw =
      some ⟨some 0, carriedTime dates raw⟩ := by
  obtain ⟨text, hget, hblank⟩ := h
  simp [extractCursorCandidate, carriedTime, cursorOfParts, hget,
    number_of_blank hblank]

theorem carriedSequence_of_blank (h : BlankSequence raw) :
    carriedSequence raw = none := by
  obtain ⟨text, hget, hblank⟩ := h
  simp [carriedSequence, hget, hblank]

/-- Not newer is what is known by the sequence, or where not both have one is
known by the time. -/
theorem isCandidateNewer_eq_false {candidate : CursorCandidate} :
    isCandidateNewer candidate cursor = false ↔
      (∃ sequence known, candidate.sequence = some sequence ∧
          cursor.sequence = some known ∧ sequence ≤ known) ∨
        (candidate.sequence = none ∨ cursor.sequence = none) ∧
          ∃ time known, candidate.updatedAt = some time ∧
            cursor.updatedAt = some known ∧ time ≤ known := by
  obtain ⟨sequence, updatedAt⟩ := candidate
  obtain ⟨known, knownTime⟩ := cursor
  cases sequence <;> cases known <;> cases updatedAt <;> cases knownTime <;>
    simp [isCandidateNewer]

theorem shouldProcessRecord_eq_false {record : SyncRunMockRecordPayload} :
    shouldProcessRecord dates record (some cursor) = false ↔
      ∃ candidate,
        extractCursorCandidate dates (ensureRecordObject record.raw) =
          some candidate ∧ isCandidateNewer candidate cursor = false := by
  simp only [shouldProcessRecord]
  cases extractCursorCandidate dates (ensureRecordObject record.raw) <;> simp

theorem known_of_not_blank {candidate : CursorCandidate}
    (hblank : ¬ BlankSequence raw)
    (hcandidate : extractCursorCandidate dates raw = some candidate)
    (hold : isCandidateNewer candidate cursor = false) :
    SequenceKnown raw cursor ∨
      (carriedSequence raw = none ∨ cursor.sequence = none) ∧
        TimeKnown dates raw cursor := by
  rw [extractCursorCandidate_eq hblank] at hcandidate
  obtain ⟨rfl, -⟩ := cursorOfParts_eq_some hcandidate
  exact isCandidateNewer_eq_false.mp hold

/-- A blank sequence is skipped as the sequence 0 is. -/
theorem old_of_blank :
    isCandidateNewer ⟨some 0, carriedTime dates raw⟩ cursor = false ↔
      (∃ known, cursor.sequence = some known ∧ 0 ≤ known) ∨
        cursor.sequence = none ∧ TimeKnown dates raw cursor := by
  rw [isCandidateNewer_eq_false]
  simp [TimeKnown]

end Extraction

/-- The filter skips known records only, exactly where the record's sequence is
not a blank text that counts. -/
theorem cursor_filter_skips_known_iff (dates : Dates) (stored : Option Json)
    (record : SyncRunMockRecordPayload) :
    SkipsKnownOnly dates stored record ↔
      ∀ cursor, normalizeCursorState dates stored = some cursor →
        ¬ BlankCounts dates (ensureRecordObject record.raw) cursor := by
  cases hstored : normalizeCursorState dates stored with
  | none => simp [SkipsKnownOnly, hstored, shouldProcessRecord]
  | some cursor =>
      simp only [SkipsKnownOnly, hstored, Option.some.injEq, forall_eq',
        exists_eq_left', shouldProcessRecord_eq_false]
      by_cases hblank : BlankSequence (ensureRecordObject record.raw)
      · have hnone := carriedSequence_of_blank hblank
        simp only [extractCursorCandidate_of_blank hblank, Option.some.injEq,
          exists_eq_left', old_of_blank, BlankCounts, hblank, SequenceKnown,
          hnone, reduceCtorEq, false_and, exists_false, false_or, true_or,
          true_and, not_and, not_not]
        exact ⟨fun h hzero => h (.inl hzero), fun h hold =>
          hold.elim h And.right⟩
      · have hkept : ¬ BlankCounts dates (ensureRecordObject record.raw)
            cursor := fun h => hblank h.1
        refine iff_of_true ?_ hkept
        rintro ⟨candidate, hcandidate, hold⟩
        exact known_of_not_blank hblank hcandidate hold

/-- A blank sequence under the cursor 5. -/
theorem cursor_filter_skips_known_fails :
    ¬ SkipsKnownOnly Sample.dates (some (.obj [("sequence", .num 5)]))
      ⟨none, .obj [("sequence", .str "")]⟩ := by
  intro h
  obtain ⟨cursor, -, hsequence | ⟨-, htime⟩⟩ := h (by decide +kernel)
  · obtain ⟨sequence, known, hcarried, -⟩ := hsequence
    simp [carriedSequence, Record.get, show trim "" = "" by decide] at hcarried
  · obtain ⟨time, known, hcarried, -⟩ := htime
    simp [carriedTime, Record.get, List.lookup_cons] at hcarried

end SyncRunsService

end SyncBridge
