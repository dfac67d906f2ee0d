import SyncBridge.Foundation.Picking
import SyncBridge.Services.Cursor

/-!
# The order of cursors

Candidates are compared by their sequences where both have one, else by their
times where both have one, and otherwise anything counts as newer.  On records
of one kind this is an order; over mixed records it is not transitive.
-/

namespace SyncBridge

open SyncBridge.Foundation

namespace SyncRunsService

variable {dates : Dates} {left right candidate : CursorCandidate}

/-! ## Choosing a candidate -/

theorem pickLatestCursor_eq_pick :
    pickLatestCursor = pick laterCandidate := by
  funext left right
  cases left <;> cases right <;> rfl

theorem laterCandidate_mem (left right : CursorCandidate) :
    laterCandidate left right = left ∨ laterCandidate left right = right := by
  simp only [laterCandidate]
  split
  · split
    · exact .inr rfl
    · exact .inl rfl
  · split
    · split
      · exact .inr rfl
      · exact .inl rfl
    · split
      · exact .inr rfl
      · split
        · exact .inr rfl
        · exact .inl rfl

theorem laterCandidate_of_not_newer
    (h : isCandidateNewer right left = false) :
    laterCandidate left right = left := by
  obtain ⟨leftSequence, leftTime⟩ := left
  obtain ⟨rightSequence, rightTime⟩ := right
  cases leftSequence <;> cases rightSequence <;> cases leftTime <;>
    cases rightTime <;> simp_all [isCandidateNewer, laterCandidate]

theorem laterCandidate_of_newer (hnewer : isCandidateNewer right left = true)
    (hcomparable : isCandidateNewer left right = false) :
    laterCandidate left right = right := by
  obtain ⟨leftSequence, leftTime⟩ := left
  obtain ⟨rightSequence, rightTime⟩ := right
  cases leftSequence <;> cases rightSequence <;> cases leftTime <;>
    cases rightTime <;> simp_all [isCandidateNewer, laterCandidate]

def CursorCandidate.HasPart (candidate : CursorCandidate) : Prop :=
  candidate.sequence.isSome = true ∨ candidate.updatedAt.isSome = true

theorem laterCandidate_eq (hleft : CursorCandidate.HasPart left)
    (hright : CursorCandidate.HasPart right) :
    laterCandidate left right =
      if isCandidateNewer right left then right else left := by
  obtain ⟨leftSequence, leftTime⟩ := left
  obtain ⟨rightSequence, rightTime⟩ := right
  cases leftSequence <;> cases rightSequence <;> cases leftTime <;>
    cases rightTime <;>
    simp_all [CursorCandidate.HasPart, isCandidateNewer, laterCandidate]

/-! ## Sequences and times -/

theorem laterCandidate_sequence {leftSequence rightSequence : ℚ}
    (hleft : left.sequence = some leftSequence)
    (hright : right.sequence = some rightSequence) :
    (laterCandidate left right).sequence =
      some (max leftSequence rightSequence) := by
  simp only [laterCandidate, hleft, hright]
  split
  · rename_i hlt
    rw [hright, max_eq_right hlt.le]
  · rename_i hle
    rw [hleft, max_eq_left (not_lt.mp hle)]

/-! ## The cursor as a document -/

theorem normalizeCursorState_toJson {document : Record}
    (h : cursorCandidateToJson dates candidate = some document) :
    normalizeCursorState dates (some (.obj document)) = some candidate := by
  obtain ⟨sequence, updatedAt⟩ := candidate
  cases sequence <;> cases updatedAt <;>
    simp only [cursorCandidateToJson, List.nil_append, List.append_nil,
      List.cons_append, Option.some.injEq, reduceCtorEq] at h <;>
    subst h <;>
    simp [normalizeCursorState, cursorOfParts, Record.get, List.lookup_cons,
      dates.parse_toISOString]

theorem cursorOfParts_eq_some {sequence : Option ℚ}
    {updatedAt : Option DateValue}
    (h : cursorOfParts sequence updatedAt = some candidate) :
    candidate = ⟨sequence, updatedAt⟩ ∧
      (sequence.isSome = true ∨ updatedAt.isSome = true) := by
  simp only [cursorOfParts] at h
  split at h
  · cases h
  · rename_i hparts
    refine ⟨(Option.some.inj h).symm, ?_⟩
    cases sequence <;> cases updatedAt <;> simp_all

theorem cursorCandidateToJson_isSome
    (h : candidate.sequence.isSome = true ∨ candidate.updatedAt.isSome = true) :
    (cursorCandidateToJson dates candidate).isSome = true := by
  obtain ⟨sequence, updatedAt⟩ := candidate
  cases sequence <;> cases updatedAt <;> simp_all [cursorCandidateToJson]

end SyncRunsService

end SyncBridge
