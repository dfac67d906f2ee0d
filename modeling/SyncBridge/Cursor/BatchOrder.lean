import SyncBridge.Cursor.Order
import SyncBridge.Foundation.Displacement

/-!
# The order of a batch and its cursor

The cursor of a batch is the candidate that is left when each is asked in turn
whether it is newer.  A candidate with a sequence alone and one with a time
alone are each newer than the other, so of these the last one in the batch is
left; `batch_cursor_order_free_iff` says when the order does not show.
-/

namespace SyncBridge

open SyncBridge.Foundation

namespace SyncRunsService

/-- A candidate as `extractCursorCandidate` returns it, unless it is null. -/
abbrev NotedCandidate :=
  { candidate : CursorCandidate // CursorCandidate.HasPart candidate }

@[mk_iff]
structure CursorCandidate.Alike (left right : CursorCandidate) : Prop where
  sequence : left.sequence.isSome = right.sequence.isSome
  updatedAt : left.updatedAt.isSome = right.updatedAt.isSome
  left_old : isCandidateNewer left right = false
  right_old : isCandidateNewer right left = false

def batchCursor (candidates : List (Option NotedCandidate)) :
    Option CursorCandidate :=
  (candidates.map (Option.map Subtype.val)).foldl pickLatestCursor none

def sameCursor : Option CursorCandidate → Option CursorCandidate → Prop
  | none, none => True
  | some left, some right => CursorCandidate.Alike left right
  | _, _ => False

def BatchOrderFree (candidates : List (Option NotedCandidate)) : Prop :=
  ∀ permuted, candidates.Perm permuted →
    sameCursor (batchCursor candidates) (batchCursor permuted)

/-! ## Candidates under the comparison -/

def notedNewer (candidate held : NotedCandidate) : Bool :=
  isCandidateNewer candidate.1 held.1

def NotedAlike (left right : NotedCandidate) : Prop :=
  CursorCandidate.Alike left.1 right.1

section Comparison

variable {left right third : CursorCandidate}

theorem CursorCandidate.Alike.refl (h : CursorCandidate.HasPart left) :
    CursorCandidate.Alike left left := by
  have hself : isCandidateNewer left left = false := by
    obtain ⟨sequence, updatedAt⟩ := left
    cases sequence <;> cases updatedAt <;>
      simp_all [isCandidateNewer, CursorCandidate.HasPart]
  exact ⟨rfl, rfl, hself, hself⟩

theorem CursorCandidate.Alike.symm (h : CursorCandidate.Alike left right) :
    CursorCandidate.Alike right left :=
  ⟨h.sequence.symm, h.updatedAt.symm, h.right_old, h.left_old⟩

theorem alike_iff_leading (hleft : CursorCandidate.HasPart left) :
    CursorCandidate.Alike left right ↔ left.sequence = right.sequence ∧
      left.updatedAt.isSome = right.updatedAt.isSome ∧
      (left.sequence = none → left.updatedAt = right.updatedAt) := by
  obtain ⟨leftSequence, leftTime⟩ := left
  obtain ⟨rightSequence, rightTime⟩ := right
  rw [CursorCandidate.alike_iff]
  cases leftSequence <;> cases rightSequence <;> cases leftTime <;>
    cases rightTime <;>
    simp_all [isCandidateNewer, CursorCandidate.HasPart, antisymm_iff,
      Subtype.ext_iff]

theorem CursorCandidate.Alike.trans (hleft : CursorCandidate.HasPart left)
    (hright : CursorCandidate.HasPart right)
    (h : CursorCandidate.Alike left right)
    (h' : CursorCandidate.Alike right third) :
    CursorCandidate.Alike left third := by
  rw [alike_iff_leading hleft] at h ⊢
  rw [alike_iff_leading hright] at h'
  exact ⟨h.1.trans h'.1, h.2.1.trans h'.2.1, fun hnone =>
    (h.2.2 hnone).trans (h'.2.2 (h.1.symm.trans hnone))⟩

theorem isCandidateNewer_mono {sequence : Option ℚ} {time later : DateValue}
    (hle : time ≤ later) (h : isCandidateNewer ⟨sequence, some time⟩ third =
      true) : isCandidateNewer ⟨sequence, some later⟩ third = true := by
  obtain ⟨thirdSequence, thirdTime⟩ := third
  cases sequence <;> cases thirdSequence <;> cases thirdTime <;>
    simp_all [isCandidateNewer] <;> exact lt_of_lt_of_le h hle

theorem stronger_of_alike (hleft : CursorCandidate.HasPart left)
    (h : CursorCandidate.Alike left right) :
    (∀ item, isCandidateNewer left item = true →
      isCandidateNewer right item = true) ∨
    ∀ item, isCandidateNewer right item = true →
      isCandidateNewer left item = true := by
  obtain ⟨sequence, leftTime⟩ := left
  obtain ⟨rightSequence, rightTime⟩ := right
  obtain ⟨hsequence, htime, -⟩ := (alike_iff_leading hleft).mp h
  obtain rfl : sequence = rightSequence := hsequence
  cases leftTime with
  | none =>
      cases rightTime with
      | none => exact .inl fun item hitem => hitem
      | some rightTime => cases htime
  | some leftTime =>
      cases rightTime with
      | none => cases htime
      | some rightTime =>
          rcases le_total leftTime rightTime with hle | hle
          · exact .inl fun item hitem => isCandidateNewer_mono hle hitem
          · exact .inr fun item hitem => isCandidateNewer_mono hle hitem

end Comparison

theorem notedAlike_equivalence : Equivalence NotedAlike where
  refl candidate := .refl candidate.2
  symm h := h.symm
  trans {left right _} h h' := h.trans left.2 right.2 h'

theorem notedNewer_of_alike (left right : NotedCandidate)
    (h : NotedAlike left right) : notedNewer left right = false := h.left_old

theorem batchCursor_eq (candidates : List (Option NotedCandidate)) :
    batchCursor candidates =
      (pickAll (displace notedNewer) candidates).map Subtype.val := by
  rw [batchCursor, pickLatestCursor_eq_pick]
  refine pickAll_map Subtype.val fun left right => ?_
  rw [laterCandidate_eq left.2 right.2, displace, notedNewer]
  split <;> rfl

theorem sameCursor_map {left right : Option NotedCandidate} :
    sameCursor (left.map Subtype.val) (right.map Subtype.val) ↔
      Option.Rel NotedAlike left right := by
  cases left <;> cases right <;> simp [sameCursor, NotedAlike]

/-- The order of the batch does not show exactly where no record has a
candidate, or one of them is newer than all that are not alike to it, and none
of these is newer than a candidate alike to it. -/
theorem batch_cursor_order_free_iff
    (candidates : List (Option NotedCandidate)) :
    BatchOrderFree candidates ↔
      (∀ candidate, some candidate ∉ candidates) ∨
        ∃ newest, Champion notedNewer NotedAlike candidates newest := by
  have hfree : BatchOrderFree candidates ↔
      OrderFree (displace notedNewer) NotedAlike candidates :=
    forall_congr' fun permuted => by
      rw [batchCursor_eq, batchCursor_eq, sameCursor_map]
  rw [hfree]
  exact orderFree_iff notedAlike_equivalence notedNewer_of_alike
    fun left right h => (stronger_of_alike left.2 h).imp
      (fun hmono item => hmono item.1) fun hmono item => hmono item.1

theorem batch_cursor_order_free_of_sequences
    {candidates : List (Option NotedCandidate)} {timed : Bool}
    (h : ∀ candidate, some candidate ∈ candidates →
      candidate.1.sequence.isSome = true ∧
        candidate.1.updatedAt.isSome = timed) :
    BatchOrderFree candidates := by
  rw [batch_cursor_order_free_iff]
  by_cases hnone : ∀ candidate, some candidate ∉ candidates
  · exact .inl hnone
  · obtain ⟨candidate, hcandidate⟩ := not_forall_not.mp hnone
    refine .inr (exists_champion (fun item => item.1.sequence.getD 0)
      (fun left right hleft hright => ?_) (fun left right hleft hright => ?_)
      hcandidate)
    · obtain ⟨leftSequence, hleftSequence⟩ :=
        Option.isSome_iff_exists.mp (h left hleft).1
      obtain ⟨rightSequence, hrightSequence⟩ :=
        Option.isSome_iff_exists.mp (h right hright).1
      simp [notedNewer, isCandidateNewer, hleftSequence, hrightSequence]
    · obtain ⟨leftSequence, hleftSequence⟩ :=
        Option.isSome_iff_exists.mp (h left hleft).1
      obtain ⟨rightSequence, hrightSequence⟩ :=
        Option.isSome_iff_exists.mp (h right hright).1
      have htimes : left.1.updatedAt.isSome = right.1.updatedAt.isSome :=
        (h left hleft).2.trans (h right hright).2.symm
      simp [NotedAlike, alike_iff_leading left.2, hleftSequence,
        hrightSequence, htimes]

theorem batch_cursor_order_free_of_times
    {candidates : List (Option NotedCandidate)}
    (h : ∀ candidate, some candidate ∈ candidates →
      candidate.1.sequence = none) :
    BatchOrderFree candidates := by
  have htime : ∀ candidate : NotedCandidate, candidate.1.sequence = none →
      ∃ time, candidate.1.updatedAt = some time := by
    intro candidate hnone
    have hpart := candidate.2
    simp only [CursorCandidate.HasPart, hnone] at hpart
    exact Option.isSome_iff_exists.mp (by simpa using hpart)
  rw [batch_cursor_order_free_iff]
  by_cases hnone : ∀ candidate, some candidate ∉ candidates
  · exact .inl hnone
  · obtain ⟨candidate, hcandidate⟩ := not_forall_not.mp hnone
    refine .inr (exists_champion
      (fun item => (item.1.updatedAt.map Subtype.val).getD 0)
      (fun left right hleft hright => ?_) (fun left right hleft hright => ?_)
      hcandidate)
    · obtain ⟨leftTime, hleftTime⟩ := htime left (h left hleft)
      obtain ⟨rightTime, hrightTime⟩ := htime right (h right hright)
      simp [notedNewer, isCandidateNewer, h left hleft, hleftTime, hrightTime]
    · obtain ⟨leftTime, hleftTime⟩ := htime left (h left hleft)
      obtain ⟨rightTime, hrightTime⟩ := htime right (h right hright)
      simp [NotedAlike, alike_iff_leading left.2, h left hleft, h right hright,
        hleftTime, hrightTime, Subtype.ext_iff]

/-- A candidate with a sequence alone and one with a time alone. -/
theorem batch_cursor_order_free_fails :
    ¬ BatchOrderFree [some ⟨⟨some 1, none⟩, .inl rfl⟩,
      some ⟨⟨none, some ⟨0, by decide⟩⟩, .inr rfl⟩] := by
  intro h
  have hswap := h _ (.swap _ _ _)
  simp [batchCursor, pickLatestCursor, laterCandidate, sameCursor,
    CursorCandidate.alike_iff] at hswap

end SyncRunsService

end SyncBridge
