import SyncBridge.Store

/-!
# The incremental cursor

The pure part of `SyncRunsService` that reads a cursor, decides which records
are new and chooses the next cursor.  An `updatedAt` is an ISO text there and
its date value here; the two determine each other.
-/

namespace SyncBridge

structure CursorState where
  sequence : Option ℚ := none
  updatedAt : Option DateValue := none

abbrev CursorCandidate := CursorState

namespace SyncRunsService

variable (dates : Dates)

def cursorOfParts (sequence : Option ℚ) (updatedAt : Option DateValue) :
    Option CursorState :=
  if sequence.isNone && updatedAt.isNone then none
  else some ⟨sequence, updatedAt⟩

def normalizeCursorState : Option Json → Option CursorState
  | some (.obj raw) =>
      cursorOfParts
        (match Record.get raw "sequence" with
          | some (.num sequence) => some sequence
          | _ => none)
        (match Record.get raw "updatedAt" with
          | some (.str text) => dates.parse text
          | _ => none)
  | _ => none

def extractCursorCandidate (raw : Record) : Option CursorCandidate :=
  cursorOfParts
    (match Record.get raw "sequence" with
      | some (.num sequence) => some sequence
      | some (.str text) => number text
      | _ => none)
    ((Record.get raw "updatedAt").bind dates.newDate)

def isCandidateNewer (candidate : CursorCandidate) (cursor : CursorState) :
    Bool :=
  match candidate.sequence, cursor.sequence with
  | some sequence, some known => known < sequence
  | _, _ =>
      match candidate.updatedAt, cursor.updatedAt with
      | some updatedAt, some known => known.1 < updatedAt.1
      | _, _ => true

def shouldProcessRecord (record : SyncRunMockRecordPayload)
    (cursor : Option CursorState) : Bool :=
  match cursor with
  | none => true
  | some cursor =>
      match extractCursorCandidate dates (ensureRecordObject record.raw) with
      | none => true
      | some candidate => isCandidateNewer candidate cursor

def laterCandidate (left right : CursorCandidate) : CursorCandidate :=
  match left.sequence, right.sequence with
  | some leftSequence, some rightSequence =>
      if leftSequence < rightSequence then right else left
  | leftSequence, rightSequence =>
      match left.updatedAt, right.updatedAt with
      | some leftTime, some rightTime =>
          if leftTime.1 < rightTime.1 then right else left
      | leftTime, rightTime =>
          if rightSequence.isSome && leftSequence.isNone then right
          else if rightTime.isSome && leftTime.isNone then right
          else left

def pickLatestCursor :
    Option CursorCandidate → Option CursorCandidate → Option CursorCandidate
  | none, right => right
  | left, none => left
  | some left, some right => some (laterCandidate left right)

def cursorCandidateToJson (candidate : CursorCandidate) : Option Record :=
  let sequence : Record := match candidate.sequence with
    | some sequence => [("sequence", .num sequence)]
    | none => []
  let updatedAt : Record := match candidate.updatedAt with
    | some updatedAt => [("updatedAt", .str (dates.toISOString updatedAt))]
    | none => []
  match sequence ++ updatedAt with
  | [] => none
  | output => some output

end SyncRunsService

end SyncBridge
