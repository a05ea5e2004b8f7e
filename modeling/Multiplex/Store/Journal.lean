-- The journal of one session: numbered segment files, one snapshot, and what the
-- store keeps of them in memory. A call changes its files one operation after
-- the other, so it can be cut off between any two of them.
import Multiplex.Lib.SortedMap
import Multiplex.Store.JournalFormat

open Checks

namespace multiplex_store.journal

def U32_MAX : Nat := 4294967295

def DEFAULT_SEGMENT_BYTES : Nat := 64 * 1024 * 1024
def DEFAULT_JOURNAL_BYTES : Nat := 256 * 1024 * 1024
def DEFAULT_RETAINED_SEGMENTS : Nat := 4
def LIVE_REPLAY_BYTES : Nat := 4 * 1024 * 1024
def LIVE_REPLAY_RECORDS : Nat := 4096

structure JournalError where
  code : JournalErrorCode
  expected_sequence : Option Nat

def JournalError.new (code : JournalErrorCode) : JournalError := ⟨code, none⟩

structure JournalLimits where
  segment_bytes : Nat
  hard_bytes : Nat
  retained_segments : Nat

def JournalLimits.default : JournalLimits :=
  ⟨DEFAULT_SEGMENT_BYTES, DEFAULT_JOURNAL_BYTES, DEFAULT_RETAINED_SEGMENTS⟩

def JournalLimits.validate (l : JournalLimits) : Except JournalErrorCode JournalLimits :=
  if l.segment_bytes < MAX_JOURNAL_FRAME_BYTES ∨ l.hard_bytes < l.segment_bytes ∨
      l.hard_bytes > DEFAULT_JOURNAL_BYTES ∨
      ¬ (1 ≤ l.retained_segments ∧ l.retained_segments ≤ DEFAULT_RETAINED_SEGMENTS) then
    .error .ResourceLimit
  else .ok l

/-! ## Files -/

/-- The files of a session directory. A segment goes by its number. -/
structure Disk where
  snapshot : Option (List UInt8)
  segments : SortedMap Nat (List UInt8)
  recovery : Option (List UInt8)

def Disk.empty : Disk := ⟨none, .empty, none⟩

/-- The changes that a call makes. `write_snapshot` and `write_recovery` replace a file in one step
(`SystemAtomicWriter`), and `create` opens a segment, which makes it when it is not there. -/
inductive FileOp where
  | write_snapshot (bytes : List UInt8)
  | write_recovery (bytes : List UInt8)
  | create (index : Nat)
  | append (index : Nat) (bytes : List UInt8)
  | set_len (index len : Nat)
  | remove (index : Nat)

def Disk.apply (d : Disk) : FileOp → Disk
  | .write_snapshot bytes => { d with snapshot := some bytes }
  | .write_recovery bytes => { d with recovery := some bytes }
  | .create index =>
    { d with segments := d.segments.insert index ((d.segments.get? index).getD []) }
  | .append index bytes =>
    { d with segments := d.segments.insert index ((d.segments.get? index).getD [] ++ bytes) }
  | .set_len index len =>
    { d with segments := d.segments.insert index (((d.segments.get? index).getD []).take len) }
  | .remove index => { d with segments := d.segments.erase index }

def Disk.applyAll (d : Disk) (ops : List FileOp) : Disk := ops.foldl Disk.apply d

/-- The segment files in the order of their numbers. A number of more than six digits is not read
back from its file's name. -/
def Disk.segment_paths (d : Disk) : List (Nat × List UInt8) :=
  d.segments.entries.filter fun e => decide (e.1 ≤ 999999)

def read_regular_bounded (bytes : List UInt8) (limit : Nat) :
    Except JournalErrorCode (List UInt8) :=
  if bytes.length > limit then .error .ResourceLimit else .ok bytes

structure JournalRead where
  earliest : Option Nat
  latest : Option Nat
  frames : List JournalFrame
  has_gap : Bool

structure JournalStore where
  limits : JournalLimits
  active_index : Nat
  active_bytes : Nat
  total_bytes : Nat
  latest_sequence : Nat
  earliest_sequence : Option Nat
  base_sequence : Nat
  recording_paused : Bool
  has_gap : Bool
  live_frames : List JournalFrame
  live_bytes : Nat
  live_boundary : Nat

def last_sequence (frames : List JournalFrame) (default : Nat) : Nat :=
  (frames.getLast?.map JournalFrame.sequence).getD default

/-- `(sequence != OutputSequence::ZERO).then_some(sequence)`. -/
def nonzero (sequence : Nat) : Option Nat := if sequence ≠ 0 then some sequence else none

inductive AppendOutcome where
  | Recorded
  | RecordingPausedDiskLimit

section
variable (crc32c : List UInt8 → UInt32)

def load_snapshot (d : Disk) : Except JournalErrorCode (Option TerminalSnapshot) :=
  match d.snapshot with
  | none => .ok none
  | some bytes =>
    if bytes.length > SNAPSHOT_HEADER_BYTES + MAX_SNAPSHOT_BYTES + 4 then .error .ResourceLimit
    else (decode_snapshot crc32c bytes).map some

/-! ## Open -/

/-- What `open` has found so far, and how it cuts the last segment. -/
structure Opening where
  total_bytes : Nat
  latest_sequence : Nat
  earliest_sequence : Option Nat
  has_gap : Bool
  ops : List FileOp

def preserve_and_truncate_tail (index : Nat) (bytes : List UInt8) (valid_bytes : Nat) :
    List FileOp :=
  let tail := bytes.drop valid_bytes
  (if tail = [] then [] else [.write_recovery (tail.take MAX_JOURNAL_FRAME_BYTES)]) ++
    [.set_len index valid_bytes]

/-- The loop of `open`. It stops at a segment with an issue, and only cuts the last one. -/
def open_segments (segment_bytes : Nat) :
    List (Nat × List UInt8) → Opening → Except JournalErrorCode Opening
  | [], o => .ok o
  | (index, file) :: rest, o => do
    let bytes ← read_regular_bounded file segment_bytes
    refuseIf JournalErrorCode.ResourceLimit (o.total_bytes + bytes.length > U64_MAX)
    let scan ← scan_journal_bytes crc32c bytes o.latest_sequence
    let found : Opening := { o with
      total_bytes := o.total_bytes + bytes.length
      earliest_sequence := o.earliest_sequence.or (scan.frames.head?.map JournalFrame.sequence)
      latest_sequence := last_sequence scan.frames o.latest_sequence }
    if scan.issue.isSome then
      if rest = [] then
        return { found with
          total_bytes := found.total_bytes - (bytes.length - scan.valid_bytes)
          ops := preserve_and_truncate_tail index bytes scan.valid_bytes }
      else return { found with has_gap := true }
    else open_segments segment_bytes rest found

/-- `open` gives the store and the changes that it made to the files. -/
def JournalStore.open (d : Disk) (limits : JournalLimits) :
    Except JournalErrorCode (JournalStore × List FileOp) := do
  let limits ← limits.validate
  let snapshot ← load_snapshot crc32c d
  let base_sequence := (snapshot.map TerminalSnapshot.boundary).getD 0
  let o ← open_segments crc32c limits.segment_bytes d.segment_paths
    ⟨0, base_sequence, none, false, []⟩
  let has_gap := o.has_gap || decide (o.total_bytes > limits.hard_bytes)
  let active_index := (d.segment_paths.getLast?.map Prod.fst).getD 1
  let ops := o.ops ++ [.create active_index]
  .ok
    ({ limits, active_index, base_sequence, has_gap
       active_bytes := (((d.applyAll ops).segments.get? active_index).getD []).length
       total_bytes := o.total_bytes
       latest_sequence := o.latest_sequence
       earliest_sequence := o.earliest_sequence.or (nonzero base_sequence)
       recording_paused := has_gap || decide (o.total_bytes ≥ limits.hard_bytes)
       live_frames := [], live_bytes := 0
       live_boundary := o.latest_sequence }, ops)

/-! ## Append -/

def JournalStore.sequence_bounds (s : JournalStore) : Option Nat × Option Nat :=
  (s.earliest_sequence, nonzero s.latest_sequence)

def JournalStore.compaction_due (s : JournalStore) : Bool :=
  decide (s.active_bytes ≥ s.limits.segment_bytes) ||
    decide (s.total_bytes ≥ s.limits.segment_bytes * 3)

/-- A new segment is opened. Too many of them pause the recording. -/
def JournalStore.rotate (s : JournalStore) (d : Disk) :
    Except JournalErrorCode (JournalStore × List FileOp) :=
  if s.active_index ≥ U32_MAX then .error .ResourceLimit
  else if d.segments.contains (s.active_index + 1) then .error .UnsafeEntry
  else
    let op := FileOp.create (s.active_index + 1)
    .ok ({ s with
      active_index := s.active_index + 1
      active_bytes := 0
      recording_paused := s.recording_paused ||
        decide ((d.apply op).segment_paths.length > s.limits.retained_segments) }, [op])

/-- The oldest live frames are dropped until the rest is within its limits. -/
def trim_live : List JournalFrame → Nat → Nat → List JournalFrame × Nat × Nat
  | [], live_bytes, live_boundary => ([], live_bytes, live_boundary)
  | f :: frames, live_bytes, live_boundary =>
    if live_bytes > LIVE_REPLAY_BYTES ∨ (f :: frames).length > LIVE_REPLAY_RECORDS then
      trim_live frames (live_bytes - f.size) f.sequence
    else (f :: frames, live_bytes, live_boundary)

def JournalStore.record (s : JournalStore) (frame : JournalFrame) (encoded_len : Nat) :
    JournalStore :=
  let live := trim_live (s.live_frames ++ [frame]) (s.live_bytes + encoded_len) s.live_boundary
  { s with
    active_bytes := s.active_bytes + encoded_len
    total_bytes := s.total_bytes + encoded_len
    earliest_sequence :=
      if s.earliest_sequence = none ∨ s.latest_sequence = s.base_sequence then some frame.sequence
      else s.earliest_sequence
    latest_sequence := frame.sequence
    live_frames := live.1
    live_bytes := live.2.1
    live_boundary := live.2.2 }

/-- The store after a call, the changes of its files, and the result. -/
structure Call (α : Type) where
  store : JournalStore
  ops : List FileOp
  result : Except JournalError α

def JournalStore.append (s : JournalStore) (d : Disk) (frame : JournalFrame) : Call AppendOutcome :=
  match checked_next s.latest_sequence with
  | none => ⟨s, [], .error (.new .ResourceLimit)⟩
  | some expected =>
    if frame.sequence ≠ expected then ⟨s, [], .error ⟨.Sequence, some expected⟩⟩
    else if s.recording_paused then ⟨s, [], .ok .RecordingPausedDiskLimit⟩
    else
      match frame.encode crc32c with
      | .error code => ⟨s, [], .error (.new code)⟩
      | .ok bytes =>
        if s.total_bytes + bytes.length > s.limits.hard_bytes then
          ⟨{ s with recording_paused := true }, [], .ok .RecordingPausedDiskLimit⟩
        else
          let rotated :=
            if s.active_bytes > 0 ∧ s.active_bytes + bytes.length > s.limits.segment_bytes then
              s.rotate d
            else .ok (s, [])
          match rotated with
          | .error code => ⟨s, [], .error (.new code)⟩
          | .ok (s, ops) =>
            ⟨s.record frame bytes.length, ops ++ [.append s.active_index bytes], .ok .Recorded⟩

/-! ## Read -/

/-- The loop of `read_from`: the frames of all segments, up to the first issue. -/
def read_segments (segment_bytes : Nat) :
    List (Nat × List UInt8) → Nat → Except JournalErrorCode (List JournalFrame × Bool)
  | [], _ => .ok ([], false)
  | (_, file) :: rest, expected => do
    let bytes ← read_regular_bounded file segment_bytes
    let scan ← scan_journal_bytes crc32c bytes expected
    if scan.issue.isSome then return (scan.frames, true)
    else do
      let later ← read_segments segment_bytes rest (last_sequence scan.frames expected)
      return (scan.frames ++ later.1, later.2)

def JournalStore.read_from (s : JournalStore) (d : Disk) (from_ : Nat) :
    Except JournalError JournalRead := do
  let (frames, gap) ← (read_segments crc32c s.limits.segment_bytes d.segment_paths
    s.base_sequence).mapError JournalError.new
  let earliest := (frames.head?.map JournalFrame.sequence).or (nonzero s.base_sequence)
  let latest := (frames.getLast?.map JournalFrame.sequence).or (nonzero s.base_sequence)
  if from_ < s.base_sequence ∨ earliest.any (fun earliest =>
      (checked_next from_).any fun requested => decide (requested < earliest)) then
    .error ⟨.HistoryUnavailable, earliest⟩
  else
    .ok
      { earliest, latest
        frames := frames.filter fun frame => decide (frame.sequence > from_)
        has_gap := s.has_gap || gap }

def JournalStore.read_live_from (s : JournalStore) (d : Disk) (from_ : Nat) :
    Except JournalError JournalRead :=
  if s.has_gap ∨ from_ < s.live_boundary ∨ from_ < s.base_sequence then s.read_from crc32c d from_
  else
    .ok
      { earliest := s.live_frames.head?.map JournalFrame.sequence
        latest := nonzero s.latest_sequence
        frames := (s.live_frames.reverse.takeWhile fun frame =>
          decide (frame.sequence > from_)).reverse
        has_gap := false }

/-! ## Compact -/

/-- The segments that the loop of `compact` removes, and the bytes that are left. -/
def remove_segments (segment_bytes active_index boundary : Nat) :
    List (Nat × List UInt8) → Nat → Nat → List FileOp × Nat × Except JournalErrorCode Unit
  | [], _, total_bytes => ([], total_bytes, .ok ())
  | (index, file) :: rest, previous, total_bytes =>
    if index = active_index then
      remove_segments segment_bytes active_index boundary rest previous total_bytes
    else
      match read_regular_bounded file segment_bytes >>= (scan_journal_bytes crc32c · previous) with
      | .error code => ([], total_bytes, .error code)
      | .ok scan =>
        let previous := last_sequence scan.frames previous
        if (scan.frames.getLast?.any fun frame => decide (frame.sequence ≤ boundary)) ∧
            scan.issue = none then
          let later := remove_segments segment_bytes active_index boundary rest previous
            (total_bytes - file.length)
          (.remove index :: later.1, later.2)
        else remove_segments segment_bytes active_index boundary rest previous total_bytes

/-- What `compact` does once its snapshot is written and its segments are removed. -/
def JournalStore.restart (s : JournalStore) (boundary total_bytes : Nat) : JournalStore :=
  { s with
    total_bytes
    base_sequence := boundary
    earliest_sequence := some boundary
    live_frames := []
    live_bytes := 0
    live_boundary := boundary
    recording_paused :=
      if !s.has_gap && decide (total_bytes < s.limits.hard_bytes) then false
      else s.recording_paused }

def JournalStore.compact (s : JournalStore) (d : Disk) (snapshot : TerminalSnapshot) : Call Unit :=
  if snapshot.boundary = 0 ∨ snapshot.boundary ≠ s.latest_sequence ∨ snapshot.columns = 0 ∨
      snapshot.rows = 0 then ⟨s, [], .error (.new .Malformed)⟩
  else
    match encode_snapshot crc32c snapshot with
    | .error code => ⟨s, [], .error (.new code)⟩
    | .ok bytes =>
      let written := FileOp.write_snapshot bytes
      let rotated := if s.active_bytes > 0 then s.rotate (d.apply written) else .ok (s, [])
      match rotated with
      | .error code => ⟨s, [written], .error (.new code)⟩
      | .ok (s, ops) =>
        let ops := written :: ops
        let removed := remove_segments crc32c s.limits.segment_bytes s.active_index
          snapshot.boundary (d.applyAll ops).segment_paths s.base_sequence s.total_bytes
        match removed.2.2 with
        | .error code =>
          ⟨{ s with total_bytes := removed.2.1 }, ops ++ removed.1, .error (.new code)⟩
        | .ok () => ⟨s.restart snapshot.boundary removed.2.1, ops ++ removed.1, .ok ()⟩

end

end multiplex_store.journal
