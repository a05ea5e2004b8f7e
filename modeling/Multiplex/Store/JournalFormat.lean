-- The bytes of a session journal, as `journal.rs` writes and scans them. A
-- segment is one encoded frame after the other. A scan takes the frames in
-- front and says what stopped it: a torn tail, damage or a wrong number.
import Multiplex.Lib.Bytes
import Multiplex.Lib.Checks

open Bytes Checks

namespace multiplex_store.journal

def U64_MAX : Nat := 18446744073709551615

/-- The next sequence number. The numbers are `u64`. -/
def checked_next (sequence : Nat) : Option Nat :=
  if sequence ≥ U64_MAX then none else some (sequence + 1)

theorem checked_next_eq {n : Nat} (h : n < U64_MAX) : checked_next n = some (n + 1) :=
  if_neg (not_le.mpr h)

theorem checked_next_some {n m : Nat} (h : checked_next n = some m) : n < U64_MAX ∧ m = n + 1 := by
  unfold checked_next at h
  split at h
  · cases h
  · rename_i hlt
    exact ⟨not_le.mp hlt, (Option.some.inj h).symm⟩

/-! ## Constants -/

def JOURNAL_MAGIC : List UInt8 := [0x54, 0x52, 0x4A, 0x31]
def SNAPSHOT_MAGIC : List UInt8 := [0x54, 0x52, 0x53, 0x31]
def JOURNAL_HEADER_BYTES : Nat := 32
def JOURNAL_CHECKSUM_BYTES : Nat := 4
def MAX_JOURNAL_FRAME_BYTES : Nat := 1048576
def MAX_SNAPSHOT_BYTES : Nat := 8388608
def FORMAT_VERSION : Nat := 1
def SNAPSHOT_HEADER_BYTES : Nat := 28

inductive JournalErrorCode where
  | Io
  | UnsafeEntry
  | FrameTooLarge
  | Malformed
  | Checksum
  | Sequence
  | UnknownCriticalKind
  | ResourceLimit
  | HistoryUnavailable
  | LeaseMismatch
  deriving DecidableEq

/-! ## Frames -/

inductive JournalKind where
  | Output
  | Lifecycle
  | Resize
  | Exit
  | Warning
  deriving DecidableEq

def JournalKind.code : JournalKind → Nat
  | .Output => 1
  | .Lifecycle => 2
  | .Resize => 3
  | .Exit => 4
  | .Warning => 5

def JournalKind.try_from : Nat → Option JournalKind
  | 1 => some .Output
  | 2 => some .Lifecycle
  | 3 => some .Resize
  | 4 => some .Exit
  | 5 => some .Warning
  | _ => none

structure JournalFrame where
  kind : JournalKind
  sequence : Nat
  monotonic_nanos : UInt64
  flags : UInt32
  payload : List UInt8
  deriving DecidableEq

/-- The length of the encoded frame, whether or not it is within its limit. -/
def JournalFrame.size (f : JournalFrame) : Nat :=
  JOURNAL_HEADER_BYTES + f.payload.length + JOURNAL_CHECKSUM_BYTES

def JournalFrame.encoded_len (f : JournalFrame) : Except JournalErrorCode Nat :=
  if f.size ≤ MAX_JOURNAL_FRAME_BYTES then .ok f.size else .error .FrameTooLarge

def JournalFrame.header (f : JournalFrame) : List UInt8 :=
  JOURNAL_MAGIC ++ (beBytes 2 FORMAT_VERSION ++ (beBytes 2 f.kind.code ++ (beBytes 8 f.sequence ++
    (beBytes 8 f.monotonic_nanos.toNat ++ (beBytes 4 f.payload.length ++
      beBytes 4 f.flags.toNat)))))

section
variable (crc32c : List UInt8 → UInt32)

def JournalFrame.bytes (f : JournalFrame) : List UInt8 :=
  f.header ++ f.payload ++ beBytes 4 (crc32c (f.header ++ f.payload)).toNat

def JournalFrame.encode (f : JournalFrame) : Except JournalErrorCode (List UInt8) :=
  if f.sequence = 0 then .error .Sequence
  else do
    let _ ← f.encoded_len
    return f.bytes crc32c

/-! ## Scanning -/

inductive ScanIssue where
  | TornTail
  | Corrupt
  | SequenceGap
  deriving DecidableEq

structure JournalScan where
  frames : List JournalFrame
  valid_bytes : Nat
  issue : Option ScanIssue
  deriving DecidableEq

/-- `bytes[start..stop]`. -/
def slice (bytes : List UInt8) (start stop : Nat) : List UInt8 := (bytes.drop start).take (stop - start)

/-- What is in front of the bytes that are left. -/
inductive Scanned where
  | Stop (issue : ScanIssue)
  | Fail (code : JournalErrorCode)
  | Skip (sequence : Nat) (frame_len : Nat)
  | Frame (frame : JournalFrame) (frame_len : Nat)

/-- One turn of the loop of `scan_journal_bytes`. A frame of an unknown kind is skipped when its
flags say that it is not critical. -/
def scan_frame (bytes : List UInt8) (previous : Nat) : Scanned :=
  if bytes.length < JOURNAL_HEADER_BYTES + JOURNAL_CHECKSUM_BYTES then .Stop .TornTail
  else if slice bytes 0 4 ≠ JOURNAL_MAGIC ∨ beNat (slice bytes 4 6) ≠ FORMAT_VERSION then
    .Stop .Corrupt
  else
    let sequence := beNat (slice bytes 8 16)
    let flags := UInt32.ofNat (beNat (slice bytes 28 32))
    let frame_len := JOURNAL_HEADER_BYTES + beNat (slice bytes 24 28) + JOURNAL_CHECKSUM_BYTES
    let checksum_offset := frame_len - JOURNAL_CHECKSUM_BYTES
    if frame_len > MAX_JOURNAL_FRAME_BYTES then .Fail .FrameTooLarge
    else if bytes.length < frame_len then .Stop .TornTail
    else if (crc32c (slice bytes 0 checksum_offset)).toNat ≠
        beNat (slice bytes checksum_offset frame_len) then .Stop .Corrupt
    else
      match checked_next previous with
      | none => .Fail .ResourceLimit
      | some expected_sequence =>
        if sequence ≠ expected_sequence then .Stop .SequenceGap
        else
          match JournalKind.try_from (beNat (slice bytes 6 8)) with
          | none =>
            if flags &&& 1 ≠ 0 then .Skip sequence frame_len else .Fail .UnknownCriticalKind
          | some kind =>
            .Frame
              { kind, sequence, flags
                monotonic_nanos := UInt64.ofNat (beNat (slice bytes 16 24))
                payload := slice bytes JOURNAL_HEADER_BYTES checksum_offset } frame_len

/-- Every turn takes at least one byte, so a turn for each byte is enough. -/
def scan_loop : Nat → List UInt8 → Nat → Except JournalErrorCode JournalScan
  | 0, _, _ => .ok ⟨[], 0, none⟩
  | turns + 1, bytes, previous =>
    if bytes = [] then .ok ⟨[], 0, none⟩
    else
      match scan_frame crc32c bytes previous with
      | .Stop issue => .ok ⟨[], 0, some issue⟩
      | .Fail code => .error code
      | .Skip sequence frame_len => do
        let scan ← scan_loop turns (bytes.drop frame_len) sequence
        return { scan with valid_bytes := frame_len + scan.valid_bytes }
      | .Frame frame frame_len => do
        let scan ← scan_loop turns (bytes.drop frame_len) frame.sequence
        return { scan with
          frames := frame :: scan.frames, valid_bytes := frame_len + scan.valid_bytes }

def scan_journal_bytes (bytes : List UInt8) (previous_sequence : Nat) :
    Except JournalErrorCode JournalScan :=
  scan_loop crc32c bytes.length bytes previous_sequence

end

/-! ## Snapshots -/

structure TerminalSnapshot where
  boundary : Nat
  columns : UInt32
  rows : UInt32
  terminal_bytes : List UInt8

section
variable (crc32c : List UInt8 → UInt32)

def TerminalSnapshot.body (s : TerminalSnapshot) : List UInt8 :=
  SNAPSHOT_MAGIC ++ (beBytes 2 FORMAT_VERSION ++ (beBytes 2 0 ++ (beBytes 8 s.boundary ++
    (beBytes 4 s.columns.toNat ++ (beBytes 4 s.rows.toNat ++
      (beBytes 4 s.terminal_bytes.length ++ s.terminal_bytes))))))

def TerminalSnapshot.bytes (s : TerminalSnapshot) : List UInt8 :=
  s.body ++ beBytes 4 (crc32c s.body).toNat

def encode_snapshot (s : TerminalSnapshot) : Except JournalErrorCode (List UInt8) :=
  if s.boundary = 0 ∨ s.columns = 0 ∨ s.rows = 0 ∨ s.terminal_bytes.length > MAX_SNAPSHOT_BYTES then
    .error .ResourceLimit
  else .ok (s.bytes crc32c)

def decode_snapshot (bytes : List UInt8) : Except JournalErrorCode TerminalSnapshot :=
  if bytes.length < SNAPSHOT_HEADER_BYTES + 4 ∨ slice bytes 0 4 ≠ SNAPSHOT_MAGIC ∨
      beNat (slice bytes 4 6) ≠ FORMAT_VERSION then .error .Malformed
  else
    let expected_len := SNAPSHOT_HEADER_BYTES + beNat (slice bytes 24 28) + 4
    let checksum_offset := bytes.length - 4
    if expected_len > SNAPSHOT_HEADER_BYTES + MAX_SNAPSHOT_BYTES + 4 then .error .ResourceLimit
    else if bytes.length ≠ expected_len then .error .Malformed
    else if (crc32c (slice bytes 0 checksum_offset)).toNat ≠
        beNat (slice bytes checksum_offset bytes.length) then .error .Checksum
    else
      .ok
        { boundary := beNat (slice bytes 8 16)
          columns := UInt32.ofNat (beNat (slice bytes 16 20))
          rows := UInt32.ofNat (beNat (slice bytes 20 24))
          terminal_bytes := slice bytes SNAPSHOT_HEADER_BYTES checksum_offset }

end

/-! ## What a scan finds -/

theorem slice_append {a b c : List UInt8} {i j : Nat} (hi : a.length = i) (hj : i + b.length = j) :
    slice (a ++ (b ++ c)) i j = b := by
  unfold slice
  rw [List.drop_left' hi, ← hj, Nat.add_sub_cancel_left, List.take_left' rfl]

theorem slice_zero {b c : List UInt8} {j : Nat} (hj : b.length = j) : slice (b ++ c) 0 j = b := by
  unfold slice
  rw [List.drop_zero, Nat.sub_zero, List.take_left' hj]

theorem slice_append_left {a b : List UInt8} {i j : Nat} (h : j ≤ a.length) :
    slice (a ++ b) i j = slice a i j := by
  unfold slice
  rcases Nat.le_total i a.length with hi | hi
  · rw [List.drop_append_of_le_length hi, List.take_append_of_le_length]
    rw [List.length_drop]
    omega
  · rw [show j - i = 0 by omega, List.take_zero, List.take_zero]

theorem try_from_code (kind : JournalKind) : JournalKind.try_from kind.code = some kind := by
  cases kind <;> rfl

/-! ### Records -/

/-- A record of any kind, also of one that is not known. -/
structure Record where
  code : UInt16
  sequence : Nat
  monotonic_nanos : UInt64
  flags : UInt32
  payload : List UInt8

def Record.size (r : Record) : Nat :=
  JOURNAL_HEADER_BYTES + r.payload.length + JOURNAL_CHECKSUM_BYTES

def Record.header (r : Record) : List UInt8 :=
  JOURNAL_MAGIC ++ (beBytes 2 FORMAT_VERSION ++ (beBytes 2 r.code.toNat ++ (beBytes 8 r.sequence ++
    (beBytes 8 r.monotonic_nanos.toNat ++ (beBytes 4 r.payload.length ++
      beBytes 4 r.flags.toNat)))))

def Record.bytes (crc32c : List UInt8 → UInt32) (r : Record) : List UInt8 :=
  r.header ++ r.payload ++ beBytes 4 (crc32c (r.header ++ r.payload)).toNat

/-- The frame that a scan makes of a record, if its kind is known. -/
def Record.frame? (r : Record) : Option JournalFrame :=
  (JournalKind.try_from r.code.toNat).map fun kind =>
    ⟨kind, r.sequence, r.monotonic_nanos, r.flags, r.payload⟩

def JournalFrame.record (f : JournalFrame) : Record :=
  ⟨UInt16.ofNat f.kind.code, f.sequence, f.monotonic_nanos, f.flags, f.payload⟩

theorem code_record (f : JournalFrame) : f.record.code.toNat = f.kind.code := by
  unfold JournalFrame.record
  cases f.kind <;> rfl

theorem header_record (f : JournalFrame) : f.record.header = f.header := by
  unfold Record.header
  rw [code_record]
  rfl

theorem bytes_record (crc32c : List UInt8 → UInt32) (f : JournalFrame) :
    f.record.bytes crc32c = f.bytes crc32c := by
  unfold Record.bytes
  rw [header_record]
  rfl

theorem frame?_record (f : JournalFrame) : f.record.frame? = some f := by
  unfold Record.frame?
  rw [code_record, try_from_code]
  rfl

@[simp] theorem length_record_header (r : Record) : r.header.length = JOURNAL_HEADER_BYTES := by
  unfold Record.header
  simp [JOURNAL_MAGIC, JOURNAL_HEADER_BYTES]

@[simp] theorem length_record_bytes (crc32c : List UInt8 → UInt32) (r : Record) :
    (r.bytes crc32c).length = r.size := by
  unfold Record.bytes Record.size
  rw [List.length_append, List.length_append, length_record_header, length_beBytes]
  rfl

structure Record.Fits (r : Record) : Prop where
  sequence : r.sequence ≤ U64_MAX
  positive : r.sequence ≠ 0
  size : r.size ≤ MAX_JOURNAL_FRAME_BYTES

/-- The fields that a scan reads in the header of a record. -/
structure RecordReads (r : Record) (bytes : List UInt8) : Prop where
  magic : slice bytes 0 4 = JOURNAL_MAGIC
  version : beNat (slice bytes 4 6) = FORMAT_VERSION
  kind : beNat (slice bytes 6 8) = r.code.toNat
  sequence : beNat (slice bytes 8 16) = r.sequence
  nanos : UInt64.ofNat (beNat (slice bytes 16 24)) = r.monotonic_nanos
  payload : beNat (slice bytes 24 28) = r.payload.length
  flags : UInt32.ofNat (beNat (slice bytes 28 32)) = r.flags

theorem recordReads {r : Record} (h : r.Fits) (rest : List UInt8) :
    RecordReads r (r.header ++ rest) := by
  have hkind : r.code.toNat < 256 ^ 2 := r.code.toNat_lt
  have hsequence : r.sequence < 256 ^ 8 := by
    have := h.sequence
    unfold U64_MAX at this
    omega
  have hpayload : r.payload.length < 256 ^ 4 := by
    have := h.size
    unfold Record.size MAX_JOURNAL_FRAME_BYTES JOURNAL_HEADER_BYTES at this
    omega
  have hnanos : r.monotonic_nanos.toNat < 256 ^ 8 := r.monotonic_nanos.toNat_lt
  have hflags : r.flags.toNat < 256 ^ 4 := r.flags.toNat_lt
  have hslice : ∀ {i j : Nat} (a b c : List UInt8), r.header = a ++ (b ++ c) → a.length = i →
      i + b.length = j → slice (r.header ++ rest) i j = b := by
    intro i j a b c heq hi hj
    rw [heq, List.append_assoc, List.append_assoc]
    exact slice_append hi hj
  -- each field with what stands before it and after it
  have hmagic : slice (r.header ++ rest) 0 4 = JOURNAL_MAGIC :=
    hslice [] JOURNAL_MAGIC _ rfl rfl rfl
  have hversion : slice (r.header ++ rest) 4 6 = beBytes 2 FORMAT_VERSION :=
    hslice JOURNAL_MAGIC _ _ rfl rfl (congrArg (4 + ·) (length_beBytes 2 _))
  have hcode : slice (r.header ++ rest) 6 8 = beBytes 2 r.code.toNat :=
    hslice (JOURNAL_MAGIC ++ beBytes 2 FORMAT_VERSION) (beBytes 2 r.code.toNat) _
    (by unfold Record.header; simp; rfl) (by simp [JOURNAL_MAGIC])
    (congrArg (6 + ·) (length_beBytes 2 _))
  have hnumber : slice (r.header ++ rest) 8 16 = beBytes 8 r.sequence :=
    hslice (JOURNAL_MAGIC ++ (beBytes 2 FORMAT_VERSION ++ beBytes 2 r.code.toNat))
    (beBytes 8 r.sequence) _ (by unfold Record.header; simp; rfl)
    (by simp [JOURNAL_MAGIC]) (congrArg (8 + ·) (length_beBytes 8 _))
  have htime : slice (r.header ++ rest) 16 24 = beBytes 8 r.monotonic_nanos.toNat :=
    hslice (JOURNAL_MAGIC ++ (beBytes 2 FORMAT_VERSION ++ (beBytes 2 r.code.toNat ++
    beBytes 8 r.sequence))) (beBytes 8 r.monotonic_nanos.toNat) _
    (by unfold Record.header; simp; rfl)
    (by simp [JOURNAL_MAGIC]) (congrArg (16 + ·) (length_beBytes 8 _))
  have hlength : slice (r.header ++ rest) 24 28 = beBytes 4 r.payload.length :=
    hslice (JOURNAL_MAGIC ++ (beBytes 2 FORMAT_VERSION ++ (beBytes 2 r.code.toNat ++
    (beBytes 8 r.sequence ++ beBytes 8 r.monotonic_nanos.toNat)))) (beBytes 4 r.payload.length) _
    (by unfold Record.header; simp; rfl)
    (by simp [JOURNAL_MAGIC]) (congrArg (24 + ·) (length_beBytes 4 _))
  have hmark : slice (r.header ++ rest) 28 32 = beBytes 4 r.flags.toNat :=
    hslice (JOURNAL_MAGIC ++ (beBytes 2 FORMAT_VERSION ++ (beBytes 2 r.code.toNat ++
    (beBytes 8 r.sequence ++ (beBytes 8 r.monotonic_nanos.toNat ++ beBytes 4 r.payload.length)))))
    (beBytes 4 r.flags.toNat) []
    (by unfold Record.header; simp)
    (by simp [JOURNAL_MAGIC]) (congrArg (28 + ·) (length_beBytes 4 _))
  refine ⟨hmagic, ?_, ?_, ?_, ?_, ?_, ?_⟩
  · rw [hversion]
    exact beNat_beBytes (by decide)
  · rw [hcode, beNat_beBytes hkind]
  · rw [hnumber, beNat_beBytes hsequence]
  · rw [htime, beNat_beBytes hnanos, UInt64.ofNat_toNat]
  · rw [hlength, beNat_beBytes hpayload]
  · rw [hmark, beNat_beBytes hflags, UInt32.ofNat_toNat]

/-- A whole record in front is taken or skipped when its number is the next one, and stops the scan
when not. -/
theorem scan_frame_record (crc32c : List UInt8 → UInt32) {r : Record} (h : r.Fits)
    (rest : List UInt8) {previous : Nat} (hprevious : previous < U64_MAX) :
    scan_frame crc32c (r.bytes crc32c ++ rest) previous =
      if r.sequence = previous + 1 then
        match r.frame? with
        | none =>
          if r.flags &&& 1 ≠ 0 then .Skip r.sequence r.size else .Fail .UnknownCriticalKind
        | some frame => .Frame frame r.size
      else .Stop .SequenceGap := by
  have hreads : RecordReads r (r.bytes crc32c ++ rest) := by
    exact recordReads h _
  have hlen : (r.bytes crc32c ++ rest).length = r.size + rest.length := by
    rw [List.length_append, length_record_bytes]
  have hsize : JOURNAL_HEADER_BYTES + r.payload.length + JOURNAL_CHECKSUM_BYTES = r.size := rfl
  have hoffset : r.size - JOURNAL_CHECKSUM_BYTES = JOURNAL_HEADER_BYTES + r.payload.length := by
    omega
  have hfront : slice (r.bytes crc32c ++ rest) 0 (JOURNAL_HEADER_BYTES + r.payload.length) =
      r.header ++ r.payload := by
    unfold Record.bytes
    rw [List.append_assoc]
    exact slice_zero (by simp)
  have hcheck : slice (r.bytes crc32c ++ rest) (JOURNAL_HEADER_BYTES + r.payload.length) r.size =
      beBytes 4 (crc32c (r.header ++ r.payload)).toNat := by
    unfold Record.bytes
    rw [List.append_assoc]
    exact slice_append (by simp) (by simp [Record.size, JOURNAL_CHECKSUM_BYTES])
  have hpayload : slice (r.bytes crc32c ++ rest) JOURNAL_HEADER_BYTES
      (JOURNAL_HEADER_BYTES + r.payload.length) = r.payload := by
    unfold Record.bytes
    rw [List.append_assoc, List.append_assoc]
    exact slice_append (length_record_header r) rfl
  have hcrc : (crc32c (r.header ++ r.payload)).toNat < 256 ^ 4 := UInt32.toNat_lt _
  unfold scan_frame Record.frame?
  rw [if_neg (by rw [hlen]; omega), if_neg (by simp [hreads.magic, hreads.version])]
  simp only [hreads.sequence, hreads.payload, hreads.flags, hreads.kind, hreads.nanos, hsize, hoffset,
    hfront, hcheck, hpayload, beNat_beBytes hcrc, checked_next_eq hprevious]
  rw [if_neg (not_lt.mpr h.size), if_neg (by rw [hlen]; omega), if_neg (not_not.mpr rfl)]
  by_cases heq : r.sequence = previous + 1
  · rw [if_neg (not_not.mpr heq), if_pos heq]
    cases JournalKind.try_from r.code.toNat <;> rfl
  · rw [if_pos heq, if_neg heq]

/-! ### Frames -/

@[simp] theorem length_header (f : JournalFrame) : f.header.length = JOURNAL_HEADER_BYTES := by
  unfold JournalFrame.header
  simp [JOURNAL_MAGIC, JOURNAL_HEADER_BYTES]

structure JournalFrame.Fits (f : JournalFrame) : Prop where
  sequence : f.sequence ≤ U64_MAX
  positive : f.sequence ≠ 0
  size : f.size ≤ MAX_JOURNAL_FRAME_BYTES

/-- The fields that a scan reads in the header of a frame. -/
structure HeaderReads (f : JournalFrame) (bytes : List UInt8) : Prop where
  magic : slice bytes 0 4 = JOURNAL_MAGIC
  version : beNat (slice bytes 4 6) = FORMAT_VERSION
  kind : beNat (slice bytes 6 8) = f.kind.code
  sequence : beNat (slice bytes 8 16) = f.sequence
  nanos : UInt64.ofNat (beNat (slice bytes 16 24)) = f.monotonic_nanos
  payload : beNat (slice bytes 24 28) = f.payload.length
  flags : UInt32.ofNat (beNat (slice bytes 28 32)) = f.flags

theorem headerReads {f : JournalFrame} (h : f.Fits) (rest : List UInt8) :
    HeaderReads f (f.header ++ rest) := by
  have hreads := recordReads (r := f.record) ⟨h.sequence, h.positive, h.size⟩ rest
  rw [header_record] at hreads
  exact ⟨hreads.magic, hreads.version, hreads.kind.trans (code_record f), hreads.sequence,
    hreads.nanos, hreads.payload, hreads.flags⟩

section
variable (crc32c : List UInt8 → UInt32)

@[simp] theorem length_bytes (f : JournalFrame) : (f.bytes crc32c).length = f.size := by
  unfold JournalFrame.bytes JournalFrame.size
  rw [List.length_append, List.length_append, length_header, length_beBytes]
  rfl

theorem size_pos (f : JournalFrame) : 0 < f.size := by
  unfold JournalFrame.size JOURNAL_CHECKSUM_BYTES
  omega

variable {f : JournalFrame} {bytes : List UInt8} {previous : Nat} {frames : List JournalFrame}
  {s : TerminalSnapshot}

theorem encode_ok (h : f.Fits) : f.encode crc32c = .ok (f.bytes crc32c) := by
  unfold JournalFrame.encode JournalFrame.encoded_len
  rw [if_neg h.positive, if_pos h.size]
  rfl

theorem bytes_of_encode (h : f.encode crc32c = .ok bytes) :
    bytes = f.bytes crc32c ∧ f.sequence ≠ 0 ∧ f.size ≤ MAX_JOURNAL_FRAME_BYTES := by
  unfold JournalFrame.encode JournalFrame.encoded_len at h
  split at h
  · cases h
  rename_i hpositive
  split at h
  · rename_i hsize
    cases h
    exact ⟨rfl, hpositive, hsize⟩
  · cases h

/-- A whole frame in front is taken when its number is the next one, and stops the scan when not. -/
theorem scan_frame_bytes (h : f.Fits) (rest : List UInt8) (hprevious : previous < U64_MAX) :
    scan_frame crc32c (f.bytes crc32c ++ rest) previous =
      if f.sequence = previous + 1 then .Frame f f.size else .Stop .SequenceGap := by
  have hscan := scan_frame_record crc32c (r := f.record) ⟨h.sequence, h.positive, h.size⟩ rest
    hprevious
  rw [bytes_record, frame?_record] at hscan
  exact hscan

theorem scan_frame_torn (h : f.Fits) {n : Nat} (hn : n < f.size) (previous : Nat) :
    scan_frame crc32c ((f.bytes crc32c).take n) previous = .Stop .TornTail := by
  have hlen : ((f.bytes crc32c).take n).length = n := by
    rw [List.length_take, length_bytes]
    omega
  unfold scan_frame
  rw [hlen]
  split
  · rfl
  have hfront : (f.bytes crc32c).take n = f.header ++ (f.payload ++
      beBytes 4 (crc32c (f.header ++ f.payload)).toNat).take (n - JOURNAL_HEADER_BYTES) := by
    unfold JournalFrame.bytes
    rw [List.append_assoc, List.take_append, length_header, List.take_of_length_le]
    rw [length_header]
    omega
  have hreads : HeaderReads f ((f.bytes crc32c).take n) := by
    rw [hfront]
    exact headerReads h _
  have hsize : JOURNAL_HEADER_BYTES + f.payload.length + JOURNAL_CHECKSUM_BYTES = f.size := rfl
  rw [if_neg (by simp [hreads.magic, hreads.version])]
  simp only [hreads.payload, hsize]
  rw [if_neg (not_lt.mpr h.size), if_pos hn]

/-! ### Whole segments -/

def encodeAll (frames : List JournalFrame) : List UInt8 := frames.flatMap fun f => f.bytes crc32c

/-- Frames numbered one after the other, each within its limits. -/
def Follow : Nat → List JournalFrame → Prop
  | _, [] => True
  | previous, f :: frames => f.Fits ∧ f.sequence = previous + 1 ∧ Follow f.sequence frames

theorem Follow.sequence_le (h : Follow previous frames) :
    previous + frames.length ≤ U64_MAX ∨ frames = [] := by
  induction frames generalizing previous with
  | nil => exact .inr rfl
  | cons f frames ih =>
    obtain ⟨hfits, hnext, hrest⟩ := h
    rcases ih hrest with hle | rfl
    · rw [List.length_cons]
      omega
    · have := hfits.sequence
      rw [List.length_singleton]
      omega

theorem scan_loop_succ (turns : Nat) (h : bytes ≠ []) (previous : Nat) :
    scan_loop crc32c (turns + 1) bytes previous =
      match scan_frame crc32c bytes previous with
      | .Stop issue => .ok ⟨[], 0, some issue⟩
      | .Fail code => .error code
      | .Skip sequence frame_len => do
        let scan ← scan_loop crc32c turns (bytes.drop frame_len) sequence
        return { scan with valid_bytes := frame_len + scan.valid_bytes }
      | .Frame frame frame_len => do
        let scan ← scan_loop crc32c turns (bytes.drop frame_len) frame.sequence
        return { scan with
          frames := frame :: scan.frames, valid_bytes := frame_len + scan.valid_bytes } := by
  rw [scan_loop, if_neg h]

theorem scan_loop_encodeAll {tail : List UInt8} :
    ∀ {previous : Nat} {turns : Nat}, Follow previous frames → frames.length ≤ turns →
      scan_loop crc32c turns (encodeAll crc32c frames ++ tail) previous =
        (scan_loop crc32c (turns - frames.length) tail (previous + frames.length)).map fun scan =>
          { scan with
            frames := frames ++ scan.frames
            valid_bytes := (encodeAll crc32c frames).length + scan.valid_bytes } := by
  induction frames with
  | nil =>
    intro previous turns _ _
    simp [encodeAll]
    cases scan_loop crc32c turns tail previous <;> rfl
  | cons f frames ih =>
    intro previous turns h hturns
    obtain ⟨hfits, hnext, hrest⟩ := h
    have hlt : previous < U64_MAX := by
      have := hfits.sequence
      omega
    cases turns with
    | zero =>
      rw [List.length_cons] at hturns
      omega
    | succ turns =>
      rw [List.length_cons, Nat.succ_le_succ_iff] at hturns
      have hsplit : encodeAll crc32c (f :: frames) ++ tail =
          f.bytes crc32c ++ (encodeAll crc32c frames ++ tail) := by
        unfold encodeAll
        rw [List.flatMap_cons, List.append_assoc]
      have hne : f.bytes crc32c ++ (encodeAll crc32c frames ++ tail) ≠ [] := by
        intro hnil
        have := congrArg List.length hnil
        rw [List.length_append, length_bytes, List.length_nil] at this
        have := size_pos f
        omega
      have hlength : (encodeAll crc32c (f :: frames)).length =
          f.size + (encodeAll crc32c frames).length := by
        unfold encodeAll
        rw [List.flatMap_cons, List.length_append, length_bytes]
      rw [hsplit, scan_loop_succ crc32c turns hne, scan_frame_bytes crc32c hfits _ hlt, if_pos hnext]
      simp only
      rw [List.drop_left' (length_bytes crc32c f), ih hrest hturns, hnext, List.length_cons,
        Nat.add_sub_add_right, show previous + 1 + frames.length = previous + (frames.length + 1) by
          omega]
      cases scan_loop crc32c (turns - frames.length) tail (previous + (frames.length + 1)) with
      | error code => rfl
      | ok scan =>
        simp [Except.map, bind, Except.bind, pure, Except.pure, hlength, Nat.add_assoc]

theorem length_le_encodeAll (frames : List JournalFrame) :
    frames.length ≤ (encodeAll crc32c frames).length := by
  induction frames with
  | nil => exact Nat.zero_le _
  | cons f frames ih =>
    have := size_pos f
    unfold encodeAll at ih ⊢
    rw [List.flatMap_cons, List.length_append, length_bytes, List.length_cons]
    omega

theorem scan_encodeAll (h : Follow previous frames) :
    scan_journal_bytes crc32c (encodeAll crc32c frames) previous =
      .ok ⟨frames, (encodeAll crc32c frames).length, none⟩ := by
  unfold scan_journal_bytes
  nth_rewrite 2 [← List.append_nil (encodeAll crc32c frames)]
  rw [scan_loop_encodeAll crc32c h (length_le_encodeAll crc32c frames)]
  cases (encodeAll crc32c frames).length - frames.length <;> simp [scan_loop, Except.map]

theorem scan_torn (h : Follow previous frames) (hf : f.Fits) {n : Nat} (hpos : 0 < n)
    (hn : n < f.size) :
    scan_journal_bytes crc32c (encodeAll crc32c frames ++ (f.bytes crc32c).take n) previous =
      .ok ⟨frames, (encodeAll crc32c frames).length, some .TornTail⟩ := by
  have hlen : ((f.bytes crc32c).take n).length = n := by
    rw [List.length_take, length_bytes]
    omega
  have hne : (f.bytes crc32c).take n ≠ [] := by
    intro hnil
    rw [hnil] at hlen
    exact hpos.ne hlen
  have hle := length_le_encodeAll crc32c frames
  unfold scan_journal_bytes
  rw [scan_loop_encodeAll crc32c h (by rw [List.length_append]; omega), List.length_append, hlen]
  obtain ⟨turns, hturns⟩ : ∃ turns, (encodeAll crc32c frames).length + n - frames.length =
      turns + 1 := ⟨(encodeAll crc32c frames).length + n - frames.length - 1, by omega⟩
  rw [hturns, scan_loop_succ crc32c turns hne, scan_frame_torn crc32c hf hn]
  simp [Except.map]

theorem scan_stale (hf : f.Fits) (hprevious : previous < U64_MAX)
    (hne : f.sequence ≠ previous + 1) :
    scan_journal_bytes crc32c (encodeAll crc32c (f :: frames)) previous =
      .ok ⟨[], 0, some .SequenceGap⟩ := by
  have hsplit : encodeAll crc32c (f :: frames) = f.bytes crc32c ++ encodeAll crc32c frames := by
    unfold encodeAll
    rw [List.flatMap_cons]
  have hlen : (encodeAll crc32c (f :: frames)).length = f.size - 1 +
      (encodeAll crc32c frames).length + 1 := by
    have := size_pos f
    rw [hsplit, List.length_append, length_bytes]
    omega
  have hnil : encodeAll crc32c (f :: frames) ≠ [] := by
    intro h
    rw [h] at hlen
    cases hlen
  unfold scan_journal_bytes
  rw [hlen, scan_loop_succ crc32c _ hnil, hsplit, scan_frame_bytes crc32c hf _ hprevious, if_neg hne]

/-! ### Snapshots are read back -/

/-- A snapshot that `encode_snapshot` takes. -/
structure TerminalSnapshot.Fits (s : TerminalSnapshot) : Prop where
  boundary : s.boundary ≤ U64_MAX
  positive : s.boundary ≠ 0
  columns : s.columns ≠ 0
  rows : s.rows ≠ 0
  size : s.terminal_bytes.length ≤ MAX_SNAPSHOT_BYTES

theorem encode_snapshot_ok (h : s.Fits) : encode_snapshot crc32c s = .ok (s.bytes crc32c) := by
  unfold encode_snapshot
  rw [if_neg]
  have := h.size
  simp only [not_or]
  exact ⟨h.positive, h.columns, h.rows, not_lt.mpr this⟩

theorem fits_of_encode_snapshot (h : encode_snapshot crc32c s = .ok bytes)
    (hboundary : s.boundary ≤ U64_MAX) : s.Fits ∧ bytes = s.bytes crc32c := by
  unfold encode_snapshot at h
  split at h
  · cases h
  · rename_i hok
    simp at hok
    cases h
    exact ⟨⟨hboundary, hok.1, hok.2.1, hok.2.2.1, hok.2.2.2⟩, rfl⟩

theorem length_snapshot (s : TerminalSnapshot) :
    (s.bytes crc32c).length = SNAPSHOT_HEADER_BYTES + s.terminal_bytes.length + 4 := by
  unfold TerminalSnapshot.bytes TerminalSnapshot.body
  simp [SNAPSHOT_MAGIC, SNAPSHOT_HEADER_BYTES]
  omega

theorem decode_encode_snapshot (h : s.Fits) : decode_snapshot crc32c (s.bytes crc32c) = .ok s := by
  have hboundary : s.boundary < 256 ^ 8 := by
    have := h.boundary
    unfold U64_MAX at this
    omega
  have hpayload : s.terminal_bytes.length < 256 ^ 4 := by
    have := h.size
    unfold MAX_SNAPSHOT_BYTES at this
    omega
  have hcolumns : s.columns.toNat < 256 ^ 4 := s.columns.toNat_lt
  have hrows : s.rows.toNat < 256 ^ 4 := s.rows.toNat_lt
  have hcrc : (crc32c s.body).toNat < 256 ^ 4 := UInt32.toNat_lt _
  have hbody : s.body.length = SNAPSHOT_HEADER_BYTES + s.terminal_bytes.length := by
    have := length_snapshot crc32c s
    unfold TerminalSnapshot.bytes at this
    rw [List.length_append, length_beBytes] at this
    omega
  have hslice : ∀ {i j : Nat} (a b c : List UInt8), s.body = a ++ (b ++ c) → a.length = i →
      i + b.length = j → slice (s.bytes crc32c) i j = b := by
    intro i j a b c heq hi hj
    unfold TerminalSnapshot.bytes
    rw [heq, List.append_assoc, List.append_assoc]
    exact slice_append hi hj
  have hmagic : slice (s.bytes crc32c) 0 4 = SNAPSHOT_MAGIC := hslice [] SNAPSHOT_MAGIC _ rfl rfl rfl
  have hversion : slice (s.bytes crc32c) 4 6 = beBytes 2 FORMAT_VERSION :=
    hslice SNAPSHOT_MAGIC _ _ rfl rfl (congrArg (4 + ·) (length_beBytes 2 _))
  have hnumber : slice (s.bytes crc32c) 8 16 = beBytes 8 s.boundary :=
    hslice (SNAPSHOT_MAGIC ++ (beBytes 2 FORMAT_VERSION ++ beBytes 2 0)) _ _
      (by unfold TerminalSnapshot.body; simp; rfl) rfl
      (congrArg (8 + ·) (length_beBytes 8 _))
  have hwide : slice (s.bytes crc32c) 16 20 = beBytes 4 s.columns.toNat :=
    hslice (SNAPSHOT_MAGIC ++ (beBytes 2 FORMAT_VERSION ++ (beBytes 2 0 ++ beBytes 8 s.boundary))) _ _
      (by unfold TerminalSnapshot.body; simp; rfl)
      (by simp [SNAPSHOT_MAGIC]) (congrArg (16 + ·) (length_beBytes 4 _))
  have hhigh : slice (s.bytes crc32c) 20 24 = beBytes 4 s.rows.toNat :=
    hslice (SNAPSHOT_MAGIC ++ (beBytes 2 FORMAT_VERSION ++ (beBytes 2 0 ++ (beBytes 8 s.boundary ++
      beBytes 4 s.columns.toNat)))) _ _
      (by unfold TerminalSnapshot.body; simp; rfl)
      (by simp [SNAPSHOT_MAGIC]) (congrArg (20 + ·) (length_beBytes 4 _))
  have hlength : slice (s.bytes crc32c) 24 28 = beBytes 4 s.terminal_bytes.length :=
    hslice (SNAPSHOT_MAGIC ++ (beBytes 2 FORMAT_VERSION ++ (beBytes 2 0 ++ (beBytes 8 s.boundary ++
      (beBytes 4 s.columns.toNat ++ beBytes 4 s.rows.toNat))))) _ _
      (by unfold TerminalSnapshot.body; simp; rfl)
      (by simp [SNAPSHOT_MAGIC]) (congrArg (24 + ·) (length_beBytes 4 _))
  have hterminal : slice (s.bytes crc32c) SNAPSHOT_HEADER_BYTES
      (SNAPSHOT_HEADER_BYTES + s.terminal_bytes.length) = s.terminal_bytes :=
    hslice (SNAPSHOT_MAGIC ++ (beBytes 2 FORMAT_VERSION ++ (beBytes 2 0 ++ (beBytes 8 s.boundary ++
      (beBytes 4 s.columns.toNat ++ (beBytes 4 s.rows.toNat ++
        beBytes 4 s.terminal_bytes.length)))))) _ []
      (by unfold TerminalSnapshot.body; simp)
      (by simp [SNAPSHOT_MAGIC, SNAPSHOT_HEADER_BYTES]) rfl
  have hfront : slice (s.bytes crc32c) 0 (SNAPSHOT_HEADER_BYTES + s.terminal_bytes.length) =
      s.body := slice_zero hbody
  have hcheck : slice (s.bytes crc32c) (SNAPSHOT_HEADER_BYTES + s.terminal_bytes.length)
      (SNAPSHOT_HEADER_BYTES + s.terminal_bytes.length + 4) = beBytes 4 (crc32c s.body).toNat := by
    have hend : SNAPSHOT_HEADER_BYTES + s.terminal_bytes.length +
        (beBytes 4 (crc32c s.body).toNat).length =
          SNAPSHOT_HEADER_BYTES + s.terminal_bytes.length + 4 := by
      rw [length_beBytes]
    have hmiddle := slice_append (c := []) hbody hend
    rwa [List.append_nil] at hmiddle
  have hsize := h.size
  have hone : beNat (beBytes 2 FORMAT_VERSION) = FORMAT_VERSION := beNat_beBytes (by decide)
  unfold decode_snapshot
  rw [length_snapshot, hmagic, hversion, hlength, hone, if_neg (by simp)]
  simp only [hnumber, hwide, hhigh, hfront, hcheck, hterminal, Nat.add_sub_cancel,
    beNat_beBytes hboundary, beNat_beBytes hpayload, beNat_beBytes hcolumns, beNat_beBytes hrows,
    beNat_beBytes hcrc, UInt32.ofNat_toNat]
  rw [if_neg (by omega), if_neg (not_not.mpr rfl), if_neg (not_not.mpr rfl)]

end

/-! ## The checksum -/

/-- CRC-32C, one bit after the other. -/
def castagnoli (bytes : List UInt8) : UInt32 :=
  let bit (crc : UInt32) : UInt32 := if crc &&& 1 = 1 then (crc >>> 1) ^^^ 0x82F63B78 else crc >>> 1
  (bytes.foldl (fun crc byte => bit^[8] (crc ^^^ byte.toUInt32)) 0xFFFFFFFF) ^^^ 0xFFFFFFFF

-- the check value of the digits from 1 to 9
example : castagnoli [49, 50, 51, 52, 53, 54, 55, 56, 57] = 0xE3069283 := by decide +kernel

end multiplex_store.journal
