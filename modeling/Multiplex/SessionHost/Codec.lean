-- The frames between a Session Host and its clients, as `codec.rs` has them:
-- an envelope as a frame with a header and a checksum, and a decoder that takes
-- the stream in chunks. The decoder holds no more than the largest frame.
import Multiplex.Lib.Buffered
import Multiplex.SessionHost.Wire
import Multiplex.Store.JournalFormat

open Bytes Chunks
open multiplex_store.journal (slice castagnoli slice_append slice_append_left)

namespace multiplex_host_protocol

/-! ## Envelopes -/

/-- `TRH1`. -/
def FRAME_MAGIC : List UInt8 := [0x54, 0x52, 0x48, 0x31]

inductive FrameKind where
  | HandshakeRequest
  | HandshakeResponse
  | GetStateRequest
  | StateEvent
  | AttachRequest
  | ReadyEvent
  | OutputEvent
  | ViewportSnapshotEvent
  | InputRequest
  | ResizeRequest
  | StopRequest
  | InterruptRequest
  | ActivitySnapshotRequest
  | DetachRequest
  | CommandResult
  | ExitEvent
  | GapEvent
  | ProtocolError
  | LifecycleEvent
  | ActivityEvent
  | WarningEvent
  | WriterLeaseRequest
  | WriterLeaseEvent
  deriving DecidableEq

inductive CodecError where
  | InvalidMagic
  | UnknownFrameKind
  | FrameTooLarge
  | ChecksumMismatch
  | Truncated
  | TrailingBytes
  | BufferLimit

def FrameKind.code : FrameKind → Nat
  | .HandshakeRequest => 1
  | .HandshakeResponse => 2
  | .GetStateRequest => 3
  | .StateEvent => 4
  | .AttachRequest => 5
  | .ReadyEvent => 6
  | .OutputEvent => 7
  | .ViewportSnapshotEvent => 8
  | .InputRequest => 9
  | .ResizeRequest => 10
  | .StopRequest => 11
  | .InterruptRequest => 12
  | .ActivitySnapshotRequest => 13
  | .DetachRequest => 14
  | .CommandResult => 15
  | .ExitEvent => 16
  | .GapEvent => 17
  | .ProtocolError => 18
  | .LifecycleEvent => 19
  | .ActivityEvent => 20
  | .WarningEvent => 21
  | .WriterLeaseRequest => 22
  | .WriterLeaseEvent => 23

def FrameKind.try_from : Nat → Except CodecError FrameKind
  | 1 => .ok .HandshakeRequest
  | 2 => .ok .HandshakeResponse
  | 3 => .ok .GetStateRequest
  | 4 => .ok .StateEvent
  | 5 => .ok .AttachRequest
  | 6 => .ok .ReadyEvent
  | 7 => .ok .OutputEvent
  | 8 => .ok .ViewportSnapshotEvent
  | 9 => .ok .InputRequest
  | 10 => .ok .ResizeRequest
  | 11 => .ok .StopRequest
  | 12 => .ok .InterruptRequest
  | 13 => .ok .ActivitySnapshotRequest
  | 14 => .ok .DetachRequest
  | 15 => .ok .CommandResult
  | 16 => .ok .ExitEvent
  | 17 => .ok .GapEvent
  | 18 => .ok .ProtocolError
  | 19 => .ok .LifecycleEvent
  | 20 => .ok .ActivityEvent
  | 21 => .ok .WarningEvent
  | 22 => .ok .WriterLeaseRequest
  | 23 => .ok .WriterLeaseEvent
  | _ => .error .UnknownFrameKind

theorem FrameKind.try_from_code (kind : FrameKind) : try_from kind.code = .ok kind := by
  cases kind <;> rfl

structure WireEnvelope where
  protocol_major : UInt16
  protocol_minor : UInt16
  kind : FrameKind
  flags : UInt16
  request_id : { bytes : List UInt8 // bytes.length = 16 }
  payload : List UInt8

section
variable (crc32c : List UInt8 → UInt32)

def checksum (header_without_checksum payload : List UInt8) : UInt32 :=
  crc32c (header_without_checksum ++ payload)

/-- The fields in front of the checksum. -/
def WireEnvelope.header (e : WireEnvelope) : List (List UInt8) :=
  [FRAME_MAGIC, beBytes 2 e.protocol_major.toNat, beBytes 2 e.protocol_minor.toNat,
    beBytes 2 e.kind.code, beBytes 2 e.flags.toNat, e.request_id.val,
    beBytes 4 e.payload.length]

def WireEnvelope.encode (e : WireEnvelope) : Except CodecError (List UInt8) :=
  if e.payload.length > MAX_PAYLOAD_BYTES then .error .FrameTooLarge
  else
    let header := e.header.flatten
    .ok (header ++ (beBytes 4 (checksum crc32c header e.payload).toNat ++ e.payload))

def WireEnvelope.decode (bytes : List UInt8) : Except CodecError WireEnvelope :=
  if bytes.length < ENVELOPE_HEADER_BYTES then .error .Truncated
  else if bytes.length > MAX_FRAME_BYTES then .error .FrameTooLarge
  else if slice bytes 0 4 ≠ FRAME_MAGIC then .error .InvalidMagic
  else
    let payload_len := beNat (slice bytes 28 32)
    if payload_len > MAX_PAYLOAD_BYTES then .error .FrameTooLarge
    else
      let expected_len := ENVELOPE_HEADER_BYTES + payload_len
      if bytes.length < expected_len then .error .Truncated
      else if bytes.length ≠ expected_len then .error .TrailingBytes
      else if beNat (slice bytes 32 36) ≠
          (checksum crc32c (slice bytes 0 32) (bytes.drop 36)).toNat then .error .ChecksumMismatch
      else
        match FrameKind.try_from (beNat (slice bytes 8 10)) with
        | .error e => .error e
        | .ok kind =>
          if h : (slice bytes 12 28).length = 16 then
            .ok
              { protocol_major := UInt16.ofNat (beNat (slice bytes 4 6))
                protocol_minor := UInt16.ofNat (beNat (slice bytes 6 8))
                kind
                flags := UInt16.ofNat (beNat (slice bytes 10 12))
                request_id := ⟨slice bytes 12 28, h⟩
                payload := bytes.drop 36 }
          else .error .Truncated

/-! ## The decoder -/

structure FrameDecoder where
  buffer : List UInt8

def FrameDecoder.new : FrameDecoder := ⟨[]⟩

/-- One turn of the loop of `push`: an envelope, a wait for more, or an error. A frame is taken
out of the buffer before it is decoded. -/
def FrameDecoder.turn (d : FrameDecoder) : Except CodecError (Option WireEnvelope) × FrameDecoder :=
  if d.buffer.length < ENVELOPE_HEADER_BYTES then (.ok none, d)
  else if slice d.buffer 0 4 ≠ FRAME_MAGIC then (.error .InvalidMagic, d)
  else
    let payload_len := beNat (slice d.buffer 28 32)
    if payload_len > MAX_PAYLOAD_BYTES then (.error .FrameTooLarge, d)
    else
      let frame_len := ENVELOPE_HEADER_BYTES + payload_len
      if d.buffer.length < frame_len then (.ok none, d)
      else
        match WireEnvelope.decode crc32c (d.buffer.take frame_len) with
        | .error e => (.error e, ⟨d.buffer.drop frame_len⟩)
        | .ok envelope => (.ok (some envelope), ⟨d.buffer.drop frame_len⟩)

/-- The loop of `push`. An error takes the envelopes of the same push with it. -/
def FrameDecoder.turns : Nat → FrameDecoder → Except CodecError (List WireEnvelope) × FrameDecoder
  | 0, d => (.ok [], d)
  | fuel + 1, d =>
    match d.turn crc32c with
    | (.error e, d) => (.error e, d)
    | (.ok none, d) => (.ok [], d)
    | (.ok (some envelope), d) =>
      match d.turns fuel with
      | (.error e, d) => (.error e, d)
      | (.ok decoded, d) => (.ok (envelope :: decoded), d)

def FrameDecoder.push (d : FrameDecoder) (bytes : List UInt8) :
    Except CodecError (List WireEnvelope) × FrameDecoder :=
  if d.buffer.length + bytes.length > MAX_FRAME_BYTES then (.error .BufferLimit, d)
  else
    let buffer := d.buffer ++ bytes
    FrameDecoder.turns crc32c (buffer.length + 1) ⟨buffer⟩

def READ_CHUNK_BYTES : Nat := 8 * 1024

/-- What has come of a stream: the envelopes before the first error, and that error. -/
structure Received where
  envelopes : List WireEnvelope
  first_error : Option CodecError
  decoder : FrameDecoder

def Received.start : Received := ⟨[], none, FrameDecoder.new⟩

/-- The next chunk is pushed. Nothing is read after an error. -/
def Received.push (r : Received) (chunk : List UInt8) : Received :=
  match r.first_error with
  | some _ => r
  | none =>
    match r.decoder.push crc32c chunk with
    | (.error e, decoder) => { r with first_error := some e, decoder }
    | (.ok decoded, decoder) => { r with envelopes := r.envelopes ++ decoded, decoder }

def receive (chunks : List (List UInt8)) : Received :=
  chunks.foldl (Received.push crc32c) Received.start

end

/-! ## A turn reads one frame -/

section
variable {crc32c : List UInt8 → UInt32}

/-- What one turn takes off the front of the buffer. -/
def read_frame (crc32c : List UInt8 → UInt32) : Step UInt8 WireEnvelope CodecError := fun buffer =>
  match FrameDecoder.turn crc32c ⟨buffer⟩ with
  | (.error e, _) => .error e
  | (.ok none, _) => .ok none
  | (.ok (some envelope), d) => .ok (some (envelope, d.buffer))

/-- The buffer holds a header whose frame has this length. -/
structure HasHeader (buffer : List UInt8) (frame_len : Nat) : Prop where
  long : ENVELOPE_HEADER_BYTES ≤ buffer.length
  magic : slice buffer 0 4 = FRAME_MAGIC
  small : beNat (slice buffer 28 32) ≤ MAX_PAYLOAD_BYTES
  frame : frame_len = ENVELOPE_HEADER_BYTES + beNat (slice buffer 28 32)

variable {buffer bytes : List UInt8} {e : WireEnvelope}

variable {n : Nat} {rest f : List UInt8} {m : WireEnvelope} {envelopes : List WireEnvelope}

theorem HasHeader.append (h : HasHeader buffer n) (c : List UInt8) : HasHeader (buffer ++ c) n := by
  obtain ⟨hlong, hmagic, hsmall, hframe⟩ := h
  unfold ENVELOPE_HEADER_BYTES at hlong
  refine ⟨?_, ?_, ?_, ?_⟩
  · unfold ENVELOPE_HEADER_BYTES
    rw [List.length_append]
    omega
  · rw [slice_append_left (by omega), hmagic]
  · rw [slice_append_left (by omega)]
    exact hsmall
  · rw [slice_append_left (by omega)]
    exact hframe

theorem HasHeader.le_max (h : HasHeader buffer n) : n ≤ MAX_FRAME_BYTES := by
  have hsmall := h.small
  have hframe := h.frame
  unfold MAX_PAYLOAD_BYTES at hsmall
  have : ENVELOPE_HEADER_BYTES ≤ MAX_FRAME_BYTES := by decide
  omega

theorem read_frame_header (h : HasHeader buffer n) : read_frame crc32c buffer =
      if buffer.length < n then .ok none
      else
        match WireEnvelope.decode crc32c (buffer.take n) with
        | .error e => .error e
        | .ok envelope => .ok (some (envelope, buffer.drop n)) := by
  obtain ⟨hlong, hmagic, hsmall, rfl⟩ := h
  unfold read_frame FrameDecoder.turn
  simp [not_lt.mpr hlong, hmagic, not_lt.mpr hsmall]
  by_cases hlen : buffer.length < ENVELOPE_HEADER_BYTES + beNat (slice buffer 28 32)
  · simp [hlen]
  · simp [hlen]
    cases WireEnvelope.decode crc32c
      (buffer.take (ENVELOPE_HEADER_BYTES + beNat (slice buffer 28 32))) <;> rfl

/-- A turn waits for the header, refuses it, or reads the frame that it announces. -/
theorem read_frame_cases (crc32c : List UInt8 → UInt32) (buffer : List UInt8) :
    (buffer.length < ENVELOPE_HEADER_BYTES ∧ read_frame crc32c buffer = .ok none) ∨
    (∃ e, ENVELOPE_HEADER_BYTES ≤ buffer.length ∧ ∀ c, read_frame crc32c (buffer ++ c) = .error e) ∨
    ∃ n, HasHeader buffer n := by
  rcases Nat.lt_or_ge buffer.length ENVELOPE_HEADER_BYTES with hshort | hlong
  · refine .inl ⟨hshort, ?_⟩
    unfold read_frame FrameDecoder.turn
    rw [if_pos hshort]
  · right
    have hlong' : ∀ c, ¬ (buffer ++ c).length < ENVELOPE_HEADER_BYTES := by
      intro c
      rw [List.length_append]
      omega
    have h36 : 36 ≤ buffer.length := hlong
    by_cases hmagic : slice buffer 0 4 = FRAME_MAGIC
    · by_cases hsmall : beNat (slice buffer 28 32) ≤ MAX_PAYLOAD_BYTES
      · exact .inr ⟨_, hlong, hmagic, hsmall, rfl⟩
      · refine .inl ⟨.FrameTooLarge, hlong, fun c => ?_⟩
        unfold read_frame FrameDecoder.turn
        simp only [hlong' c, slice_append_left (b := c) (show 4 ≤ buffer.length by omega),
          slice_append_left (b := c) (show 32 ≤ buffer.length by omega), hmagic, ne_eq,
          not_true_eq_false, if_false, gt_iff_lt, not_le.mp hsmall, if_true]
    · refine .inl ⟨.InvalidMagic, hlong, fun c => ?_⟩
      unfold read_frame FrameDecoder.turn
      simp only [hlong' c, slice_append_left (b := c) (show 4 ≤ buffer.length by omega), hmagic,
        ne_eq, not_false_eq_true, if_false, if_true]

theorem read_frame_message (h : read_frame crc32c buffer = .ok (some (m, rest))) :
    ∃ f, HasHeader f f.length ∧ buffer = f ++ rest ∧ WireEnvelope.decode crc32c f = .ok m := by
  rcases read_frame_cases crc32c buffer with ⟨-, hwait⟩ | ⟨e, -, hbad⟩ | ⟨n, hheader⟩
  · rw [hwait] at h
    cases h
  · have := hbad []
    rw [List.append_nil, h] at this
    cases this
  · rw [read_frame_header hheader] at h
    split at h
    · cases h
    · split at h <;> cases h
      rename_i hdecode
      have hn : (buffer.take n).length = n := by
        rw [List.length_take]
        omega
      refine ⟨buffer.take n, ?_, (List.take_append_drop n buffer).symm, hdecode⟩
      obtain ⟨hlong, hmagic, hsmall, hframe⟩ := hheader
      have h36 : 36 ≤ n := by
        rw [hframe]
        exact Nat.le_add_right _ _
      have hslice : ∀ i j, j ≤ 36 → slice (buffer.take n) i j = slice buffer i j := by
        intro i j hj
        conv_rhs => rw [← List.take_append_drop n buffer]
        rw [slice_append_left (by omega)]
      rw [hn]
      refine ⟨by rw [hn]; exact h36, ?_, ?_, ?_⟩
      · rw [hslice 0 4 (by omega), hmagic]
      · rw [hslice 28 32 (by omega)]
        exact hsmall
      · rw [hslice 28 32 (by omega)]
        exact hframe

/-- A frame at the front of the buffer is read, whatever follows it. -/
theorem read_frame_of_frame (hheader : HasHeader f f.length)
    (hdecode : WireEnvelope.decode crc32c f = .ok m) (rest : List UInt8) :
    read_frame crc32c (f ++ rest) = .ok (some (m, rest)) := by
  rw [read_frame_header (hheader.append rest), if_neg (by rw [List.length_append]; omega),
    List.take_left' rfl, hdecode, List.drop_left' rfl]

theorem framed_read_frame (crc32c : List UInt8 → UInt32) : Framed (read_frame crc32c) where
  empty := rfl
  shrinks h := by
    obtain ⟨f, hheader, rfl, -⟩ := read_frame_message h
    have := hheader.long
    unfold ENVELOPE_HEADER_BYTES at this
    rw [List.length_append]
    omega
  more_message h c := by
    obtain ⟨f, hheader, rfl, hdecode⟩ := read_frame_message h
    rw [List.append_assoc]
    exact read_frame_of_frame hheader hdecode _
  more_error {b e} h c := by
    rcases read_frame_cases crc32c b with ⟨-, hwait⟩ | ⟨e', -, hbad⟩ | ⟨n, hheader⟩
    · rw [hwait] at h
      cases h
    · have := hbad []
      rw [List.append_nil, h] at this
      rw [hbad c, this]
    · rw [read_frame_header hheader] at h
      split at h
      · cases h
      · rw [read_frame_header (hheader.append c), if_neg (by rw [List.length_append]; omega),
          List.take_append_of_le_length (by omega)]
        split at h <;> cases h
        simp only [*]
  prompt h := by
    obtain ⟨f, hheader, rfl, hdecode⟩ := read_frame_message h
    refine ⟨f, rfl, ?_⟩
    have := read_frame_of_frame hheader hdecode []
    rwa [List.append_nil] at this

theorem read_frame_room (h : read_frame crc32c buffer = .ok none) :
    buffer.length < MAX_FRAME_BYTES := by
  rcases read_frame_cases crc32c buffer with ⟨hshort, -⟩ | ⟨e, -, hbad⟩ | ⟨n, hheader⟩
  · exact lt_trans hshort (by decide)
  · have := hbad []
    rw [List.append_nil, h] at this
    cases this
  · have hn := hheader.le_max
    rw [read_frame_header hheader] at h
    split at h
    · omega
    · split at h <;> cases h

/-! ## Pushing is hearing -/

theorem turns_eq_drainFor (crc32c : List UInt8 → UInt32) (fuel : Nat) (buffer : List UInt8) :
    (∃ d e, FrameDecoder.turns crc32c fuel ⟨buffer⟩ = (.error e, d) ∧
      (drainFor (read_frame crc32c) fuel buffer).2 = .error e) ∨
    ∃ ms rest, FrameDecoder.turns crc32c fuel ⟨buffer⟩ = (.ok ms, ⟨rest⟩) ∧
      drainFor (read_frame crc32c) fuel buffer = (ms, .ok rest) := by
  induction fuel generalizing buffer with
  | zero => exact .inr ⟨[], buffer, rfl, rfl⟩
  | succ fuel ih =>
    have hread : read_frame crc32c buffer = match FrameDecoder.turn crc32c ⟨buffer⟩ with
        | (.error e, _) => .error e
        | (.ok none, _) => .ok none
        | (.ok (some envelope), d) => .ok (some (envelope, d.buffer)) := rfl
    unfold FrameDecoder.turns drainFor
    rcases hturn : FrameDecoder.turn crc32c ⟨buffer⟩ with ⟨e | _ | envelope, d⟩
    · rw [hturn] at hread
      simp only [hread]
      exact .inl ⟨d, e, rfl, rfl⟩
    · rw [hturn] at hread
      simp only [hread]
      have hd : d = ⟨buffer⟩ := by
        unfold FrameDecoder.turn at hturn
        split at hturn
        · cases hturn
          rfl
        · split at hturn
          · cases hturn
          · simp only at hturn
            split at hturn
            · cases hturn
            · split at hturn
              · cases hturn
                rfl
              · split at hturn <;> cases hturn
      rw [hd]
      exact .inr ⟨[], buffer, rfl, rfl⟩
    · rw [hturn] at hread
      simp only [hread]
      rcases ih d.buffer with ⟨d', e, hturns, hdrain⟩ | ⟨ms, rest, hturns, hdrain⟩
      · rw [hturns, hdrain]
        exact .inl ⟨d', e, rfl, rfl⟩
      · rw [hturns, hdrain]
        exact .inr ⟨envelope :: ms, rest, rfl, rfl⟩

def Received.hearing (r : Received) : Hearing UInt8 WireEnvelope :=
  (r.envelopes, if r.first_error.isSome then none else some r.decoder.buffer)

theorem hearing_push (r : Received) (chunk : List UInt8) :
    (r.push crc32c chunk).hearing = hear (read_frame crc32c) MAX_FRAME_BYTES r.hearing chunk := by
  obtain ⟨envelopes, first_error, ⟨buffer⟩⟩ := r
  cases first_error with
  | some e => rfl
  | none =>
    simp only [Received.push, Received.hearing, FrameDecoder.push, Option.isSome_none,
      Bool.false_eq_true, if_false, hear]
    by_cases hbig : buffer.length + chunk.length > MAX_FRAME_BYTES
    · simp [hbig]
    · simp only [hbig, if_false]
      rcases turns_eq_drainFor crc32c ((buffer ++ chunk).length + 1) (buffer ++ chunk)
        with ⟨d, e, hturns, hdrain⟩ | ⟨ms, rest, hturns, hdrain⟩
      · have hd : drain (read_frame crc32c) (buffer ++ chunk) =
            ((drain (read_frame crc32c) (buffer ++ chunk)).1, .error e) := Prod.ext rfl hdrain
        rw [hturns, hd]
        simp
      · have hd : drain (read_frame crc32c) (buffer ++ chunk) = (ms, .ok rest) := hdrain
        rw [hturns, hd]
        simp

variable (chunks : List (List UInt8)) (stream : List UInt8)

theorem hearing_receive :
    (receive crc32c chunks).hearing = hearAll (read_frame crc32c) MAX_FRAME_BYTES chunks := by
  induction chunks using List.reverseRecOn with
  | nil => rfl
  | append_singleton chunks c ih =>
    rw [hearAll_concat, ← ih, ← hearing_push]
    unfold receive
    rw [List.foldl_append, List.foldl_cons, List.foldl_nil]

/-! ## An encoded envelope is a frame -/

theorem slice_field (before after : List (List UInt8)) (field : List UInt8) {i j : Nat}
    (hi : before.flatten.length = i) (hj : i + field.length = j) :
    slice ((before ++ field :: after).flatten ++ rest) i j = field := by
  rw [List.flatten_append, List.flatten_cons, List.append_assoc, List.append_assoc]
  exact slice_append hi hj

theorem length_header (e : WireEnvelope) : e.header.flatten.length = 32 := by
  unfold WireEnvelope.header
  have := e.request_id.property
  simp [this, FRAME_MAGIC, Nat.reduceAdd]

theorem code_lt (kind : FrameKind) : kind.code < 256 ^ 2 := by
  cases kind <;> decide

/-- The fields that a decoder reads in the header of an encoded envelope. -/
structure HeaderReads (e : WireEnvelope) (bytes : List UInt8) : Prop where
  magic : slice bytes 0 4 = FRAME_MAGIC
  major : UInt16.ofNat (beNat (slice bytes 4 6)) = e.protocol_major
  minor : UInt16.ofNat (beNat (slice bytes 6 8)) = e.protocol_minor
  kind : beNat (slice bytes 8 10) = e.kind.code
  flags : UInt16.ofNat (beNat (slice bytes 10 12)) = e.flags
  request_id : slice bytes 12 28 = e.request_id.val
  payload : beNat (slice bytes 28 32) = e.payload.length

theorem headerReads (h : e.payload.length ≤ MAX_PAYLOAD_BYTES) (rest : List UInt8) :
    HeaderReads e (e.header.flatten ++ rest) := by
  have hid := e.request_id.property
  have hpayload : e.payload.length < 256 ^ 4 := lt_of_le_of_lt h (by decide)
  have hsmall : ∀ n : UInt16, UInt16.ofNat (beNat (beBytes 2 n.toNat)) = n := by
    intro n
    rw [beNat_beBytes n.toNat_lt, UInt16.ofNat_toNat]
  -- each field with the fields before it and after it
  have hfield : ∀ {i j : Nat} (before after : List (List UInt8)) (field : List UInt8),
      e.header = before ++ field :: after → before.flatten.length = i → i + field.length = j →
      slice (e.header.flatten ++ rest) i j = field := by
    intro i j before after field heq hi hj
    rw [heq]
    exact slice_field before after field hi hj
  have hmajor := hfield (i := 4) (j := 6) [FRAME_MAGIC] _ (beBytes 2 e.protocol_major.toNat) rfl
    rfl rfl
  have hminor := hfield (i := 6) (j := 8) (e.header.take 2) _ (beBytes 2 e.protocol_minor.toNat) rfl
    rfl rfl
  have hkind := hfield (i := 8) (j := 10) (e.header.take 3) _ (beBytes 2 e.kind.code) rfl rfl rfl
  have hflags := hfield (i := 10) (j := 12) (e.header.take 4) _ (beBytes 2 e.flags.toNat) rfl rfl rfl
  have hrequest := hfield (i := 12) (j := 28) (e.header.take 5) _ e.request_id.val rfl rfl
    (by rw [hid])
  have hlength := hfield (i := 28) (j := 32) (e.header.take 6) [] (beBytes 4 e.payload.length) rfl
    (by simp [WireEnvelope.header, FRAME_MAGIC, hid]) rfl
  constructor
  · exact hfield [] _ FRAME_MAGIC rfl rfl rfl
  · rw [hmajor, hsmall]
  · rw [hminor, hsmall]
  · rw [hkind, beNat_beBytes (code_lt _)]
  · rw [hflags, hsmall]
  · exact hrequest
  · rw [hlength, beNat_beBytes hpayload]

section
variable (h : e.encode crc32c = .ok bytes)
include h

theorem encode_ok :
    e.payload.length ≤ MAX_PAYLOAD_BYTES ∧ bytes = e.header.flatten ++
      (beBytes 4 (checksum crc32c e.header.flatten e.payload).toNat ++ e.payload) := by
  unfold WireEnvelope.encode at h
  split at h
  · cases h
  · rename_i hsmall
    exact ⟨not_lt.mp hsmall, (Except.ok.inj h).symm⟩

theorem length_encode : bytes.length = ENVELOPE_HEADER_BYTES + e.payload.length := by
  obtain ⟨-, rfl⟩ := encode_ok h
  rw [List.length_append, List.length_append, length_header, length_beBytes, ← Nat.add_assoc]
  rfl

theorem decode_encode :
    HasHeader bytes bytes.length ∧ WireEnvelope.decode crc32c bytes = .ok e := by
  have hlen := length_encode h
  obtain ⟨hsmall, hbytes⟩ := encode_ok h
  have hreads := headerReads hsmall
    (beBytes 4 (checksum crc32c e.header.flatten e.payload).toNat ++ e.payload)
  rw [← hbytes] at hreads
  obtain ⟨hmagic, hmajor, hminor, hkind, hflags, hid, hpayload⟩ := hreads
  have hmax : ENVELOPE_HEADER_BYTES + MAX_PAYLOAD_BYTES = MAX_FRAME_BYTES := by decide
  refine ⟨⟨by omega, hmagic, by rw [hpayload]; exact hsmall, by rw [hpayload]; exact hlen⟩, ?_⟩
  have hfront : slice bytes 0 32 = e.header.flatten := by
    rw [hbytes]
    exact multiplex_store.journal.slice_zero (length_header e)
  have hsum : beNat (slice bytes 32 36) = (checksum crc32c e.header.flatten e.payload).toNat := by
    rw [hbytes, slice_append (length_header e) (by rw [length_beBytes]), beNat_beBytes]
    exact UInt32.toNat_lt _
  have hrest : bytes.drop 36 = e.payload := by
    rw [hbytes, ← List.append_assoc]
    apply List.drop_left'
    rw [List.length_append, length_header, length_beBytes]
  have hlong : (slice bytes 12 28).length = 16 := by
    rw [hid]
    exact e.request_id.property
  unfold WireEnvelope.decode
  rw [if_neg (by omega), if_neg (by omega), if_neg (not_not.mpr hmagic)]
  simp only [hpayload, hsum, hfront, hrest, hkind, FrameKind.try_from_code, hmajor, hminor, hflags,
    hlong, dif_pos]
  rw [if_neg (by omega), if_neg (by omega), if_neg (by omega), if_neg (by simp)]
  simp only [hid]

theorem frame_of_encode : read_frame crc32c bytes = .ok (some (e, [])) := by
  obtain ⟨hheader, hdecode⟩ := decode_encode h
  have := read_frame_of_frame hheader hdecode []
  rwa [List.append_nil] at this

end

/-! ## Delivery -/

/-- The chunks were received without an error as these envelopes, and nothing is left. -/
def Delivered (crc32c : List UInt8 → UInt32) (envelopes : List WireEnvelope)
    (chunks : List (List UInt8)) : Prop :=
  receive crc32c chunks = ⟨envelopes, none, FrameDecoder.new⟩

/-- The decoder refuses these bytes, whatever follows them. -/
def Refused (crc32c : List UInt8 → UInt32) (bytes : List UInt8) : Prop :=
  ENVELOPE_HEADER_BYTES ≤ bytes.length ∧
    (slice bytes 0 4 ≠ FRAME_MAGIC ∨ MAX_PAYLOAD_BYTES < beNat (slice bytes 28 32) ∨
      (ENVELOPE_HEADER_BYTES + beNat (slice bytes 28 32) ≤ bytes.length ∧
        ∃ e, WireEnvelope.decode crc32c
          (bytes.take (ENVELOPE_HEADER_BYTES + beNat (slice bytes 28 32))) = .error e))

/-- Whole frames one after the other, the last one of them `frame`, and then `rest`. -/
structure EndsFrame (crc32c : List UInt8 → UInt32) (stream frame rest : List UInt8) : Prop where
  frames : ∃ frames : List (List UInt8), stream = frames.flatten ++ frame ++ rest ∧
    ∀ f ∈ frames, ∃ e, WireEnvelope.decode crc32c f = .ok e
  frame : ∃ e, WireEnvelope.decode crc32c frame = .ok e

/-- A frame within a chunk of the limit is followed by so much that both are over the limit. -/
def LargeFrameThenMore (crc32c : List UInt8 → UInt32) (stream : List UInt8) : Prop :=
  ∃ frame rest, EndsFrame crc32c stream frame rest ∧
    MAX_FRAME_BYTES + 1 < frame.length + READ_CHUNK_BYTES ∧
    MAX_FRAME_BYTES < frame.length + rest.length

/-- A frame and the bytes after it that are refused can come in one chunk. -/
def FrameThenRefused (crc32c : List UInt8 → UInt32) (stream : List UInt8) : Prop :=
  ∃ frame bad rest, EndsFrame crc32c stream frame (bad ++ rest) ∧ Refused crc32c bad ∧
    bad.length + 1 ≤ READ_CHUNK_BYTES

theorem header_of_decode (h : WireEnvelope.decode crc32c f = .ok e) : HasHeader f f.length := by
  unfold WireEnvelope.decode at h
  split at h
  · cases h
  · rename_i hlong
    split at h
    · cases h
    · split at h
      · cases h
      · rename_i hmagic
        simp only at h
        split at h
        · cases h
        · rename_i hsmall
          split at h
          · cases h
          · split at h
            · cases h
            · rename_i hlen
              exact ⟨not_lt.mp hlong, not_not.mp hmagic, not_lt.mp hsmall, not_not.mp hlen⟩

theorem isFrame_iff (f : List UInt8) :
    IsFrame (read_frame crc32c) f ↔ ∃ e, WireEnvelope.decode crc32c f = .ok e := by
  constructor
  · rintro ⟨e, he⟩
    obtain ⟨g, -, hg, hdecode⟩ := read_frame_message he
    rw [List.append_nil] at hg
    exact ⟨e, hg ▸ hdecode⟩
  · rintro ⟨e, he⟩
    refine ⟨e, ?_⟩
    have := read_frame_of_frame (header_of_decode he) he []
    rwa [List.append_nil] at this

theorem refused_iff (bytes : List UInt8) :
    (∃ e, read_frame crc32c bytes = .error e) ↔ Refused crc32c bytes := by
  unfold Refused
  rcases Nat.lt_or_ge bytes.length ENVELOPE_HEADER_BYTES with hshort | hlong
  · have hwait : read_frame crc32c bytes = .ok none := by
      unfold read_frame FrameDecoder.turn
      rw [if_pos hshort]
    rw [hwait]
    constructor
    · rintro ⟨e, he⟩
      cases he
    · rintro ⟨hlong, -⟩
      exact absurd hlong (not_le.mpr hshort)
  · by_cases hmagic : slice bytes 0 4 = FRAME_MAGIC
    · by_cases hsmall : beNat (slice bytes 28 32) ≤ MAX_PAYLOAD_BYTES
      · rw [read_frame_header ⟨hlong, hmagic, hsmall, rfl⟩]
        simp [hlong, hmagic, not_lt.mpr hsmall]
        constructor
        · rintro ⟨e, he⟩
          split at he
          · cases he
          · rename_i hlen
            refine ⟨not_lt.mp hlen, e, ?_⟩
            split at he <;> cases he
            assumption
        · rintro ⟨hlen, e, he⟩
          refine ⟨e, ?_⟩
          rw [if_neg (not_lt.mpr hlen), he]
      · refine ⟨fun _ => ⟨hlong, .inr (.inl (not_le.mp hsmall))⟩, fun _ => ⟨.FrameTooLarge, ?_⟩⟩
        unfold read_frame FrameDecoder.turn
        simp [not_lt.mpr hlong, hmagic, not_le.mp hsmall]
    · refine ⟨fun _ => ⟨hlong, .inl hmagic⟩, fun _ => ⟨.InvalidMagic, ?_⟩⟩
      unfold read_frame FrameDecoder.turn
      simp [not_lt.mpr hlong, hmagic]

theorem overrun_iff : Overrun (read_frame crc32c) MAX_FRAME_BYTES READ_CHUNK_BYTES stream ↔
      LargeFrameThenMore crc32c stream := by
  unfold Overrun LargeFrameThenMore
  simp only [isFrame_iff]
  constructor
  · rintro ⟨frames, f, rest, hstream, hframes, hf, hclose, hlong⟩
    exact ⟨f, rest, ⟨⟨frames, hstream, hframes⟩, hf⟩, hclose, hlong⟩
  · rintro ⟨f, rest, ⟨⟨frames, hstream, hframes⟩, hf⟩, hclose, hlong⟩
    exact ⟨frames, f, rest, hstream, hframes, hf, hclose, hlong⟩

theorem spoilt_iff :
    Spoilt (read_frame crc32c) READ_CHUNK_BYTES stream ↔ FrameThenRefused crc32c stream := by
  unfold Spoilt FrameThenRefused
  simp only [isFrame_iff, refused_iff]
  constructor
  · rintro ⟨frames, f, bad, rest, hstream, hframes, hf, hbad, hsmall⟩
    rw [List.append_assoc _ bad] at hstream
    exact ⟨f, bad, rest, ⟨⟨frames, hstream, hframes⟩, hf⟩, hbad, hsmall⟩
  · rintro ⟨f, bad, rest, ⟨⟨frames, hstream, hframes⟩, hf⟩, hbad, hsmall⟩
    rw [← List.append_assoc _ bad] at hstream
    exact ⟨frames, f, bad, rest, hstream, hframes, hf, hbad, hsmall⟩

theorem read_frames {frames : List (List UInt8)}
    (h : envelopes.mapM (WireEnvelope.encode crc32c) = .ok frames) :
    (∀ f ∈ frames, IsFrame (read_frame crc32c) f) ∧
      drain (read_frame crc32c) frames.flatten = (envelopes, .ok []) := by
  induction envelopes generalizing frames with
  | nil =>
    cases h
    exact ⟨by simp, drain_waits (framed_read_frame crc32c).toIncremental rfl⟩
  | cons e envelopes ih =>
    rw [List.mapM_cons] at h
    cases hf : e.encode crc32c with
    | error err =>
      rw [hf] at h
      cases h
    | ok f =>
      cases hrest : envelopes.mapM (WireEnvelope.encode crc32c) with
      | error err =>
        rw [hf, hrest] at h
        cases h
      | ok rest =>
        rw [hf, hrest] at h
        cases h
        obtain ⟨hall, hdrain⟩ := ih hrest
        have hread := frame_of_encode hf
        refine ⟨?_, ?_⟩
        · intro g hg
          rcases List.mem_cons.mp hg with rfl | hg
          · exact ⟨e, hread⟩
          · exact hall g hg
        · rw [List.flatten_cons, drain_step (framed_read_frame crc32c).toIncremental,
            (framed_read_frame crc32c).more_message hread]
          simp [hdrain]

theorem delivered_iff_hearing (envelopes : List WireEnvelope) (chunks : List (List UInt8)) :
    Delivered crc32c envelopes chunks ↔
      hearAll (read_frame crc32c) MAX_FRAME_BYTES chunks = (envelopes, some []) := by
  rw [← hearing_receive]
  unfold Delivered Received.hearing FrameDecoder.new
  rcases receive crc32c chunks with ⟨got, _ | e, ⟨buffer⟩⟩ <;> simp

theorem delivered_iff_roomy {frames chunks : List (List UInt8)}
    (h : envelopes.mapM (WireEnvelope.encode crc32c) = .ok frames)
    (hcut : chunks.flatten = frames.flatten) :
    Delivered crc32c envelopes chunks ↔ Roomy MAX_FRAME_BYTES frames chunks := by
  obtain ⟨hframes, hdrain⟩ := read_frames h
  rw [delivered_iff_hearing, ← delivered_iff (framed_read_frame crc32c) hframes hcut, hdrain]

theorem receive_envelopes : (receive crc32c chunks).envelopes =
    (hearAll (read_frame crc32c) MAX_FRAME_BYTES chunks).1 := by
  rw [← hearing_receive]
  rfl

/-- The chunks of a stream do not matter exactly when no large frame is followed by too much and no
frame by bytes that are refused at once. -/
theorem cuts_are_received_alike_iff :
    (∀ chunks others, Cut READ_CHUNK_BYTES stream chunks → Cut READ_CHUNK_BYTES stream others →
      (receive crc32c chunks).envelopes = (receive crc32c others).envelopes) ↔
    ¬ LargeFrameThenMore crc32c stream ∧ ¬ FrameThenRefused crc32c stream := by
  simp only [receive_envelopes, ← overrun_iff, ← spoilt_iff]
  exact cuts_agree_iff (framed_read_frame crc32c) read_frame_room (by decide) stream

end

/-- When the framing delivers every envelope, and when the chunks do not matter. -/
theorem framing_delivers_every_envelope_iff (crc32c : List UInt8 → UInt32) :
    (∀ (envelopes : List WireEnvelope) (frames chunks : List (List UInt8)),
      envelopes.mapM (WireEnvelope.encode crc32c) = .ok frames →
      Cut READ_CHUNK_BYTES frames.flatten chunks →
      (Delivered crc32c envelopes chunks ↔ Roomy MAX_FRAME_BYTES frames chunks)) ∧
    ∀ stream : List UInt8, ((∀ chunks others, Cut READ_CHUNK_BYTES stream chunks →
          Cut READ_CHUNK_BYTES stream others →
          (receive crc32c chunks).envelopes = (receive crc32c others).envelopes) ↔
        ¬ LargeFrameThenMore crc32c stream ∧ ¬ FrameThenRefused crc32c stream) :=
  ⟨fun _ _ _ h hcut => delivered_iff_roomy h hcut.whole, cuts_are_received_alike_iff⟩

/-- An event without a payload. -/
def ready : WireEnvelope := ⟨1, 0, .ReadyEvent, 0, ⟨List.replicate 16 7, rfl⟩, []⟩

def letters : WireEnvelope := ⟨1, 0, .OutputEvent, 0, ⟨List.replicate 16 7, rfl⟩, [0x61, 0x62]⟩

/-- The second chunk has the end of the one and the beginning of the other. -/
theorem two_events_in_three_chunks_are_delivered : ∃ first second,
      [ready, letters].mapM (WireEnvelope.encode castagnoli) = .ok [first, second] ∧
      Delivered castagnoli [ready, letters]
        [first.take 20, first.drop 20 ++ second.take 10, second.drop 10] := by
  refine ⟨_, _, rfl, ?_⟩
  refine ((framing_delivers_every_envelope_iff castagnoli).1 [ready, letters]
    [_, _] _ rfl ⟨?_, ?_⟩).mpr ?_
  · decide +kernel
  · decide +kernel
  · apply roomy_of_short
    decide +kernel

/-- A snapshot as large as a frame allows. -/
def fullSnapshot : WireEnvelope :=
  ⟨1, 0, .ViewportSnapshotEvent, 0, ⟨List.replicate 16 7, rfl⟩, List.replicate MAX_PAYLOAD_BYTES 0⟩

theorem fullSnapshot_encodes :
    ∃ frame, fullSnapshot.encode castagnoli = .ok frame ∧ frame.length = MAX_FRAME_BYTES := by
  have hpayload : fullSnapshot.payload.length = MAX_PAYLOAD_BYTES := List.length_replicate
  cases h : fullSnapshot.encode castagnoli with
  | error e =>
    unfold WireEnvelope.encode at h
    rw [if_neg (by omega)] at h
    cases h
  | ok frame =>
    refine ⟨frame, rfl, ?_⟩
    rw [length_encode h, hpayload]
    decide

/-- The last byte of the snapshot comes with the next frame: the decoder fails and both are lost. -/
theorem a_frame_that_follows_a_full_one_fails :
    ¬ ((∀ (envelopes : List WireEnvelope) (frames chunks : List (List UInt8)),
        envelopes.mapM (WireEnvelope.encode castagnoli) = .ok frames →
        Cut READ_CHUNK_BYTES frames.flatten chunks → Delivered castagnoli envelopes chunks) ∧
      ∀ (stream : List UInt8) (chunks others : List (List UInt8)),
        Cut READ_CHUNK_BYTES stream chunks → Cut READ_CHUNK_BYTES stream others →
        (receive castagnoli chunks).envelopes = (receive castagnoli others).envelopes) := by
  rintro ⟨hdelivered, -⟩
  obtain ⟨frame, hframe, hlen⟩ := fullSnapshot_encodes
  obtain ⟨front, last, rfl⟩ := exists_last (f := frame) (by
    rintro rfl
    exact absurd hlen (by decide))
  obtain ⟨next, hnext⟩ : ∃ next, ready.encode castagnoli = .ok next := ⟨_, rfl⟩
  have hnextLen : next.length = 36 := length_encode hnext
  have hboth : [fullSnapshot, ready].mapM (WireEnvelope.encode castagnoli) =
      .ok [front ++ [last], next] := by
    rw [List.mapM_cons, hframe, List.mapM_cons, hnext]
    rfl
  rw [List.length_append, List.length_singleton] at hlen
  have hcut : Cut READ_CHUNK_BYTES [front ++ [last], next].flatten
      (aroundChunk front (last :: next) []) := by
    have hchunk : (last :: next).length ≤ READ_CHUNK_BYTES := by
      rw [List.length_cons, hnextLen]
      decide
    have := cut_around (by decide) front [] hchunk
    simpa using this
  have hroomy := (delivered_iff_roomy hboth hcut.whole).mp (hdelivered _ _ _ hboth hcut)
  have hfull := hroomy [] (front ++ [last]) [next] (front.map fun x => [x]) (last :: next) [] rfl rfl
    (by simp) (by rw [flatten_bytes]; simp)
  rw [flatten_bytes, List.length_cons, hnextLen] at hfull
  simp only [List.flatten_nil, List.length_nil, Nat.zero_add] at hfull
  omega

end multiplex_host_protocol
