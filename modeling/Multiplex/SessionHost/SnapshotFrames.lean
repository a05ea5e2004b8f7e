-- A snapshot on its way to a client: the bytes of its message, and whether they
-- fit into one frame of the wire. The stored snapshots and the replay have limits
-- of their own, which are eight times as large.
import Multiplex.Lib.Varints
import Multiplex.SessionHost.Codec
import Multiplex.SessionHost.Reconnects

open Varints multiplex_store.journal multiplex_client
open multiplex_session_host (viewport_len_le)

namespace multiplex_host_protocol

/-! ## The bytes of a snapshot message -/

def Viewport.encode (v : Viewport) : List UInt8 :=
  uintField 1 v.columns.toNat ++ uintField 2 v.rows.toNat

def ViewportSnapshotEvent.encode (e : ViewportSnapshotEvent) : List UInt8 :=
  bytesField 1 e.session_id ++ (uintField 2 e.boundary_sequence ++
    (messageField 3 e.viewport.encode ++ bytesField 4 e.terminal_bytes))

def ViewportSnapshotEvent.encode_payload (e : ViewportSnapshotEvent) : List UInt8 :=
  messageField 8 e.encode

theorem or_one_cases (n : Nat) : n ||| 1 = n ∨ n ||| 1 = n + 1 ∧ n % 2 = 0 := by
  have hdiv : (n ||| 1) / 2 = n / 2 := by
    rw [Nat.or_div_two]
    simp
  have hmod : (n ||| 1) % 2 = 1 := by
    simp
  omega

theorem length_varint {n : Nat} (h : n < 2 ^ 64) : (varint n).length = varint_len n := by
  have hpos : n ||| 1 ≠ 0 := by
    have hone : 1 ≤ n ||| 1 := Nat.right_le_or
    omega
  have hlow := Nat.log2_self_le hpos
  have hhigh := Nat.lt_log2_self (n := n ||| 1)
  have hlt : n ||| 1 < 2 ^ 64 := Nat.or_lt_two_pow h (by decide)
  have hlog : (n ||| 1).log2 < 64 := (Nat.log2_lt hpos).mpr hlt
  unfold varint_len
  generalize (n ||| 1).log2 = k at hlow hhigh hlog
  have hgroups : (k * 9 + 73) / 64 = k / 7 + 1 := by
    interval_cases k <;> rfl
  have hseven : ∀ m, 128 ^ m = 2 ^ (7 * m) := fun m => by
    rw [Nat.pow_mul]
  rw [hgroups]
  refine Nat.le_antisymm (length_varint_le ?_) ?_
  · have hle : n ≤ n ||| 1 := Nat.left_le_or
    have hnext : 2 ^ (k + 1) ≤ 128 ^ (k / 7 + 1) := by
      rw [hseven]
      exact Nat.pow_le_pow_right (by decide) (by omega)
    omega
  · cases hq : k / 7 with
    | zero => exact length_varint_pos n
    | succ q =>
      apply lt_length_varint
      have hpow : 128 ^ (q + 1) ≤ 2 ^ k := by
        rw [hseven]
        exact Nat.pow_le_pow_right (by decide) (by omega)
      -- a power of 128 is even, and so the lowest bit does not matter
      rcases or_one_cases n with hsame | ⟨hsame, heven⟩ <;> omega

variable {field : Nat} {bytes : List UInt8}

theorem length_uintField {n : Nat} (hfield : field < 16) (h : n < 2 ^ 64) :
    (uintField field n).length = uint_len n := by
  unfold uintField uint_len
  split
  · rfl
  · rw [List.length_append, length_tag hfield (by decide), length_varint h]

theorem length_messageField (hfield : field < 16) (h : bytes.length < 2 ^ 64) :
    (messageField field bytes).length = message_len 1 bytes.length := by
  unfold messageField message_len
  rw [List.length_append, List.length_append, length_tag hfield (by decide), length_varint h,
    Nat.add_assoc]

theorem length_bytesField (hfield : field < 16) (h : bytes.length < 2 ^ 64) :
    (bytesField field bytes).length = bytes_len bytes := by
  unfold bytesField bytes_len
  split
  · rfl
  · exact length_messageField hfield h

theorem length_viewport (v : Viewport) : v.encode.length = v.encoded_len := by
  have hcolumns := v.columns.toNat_lt
  have hrows := v.rows.toNat_lt
  unfold Viewport.encode Viewport.encoded_len
  rw [List.length_append, length_uintField (by decide) (by omega),
    length_uintField (by decide) (by omega)]

theorem length_encode_payload {e : ViewportSnapshotEvent} (hsession : e.session_id.length = 16)
    (hboundary : e.boundary_sequence ≤ U64_MAX) (hbytes : e.terminal_bytes.length < 2 ^ 63) :
    e.encode_payload.length = (Message.ViewportSnapshotEvent e).encoded_len := by
  unfold U64_MAX at hboundary
  have hviewport := viewport_len_le e.viewport
  have hinner : e.encode.length = e.encoded_len := by
    unfold ViewportSnapshotEvent.encode ViewportSnapshotEvent.encoded_len
    have hview : e.viewport.encoded_len < 2 ^ 64 := by
      unfold message_len at hviewport
      omega
    rw [List.length_append, List.length_append, List.length_append,
      length_bytesField (by decide) (by omega), length_uintField (by decide) (by omega),
      length_messageField (by decide) (by rw [length_viewport]; exact hview), length_viewport,
      length_bytesField (by decide) (by omega)]
    omega
  have hsize : e.encoded_len < 2 ^ 64 := by
    have hid := bytes_len_le e.session_id (by omega)
    have hnumber := uint_len_le (n := e.boundary_sequence) (by omega)
    have hall := bytes_len_le e.terminal_bytes (by omega)
    unfold ViewportSnapshotEvent.encoded_len
    omega
  unfold ViewportSnapshotEvent.encode_payload Message.encoded_len
  rw [length_messageField (by decide) (by rw [hinner]; exact hsize), hinner]

end multiplex_host_protocol

namespace multiplex_session_host

open multiplex_host_protocol

/-! ## One frame of the wire -/

/-- What `send_message` writes for the snapshot of an attach. -/
def snapshotEnvelope (protocol_major protocol_minor : UInt16)
    (request_id : { bytes : List UInt8 // bytes.length = 16 }) (session_id : List UInt8)
    (s : TerminalSnapshot) : WireEnvelope where
  protocol_major := protocol_major
  protocol_minor := protocol_minor
  kind := .ViewportSnapshotEvent
  flags := 0
  request_id := request_id
  payload := (⟨session_id, s.boundary, ⟨s.columns, s.rows⟩, s.terminal_bytes⟩ :
    ViewportSnapshotEvent).encode_payload

/-- The bytes of the screen that a frame has room for, less the numbers that go with them. -/
def SNAPSHOT_FRAME_BYTES : Nat := 1048512

/-- The screen and its numbers have room in one frame. -/
def WithinFrame (s : TerminalSnapshot) : Prop :=
  s.terminal_bytes.length + uint_len s.boundary + uint_len s.columns.toNat +
    uint_len s.rows.toNat ≤ SNAPSHOT_FRAME_BYTES

instance (s : TerminalSnapshot) : Decidable (WithinFrame s) :=
  inferInstanceAs (Decidable (_ ≤ _))

theorem varint_len_eq {k n : Nat} (hlow : 128 ^ k ≤ n) (hhigh : n < 128 ^ (k + 1))
    (h : n < 2 ^ 64) : varint_len n = k + 1 := by
  rw [← length_varint h]
  exact Nat.le_antisymm (length_varint_le hhigh) (lt_length_varint hlow)

theorem varint_len_small {n : Nat} (h : n < 128) : varint_len n = 1 := by
  rw [← length_varint (by omega)]
  exact Nat.le_antisymm (length_varint_le (by simpa using h)) (length_varint_pos n)

variable {session_id : List UInt8} {s : TerminalSnapshot}

theorem snapshotFits_iff (hid : session_id.length = 16) (hboundary : s.boundary ≤ U64_MAX) :
    SnapshotFits session_id s ↔ WithinFrame s := by
  unfold U64_MAX at hboundary
  have hcolumns := s.columns.toNat_lt
  have hrows := s.rows.toNat_lt
  have hb := uint_len_le (n := s.boundary) (by omega)
  have hc := uint_len_le (n := s.columns.toNat) (by omega)
  have hr := uint_len_le (n := s.rows.toNat) (by omega)
  have hsession : bytes_len session_id = 18 := by
    have hne : session_id ≠ [] := by
      rintro rfl
      cases hid
    unfold bytes_len
    rw [if_neg hne, hid]
    rfl
  have hview : varint_len (⟨s.columns, s.rows⟩ : Viewport).encoded_len = 1 := by
    apply varint_len_small
    unfold Viewport.encoded_len
    simp only
    omega
  have hbytes := bytes_len_le s.terminal_bytes
  have hle := le_bytes_len s.terminal_bytes
  have hexact : 16384 ≤ s.terminal_bytes.length → s.terminal_bytes.length ≤ 1048576 →
      bytes_len s.terminal_bytes = s.terminal_bytes.length + 4 := by
    intro hlow hhigh
    have hne : s.terminal_bytes ≠ [] := by
      intro hnil
      rw [hnil] at hlow
      exact absurd hlow (by decide)
    unfold bytes_len
    rw [if_neg hne, varint_len_eq (k := 2) (by omega) (by omega) (by omega)]
    omega
  unfold SnapshotFits snapshotMessage Message.encoded_len ViewportSnapshotEvent.encoded_len
    WithinFrame SNAPSHOT_FRAME_BYTES MAX_PAYLOAD_BYTES MAX_FRAME_BYTES ENVELOPE_HEADER_BYTES
  simp only
  rw [hsession]
  unfold message_len
  rw [hview]
  unfold Viewport.encoded_len
  generalize uint_len s.boundary = b at *
  generalize uint_len s.columns.toNat = c at *
  generalize uint_len s.rows.toNat = r at *
  generalize bytes_len s.terminal_bytes = n at *
  have hsmall (m : Nat) (hm : m < 2 ^ 64) := varint_len_le hm
  have hthree (m : Nat) (hlow : 16384 ≤ m) (hhigh : m < 2097152) : varint_len m = 3 :=
    varint_len_eq (k := 2) hlow hhigh (by omega)
  by_cases hshort : s.terminal_bytes.length < 16384
  · have := hsmall (18 + b + (1 + 1 + (c + r)) + n) (by omega)
    omega
  by_cases hlong : s.terminal_bytes.length ≤ 1048576
  · have := hthree (18 + b + (1 + 1 + (c + r)) + n) (by omega) (by omega)
    omega
  · omega

theorem snapshot_encodes_iff (crc32c : List UInt8 → UInt32) (protocol_major protocol_minor : UInt16)
    (request_id : { bytes : List UInt8 // bytes.length = 16 }) (hid : session_id.length = 16)
    (hboundary : s.boundary ≤ U64_MAX) (hbytes : s.terminal_bytes.length ≤ MAX_REPLAY_BYTES) :
    (∃ frame, (snapshotEnvelope protocol_major protocol_minor request_id session_id s).encode
      crc32c = .ok frame) ↔ WithinFrame s := by
  have hlength := length_encode_payload
    (e := ⟨session_id, s.boundary, ⟨s.columns, s.rows⟩, s.terminal_bytes⟩) hid hboundary
    (hbytes.trans_lt (by decide))
  rw [← snapshotFits_iff hid hboundary]
  unfold SnapshotFits snapshotMessage
  rw [← hlength]
  unfold WireEnvelope.encode snapshotEnvelope
  constructor
  · rintro ⟨frame, h⟩
    by_contra hlarge
    rw [if_pos (not_le.mp hlarge)] at h
    cases h
  · intro hle
    exact ⟨_, if_neg (not_lt.mpr hle)⟩

/-! ## One attach after another -/

section
variable {σ : Type} {vt : Vt100 σ} {crc32c : List UInt8 → UInt32} {windows : Bool}
  {client : HostClient} {limits : JournalLimits} {first : σ}

variable (vt windows first) in
/-- The snapshot that an attach has to send has room in one frame: the screen when the replay is
too long, and the stored one when the client is behind it. -/
def NeededWithinFrame (w : World σ) : Prop :=
  (ReplayExceeds windows w.outputs (max w.position w.host.journal.base_sequence) →
    WithinFrame (snapshotAfter vt first w.outputs w.outputs.length)) ∧
  (¬ ReplayExceeds windows w.outputs (max w.position w.host.journal.base_sequence) →
    w.position < w.host.journal.base_sequence →
    WithinFrame (snapshotAfter vt first w.outputs w.host.journal.base_sequence))

variable {w : World σ} {outputs : List Output}

theorem attachFits_iff (h : Going vt crc32c windows client limits first w) :
    AttachFits vt windows first w.host w.outputs w.position ↔ NeededWithinFrame vt windows first w := by
  obtain ⟨l, hrecording⟩ := h.recording
  have hlt := hrecording.lt
  have hbase := hrecording.alive.base_le
  rw [length_framesOf] at hbase
  unfold AttachFits NeededWithinFrame
  rw [snapshotFits_iff h.session_size (s := snapshotAfter vt first w.outputs w.outputs.length) hlt.le,
    snapshotFits_iff h.session_size
      (s := snapshotAfter vt first w.outputs w.host.journal.base_sequence) (hbase.trans hlt.le)]

theorem served_iff (hlimit : MAX_OUTPUT_BYTES ≤ client.maximum_output_bytes)
    (h : Going vt crc32c windows client limits first w) (has_writer : Bool) :
    (w.served vt crc32c windows [] has_writer).result = .ok () ↔
      AttachFits vt windows first w.host w.outputs w.position := by
  obtain ⟨l, hrecording⟩ := h.recording
  rcases attach_cases hrecording hrecording (h.pair hlimit []) h.sizes has_writer h.position with
    ⟨hfits, hok, -⟩ | ⟨hnot, hfailed, -⟩
  · exact ⟨fun _ => hfits, fun _ => hok⟩
  · refine ⟨fun hok => ?_, fun hfits => absurd hfits hnot⟩
    exact absurd (hfailed.symm.trans hok) (by simp)

theorem last_sequenced {k p : Nat} (hk : k ≤ outputs.length)
    (hp : k = outputs.length → p = outputs.length) :
    (match ((sequenced windows outputs).drop k).getLast? with
      | some o => o.sequence
      | none => p) = outputs.length := by
  have hlength : (sequenced windows outputs).length = outputs.length := List.length_mapIdx
  rw [List.getLast?_drop, hlength]
  split
  · rename_i o ho
    split at ho
    · cases ho
    · rw [List.getLast?_eq_getElem?, hlength, sequenced, List.getElem?_mapIdx] at ho
      obtain ⟨x, -, rfl⟩ := Option.map_eq_some_iff.mp ho
      exact Nat.sub_add_cancel (by omega)
  · rename_i hnone
    split at hnone
    · exact hp (by omega)
    · rw [List.getLast?_eq_none_iff, ← List.length_eq_zero_iff] at hnone
      omega

theorem positionAfter_eq {p : Nat} (hp : p ≤ outputs.length) {attached : Attached}
    (h : Continues vt windows first outputs p attached) :
    positionAfter attached p = outputs.length := by
  unfold Continues at h
  unfold positionAfter
  cases hsnapshot : attached.last_snapshot with
  | none =>
    rw [hsnapshot] at h
    rw [h]
    exact last_sequenced hp id
  | some s =>
    rw [hsnapshot] at h
    obtain ⟨-, hle, -, -, houtputs⟩ := h
    rw [houtputs]
    exact last_sequenced hle id

theorem attachFits_last {host : RuntimeState σ} {l : Layout}
    (h : Recording vt crc32c windows limits first host outputs l) :
    AttachFits vt windows first host outputs outputs.length := by
  have hbase := h.alive.base_le
  rw [length_framesOf] at hbase
  have hwithin : ¬ ReplayExceeds windows outputs (max outputs.length host.journal.base_sequence) := by
    rw [max_eq_left hbase]
    unfold ReplayExceeds
    rw [List.drop_eq_nil_of_le (length_framesOf windows outputs).le, List.drop_length]
    decide
  exact ⟨fun hexceeds => absurd hexceeds hwithin, fun _ hlt => absurd hbase (not_le.mpr hlt)⟩

section
variable (hlimit : MAX_OUTPUT_BYTES ≤ client.maximum_output_bytes)
include hlimit

theorem going_retry (h : Going vt crc32c windows client limits first w)
    (hpaused : w.host.recording_paused = false) (hsix : w.host.journal.active_index ≤ 999999)
    (has_writer : Bool) :
    Going vt crc32c windows client limits first
      (w.step vt crc32c windows client (.attach [] has_writer)) :=
  going_step hlimit h (by simp [Event.outputs]) hpaused hsix

/-- An attach leads to one that fails if and only if it failed itself. -/
theorem attachFits_step (h : Going vt crc32c windows client limits first w) (has_writer : Bool) :
    let later := w.step vt crc32c windows client (.attach [] has_writer)
    AttachFits vt windows first later.host later.outputs later.position ↔
      AttachFits vt windows first w.host w.outputs w.position := by
  obtain ⟨l, hrecording⟩ := h.recording
  have houtputs : w.outputs ++ [] = w.outputs := List.append_nil _
  have hnone : w.host.process_all vt crc32c windows [] = w.host := rfl
  unfold World.step World.served
  simp only [Event.outputs, houtputs, hnone]
  rcases attach_cases hrecording hrecording (h.pair hlimit []) h.sizes has_writer h.position with
    ⟨hfits, -, attached, hattached, hcontinues⟩ | ⟨hnot, -, hfailed⟩
  · have hposition := positionAfter_eq h.position hcontinues
    rw [hattached]
    simp only
    rw [hposition]
    exact ⟨fun _ => hfits, fun _ => attachFits_last hrecording⟩
  · rw [hfailed]

theorem attachFits_retries (has_writer : Bool) (n : Nat) : ∀ {w : World σ},
    Going vt crc32c windows client limits first w → w.host.recording_paused = false →
    w.host.journal.active_index ≤ 999999 →
    let later := w.run vt crc32c windows client (List.replicate n (.attach [] has_writer))
    Going vt crc32c windows client limits first later ∧
      (AttachFits vt windows first later.host later.outputs later.position ↔
        AttachFits vt windows first w.host w.outputs w.position) := by
  induction n with
  | zero => exact fun h _ _ => ⟨h, Iff.rfl⟩
  | succ n ih =>
    intro w h hpaused hsix
    obtain ⟨hgoing, hlater⟩ := ih (going_retry hlimit h hpaused hsix has_writer) hpaused hsix
    exact ⟨hgoing, hlater.trans (attachFits_step hlimit h has_writer)⟩

end

/-- The message of a snapshot is encoded if and only if the screen has room in one frame, which is
an eighth of what may be stored and replayed. An attach that has to send a screen without room fails,
and so does every attach after it. -/
theorem snapshot_is_sent_iff_within_frame {session_id host_instance_id : List UInt8}
    (hsession : session_id.length = 16) (hinstance : host_instance_id.length = 16) :
    (∀ (protocol_major protocol_minor : UInt16)
        (request_id : { bytes : List UInt8 // bytes.length = 16 }) (s : TerminalSnapshot),
      s.boundary ≤ U64_MAX →
      (∃ bytes, encode_snapshot crc32c s = .ok bytes) ∨ s.terminal_bytes.length ≤ MAX_REPLAY_BYTES →
      ((∃ frame, (snapshotEnvelope protocol_major protocol_minor request_id session_id s).encode
        crc32c = .ok frame) ↔ WithinFrame s)) ∧
    (∀ {host : RuntimeState σ} {events : List Event} {w : World σ}, limits.validate = .ok limits →
      launch crc32c limits session_id host_instance_id Disk.empty first = .ok host →
      client.session_id = session_id → MAX_OUTPUT_BYTES ≤ client.maximum_output_bytes →
      World.run vt crc32c windows client ⟨host, [], 0⟩ events = w →
      (∀ o ∈ events.flatMap Event.outputs, o.bytes.length ≤ MAX_OUTPUT_BYTES) →
      w.host.recording_paused = false → w.host.journal.active_index ≤ 999999 →
      ∀ (has_writer : Bool) (n : Nat),
        (((w.run vt crc32c windows client (List.replicate n (.attach [] has_writer))).served vt crc32c
          windows [] has_writer).result = .ok () ↔ NeededWithinFrame vt windows first w)) := by
  constructor
  · intro protocol_major protocol_minor request_id s hboundary haccepted
    apply snapshot_encodes_iff crc32c protocol_major protocol_minor request_id hsession hboundary
    rcases haccepted with ⟨bytes, hencode⟩ | hle
    · exact (fits_of_encode_snapshot crc32c hencode hboundary).1.size
    · exact hle
  · intro host events w hvalid hlaunch hclient hlimit hrun hsizes hpaused hsix has_writer n
    obtain ⟨hstart, -, -, hid, hhost⟩ :=
      recording_launch vt windows hvalid session_id host_instance_id hlaunch
    have hnew : Going vt crc32c windows client limits first ⟨host, [], 0⟩ :=
      ⟨⟨_, hstart⟩, by simp, le_rfl, hclient.trans hid.symm, by rw [hid]; exact hsession,
        by rw [hhost]; exact hinstance⟩
    have hgoing : Going vt crc32c windows client limits first w := by
      rw [← hrun] at hpaused hsix ⊢
      exact going_run hlimit hnew hsizes hpaused hsix
    obtain ⟨hlater, hsame⟩ := attachFits_retries hlimit has_writer n hgoing hpaused hsix
    rw [served_iff hlimit hlater, hsame, attachFits_iff hgoing]

end

/-! ## A small screen and a large one -/

/-- A Host that shows some letters, and a client that attaches again and again. -/
theorem letters_served {n : Nat} (hpos : n ≠ 0) (hshort : n * MAX_OUTPUT_FRAME_BYTES < 67108864) :
    ∃ host final, launch castagnoli .default (List.replicate 16 1) (List.replicate 16 2)
        Disk.empty [] = .ok host ∧
      World.run lettersOnly castagnoli false lettersClient ⟨host, [], 0⟩
        ((List.replicate n lettersOutput).map Event.output) =
          ⟨final, List.replicate n lettersOutput, 0⟩ ∧
      final.recording_paused = false ∧ final.journal.active_index ≤ 999999 ∧
      final.journal.base_sequence = 0 ∧ Going lettersOnly castagnoli false lettersClient .default []
        ⟨final, List.replicate n lettersOutput, 0⟩ := by
  obtain ⟨host, final, hlaunch, hrun, hrecording, hpaused, hsession, hinstance⟩ := letters_run hshort
  have hactive : final.journal.active_index = 1 := hrecording.alive.mirrors.index
  refine ⟨host, final, hlaunch, hrun, hpaused, hactive.le.trans (by decide),
    base_letters hpos hrecording, ⟨_, hrecording⟩, letters_le, Nat.zero_le _, hsession.symm, ?_, ?_⟩
  · rw [hsession]
    rfl
  · rw [hinstance]
    rfl

theorem small_screen_is_sent :
    (∃ frame, (snapshotEnvelope 1 0 ⟨List.replicate 16 3, by decide⟩ (List.replicate 16 1)
      ⟨1, 80, 24, [0x24]⟩).encode castagnoli = .ok frame) ∧
    ∃ host final, launch castagnoli .default (List.replicate 16 1) (List.replicate 16 2)
        Disk.empty [] = .ok host ∧
      World.run lettersOnly castagnoli false lettersClient ⟨host, [], 0⟩
        ((List.replicate 1 lettersOutput).map Event.output) =
          ⟨final, List.replicate 1 lettersOutput, 0⟩ ∧
      ∀ n, ((World.run lettersOnly castagnoli false lettersClient
        ⟨final, List.replicate 1 lettersOutput, 0⟩ (List.replicate n (.attach [] true))).served
          lettersOnly castagnoli false [] true).result = .ok () := by
  obtain ⟨host, final, hlaunch, hrun, hpaused, hsix, hbase, -⟩ :=
    letters_served Nat.one_ne_zero (by decide)
  have hboth := @snapshot_is_sent_iff_within_frame _ lettersOnly castagnoli false lettersClient
    .default [] (List.replicate 16 1) (List.replicate 16 2) (by simp) (by simp)
  refine ⟨(hboth.1 1 0 _ _ (by decide) (.inr (by decide))).mpr (by decide), host, final, hlaunch, hrun,
    ?_⟩
  intro n
  refine (hboth.2 rfl hlaunch rfl le_rfl hrun ?_ hpaused hsix true n).mpr ?_
  · exact letters_le (n := 1)
  · unfold NeededWithinFrame ReplayExceeds
    simp only
    rw [hbase, max_self, List.drop_zero, List.drop_zero, payload_letters]
    exact ⟨fun hexceeds => absurd hexceeds (by decide), fun _ hbelow => absurd hbelow (by decide)⟩

/-- A screen of any size that is stored, but has no room in a frame. -/
theorem letters_refused {n : Nat} (hstored : n ≤ MAX_SNAPSHOT_BYTES) (hreplay : n ≤ MAX_REPLAY_BYTES)
    (hlarge : SNAPSHOT_FRAME_BYTES < n + uint_len 1 + uint_len 80 + uint_len 24) :
    (∃ bytes, encode_snapshot castagnoli ⟨1, 80, 24, List.replicate n 0x41⟩ = .ok bytes) ∧
    ∀ (protocol_major protocol_minor : UInt16)
        (request_id : { bytes : List UInt8 // bytes.length = 16 }),
      ¬ ∃ frame, (snapshotEnvelope protocol_major protocol_minor request_id (List.replicate 16 1)
        ⟨1, 80, 24, List.replicate n 0x41⟩).encode castagnoli = .ok frame := by
  have hboundary : 1 ≤ U64_MAX := by decide
  have hcolumns : (80 : UInt32) ≠ 0 := by decide
  have hrows : (24 : UInt32) ≠ 0 := by decide
  constructor
  · exact ⟨_, encode_snapshot_ok castagnoli ⟨hboundary, Nat.one_ne_zero, hcolumns, hrows,
      List.length_replicate.trans_le hstored⟩⟩
  · intro protocol_major protocol_minor request_id
    rw [snapshot_encodes_iff castagnoli protocol_major protocol_minor request_id List.length_replicate
      hboundary (List.length_replicate.trans_le hreplay)]
    unfold WithinFrame
    rw [List.length_replicate]
    exact not_le.mpr hlarge

/-- The screen may be stored and replayed, but not sent. -/
theorem large_screen_is_refused_for_ever :
    (∃ bytes, encode_snapshot castagnoli ⟨1, 80, 24, List.replicate 1048540 0x41⟩ = .ok bytes) ∧
    (∀ (protocol_major protocol_minor : UInt16)
        (request_id : { bytes : List UInt8 // bytes.length = 16 }),
      ¬ ∃ frame, (snapshotEnvelope protocol_major protocol_minor request_id (List.replicate 16 1)
        ⟨1, 80, 24, List.replicate 1048540 0x41⟩).encode castagnoli = .ok frame) ∧
    ∃ host final, launch castagnoli .default (List.replicate 16 1) (List.replicate 16 2)
        Disk.empty [] = .ok host ∧
      World.run lettersOnly castagnoli false lettersClient ⟨host, [], 0⟩
        ((List.replicate 129 lettersOutput).map Event.output) =
          ⟨final, List.replicate 129 lettersOutput, 0⟩ ∧
      ∀ n, ((World.run lettersOnly castagnoli false lettersClient
        ⟨final, List.replicate 129 lettersOutput, 0⟩ (List.replicate n (.attach [] true))).served
          lettersOnly castagnoli false [] true).result ≠ .ok () := by
  obtain ⟨hstored, hrefused⟩ := letters_refused (n := 1048540) (by decide) (by decide) (by decide)
  refine ⟨hstored, hrefused, ?_⟩
  obtain ⟨host, final, hlaunch, hrun, hpaused, hsix, hbase, hgoing⟩ :=
    letters_served (n := 129) (by decide) (by decide)
  refine ⟨host, final, hlaunch, hrun, ?_⟩
  intro n
  obtain ⟨hlater, hsame⟩ := attachFits_retries le_rfl true n hgoing hpaused hsix
  rw [ne_eq, served_iff le_rfl hlater, hsame]
  intro hfits
  refine not_fits_of_large ?_ (hfits.1 (letters_exceed hbase))
  simp only [List.length_replicate]
  exact large_letters

end multiplex_session_host
