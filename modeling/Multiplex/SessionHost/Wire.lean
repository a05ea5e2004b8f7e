-- The messages of an attach and their sizes on the wire. A message is one frame,
-- and a frame has a byte limit.
import Mathlib.Tactic.Common
import Mathlib.Data.Nat.Bitwise

namespace multiplex_host_protocol

def ENVELOPE_HEADER_BYTES : Nat := 36
def MAX_FRAME_BYTES : Nat := 1024 * 1024
def MAX_PAYLOAD_BYTES : Nat := MAX_FRAME_BYTES - ENVELOPE_HEADER_BYTES
def MAX_OUTPUT_BYTES : Nat := 64 * 1024
def MAX_REPLAY_BYTES : Nat := 8 * 1024 * 1024
def MAX_REPLAY_RECORDS : Nat := 50000

inductive Lifecycle where
  | Unspecified
  | Starting
  | Ready
  | Stopping
  | Exited
  | Failed

def Lifecycle.code : Lifecycle → Nat
  | .Unspecified => 0
  | .Starting => 1
  | .Ready => 2
  | .Stopping => 3
  | .Exited => 4
  | .Failed => 5

structure Viewport where
  columns : UInt32
  rows : UInt32

structure ReadyEvent where
  session_id : List UInt8
  latest_sequence : Nat

structure OutputEvent where
  session_id : List UInt8
  sequence : Nat
  bytes : List UInt8

structure ViewportSnapshotEvent where
  session_id : List UInt8
  boundary_sequence : Nat
  viewport : Viewport
  terminal_bytes : List UInt8

structure StateEvent where
  session_id : List UInt8
  host_instance_id : List UInt8
  lifecycle : Lifecycle
  earliest_sequence : Nat
  latest_sequence : Nat
  has_writer_lease : Bool
  recording_paused : Bool
  durable_sequence : Nat
  viewport : Viewport
  bracketed_paste : Bool

/-- The error that answers an attach from a sequence that is gone. -/
structure ProtocolError where
  expected_sequence : Nat
  earliest_available_sequence : Nat

inductive Message where
  | StateEvent (event : StateEvent)
  | ReadyEvent (event : ReadyEvent)
  | OutputEvent (event : OutputEvent)
  | ViewportSnapshotEvent (event : ViewportSnapshotEvent)
  | ProtocolError (error : ProtocolError)

/-! ## Sizes -/

/-- The length of a number in groups of seven bits. -/
def varint_len (n : Nat) : Nat := (Nat.log2 (n ||| 1) * 9 + 73) / 64

/-- A number that is zero is left out, as is an empty list of bytes. -/
def uint_len (n : Nat) : Nat := if n = 0 then 0 else 1 + varint_len n

def bytes_len (bytes : List UInt8) : Nat :=
  if bytes = [] then 0 else 1 + varint_len bytes.length + bytes.length

def bool_len (b : Bool) : Nat := if b then 2 else 0

/-- A message inside another one, with the length of its tag. -/
def message_len (tag len : Nat) : Nat := tag + varint_len len + len

def Viewport.encoded_len (v : Viewport) : Nat :=
  uint_len v.columns.toNat + uint_len v.rows.toNat

def ReadyEvent.encoded_len (e : ReadyEvent) : Nat :=
  bytes_len e.session_id + uint_len e.latest_sequence

def OutputEvent.encoded_len (e : OutputEvent) : Nat :=
  bytes_len e.session_id + uint_len e.sequence + bytes_len e.bytes

def ViewportSnapshotEvent.encoded_len (e : ViewportSnapshotEvent) : Nat :=
  bytes_len e.session_id + uint_len e.boundary_sequence + message_len 1 e.viewport.encoded_len +
    bytes_len e.terminal_bytes

def StateEvent.encoded_len (e : StateEvent) : Nat :=
  bytes_len e.session_id + bytes_len e.host_instance_id + uint_len e.lifecycle.code +
    uint_len e.earliest_sequence + uint_len e.latest_sequence + bool_len e.has_writer_lease +
    bool_len e.recording_paused + uint_len e.durable_sequence +
    message_len 1 e.viewport.encoded_len + 2

/-- The code, the hint, and the range of versions from 1.0 to 1.0 are the same in every error. -/
def ProtocolError.encoded_len (e : ProtocolError) : Nat :=
  2 + 2 + message_len 1 (message_len 1 2 + message_len 1 2) + uint_len e.expected_sequence +
    uint_len e.earliest_available_sequence

/-- The length of the payload of a message. -/
def Message.encoded_len : Message → Nat
  | .StateEvent e => message_len 1 e.encoded_len
  | .ReadyEvent e => message_len 1 e.encoded_len
  | .OutputEvent e => message_len 1 e.encoded_len
  | .ViewportSnapshotEvent e => message_len 1 e.encoded_len
  | .ProtocolError e => message_len 2 e.encoded_len

theorem varint_len_le {n : Nat} (h : n < 2 ^ 64) : varint_len n ≤ 10 := by
  have hone : 1 ≤ n ||| 1 := Nat.right_le_or
  have hlt : n ||| 1 < 2 ^ 64 := Nat.or_lt_two_pow h (by decide)
  have hlog : (n ||| 1).log2 < 64 := (Nat.log2_lt (by omega)).mpr hlt
  unfold varint_len
  omega

theorem uint_len_le {n : Nat} (h : n < 2 ^ 64) : uint_len n ≤ 11 := by
  have hvarint := varint_len_le h
  unfold uint_len
  split <;> omega

theorem bytes_len_le (bytes : List UInt8) (h : bytes.length < 2 ^ 64) :
    bytes_len bytes ≤ 11 + bytes.length := by
  have hvarint := varint_len_le h
  unfold bytes_len
  split <;> omega

theorem le_bytes_len (bytes : List UInt8) : bytes.length ≤ bytes_len bytes := by
  unfold bytes_len
  split
  · rename_i hnil
    rw [hnil]
    exact le_rfl
  · omega

theorem message_len_le (tag : Nat) {len : Nat} (h : len < 2 ^ 64) :
    message_len tag len ≤ tag + 10 + len := by
  have hvarint := varint_len_le h
  unfold message_len
  omega

theorem bool_len_le (b : Bool) : bool_len b ≤ 2 := by
  cases b <;> decide

end multiplex_host_protocol
