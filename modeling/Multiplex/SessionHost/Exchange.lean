-- A client that asks a Session Host one question after the other over one
-- connection. A call can be cut off wherever it waits, the bytes come in pieces,
-- and the Host answers every whole request in its turn.
import Multiplex.Lib.Runs
import Multiplex.SessionHost.Client
import Multiplex.SessionHost.Codec

open Bytes Chunks
open multiplex_host_protocol multiplex_store.journal

namespace multiplex_client.exchange

/-! ## Errors -/

/-- The code of an error. What else an error carries is a hint to the user. -/
inductive ClientErrorCode where
  | Io
  | EndOfStream
  | MalformedFrame
  | FrameTooLarge
  | ChecksumMismatch
  | ProtocolIncompatible
  | PermissionDenied
  | WrongSession
  | ConflictingDuplicate
  | SequenceGap
  | ResourceLimit
  | Cancelled
  | InvalidState
  | InvalidIdentity
  | HandshakeReplay

def ClientErrorCode.ofCodec : CodecError → ClientErrorCode
  | .FrameTooLarge | .BufferLimit => .FrameTooLarge
  | .ChecksumMismatch => .ChecksumMismatch
  | .InvalidMagic | .UnknownFrameKind | .Truncated | .TrailingBytes => .MalformedFrame

/-- The errors of the checks on a replay. -/
def ClientErrorCode.ofReplay : multiplex_client.ClientErrorCode → ClientErrorCode
  | .EndOfStream => .EndOfStream
  | .MalformedFrame => .MalformedFrame
  | .WrongSession => .WrongSession
  | .ConflictingDuplicate => .ConflictingDuplicate
  | .SequenceGap => .SequenceGap
  | .ResourceLimit => .ResourceLimit

/-- The error of a `ProtocolError`, by the number of its code. -/
def ClientErrorCode.protocol : Nat → ClientErrorCode
  | 2 => .FrameTooLarge
  | 3 => .ChecksumMismatch
  | 4 => .ProtocolIncompatible
  | 5 => .PermissionDenied
  | 6 => .WrongSession
  | 7 => .ConflictingDuplicate
  | 8 => .SequenceGap
  | 9 => .ResourceLimit
  | 10 => .Cancelled
  | 11 => .InvalidState
  | 12 => .HandshakeReplay
  | _ => .MalformedFrame

/-! ## What is negotiated -/

structure ProtocolVersion where
  major : UInt16
  minor : UInt16
  deriving DecidableEq

def ProtocolVersion.le (a b : ProtocolVersion) : Bool :=
  decide (a.major < b.major) || (a.major == b.major && decide (a.minor ≤ b.minor))

structure ProtocolRange where
  minimum : ProtocolVersion
  maximum : ProtocolVersion

def CURRENT_PROTOCOL : ProtocolRange := ⟨⟨1, 0⟩, ⟨1, 0⟩⟩

def ProtocolRange.is_valid (range : ProtocolRange) : Bool :=
  range.minimum.le range.maximum && range.minimum.major == range.maximum.major

def negotiate_protocol (localRange peer : ProtocolRange) : Option ProtocolVersion :=
  if !localRange.is_valid || !peer.is_valid || localRange.minimum.major != peer.minimum.major then
    none
  else
    let minimum := if localRange.minimum.le peer.minimum then peer.minimum else localRange.minimum
    let maximum := if localRange.maximum.le peer.maximum then localRange.maximum else peer.maximum
    if minimum.le maximum then some maximum else none

structure NegotiatedLimits where
  maximum_frame_bytes : Nat
  maximum_output_bytes : Nat
  maximum_outbound_frames : Nat
  maximum_idempotency_outcomes : Nat
  idempotency_ttl_seconds : Nat
  deriving DecidableEq

def MAX_OUTBOUND_FRAMES : Nat := 1024
def MAX_IDEMPOTENCY_OUTCOMES : Nat := 1024
def IDEMPOTENCY_TTL_SECONDS : Nat := 10 * 60
def HANDSHAKE_NONCE_BYTES : Nat := 32

def local_limits : NegotiatedLimits :=
  ⟨MAX_FRAME_BYTES, MAX_OUTPUT_BYTES, MAX_OUTBOUND_FRAMES, MAX_IDEMPOTENCY_OUTCOMES,
    IDEMPOTENCY_TTL_SECONDS⟩

def NegotiatedLimits.bounded_with (limits peer : NegotiatedLimits) : NegotiatedLimits where
  maximum_frame_bytes := min limits.maximum_frame_bytes peer.maximum_frame_bytes
  maximum_output_bytes := min limits.maximum_output_bytes peer.maximum_output_bytes
  maximum_outbound_frames := min limits.maximum_outbound_frames peer.maximum_outbound_frames
  maximum_idempotency_outcomes :=
    min limits.maximum_idempotency_outcomes peer.maximum_idempotency_outcomes
  idempotency_ttl_seconds := min limits.idempotency_ttl_seconds peer.idempotency_ttl_seconds

def NegotiatedLimits.is_valid (limits : NegotiatedLimits) : Bool :=
  decide (ENVELOPE_HEADER_BYTES ≤ limits.maximum_frame_bytes ∧
    limits.maximum_frame_bytes ≤ MAX_FRAME_BYTES) &&
  decide (1 ≤ limits.maximum_output_bytes ∧ limits.maximum_output_bytes ≤ MAX_OUTPUT_BYTES) &&
  decide (1 ≤ limits.maximum_outbound_frames ∧
    limits.maximum_outbound_frames ≤ MAX_OUTBOUND_FRAMES) &&
  decide (1 ≤ limits.maximum_idempotency_outcomes ∧
    limits.maximum_idempotency_outcomes ≤ MAX_IDEMPOTENCY_OUTCOMES) &&
  decide (1 ≤ limits.idempotency_ttl_seconds ∧
    limits.idempotency_ttl_seconds ≤ IDEMPOTENCY_TTL_SECONDS)

inductive Capability where
  | State
  | AttachReplay
  | Input
  | Resize
  | Stop
  | Interrupt
  | ActivitySnapshot
  | WriterLease

def Capability.code : Capability → Int
  | .State => 1
  | .AttachReplay => 2
  | .Input => 3
  | .Resize => 4
  | .Stop => 5
  | .Interrupt => 6
  | .ActivitySnapshot => 7
  | .WriterLease => 8

/-- The numbers of capabilities, known or not. -/
abbrev CapabilitySet := Finset Int

namespace CapabilitySet

def all_local : CapabilitySet := {1, 2, 3, 4, 5, 6, 7, 8}

def from_wire (values : List Int) : CapabilitySet := (values.filter (· ≠ 0)).toFinset

def contains (set : CapabilitySet) (capability : Capability) : Bool := decide (capability.code ∈ set)

end CapabilitySet

/-! ## Messages -/

/-- The sixteen bytes of an identity. -/
abbrev Uuid := { bytes : List UInt8 // bytes.length = 16 }

def decode_uuid (bytes : List UInt8) : Except ClientErrorCode Uuid :=
  if h : bytes.length = 16 then .ok ⟨bytes, h⟩ else .error .InvalidIdentity

inductive StopMode where
  | Unspecified
  | Graceful
  | Force

inductive Request where
  | HandshakeRequest (session_id : Uuid) (protocol : ProtocolRange) (capabilities : CapabilitySet)
      (limits : NegotiatedLimits) (client_nonce : List UInt8) (request_writer_lease : Bool)
  | GetStateRequest (session_id : Uuid)
  | AttachRequest (session_id : Uuid) (from_sequence : Nat) (viewport : Viewport)
      (maximum_replay_bytes maximum_replay_records : Nat)
  | InputRequest (session_id command_id : Uuid) (bytes : List UInt8)
  | ResizeRequest (session_id command_id : Uuid) (viewport : Viewport)
  | StopRequest (session_id command_id : Uuid) (mode : StopMode)
  | InterruptRequest (session_id command_id : Uuid)
  | ActivitySnapshotRequest (session_id : Uuid)
  | DetachRequest (session_id : Uuid)
  | WriterLeaseRequest (session_id command_id : Uuid) (acquire : Bool)

def Request.kind : Request → FrameKind
  | .HandshakeRequest .. => .HandshakeRequest
  | .GetStateRequest .. => .GetStateRequest
  | .AttachRequest .. => .AttachRequest
  | .InputRequest .. => .InputRequest
  | .ResizeRequest .. => .ResizeRequest
  | .StopRequest .. => .StopRequest
  | .InterruptRequest .. => .InterruptRequest
  | .ActivitySnapshotRequest .. => .ActivitySnapshotRequest
  | .DetachRequest .. => .DetachRequest
  | .WriterLeaseRequest .. => .WriterLeaseRequest

structure HandshakeResponse where
  host_instance_id : List UInt8
  session_id : List UInt8
  selected_version : Option (Nat × Nat)
  capabilities : List Int
  limits : Option NegotiatedLimits
  host_nonce : List UInt8
  client_nonce_echo : List UInt8

/-- What a Host observed of its program, as numbers of the wire. -/
structure ActivityEvent where
  session_id : List UInt8
  sequence : Nat
  activity : Int
  generation : Nat
  confidence : Int
  source_kind : Int
  stale : Bool
  attention_reason : Int
  output_sequence : Nat

/-- A message of the Host. Of those that no call waits for, only the kind counts. -/
inductive Reply where
  | HandshakeResponse (response : HandshakeResponse)
  | StateEvent (state : StateEvent)
  | ReadyEvent (ready : ReadyEvent)
  | OutputEvent (output : OutputEvent)
  | ViewportSnapshotEvent (snapshot : ViewportSnapshotEvent)
  | CommandResult (command_id : List UInt8) (applied : Bool)
  | GapEvent (expected_sequence : Nat)
  | ProtocolError (code : Nat)
  | ActivityEvent (event : ActivityEvent)
  | WriterLeaseEvent (session_id command_id : List UInt8) (held : Bool)
  | Other (kind : FrameKind)

def Reply.kind : Reply → FrameKind
  | .HandshakeResponse _ => .HandshakeResponse
  | .StateEvent _ => .StateEvent
  | .ReadyEvent _ => .ReadyEvent
  | .OutputEvent _ => .OutputEvent
  | .ViewportSnapshotEvent _ => .ViewportSnapshotEvent
  | .CommandResult _ _ => .CommandResult
  | .GapEvent _ => .GapEvent
  | .ProtocolError _ => .ProtocolError
  | .ActivityEvent _ => .ActivityEvent
  | .WriterLeaseEvent _ _ _ => .WriterLeaseEvent
  | .Other kind => kind

/-- The encoding of the messages inside the frames, and the checksum of a frame. A payload may
have no message. -/
structure WireCodec where
  encode_payload : Request → List UInt8
  decode : List UInt8 → Option (Option Reply)
  crc32c : List UInt8 → UInt32

def decode_checked_payload (codec : WireCodec) (envelope : WireEnvelope) :
    Except ClientErrorCode Reply :=
  match codec.decode envelope.payload with
  | none | some none => .error .MalformedFrame
  | some (some reply) => if reply.kind = envelope.kind then .ok reply else .error .MalformedFrame

/-! ## Activity -/

inductive ActivityState where
  | Unknown
  | Idle
  | Busy
  | NeedsInput
  | Done
  | Failed

def ActivityState.requires_attention : ActivityState → Bool
  | .NeedsInput | .Done | .Failed => true
  | _ => false

inductive ActivitySourceKind where
  | Output
  | PromptObservation
  | ProcessObservation
  | StructuredAdapter
  | Approval
  | ProcessExit
  | Unknown

inductive AttentionReason where
  | Input
  | Approval
  | Permission
  | Confirmation

structure ActivityAggregate where
  state : ActivityState
  verified : Bool
  effective_sequence : Nat
  generation : Nat
  source_kind : ActivitySourceKind
  source_id : String
  stale : Bool
  attention_reason : Option AttentionReason
  attention_sequence : Option Nat

def activity_from_wire (event : ActivityEvent) : ActivityAggregate :=
  let state := match event.activity with
    | 2 => .Idle
    | 3 => .Busy
    | 4 => .NeedsInput
    | 5 => .Done
    | 6 => .Failed
    | _ => ActivityState.Unknown
  let source_kind := match event.source_kind with
    | 1 => .Output
    | 2 => .PromptObservation
    | 3 => .ProcessObservation
    | 4 => .StructuredAdapter
    | 5 => .Approval
    | 6 => .ProcessExit
    | _ => ActivitySourceKind.Unknown
  let attention_reason := match event.attention_reason with
    | 1 => some AttentionReason.Input
    | 2 => some .Approval
    | 3 => some .Permission
    | 4 => some .Confirmation
    | _ => none
  { state, source_kind, attention_reason
    verified := event.confidence = 2
    effective_sequence := event.sequence
    generation := max event.generation 1
    source_id := "host-snapshot"
    stale := event.stale
    attention_sequence :=
      if state.requires_attention = true ∧ 0 < event.output_sequence then some event.output_sequence
      else none }

/-! ## The client -/

inductive ConnectionState where
  | Disconnected
  | Handshaking
  | Ready
  | Closing
  deriving DecidableEq

structure ConnectOptions where
  session_id : Uuid
  protocol : ProtocolRange
  capabilities : CapabilitySet
  limits : NegotiatedLimits
  client_nonce : List UInt8
  request_writer_lease : Bool

def ConnectOptions.localOf (session_id : Uuid) (client_nonce : List UInt8) : ConnectOptions :=
  ⟨session_id, CURRENT_PROTOCOL, .all_local, local_limits, client_nonce, true⟩

/-- A byte with the number of the call that it belongs to. -/
abbrev Byte := Nat × UInt8

def tagged (number : Nat) (bytes : List UInt8) : List Byte := bytes.map fun b => (number, b)

/-- A connection with the decoder and the frames that wait. The bytes on their way and the frames
carry the number of the call that asked, which the program does not see. -/
structure AsyncEnvelopeStream where
  to_host : List Byte
  to_client : List Byte
  decoder : FrameDecoder
  owners : List Nat
  pending : List (Nat × WireEnvelope)

def AsyncEnvelopeStream.new : AsyncEnvelopeStream := ⟨[], [], .new, [], []⟩

structure HostClient where
  options : ConnectOptions
  state : ConnectionState
  stream : Option AsyncEnvelopeStream
  host_instance_id : Option Uuid
  selected_version : Option ProtocolVersion
  capabilities : CapabilitySet
  limits : NegotiatedLimits
  last_snapshot : Option ViewportSnapshotEvent
  last_state : Option StateEvent
  next_request : UInt64

inductive Call where
  | connect
  | reconnect (client_nonce : List UInt8)
  | get_state
  | attach (from_sequence : Nat) (viewport : Viewport)
  | input (command_id : Uuid) (bytes : List UInt8)
  | resize (command_id : Uuid) (viewport : Viewport)
  | stop (command_id : Uuid) (mode : StopMode)
  | interrupt (command_id : Uuid)
  | request_activity_snapshot
  | set_writer_lease (command_id : Uuid) (acquire : Bool)
  | detach

/-- The call makes a connection. -/
def Call.establishes : Call → Bool
  | .connect | .reconnect _ => true
  | _ => false

def Call.attaches : Call → Bool
  | .attach _ _ => true
  | _ => false

/-- What a call gives back. -/
inductive Answer where
  | Done
  | State (state : StateEvent)
  | Outputs (outputs : List SequencedOutput)
  | Applied (applied : Bool)
  | Activity (activity : ActivityAggregate)
  | Held (held : Bool)

namespace HostClient

def disconnected (options : ConnectOptions) : HostClient where
  options
  state := .Disconnected
  stream := none
  host_instance_id := none
  selected_version := none
  capabilities := .from_wire []
  limits := options.limits
  last_snapshot := none
  last_state := none
  next_request := 1

def disconnect (client : HostClient) : HostClient :=
  { client with
    state := .Disconnected
    stream := none
    host_instance_id := none
    selected_version := none }

def require_ready (client : HostClient) : Except ClientErrorCode Unit :=
  if client.state = .Ready then .ok () else .error .InvalidState

def require_capability (client : HostClient) (capability : Capability) :
    Except ClientErrorCode Unit :=
  if client.capabilities.contains capability then .ok () else .error .InvalidState

def require_session (client : HostClient) (bytes : List UInt8) : Except ClientErrorCode Unit := do
  let id ← decode_uuid bytes
  if id = client.options.session_id then .ok () else .error .WrongSession

/-- The number of the next request in sixteen bytes. It stops at the largest one. -/
def next_request_id (client : HostClient) : Uuid × HostClient :=
  (⟨List.replicate 8 0 ++ beBytes 8 client.next_request.toNat,
      by rw [List.length_append, List.length_replicate, length_beBytes]⟩,
    { client with
      next_request := if client.next_request.toNat + 1 < 2 ^ 64 then client.next_request + 1
        else client.next_request })

@[simp] theorem next_request_id_stream (client : HostClient) :
    client.next_request_id.2.stream = client.stream := by
  simp [next_request_id]

@[simp] theorem next_request_id_state (client : HostClient) :
    client.next_request_id.2.state = client.state := by
  simp [next_request_id]

/-- The checks of a call on an open connection, with its request and the id of that. -/
def prepare (client : HostClient) (call : Call) :
    Except ClientErrorCode (Uuid × Request × HostClient) :=
  let session_id := client.options.session_id
  match call with
  | .connect | .reconnect _ =>
    let (request_id, next) := client.next_request_id
    .ok (request_id, .HandshakeRequest session_id client.options.protocol client.options.capabilities
      client.options.limits client.options.client_nonce client.options.request_writer_lease, next)
  | .get_state => do
    client.require_ready
    client.require_capability .State
    let (request_id, next) := client.next_request_id
    .ok (request_id, .GetStateRequest session_id, next)
  | .attach from_sequence viewport => do
    client.require_ready
    client.require_capability .AttachReplay
    let (request_id, next) := client.next_request_id
    .ok (request_id, .AttachRequest session_id from_sequence viewport MAX_REPLAY_BYTES
      MAX_REPLAY_RECORDS, next)
  | .input command_id bytes => do
    client.require_capability .Input
    if bytes.length > client.limits.maximum_output_bytes then .error .ResourceLimit
    else
      client.require_ready
      .ok (command_id, .InputRequest session_id command_id bytes, client)
  | .resize command_id viewport => do
    client.require_capability .Resize
    client.require_ready
    .ok (command_id, .ResizeRequest session_id command_id viewport, client)
  | .stop command_id mode => do
    client.require_capability .Stop
    client.require_ready
    .ok (command_id, .StopRequest session_id command_id mode, client)
  | .interrupt command_id => do
    client.require_capability .Interrupt
    client.require_ready
    .ok (command_id, .InterruptRequest session_id command_id, client)
  | .request_activity_snapshot => do
    client.require_ready
    client.require_capability .ActivitySnapshot
    let (request_id, next) := client.next_request_id
    .ok (request_id, .ActivitySnapshotRequest session_id, next)
  | .set_writer_lease command_id acquire => do
    client.require_ready
    client.require_capability .WriterLease
    .ok (command_id, .WriterLeaseRequest session_id command_id acquire, client)
  | .detach => do
    client.require_ready
    let (request_id, next) := client.next_request_id
    .ok (request_id, .DetachRequest session_id, next)

def envelope (client : HostClient) (codec : WireCodec) (request_id : Uuid) (request : Request) :
    WireEnvelope :=
  let version := client.selected_version.getD client.options.protocol.maximum
  ⟨version.major, version.minor, request.kind, 0, request_id, codec.encode_payload request⟩

/-! ## What a call makes of an answer -/

/-- The checks of `perform_handshake` on the response. -/
def accept_handshake (client : HostClient) (response : HandshakeResponse) :
    Except ClientErrorCode HostClient := do
  let session_id ← decode_uuid response.session_id
  if session_id ≠ client.options.session_id ∨
      response.client_nonce_echo ≠ client.options.client_nonce ∨
      response.host_nonce.length ≠ HANDSHAKE_NONCE_BYTES then .error .WrongSession
  else
    match response.selected_version with
    | none => .error .MalformedFrame
    | some (major, minor) =>
      if major ≥ 2 ^ 16 ∨ minor ≥ 2 ^ 16 then .error .InvalidIdentity
      else
        let selected : ProtocolVersion := ⟨.ofNat major, .ofNat minor⟩
        if negotiate_protocol client.options.protocol ⟨selected, selected⟩ ≠ some selected then
          .error .ProtocolIncompatible
        else
          let capabilities := CapabilitySet.from_wire response.capabilities
          if capabilities ∩ client.options.capabilities ≠ capabilities then .error .MalformedFrame
          else
            match response.limits with
            | none => .error .MalformedFrame
            | some limits =>
              if !limits.is_valid then .error .InvalidIdentity
              else if client.options.limits.bounded_with limits ≠ limits then .error .MalformedFrame
              else do
                let host_instance_id ← decode_uuid response.host_instance_id
                .ok { client with
                  host_instance_id := some host_instance_id
                  selected_version := some selected
                  capabilities, limits }

/-- The command result, and what a mutation returns of it. -/
def accept_result (command_id : Uuid) : Reply → Except ClientErrorCode Answer
  | .CommandResult id applied =>
    if id ≠ command_id.val then .error .MalformedFrame else .ok (.Applied applied)
  | .ProtocolError code => .error (.protocol code)
  | _ => .error .MalformedFrame

def accept_reply (client : HostClient) (call : Call) (reply : Reply) :
    Except ClientErrorCode Answer :=
  match call, reply with
  | .get_state, .StateEvent state => do
    client.require_session state.session_id
    .ok (.State state)
  | .request_activity_snapshot, .ActivityEvent event => do
    client.require_session event.session_id
    .ok (.Activity (activity_from_wire event))
  | .set_writer_lease id _, .WriterLeaseEvent session_id command_id held => do
    client.require_session session_id
    if command_id ≠ id.val then .error .MalformedFrame else .ok (.Held held)
  | .input command_id _, reply => accept_result command_id reply
  | .resize command_id _, reply => accept_result command_id reply
  | .stop command_id _, reply => accept_result command_id reply
  | .interrupt command_id, reply => accept_result command_id reply
  | _, .ProtocolError code => .error (.protocol code)
  | _, _ => .error .MalformedFrame

/-- What a call does with a frame: it waits for more, or it ends. -/
inductive Heard where
  | More (client : HostClient) (attaching : Attaching)
  | Done (client : HostClient) (result : Except ClientErrorCode Answer)

/-- The limits of a client for the checks on a replay. -/
def replay (client : HostClient) : multiplex_client.HostClient :=
  ⟨client.options.session_id.val, client.limits.maximum_output_bytes⟩

/-- One turn of the loop of `attach`. -/
def attach_turn (client : HostClient) (codec : WireCodec) (from_sequence : Nat) (a : Attaching) :
    Reply → Heard
  | .ReadyEvent ready =>
    match client.require_session ready.session_id with
    | .error e => .Done client (.error e)
    | .ok () => .More client { a with saw_ready := true }
  | .OutputEvent output =>
    if a.saw_ready then
      match client.require_session output.session_id with
      | .error e => .Done client (.error e)
      | .ok () =>
        match client.replay.accept_output codec.crc32c a output with
        | .error e => .Done client (.error (.ofReplay e))
        | .ok a => .More client a
    else .Done client (.error .MalformedFrame)
  | .ViewportSnapshotEvent snapshot =>
    if a.saw_ready then
      match client.require_session snapshot.session_id with
      | .error e => .Done client (.error e)
      | .ok () =>
        match client.replay.accept_snapshot from_sequence a snapshot with
        | .error e => .Done client (.error (.ofReplay e))
        | .ok a => .More { client with last_snapshot := some snapshot } a
    else .Done client (.error .MalformedFrame)
  | .StateEvent state =>
    if a.saw_ready then
      match client.require_session state.session_id with
      | .error e => .Done client (.error e)
      | .ok () => .Done { client with last_state := some state } (.ok (.Outputs a.outputs))
    else .Done client (.error .MalformedFrame)
  | .GapEvent _ => .Done client (.error .SequenceGap)
  | .ProtocolError code => .Done client (.error (.protocol code))
  | _ => .Done client (.error .MalformedFrame)

/-- The end of `establish`. -/
def established (client : HostClient) : Except ClientErrorCode HostClient → Heard
  | .ok client => .Done { client with state := .Ready } (.ok .Done)
  | .error e => .Done { client with stream := none, state := .Disconnected } (.error e)

def handshake_reply (client : HostClient) : Reply → Except ClientErrorCode HostClient
  | .HandshakeResponse response => client.accept_handshake response
  | .ProtocolError code => .error (.protocol code)
  | _ => .error .MalformedFrame

/-- A call hears a frame. The frame must carry the id of its request. -/
def hear (client : HostClient) (codec : WireCodec) (call : Call) (request_id : Uuid) (a : Attaching)
    (envelope : WireEnvelope) : Heard :=
  let reply := if envelope.request_id ≠ request_id then .error .MalformedFrame
    else decode_checked_payload codec envelope
  if call.establishes then client.established (reply.bind client.handshake_reply)
  else
    match reply, call with
    | .error e, _ => .Done client (.error e)
    | .ok reply, .attach from_sequence _ => client.attach_turn codec from_sequence a reply
    | .ok reply, call => .Done client (client.accept_reply call reply)

end HostClient

/-! ## The stream -/

/-- The owners of frames, by the bytes that the frames took. -/
def owned : List Nat → List WireEnvelope → List (Nat × WireEnvelope)
  | _, [] => []
  | owners, e :: envelopes =>
    (owners.headD 0, e) :: owned (owners.drop (ENVELOPE_HEADER_BYTES + e.payload.length)) envelopes

/-- A chunk that was read goes through the decoder. A chunk over the limit of the buffer is lost. -/
def AsyncEnvelopeStream.push (stream : AsyncEnvelopeStream) (crc32c : List UInt8 → UInt32)
    (chunk : List Byte) : Except CodecError Unit × AsyncEnvelopeStream :=
  let owners := stream.owners ++ chunk.map Prod.fst
  match stream.decoder.push crc32c (chunk.map Prod.snd) with
  | (.error .BufferLimit, decoder) => (.error .BufferLimit, { stream with decoder })
  | (.error e, decoder) =>
    (.error e, { stream with decoder, owners := owners.drop (owners.length - decoder.buffer.length) })
  | (.ok envelopes, decoder) =>
    (.ok (), { stream with
      decoder
      owners := owners.drop (owners.length - decoder.buffer.length)
      pending := stream.pending ++ owned owners envelopes })

/-! ## A call and what cuts it off -/

/-- A call that waits, with the bytes of its request that the socket has not taken. -/
structure Ongoing where
  number : Nat
  call : Call
  request_id : Uuid
  frame : List UInt8
  unsent : List UInt8
  attaching : Attaching
  took : List Nat

/-- A call that is over: the owners of the frames that it took, and its result unless it was
dropped. -/
structure Finished where
  number : Nat
  took : List Nat
  result : Option (Except ClientErrorCode Answer)

/-- The client with the calls so far. -/
structure World where
  client : HostClient
  ongoing : Option Ongoing
  finished : List Finished
  started : Nat

/-- How `connect_platform` ends. -/
inductive Opening where
  | Opened
  | Failed (code : ClientErrorCode)
  | Dropped

inductive Cause where
  | Cancelled
  | Dropped
  | Io
  | EndOfStream

inductive Event where
  | begin (call : Call) (opening : Opening)
  | write (n : Nat)
  | read (n : Nat)
  | stop (cause : Cause)
  | disconnect
  | answer (answers : List WireEnvelope)

namespace World

def start (options : ConnectOptions) : World := ⟨.disconnected options, none, [], 0⟩

def finish (w : World) (number : Nat) (took : List Nat)
    (result : Option (Except ClientErrorCode Answer)) : World :=
  { w with ongoing := none, finished := w.finished ++ [⟨number, took, result⟩] }

/-- A call fails. Only one that makes a connection takes the connection away. -/
def fail (w : World) (number : Nat) (call : Call) (took : List Nat) (code : ClientErrorCode) :
    World :=
  let client := if call.establishes then { w.client with stream := none, state := .Disconnected }
    else w.client
  { w with client }.finish number took (some (.error code))

/-- A call takes the frames that wait until it ends. -/
def settleWith (codec : WireCodec) (o : Ongoing) : HostClient → List (Nat × WireEnvelope) →
    HostClient × List (Nat × WireEnvelope) × Ongoing × Option (Except ClientErrorCode Answer)
  | client, [] => (client, [], o, none)
  | client, (owner, envelope) :: rest =>
    let o := { o with took := o.took ++ [owner] }
    match client.hear codec o.call o.request_id o.attaching envelope with
    | .More client attaching => settleWith codec { o with attaching } client rest
    | .Done client result => (client, rest, o, some result)

def withPending (client : HostClient) (pending : List (Nat × WireEnvelope)) : HostClient :=
  { client with stream := client.stream.map fun stream => { stream with pending } }

def settle (w : World) (codec : WireCodec) (o : Ongoing) (stream : AsyncEnvelopeStream) : World :=
  match settleWith codec o w.client stream.pending with
  | (client, pending, o, none) => { w with client := withPending client pending, ongoing := some o }
  | (client, pending, o, some result) =>
    { w with client := withPending client pending }.finish o.number o.took (some result)

/-- The request of a call is encoded, and its writing begins. -/
def send (w : World) (codec : WireCodec) (number : Nat) (call : Call) : World :=
  match w.client.prepare call with
  | .error code => w.finish number [] (some (.error code))
  | .ok (request_id, request, client) =>
    let w := { w with client }
    if client.stream.isNone then w.fail number call [] .InvalidState
    else
      match (client.envelope codec request_id request).encode codec.crc32c with
      | .error e => w.fail number call [] (.ofCodec e)
      | .ok frame =>
        let from_sequence := match call with
          | .attach from_sequence _ => from_sequence
          | _ => 0
        let attaching : Attaching := ⟨.new from_sequence, none, [], 0, false⟩
        { w with ongoing := some ⟨number, call, request_id, frame, frame, attaching, []⟩ }

def establish (w : World) (codec : WireCodec) (number : Nat) (call : Call) (opening : Opening) :
    World :=
  if w.client.state ≠ .Disconnected then w.finish number [] (some (.error .InvalidState))
  else
    match opening with
    | .Opened =>
      { w with client := { w.client with state := .Handshaking, stream := some .new } }.send codec
        number call
    | .Failed code => w.fail number call [] code
    | .Dropped => { w with client := { w.client with state := .Handshaking } }.finish number [] none

/-- A call begins. The client is borrowed while one goes on. -/
def begin (w : World) (codec : WireCodec) (call : Call) (opening : Opening) : World :=
  match w.ongoing with
  | some _ => w
  | none =>
    let number := w.started + 1
    let w := { w with started := number }
    match call with
    | .connect => { w with client := .disconnected w.client.options }.establish codec number call opening
    | .reconnect client_nonce =>
      let client := w.client.disconnect
      { w with client := { client with options := { client.options with client_nonce } } }.establish
        codec number call opening
    | call => w.send codec number call

/-- The last byte of a request is written. -/
def written (w : World) (codec : WireCodec) (o : Ongoing) (stream : AsyncEnvelopeStream) : World :=
  match o.call with
  | .detach => { w with client := w.client.disconnect }.finish o.number o.took (some (.ok .Done))
  | .attach _ _ =>
    { w with client := { w.client with last_snapshot := none, last_state := none } }.settle codec o
      stream
  | _ => w.settle codec o stream

/-- The socket takes some bytes of the request. -/
def write (w : World) (codec : WireCodec) (n : Nat) : World :=
  match w.ongoing, w.client.stream with
  | some o, some stream =>
    if o.unsent = [] then w
    else
      let stream := { stream with
        to_host := stream.to_host ++ tagged o.number (o.unsent.take n) }
      let o := { o with unsent := o.unsent.drop n }
      let w := { w with client := { w.client with stream := some stream }, ongoing := some o }
      if o.unsent = [] then w.written codec o stream else w
  | _, _ => w

/-- The bytes that one read gets. -/
def chunk (stream : AsyncEnvelopeStream) (n : Nat) : List Byte :=
  stream.to_client.take (min n READ_CHUNK_BYTES)

def heard (stream : AsyncEnvelopeStream) (codec : WireCodec) (n : Nat) :
    Except CodecError Unit × AsyncEnvelopeStream :=
  let rest := { stream with to_client := stream.to_client.drop (min n READ_CHUNK_BYTES) }
  rest.push codec.crc32c (chunk stream n)

def read (w : World) (codec : WireCodec) (n : Nat) : World :=
  match w.ongoing, w.client.stream with
  | some o, some stream =>
    if o.unsent ≠ [] ∨ chunk stream n = [] then w
    else
      match heard stream codec n with
      | (.error e, stream) =>
        { w with client := { w.client with stream := some stream } }.fail o.number o.call o.took
          (.ofCodec e)
      | (.ok (), stream) =>
        { w with client := { w.client with stream := some stream } }.settle codec o stream
  | _, _ => w

/-- A call is cut off where it waits. A future that is dropped does nothing more. -/
def stop (w : World) (cause : Cause) : World :=
  match w.ongoing with
  | none => w
  | some o =>
    match cause with
    | .Cancelled => w.fail o.number o.call o.took .Cancelled
    | .Dropped => w.finish o.number o.took none
    | .Io => w.fail o.number o.call o.took .Io
    | .EndOfStream => if o.unsent = [] then w.fail o.number o.call o.took .EndOfStream else w

/-- The Host takes the next request, if it is whole, and sends its answer. -/
def answer (w : World) (codec : WireCodec) (answers : List WireEnvelope) : World :=
  match w.client.stream with
  | none => w
  | some stream =>
    match read_frame codec.crc32c (stream.to_host.map Prod.snd),
        answers.mapM (WireEnvelope.encode codec.crc32c) with
    | .ok (some (_, rest)), .ok frames =>
      let owner := (stream.to_host.map Prod.fst).headD 0
      let stream := { stream with
        to_host := stream.to_host.drop (stream.to_host.length - rest.length)
        to_client := stream.to_client ++ tagged owner frames.flatten }
      { w with client := { w.client with stream := some stream } }
    | _, _ => w

def step (codec : WireCodec) (w : World) : Event → World
  | .begin call opening => w.begin codec call opening
  | .write n => w.write codec n
  | .read n => w.read codec n
  | .stop cause => w.stop cause
  | .disconnect =>
    match w.ongoing with
    | some _ => w
    | none => { w with client := w.client.disconnect }
  | .answer answers => w.answer codec answers

end World

/-! ## In step -/

/-- Nothing of an exchange is left on the connection. -/
structure AsyncEnvelopeStream.Clean (stream : AsyncEnvelopeStream) : Prop where
  to_host : stream.to_host = []
  to_client : stream.to_client = []
  buffer : stream.decoder.buffer = []
  pending : stream.pending = []

/-- Each call took frames of the answer to its own request only, and a client that is ready
between two calls has nothing left that the next call would read or write behind. -/
structure World.InStep (w : World) : Prop where
  own : ∀ call ∈ w.finished, ∀ owner ∈ call.took, owner = call.number
  clean : w.ongoing = none → w.client.state = .Ready →
    ∃ stream, w.client.stream = some stream ∧ stream.Clean

/-! ## The Host and the calls that are not cut off -/

/-- A frame after which a replay goes on. -/
def continues (codec : WireCodec) (envelope : WireEnvelope) : Bool :=
  match codec.decode envelope.payload with
  | some (some (.ReadyEvent _)) | some (some (.OutputEvent _))
  | some (some (.ViewportSnapshotEvent _)) => true
  | _ => false

/-- The frames of one answer: a replay goes on up to its last frame, any other answer is one. -/
def answers_to (codec : WireCodec) (attaches : Bool) : List WireEnvelope → Bool
  | [] => false
  | [envelope] => !(attaches && continues codec envelope)
  | envelope :: rest => attaches && continues codec envelope && answers_to codec attaches rest

def honest (codec : WireCodec) (w : World) : Event → Bool
  | .answer answers =>
    match w.client.stream with
    | none => true
    | some stream =>
      match read_frame codec.crc32c (stream.to_host.map Prod.snd) with
      | .ok (some (request, _)) => answers_to codec (request.kind = .AttachRequest) answers
      | _ => true
  | _ => true

/-- A replay is taken to its last frame. -/
def heeds (codec : WireCodec) (call : Call) (request_id : Uuid) :
    Attaching → HostClient → List WireEnvelope → Bool
  | _, _, [] => true
  | a, client, envelope :: rest =>
    match client.hear codec call request_id a envelope with
    | .More client a => heeds codec call request_id a client rest
    | .Done _ _ => !(call.attaches && continues codec envelope)

/-- No call on an open connection is cut off after its first byte was written: it is not stopped,
what it reads is not over the limit of the buffer, and it refuses no frame that a replay goes on
after. -/
def undisturbed (codec : WireCodec) (w : World) (e : Event) : Bool :=
  match w.ongoing, w.client.stream with
  | some o, some stream =>
    o.call.establishes ||
    match e with
    | .stop _ => decide (o.unsent = o.frame)
    | .read n =>
      decide (stream.decoder.buffer.length + (World.chunk stream n).length ≤ MAX_FRAME_BYTES) &&
        match World.heard stream codec n with
        | (.ok (), stream) =>
          heeds codec o.call o.request_id o.attaching { w.client with stream := some stream }
            (stream.pending.map Prod.snd)
        | (.error _, _) => true
    | _ => true
  | _, _ => true

end multiplex_client.exchange
