-- A client that attaches to a Session Host. It checks the sequence of every output
-- that it is sent, and all limits, on its own.
import Multiplex.SessionHost.Host

open multiplex_host_protocol multiplex_store.journal multiplex_session_host

namespace multiplex_client

/-! ## The sequence -/

inductive SequenceDecision where
  | Accept
  | IdenticalDuplicate

inductive SequenceError where
  | Gap (expected actual : Nat)
  | ConflictingDuplicate (sequence : Nat)
  | Overflow

structure SequenceTracker where
  last_sequence : Nat
  last_hash : Option UInt32

def SequenceTracker.new (last_sequence : Nat) : SequenceTracker := ⟨last_sequence, none⟩

section
variable (crc32c : List UInt8 → UInt32)

def SequenceTracker.observe (t : SequenceTracker) (sequence : Nat) (payload : List UInt8) :
    Except SequenceError (SequenceTracker × SequenceDecision) :=
  if sequence = t.last_sequence then
    if t.last_hash = some (crc32c payload) then .ok (t, .IdenticalDuplicate)
    else .error (.ConflictingDuplicate sequence)
  else
    match checked_next t.last_sequence with
    | none => .error .Overflow
    | some expected =>
      if sequence ≠ expected then .error (.Gap expected sequence)
      else .ok (⟨sequence, some (crc32c payload)⟩, .Accept)

/-! ## Attach -/

inductive ClientErrorCode where
  | EndOfStream
  | MalformedFrame
  | WrongSession
  | ConflictingDuplicate
  | SequenceGap
  | ResourceLimit

def sequence_error : SequenceError → ClientErrorCode
  | .Gap _ _ => .SequenceGap
  | .ConflictingDuplicate _ => .ConflictingDuplicate
  | .Overflow => .ResourceLimit

structure SequencedOutput where
  sequence : Nat
  bytes : List UInt8

structure HostClient where
  session_id : List UInt8
  maximum_output_bytes : Nat

/-- What an attach has seen so far. -/
structure Attaching where
  tracker : SequenceTracker
  last_snapshot : Option ViewportSnapshotEvent
  outputs : List SequencedOutput
  bytes : Nat
  saw_ready : Bool

/-- What an attach gives back. -/
structure Attached where
  outputs : List SequencedOutput
  last_snapshot : Option ViewportSnapshotEvent

def HostClient.require_session (client : HostClient) (session_id : List UInt8) :
    Except ClientErrorCode Unit :=
  if session_id = client.session_id then .ok () else .error .WrongSession

def HostClient.accept_output (client : HostClient) (a : Attaching) (output : OutputEvent) :
    Except ClientErrorCode Attaching := do
  client.require_session output.session_id
  if output.bytes.length > min client.maximum_output_bytes MAX_OUTPUT_BYTES then
    .error .ResourceLimit
  else
    match a.tracker.observe crc32c output.sequence output.bytes with
    | .ok (tracker, .Accept) =>
      let bytes := a.bytes + output.bytes.length
      if bytes > MAX_REPLAY_BYTES ∨ a.outputs.length ≥ MAX_REPLAY_RECORDS then .error .ResourceLimit
      else
        .ok { a with
          tracker, bytes
          outputs := a.outputs ++ [⟨output.sequence, output.bytes⟩] }
    | .ok (tracker, .IdenticalDuplicate) => .ok { a with tracker }
    | .error error => .error (sequence_error error)

def HostClient.accept_snapshot (client : HostClient) (from_sequence : Nat) (a : Attaching)
    (snapshot : ViewportSnapshotEvent) : Except ClientErrorCode Attaching := do
  client.require_session snapshot.session_id
  if snapshot.terminal_bytes.length > MAX_REPLAY_BYTES ∨
      snapshot.boundary_sequence < from_sequence then .error .ResourceLimit
  else
    .ok { a with
      tracker := .new snapshot.boundary_sequence
      last_snapshot := some snapshot }

/-- The loop of `attach` over the messages of the Host. The state ends it. -/
def HostClient.receive (client : HostClient) (from_sequence : Nat) :
    List Message → Attaching → Except ClientErrorCode Attached
  | [], _ => .error .EndOfStream
  | .ReadyEvent ready :: messages, a => do
    client.require_session ready.session_id
    client.receive from_sequence messages { a with saw_ready := true }
  | .OutputEvent output :: messages, a => do
    if a.saw_ready then
      let a ← client.accept_output crc32c a output
      client.receive from_sequence messages a
    else .error .MalformedFrame
  | .ViewportSnapshotEvent snapshot :: messages, a => do
    if a.saw_ready then
      let a ← client.accept_snapshot from_sequence a snapshot
      client.receive from_sequence messages a
    else .error .MalformedFrame
  | .StateEvent state :: _, a => do
    if a.saw_ready then
      client.require_session state.session_id
      .ok ⟨a.outputs, a.last_snapshot⟩
    else .error .MalformedFrame
  | .ProtocolError _ :: _, _ => .error .SequenceGap

def attachRequest (from_sequence : Nat) : AttachRequest :=
  ⟨from_sequence, MAX_REPLAY_BYTES, MAX_REPLAY_RECORDS⟩

def HostClient.attach (client : HostClient) (from_sequence : Nat) (messages : List Message) :
    Except ClientErrorCode Attached :=
  client.receive crc32c from_sequence messages ⟨.new from_sequence, none, [], 0, false⟩

end

end multiplex_client
