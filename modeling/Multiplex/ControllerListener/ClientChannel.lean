-- The device's end of a connection: commands go out under the capability that
-- they need, and a response is taken where it answers a command that is
-- pending, in the frame that such a response goes in.
import Multiplex.ControllerListener.Serving

open Checks
open multiplex_domain.controller_devices (ControllerCapability ControllerCapabilities)
open multiplex_controller_security (ControllerFrame ControllerFrameKind MAX_TERMINAL_FRAME_BYTES)
open multiplex_controller_security.transport (Derived)
open multiplex_controller_listener.protocol
open multiplex_controller_listener.runtime (ScreenFrameCapability unauthorized)

namespace multiplex_controller_listener.client_channel

inductive ControllerIncoming where
  | Response (response : ControllerResponse)
  | Screen (bytes : List UInt8)

structure ControllerClientChannel where
  transport : multiplex_controller_security.transport.ControllerTransport
  capabilities : ControllerCapabilities
  session_generation : Nat
  revocation_epoch : Nat
  pending : CommandId → Option ControllerCapability

namespace ControllerClientChannel

/-- A command that was sealed and written, with its bytes. The identifier is a new one. -/
def send (cipher : Aead.Cipher Derived) (channel : ControllerClientChannel) (command_id : CommandId)
    (command : ControllerCommand) (deadline_millis : Nat) :
    ControllerClientChannel × Listened (List UInt8) :=
  let capability := command.kind.capability
  if ¬ channel.capabilities.contains capability then (channel, .error unauthorized)
  else
    let envelope := protocol.ControllerCommandEnvelope.new command_id channel.session_generation
      deadline_millis command
    match encode_command envelope with
    | .error e => (channel, .error e)
    | .ok payload =>
      match channel.transport.seal_frame cipher .Control capability
          (UInt64.ofNat channel.revocation_epoch) payload with
      | (transport, .error _) => ({ channel with transport }, .error authentication_failed)
      | (transport, .ok sealing) =>
        match runtime.write_bounded_frame sealing.frame MAX_TERMINAL_FRAME_BYTES with
        | .error e => ({ channel with transport }, .error e)
        | .ok () =>
          let pending := fun id => if id = command_id then some capability else channel.pending id
          ({ channel with transport, pending }, .ok sealing.frame)

/-- The capability that a command is pending under. -/
def pending_for (channel : ControllerClientChannel) (command_id : CommandId) :
    Listened ControllerCapability :=
  match channel.pending command_id with
  | some capability => .ok capability
  | none => .error unauthorized

def require_pending (channel : ControllerClientChannel) (command_id : CommandId)
    (capability : ControllerCapability) : Listened ControllerCapability :=
  if channel.pending command_id = some capability then .ok capability else .error unauthorized

/-- The frame that a response has to come in, and whether it is the last one to its command. -/
def expected_response (channel : ControllerClientChannel) (response : ControllerResponse) :
    Listened (ControllerFrameKind × ControllerCapability × Bool) :=
  match response with
  | .Unknown => .error protocol.malformed
  | .Sessions id .. => do
    let capability ← channel.require_pending id .ObserveSessions
    pure (.Control, capability, true)
  | .Attached id .. | .Detached id => do
    let capability ← channel.require_pending id .AttachOutput
    pure (.Control, capability, true)
  | .SessionCreated id .. => do
    let capability ← channel.require_pending id .CreateSession
    pure (.Control, capability, true)
  | .Snapshot id .. => do
    let capability ← channel.require_pending id .AttachOutput
    pure (.Terminal, capability, false)
  | .Output .. => .ok (.Terminal, .AttachOutput, false)
  | .ScreenOpened id .. => do
    let capability ← channel.require_pending id .ObserveScreens
    pure (.Control, capability, true)
  | .Completed id _ | .Error id .. | .GitOverview id .. | .GitLog id .. | .GitDiff id ..
  | .GitSwitched id .. | .AgentChat id .. => do
    let capability ← channel.pending_for id
    pure (.Control, capability, true)

end ControllerClientChannel

def response_command_id : ControllerResponse → Option CommandId
  | .Sessions id .. | .Attached id .. | .Snapshot id .. | .Completed id _ | .Detached id
  | .ScreenOpened id .. | .SessionCreated id .. | .GitOverview id .. | .GitLog id .. | .GitDiff id ..
  | .GitSwitched id .. | .AgentChat id .. | .Error id .. => some id
  | .Output .. | .Unknown => none

namespace ControllerClientChannel

def complete (channel : ControllerClientChannel) (response : ControllerResponse) :
    ControllerClientChannel :=
  match response_command_id response with
  | some command_id =>
    { channel with pending := fun id => if id = command_id then none else channel.pending id }
  | none => channel

/-- The longest text that a frame of a kind is read for. -/
def maximum_text : ControllerFrameKind → Nat
  | .Control => multiplex_controller_security.MAX_CONTROL_PAYLOAD_BYTES
  | .Terminal | .Screen => MAX_TERMINAL_FRAME_BYTES

def read_opened (from_slice : Reader) (channel : ControllerClientChannel) (opened : ControllerFrame) :
    Listened (ControllerClientChannel × ControllerIncoming) := do
  if opened.kind = .Screen then
    let _ ← ScreenFrameCapability.from_security opened.capability
    pure (channel, .Screen opened.payload)
  else
    let response ← decode_response from_slice opened.payload (maximum_text opened.kind)
    let (expected_kind, expected_capability, complete) ← channel.expected_response response
    refuseIf unauthorized (opened.kind ≠ expected_kind ∨ opened.capability ≠ expected_capability)
    pure (if complete then channel.complete response else channel, .Response response)

def read_incoming (from_slice : Reader) (channel : ControllerClientChannel)
    (next : Listened ControllerFrame) : ControllerClientChannel × Listened ControllerIncoming :=
  match next with
  | .error e => (channel, .error e)
  | .ok opened =>
    match channel.read_opened from_slice opened with
    | .error e => (channel, .error e)
    | .ok (channel, incoming) => (channel, .ok incoming)

/-- One read of what is there: what it gives, and what is left. Nothing there gives nothing yet. -/
def read_next (from_slice : Reader) (channel : ControllerClientChannel) :
    List (Listened ControllerFrame) →
    ControllerClientChannel × Option (Listened ControllerIncoming) × List (Listened ControllerFrame)
  | [] => (channel, none, [])
  | next :: rest =>
    let (channel, incoming) := channel.read_incoming from_slice next
    (channel, some incoming, rest)

end ControllerClientChannel

end multiplex_controller_listener.client_channel
