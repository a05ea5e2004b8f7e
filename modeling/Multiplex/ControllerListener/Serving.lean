-- A connection that is served. Refresh ticks, frames of the device, bytes of
-- the screens and output of the terminal come in any order. Some of them look
-- at the authority, and the connection ends at the first thing that fails.
import Multiplex.Lib.Chunks
import Multiplex.ControllerSecurity.TransportRuns
import Multiplex.ControllerListener.ProtocolText

open Checks
open multiplex_domain.controller_devices
open multiplex_controller_security (ControllerFrame ControllerFrameKind MAX_TERMINAL_FRAME_BYTES
  MAX_SCREEN_FRAME_BYTES)
open multiplex_controller_security.transport (Derived state_at)
open multiplex_controller_listener.protocol

namespace multiplex_controller_listener.runtime

/-! ## What a frame needs -/

def unauthorized : ListenerError := .new .Unauthorized
def stale_generation : ListenerError := .new .StaleGeneration

inductive ScreenFrameCapability where
  | Observe
  | Pointer
  | Keyboard
  deriving DecidableEq

namespace ScreenFrameCapability

def from_security : ControllerCapability → Listened ScreenFrameCapability
  | .ObserveScreens => .ok Observe
  | .ControlPointer => .ok Pointer
  | .ControlKeyboard => .ok Keyboard
  | _ => .error unauthorized

def domain : ScreenFrameCapability → ControllerCapability
  | Observe => .ObserveScreens
  | Pointer => .ControlPointer
  | Keyboard => .ControlKeyboard

end ScreenFrameCapability

def allowed : ControllerDeviceAuthority.AuthorizationDecision → Listened Unit
  | .Allow => .ok ()
  | .Deny denial => .error (.denied denial)

/-- A screen frame is checked as a command that is due within a second. -/
def require_screen_capability (a : ControllerDeviceAuthority) (peer : AuthenticatedPeer)
    (capability : ScreenFrameCapability) (now_millis : Nat) : Listened Unit :=
  allowed (a.authorize
    { device_id := peer.device_id, public_key := peer.public_key,
      identity_generation := peer.identity_generation, capability := capability.domain,
      revocation_epoch := peer.revocation_epoch, session_generation := a.session_generation,
      now_millis, deadline_millis := min (now_millis + 1000) (2 ^ 64 - 1) })

def require_frame_capability (presented : ControllerCapability)
    (command : protocol.ControllerCommandEnvelope) : Listened Unit :=
  refuseIf unauthorized (presented ≠ command.command.kind.capability)

/-- What the backend says about the session that a command names. -/
structure HostCommandContext where
  occupant_generation : Option OccupantGeneration
  has_writer_lease : Bool

/-- The check of a command, against the snapshot and then against its session. -/
def authorize (a : ControllerDeviceAuthority) (peer : AuthenticatedPeer)
    (command : protocol.ControllerCommandEnvelope) (context : HostCommandContext)
    (now_millis : Nat) : Listened Unit := do
  let kind := command.command.kind
  allowed (a.authorize
    { device_id := peer.device_id, public_key := peer.public_key,
      identity_generation := peer.identity_generation, capability := kind.capability,
      revocation_epoch := peer.revocation_epoch, session_generation := command.session_generation,
      now_millis, deadline_millis := command.deadline_millis })
  refuseIf stale_generation (kind.addresses_a_session ∧
    (command.command.occupant_generation = none ∨
      context.occupant_generation ≠ command.command.occupant_generation))
  refuseIf (.new .WriterLeaseRequired) (kind.requires_writer_lease ∧ ¬ context.has_writer_lease)

/-! ## Frames out -/

inductive QueueClass where
  | Control
  | Terminal

def queue_class : ControllerFrameKind → QueueClass
  | .Control => .Control
  | .Terminal | .Screen => .Terminal

def queue_frame_limit : QueueClass → Nat
  | .Control => 64 * 1024
  | .Terminal => 1024 * 1024

def write_bounded_frame (bytes : List UInt8) (maximum_bytes : Nat) : Listened Unit := do
  refuseIf protocol.malformed (bytes = [])
  refuseIf frame_too_large (maximum_bytes < bytes.length ∨ 2 ^ 32 - 1 < bytes.length)

/-- A frame stands in the stream after its length. -/
def framed (bytes : List UInt8) : List UInt8 := Bytes.beBytes 4 bytes.length ++ bytes

def read_bounded_frame (stream : List UInt8) (maximum_bytes : Nat) :
    Listened (List UInt8 × List UInt8) := do
  refuseIf (.new .Io) (stream.length < 4)
  let length := Bytes.beNat (stream.take 4)
  refuseIf protocol.malformed (length = 0)
  refuseIf frame_too_large (maximum_bytes < length)
  refuseIf (.new .Io) ((stream.drop 4).length < length)
  pure ((stream.drop 4).take length, (stream.drop 4).drop length)

/-- What is written within a limit is read back within it. -/
theorem read_bounded_frame_framed {bytes : List UInt8} {maximum_bytes : Nat}
    (h : write_bounded_frame bytes maximum_bytes = .ok ()) (rest : List UInt8) :
    read_bounded_frame (framed bytes ++ rest) maximum_bytes = .ok (bytes, rest) := by
  simp only [write_bounded_frame, bind_ok_iff, refuseIf_ok_iff, not_or, not_lt] at h
  obtain ⟨_, hne, hmax, hwide⟩ := h
  have hpos : bytes.length ≠ 0 := fun hzero => hne (List.length_eq_zero_iff.mp hzero)
  have hhead : (framed bytes ++ rest).take 4 = Bytes.beBytes 4 bytes.length := by
    simp [framed]
  have hlength : Bytes.beNat (Bytes.beBytes 4 bytes.length) = bytes.length :=
    Bytes.beNat_beBytes (by simpa using (by omega : bytes.length < 4294967296))
  have hbody : (framed bytes ++ rest).drop 4 = bytes ++ rest := by
    simp [framed]
  have hlong : ¬ (framed bytes ++ rest).length < 4 := by
    simp [framed]
  unfold read_bounded_frame
  simp only [hhead, hlength, hbody]
  rw [refuseIf, if_neg hlong]
  simp [refuseIf, hpos, not_lt.mpr hmax, bind, Except.bind, pure, Except.pure]

/-- What went on in a connection: the snapshots that it took, the commands
and screen frames that it let through on one, and the frames that it sent. -/
inductive Entry where
  | snapshot (a : ControllerDeviceAuthority)
  | executed (command : protocol.ControllerCommandEnvelope) (under : ControllerDeviceAuthority)
  | handed (capability : ScreenFrameCapability) (bytes : List UInt8)
      (under : ControllerDeviceAuthority)
  | response (response : ControllerResponse)
  | screen (chunk : List UInt8)
  deriving DecidableEq

/-- A frame on its way out. -/
structure Parcel where
  kind : ControllerFrameKind
  capability : ControllerCapability
  payload : Listened (List UInt8)
  limit : Nat
  entry : Entry

def response_parcel (command_capability : ControllerCapability) (response : ControllerResponse) :
    Parcel :=
  let (kind, capability, maximum) := response_security response command_capability
  ⟨kind, capability, encode_response response maximum, queue_frame_limit (queue_class kind),
    .response response⟩

def MAX_SCREEN_PAYLOAD_BYTES : Nat := MAX_SCREEN_FRAME_BYTES - 48

def screen_parcel (chunk : List UInt8) : Parcel :=
  ⟨.Screen, .ObserveScreens, .ok chunk, MAX_SCREEN_FRAME_BYTES, .screen chunk⟩

structure Connection where
  transport : multiplex_controller_security.transport.ControllerTransport
  trace : List Entry
  ended : Option (Listened Unit)

def Connection.note (c : Connection) (entry : Entry) : Connection :=
  { c with trace := c.trace ++ [entry] }

/-- The queue is empty before each frame and after it, so a frame that fits its class goes out. The
stream may break. -/
def send (cipher : Aead.Cipher Derived) (peer : AuthenticatedPeer) (c : Connection) (flows : Bool)
    (parcel : Parcel) : Connection × Listened Unit :=
  match parcel.payload with
  | .error e => (c, .error e)
  | .ok payload =>
    match c.transport.seal_frame cipher parcel.kind parcel.capability
        (UInt64.ofNat peer.revocation_epoch) payload with
    | (transport, .error _) => ({ c with transport }, .error authentication_failed)
    | (transport, .ok sealing) =>
      match write_bounded_frame sealing.frame parcel.limit with
      | .error e => ({ c with transport }, .error e)
      | .ok () =>
        if flows then ({ c with transport }.note parcel.entry, .ok ())
        else ({ c with transport }, .error (.new .Io))

/-- Frames go out one after the other, as many as the stream takes. -/
def send_all (cipher : Aead.Cipher Derived) (peer : AuthenticatedPeer) :
    Connection → Nat → List Parcel → Connection × Listened Unit
  | c, _, [] => (c, .ok ())
  | c, taken, parcel :: parcels =>
    match send cipher peer c (0 < taken) parcel with
    | (c, .error e) => (c, .error e)
    | (c, .ok ()) => send_all cipher peer c (taken - 1) parcels

/-! ## Frames in -/

/-- A frame as it was read, and what everybody that is asked about it would answer. -/
structure Inbound where
  sealed : Listened (List UInt8)
  made : List (Aead.Encryption Derived)
  snapshot : Listened ControllerDeviceAuthority
  now_millis : Nat
  received : Listened Unit
  context : Listened HostCommandContext
  ticket : Listened (List UInt8)
  executed : Listened (List ControllerResponse)
  taken : Nat

structure Surroundings where
  cipher : Aead.Cipher Derived
  from_slice : Reader
  /-- Whether this computer has a screen session to serve. -/
  screens : Bool

def error_response (command_id : CommandId) (code : String) : ControllerResponse :=
  .Error command_id code false

/-- A command that names no session has no context to ask for. -/
def command_context (f : Inbound) (command : ControllerCommand) : Listened HostCommandContext :=
  match command.session_id with
  | none => .ok ⟨none, false⟩
  | some _ => f.context

def execute (f : Inbound) (command : protocol.ControllerCommandEnvelope) :
    Listened (List ControllerResponse) :=
  match command.command with
  | .Unsupported => .ok [error_response command.command_id "unsupported_command"]
  | _ => f.executed

/-- A ticket for what the connection was granted. -/
def issue (peer : AuthenticatedPeer) (ticket : Listened (List UInt8)) : Listened (List UInt8) := do
  refuseIf unauthorized (¬ peer.capabilities.contains .ObserveScreens)
  ticket

/-- The listener answers for the screens, the backend for everything else. -/
def answer (env : Surroundings) (peer : AuthenticatedPeer) (f : Inbound)
    (command : protocol.ControllerCommandEnvelope) : Listened (List ControllerResponse) :=
  match command.command with
  | .OpenScreen =>
    if env.screens then do
      let ticket ← issue peer f.ticket
      pure [.ScreenOpened command.command_id ticket (peer.capabilities.contains .ControlPointer)
        (peer.capabilities.contains .ControlKeyboard)]
    else .ok [error_response command.command_id "screen_sharing_off"]
  | .CloseScreen => .ok [.Completed command.command_id true]
  | _ => execute f command

def read_command (env : Surroundings) (opened : ControllerFrame) :
    Listened protocol.ControllerCommandEnvelope := do
  let command ← decode_command env.from_slice opened.payload
  require_frame_capability opened.capability command
  pure command

def authorize_command (peer : AuthenticatedPeer) (f : Inbound)
    (command : protocol.ControllerCommandEnvelope) (current : ControllerDeviceAuthority) :
    Listened Unit := do
  require_current_peer current peer
  let context ← command_context f command.command
  authorize current peer command context f.now_millis

def serve_command (env : Surroundings) (peer : AuthenticatedPeer) (c : Connection) (f : Inbound)
    (opened : ControllerFrame) : Connection × Listened Unit :=
  match read_command env opened with
  | .error e => (c, .error e)
  | .ok command =>
    match f.snapshot with
    | .error e => (c, .error e)
    | .ok current =>
      match authorize_command peer f command current with
      | .error e => (c.note (.snapshot current), .error e)
      | .ok () =>
        let c := (c.note (.snapshot current)).note (.executed command current)
        match answer env peer f command with
        | .error e => (c, .error e)
        | .ok responses =>
          send_all env.cipher peer c f.taken
            (responses.map (response_parcel command.command.kind.capability))

def authorize_screen (peer : AuthenticatedPeer) (f : Inbound) (capability : ScreenFrameCapability)
    (current : ControllerDeviceAuthority) : Listened Unit := do
  require_current_peer current peer
  require_screen_capability current peer capability f.now_millis

def serve_screen (env : Surroundings) (peer : AuthenticatedPeer) (c : Connection) (f : Inbound)
    (opened : ControllerFrame) : Connection × Listened Unit :=
  match ScreenFrameCapability.from_security opened.capability with
  | .error e => (c, .error e)
  | .ok capability =>
    match f.snapshot with
    | .error e => (c, .error e)
    | .ok current =>
      match authorize_screen peer f capability current with
      | .error e => (c.note (.snapshot current), .error e)
      | .ok () =>
        if env.screens then
          ((c.note (.snapshot current)).note (.handed capability opened.payload current), f.received)
        else (c.note (.snapshot current), .error unauthorized)

def serve_frame (env : Surroundings) (peer : AuthenticatedPeer) (c : Connection) (f : Inbound) :
    Connection × Listened Unit :=
  match f.sealed with
  | .error e => (c, .error e)
  | .ok sealed =>
    match c.transport.open_frame f.made sealed with
    | (transport, .error _) => ({ c with transport }, .error authentication_failed)
    | (transport, .ok opening) =>
      match opening.frame.kind with
      | .Screen => serve_screen env peer { c with transport } f opening.frame
      | .Control => serve_command env peer { c with transport } f opening.frame
      | .Terminal => ({ c with transport }, .error protocol.malformed)

/-! ## The loop -/

inductive Event where
  | cancelled
  | refresh (snapshot : Listened ControllerDeviceAuthority)
  | incoming (f : Inbound)
  | screen_bytes (bytes : List UInt8) (taken : Nat)
  | host_output (response : Listened (Option ControllerResponse)) (taken : Nat)

def refresh_tick (peer : AuthenticatedPeer) (c : Connection)
    (snapshot : Listened ControllerDeviceAuthority) : Connection × Listened Unit :=
  match snapshot with
  | .error e => (c, .error e)
  | .ok current => (c.note (.snapshot current), require_current_peer current peer)

def host_output_poll (env : Surroundings) (peer : AuthenticatedPeer) (c : Connection)
    (response : Listened (Option ControllerResponse)) (taken : Nat) : Connection × Listened Unit :=
  match response with
  | .error e => (c, .error e)
  | .ok none => (c, .ok ())
  | .ok (some response) =>
    send_all env.cipher peer c taken [response_parcel .AttachOutput response]

def carry_on (result : Connection × Listened Unit) : Connection :=
  match result with
  | (c, .ok ()) => c
  | (c, .error e) => { c with ended := some (.error e) }

/-- One turn of `serve_authenticated_stream`. -/
def step (env : Surroundings) (peer : AuthenticatedPeer) (c : Connection) (event : Event) : Connection :=
  if c.ended.isSome then c
  else
    match event with
    | .cancelled => { c with ended := some (.ok ()) }
    | .refresh snapshot => carry_on (refresh_tick peer c snapshot)
    | .incoming f => carry_on (serve_frame env peer c f)
    | .screen_bytes bytes taken =>
      carry_on (send_all env.cipher peer c taken
        ((Chunks.chunks MAX_SCREEN_PAYLOAD_BYTES bytes).map screen_parcel))
    | .host_output response taken => carry_on (host_output_poll env peer c response taken)

def start (peer : AuthenticatedPeer) : Connection where
  transport := ⟨state_at .Host 0, state_at .Device 0,
    ⟨peer.capabilities, UInt64.ofNat peer.revocation_epoch⟩, false⟩
  trace := []
  ended := none

def serve (env : Surroundings) (peer : AuthenticatedPeer) (events : List Event) : Connection :=
  Runs.run (step env peer) (start peer) events

end multiplex_controller_listener.runtime
