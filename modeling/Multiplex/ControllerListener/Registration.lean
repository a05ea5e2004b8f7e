-- The end of a pairing on both sides: the device registers over the confirmed
-- transport, the Host saves it and acknowledges what it saved, and the device
-- compares that with what the offer announced.
import Multiplex.ControllerListener.Offers

open Checks
open multiplex_domain.controller_devices multiplex_store.controller_devices

namespace multiplex_controller_listener

open ControllerDeviceAuthority

/-! ## What the two sides tell each other -/

def PAIRING_ENVELOPE_VERSION : Nat := 1
def MAX_PAIRING_CONTROL_BYTES : Nat := 4 * 1024
def MAX_PAIRING_SECURE_FRAME_BYTES : Nat := 64 * 1024

structure PairingDeviceRegistration where
  schema_version : Nat
  device_id : ControllerDeviceId
  display_name : String

structure PairingHostAck where
  schema_version : Nat
  device_id : ControllerDeviceId
  identity_generation : Nat
  revocation_epoch : Nat
  session_generation : Nat
  capability_bits : UInt16

/-- The payload of a control frame, which is read as what was written. -/
inductive Control where
  | registration (registration : PairingDeviceRegistration)
  | ack (ack : PairingHostAck)

def malformed : ListenerError := .new .MalformedFrame

section
variable (json_len : Control → Nat)

def encode_control (value : Control) : Listened Control := do
  refuseIf (.new .FrameTooLarge) (json_len value = 0 ∨ MAX_PAIRING_CONTROL_BYTES < json_len value)
  pure value

def decode_control (bytes : Control) : Listened Control := do
  refuseIf (.new .FrameTooLarge) (json_len bytes = 0 ∨ MAX_PAIRING_CONTROL_BYTES < json_len bytes)
  pure bytes

namespace PairingDeviceRegistration

def new (device_id : ControllerDeviceId) (display_name : String) : PairingDeviceRegistration :=
  ⟨PAIRING_ENVELOPE_VERSION, device_id, display_name⟩

def encode (value : PairingDeviceRegistration) : Listened Control := do
  let scalars := value.display_name.toList
  refuseIf malformed (value.schema_version ≠ PAIRING_ENVELOPE_VERSION ∨ scalars.isEmpty ∨
    MAX_DEVICE_NAME_SCALARS < scalars.length ∨ scalars.any is_control)
  encode_control json_len (.registration value)

def decode (bytes : Control) : Listened PairingDeviceRegistration := do
  match ← decode_control json_len bytes with
  | .registration value =>
    let _ ← value.encode json_len
    pure value
  | .ack _ => throw malformed

end PairingDeviceRegistration

namespace PairingHostAck

def encode (value : PairingHostAck) : Listened Control := do
  refuseIf malformed (value.schema_version ≠ PAIRING_ENVELOPE_VERSION ∨ value.identity_generation = 0 ∨
    value.capability_bits &&& ~~~ControllerCapabilities.KNOWN_MASK ≠ 0)
  encode_control json_len (.ack value)

def decode (bytes : Control) : Listened PairingHostAck := do
  match ← decode_control json_len bytes with
  | .ack value =>
    let _ ← value.encode json_len
    pure value
  | .registration _ => throw malformed

end PairingHostAck

/-! ## The confirmed transport -/

def FRAME_HEADER_BYTES : Nat := 32
def AEAD_TAG_BYTES : Nat := 16
def MAX_CONTROL_PAYLOAD_BYTES : Nat := 64 * 1024

/-- What a confirmed pairing lets its transport carry. -/
structure AuthorizationPolicy where
  granted : ControllerCapabilities
  revocation_epoch : Nat

/-- A sealed control frame. The cipher is taken to be ideal: what one side seals, only the other
side opens, and it finds what was sealed. -/
structure SealedControllerFrame where
  capability : ControllerCapability
  revocation_epoch : Nat
  sequence : Nat
  payload : Control

/-- One side of the transport: the next sequence it sends and the next one it expects. -/
structure ControllerTransport where
  policy : AuthorizationPolicy
  send : Nat
  receive : Nat

namespace ControllerTransport

/-- The transport fails for good where this refuses, and so do both of its callers. -/
def require (transport : ControllerTransport) (capability : ControllerCapability)
    (presented_epoch : Nat) : Listened Unit :=
  refuseIf authentication_failed (presented_epoch ≠ transport.policy.revocation_epoch ∨
    ¬ transport.policy.granted.contains capability)

def «seal» (transport : ControllerTransport) (capability : ControllerCapability)
    (revocation_epoch : Nat) (payload : Control) :
    Listened (SealedControllerFrame × ControllerTransport) := do
  transport.require capability revocation_epoch
  refuseIf authentication_failed (MAX_CONTROL_PAYLOAD_BYTES < json_len payload)
  pure (⟨capability, revocation_epoch, transport.send, payload⟩,
    { transport with send := transport.send + 1 })

def «open» (transport : ControllerTransport) (frame : SealedControllerFrame) :
    Listened (SealedControllerFrame × ControllerTransport) := do
  transport.require frame.capability frame.revocation_epoch
  refuseIf authentication_failed (frame.sequence ≠ transport.receive)
  refuseIf authentication_failed (MAX_CONTROL_PAYLOAD_BYTES < json_len frame.payload)
  pure (frame, { transport with receive := transport.receive + 1 })

end ControllerTransport

/-- A frame over the connection, which carries it whole. -/
def write_bounded_frame (frame : SealedControllerFrame) : Listened SealedControllerFrame := do
  refuseIf (.new .FrameTooLarge) (MAX_PAIRING_SECURE_FRAME_BYTES <
    FRAME_HEADER_BYTES + json_len frame.payload + AEAD_TAG_BYTES)
  pure frame

structure ConfirmedPairing where
  host_key : Key
  device_key : Key
  transport : ControllerTransport

/-! ## The device -/

/-- What the offer announced, which the acknowledgement must repeat. -/
structure OfferGenerations where
  identity : Nat
  revocation_epoch : Nat
  session : Nat

structure PairingOfferCore where
  host_static_public_key : Key
  capabilities : ControllerCapabilities

structure ControllerClientPairingResult where
  device_id : ControllerDeviceId
  host_public_key : Key
  identity_generation : Nat
  revocation_epoch : Nat
  session_generation : Nat
  capability_bits : UInt16

/-- The first half of `send_registration`, up to the frame that is written. -/
def send_registration (envelope : OfferGenerations) (offer : PairingOfferCore)
    (confirmed : ConfirmedPairing) (device_id : ControllerDeviceId) (display_name : String)
    (prepared : Listened Unit) :
    Listened (ControllerClientPairingResult × SealedControllerFrame × ConfirmedPairing) := do
  let result : ControllerClientPairingResult :=
    ⟨device_id, offer.host_static_public_key, envelope.identity, envelope.revocation_epoch,
      envelope.session, offer.capabilities.bits⟩
  prepared
  let registration ← (PairingDeviceRegistration.new device_id display_name).encode json_len
  let (frame, transport) ← confirmed.transport.seal json_len .ObserveSessions
    envelope.revocation_epoch registration
  let frame ← write_bounded_frame json_len frame
  pure (result, frame, { confirmed with transport })

/-- The second half, from the acknowledgement that comes back. -/
def read_ack (envelope : OfferGenerations) (result : ControllerClientPairingResult)
    (confirmed : ConfirmedPairing) (frame : SealedControllerFrame) :
    Listened ControllerClientPairingResult := do
  let (ack, _) ← confirmed.transport.open json_len frame
  refuseIf authentication_failed (ack.capability ≠ .ObserveSessions ∨
    ack.revocation_epoch ≠ envelope.revocation_epoch)
  let ack ← PairingHostAck.decode json_len ack.payload
  refuseIf authentication_failed (ack.device_id ≠ result.device_id ∨
    ack.identity_generation ≠ envelope.identity ∨
    ack.revocation_epoch ≠ envelope.revocation_epoch ∨
    ack.session_generation ≠ envelope.session ∨
    ack.capability_bits ≠ result.capability_bits ∨
    confirmed.host_key ≠ result.host_public_key)
  pure result

/-! ## The Host -/

/-- What `register_paired_device` reads before it saves anything. -/
def read_registration (initial : PairingAuthoritySnapshot) (confirmed : ConfirmedPairing)
    (frame : SealedControllerFrame) : Listened (PairingDeviceRegistration × ControllerTransport) := do
  let (registration, transport) ← confirmed.transport.open json_len frame
  refuseIf (.new .Unauthorized) (registration.capability ≠ .ObserveSessions ∨
    registration.revocation_epoch ≠ initial.revocation_epoch)
  let registration ← PairingDeviceRegistration.decode json_len registration.payload
  pure (registration, transport)

end

/-- What an update of the Host meets: the file it works on, the revision that it read before, and
what becomes of its write. -/
structure Visit where
  file : ControllerDeviceDocument
  expected : Nat
  write : AtomicWrite

section
variable (env : Surroundings)

/-- The peer with the record it comes from, and the file that is left. -/
def persist (visit : Visit) (offer_id : PairingOfferId) (device_id : ControllerDeviceId)
    (device_key : Key) (display_name : String) (now : Nat) :
    Listened (AuthenticatedPeer × PairedDeviceRecord) × ControllerDeviceDocument :=
  match update env visit.file visit.expected (fun a =>
      a.persist_pairing offer_id device_id device_key display_name now) visit.write with
  | (.error _, file) => (.error authentication_failed, file)
  | (.ok (saved, record), file) =>
    match ControllerCapabilities.from_bits record.capabilities.bits with
    | .error _ => (.error authentication_failed, file)
    | .ok capabilities =>
      (.ok (⟨record.device_id, record.public_key, record.identity_generation,
        saved.authority.revocation_epoch, capabilities⟩, record), file)

/-- The desktop is told of a device that is acknowledged. -/
def acknowledge (visit : Visit) (offer_id : PairingOfferId) (device_key : Key) (told : Listened Unit) :
    Listened Unit :=
  match update env visit.file visit.expected (fun a => a.acknowledge_pairing offer_id device_key)
      visit.write with
  | (.error _, _) => .error authentication_failed
  | (.ok (saved, _), _) =>
    match saved.authority.devices.find? fun d => d.source_offer_id = offer_id with
    | none => .error authentication_failed
    | some _ => told

def host_ack (initial : PairingAuthoritySnapshot) (peer : AuthenticatedPeer) : PairingHostAck where
  schema_version := 1
  device_id := peer.device_id
  identity_generation := peer.identity_generation
  revocation_epoch := peer.revocation_epoch
  session_generation := initial.session_generation
  capability_bits := peer.capabilities.bits

/-- The acknowledgement as it is written to the connection. -/
def seal_ack (json_len : Control → Nat) (initial : PairingAuthoritySnapshot)
    (transport : ControllerTransport) (peer : AuthenticatedPeer) : Listened SealedControllerFrame := do
  let ack ← (host_ack initial peer).encode json_len
  let (frame, _) ← transport.seal json_len .ObserveSessions peer.revocation_epoch ack
  write_bounded_frame json_len frame

/-! ## Both sides together -/

/-- A registration with all that it meets. The two sides have the same offer, and their transports
are mirror images. -/
structure Exchange where
  offer_id : PairingOfferId
  initial : PairingAuthoritySnapshot
  envelope : OfferGenerations
  device_id : ControllerDeviceId
  device_key : Key
  display_name : String
  prepared : Listened Unit
  cancelled : Bool
  saving : Visit
  now : Nat
  /-- What the write of the acknowledgement answers. The connection loses nothing, so where that is
  no error it arrives, and it may have arrived before an error. -/
  written : Listened Unit
  arrives : Bool
  acknowledging : Visit
  told : Listened Unit

/-- What `register_paired_device` answers and leaves: the record that was saved, and the
acknowledgement that arrived. -/
structure Registered where
  answer : Listened AuthenticatedPeer
  record : Option PairedDeviceRecord
  file : ControllerDeviceDocument
  ack : Option SealedControllerFrame

namespace Exchange

variable (json_len : Control → Nat)

def offer (x : Exchange) : PairingOfferCore := ⟨x.initial.host_key, x.initial.capabilities⟩

def host_side (x : Exchange) : ConfirmedPairing :=
  ⟨x.initial.host_key, x.device_key, ⟨⟨x.initial.capabilities, x.initial.revocation_epoch⟩, 0, 0⟩⟩

def device_side (x : Exchange) : ConfirmedPairing :=
  ⟨x.initial.host_key, x.device_key, ⟨⟨x.initial.capabilities, x.envelope.revocation_epoch⟩, 0, 0⟩⟩

def sent (x : Exchange) :
    Listened (ControllerClientPairingResult × SealedControllerFrame × ConfirmedPairing) :=
  send_registration json_len x.envelope x.offer x.device_side x.device_id x.display_name x.prepared

def register_paired_device (x : Exchange) (frame : Option SealedControllerFrame) : Registered :=
  let nothing (e : ListenerError) (file : ControllerDeviceDocument) : Registered :=
    ⟨.error e, none, file, none⟩
  if x.cancelled then nothing (.new .Cancelled) x.saving.file
  else
    match frame with
    | none => nothing (.new .Io) x.saving.file
    | some frame =>
      match read_registration json_len x.initial x.host_side frame with
      | .error e => nothing e x.saving.file
      | .ok (registration, transport) =>
        match persist env x.saving x.offer_id registration.device_id x.device_key
            registration.display_name x.now with
        | (.error e, file) => nothing e file
        | (.ok (peer, record), file) =>
          match seal_ack json_len x.initial transport peer with
          | .error e => ⟨.error e, some record, file, none⟩
          | .ok ack =>
            match x.written with
            | .error e => ⟨.error e, some record, file, if x.arrives then some ack else none⟩
            | .ok () =>
              let done := acknowledge env x.acknowledging x.offer_id x.device_key x.told
              ⟨done.map fun _ => peer, some record, file, some ack⟩

def host (x : Exchange) : Registered :=
  x.register_paired_device env json_len ((x.sent json_len).toOption.map (·.2.1))

/-- What `send_registration` answers on the device. -/
def device (x : Exchange) : Listened ControllerClientPairingResult := do
  let (result, _, confirmed) ← x.sent json_len
  match (x.host env json_len).ack with
  | none => throw (ListenerError.new .Io)
  | some frame => read_ack json_len x.envelope result confirmed frame

end Exchange

end

end multiplex_controller_listener
