-- What both ends of a Controller connection agree on before any cipher: the
-- kinds of frames, the capabilities as they are written, and the policy that a
-- frame is checked against.
import Multiplex.Domain.ControllerDevices

open multiplex_domain.controller_devices (ControllerCapability ControllerCapabilities)

namespace multiplex_controller_security

inductive ErrorCode where
  | InvalidMagic
  | InvalidEncoding
  | IncompatibleVersion
  | UnsupportedSuite
  | UnknownCapability
  | CapabilityDenied
  | InvalidRole
  | InvalidStep
  | WrongState
  | WrongKey
  | WrongNonce
  | Expired
  | TimedOut
  | Rejected
  | Cancelled
  | SasMismatch
  | DuplicateFrame
  | OutOfOrderFrame
  | FrameTooLarge
  | SequenceExhausted
  | AuthenticationFailed
  | CryptoFailure
  deriving DecidableEq

abbrev Result (α : Type) := Except ErrorCode α

abbrev RevocationEpoch := UInt64

def MAX_CONTROL_PAYLOAD_BYTES : Nat := 64 * 1024
def MAX_TERMINAL_FRAME_BYTES : Nat := 1024 * 1024
def MAX_SCREEN_FRAME_BYTES : Nat := 1024 * 1024

structure ControllerProtocolVersion where
  major : Nat
  minor : Nat
  deriving DecidableEq

def CONTROLLER_V2 : ControllerProtocolVersion := ⟨2, 0⟩

def ControllerProtocolVersion.require_supported (version : ControllerProtocolVersion) : Result Unit :=
  if version = CONTROLLER_V2 then .ok () else .error .IncompatibleVersion

inductive ControllerFrameKind where
  | Control
  | Terminal
  | Screen
  deriving DecidableEq

namespace ControllerFrameKind

def wire : ControllerFrameKind → UInt8
  | Control => 1
  | Terminal => 2
  | Screen => 3

def from_wire (value : UInt8) : Result ControllerFrameKind :=
  if value = 1 then .ok Control
  else if value = 2 then .ok Terminal
  else if value = 3 then .ok Screen
  else .error .InvalidEncoding

@[simp] theorem from_wire_wire (kind : ControllerFrameKind) : from_wire kind.wire = .ok kind := by
  cases kind <;> rfl

end ControllerFrameKind

def capability_wire (capability : ControllerCapability) : UInt8 := capability.index.toUInt8

def capability_from_wire (value : UInt8) : Result ControllerCapability :=
  match ControllerCapability.all.find? (fun capability => capability_wire capability = value) with
  | some capability => .ok capability
  | none => .error .UnknownCapability

@[simp] theorem capability_from_wire_wire (capability : ControllerCapability) :
    capability_from_wire (capability_wire capability) = .ok capability := by
  cases capability <;> decide

/-- What an end of the connection lets through. -/
structure AuthorizationPolicy where
  granted : ControllerCapabilities
  revocation_epoch : RevocationEpoch

def AuthorizationPolicy.require (policy : AuthorizationPolicy) (requested : ControllerCapability)
    (presented_epoch : RevocationEpoch) : Result Unit :=
  if presented_epoch ≠ policy.revocation_epoch ∨ ¬ policy.granted.contains requested then
    .error .CapabilityDenied
  else .ok ()

structure ControllerFrame where
  kind : ControllerFrameKind
  capability : ControllerCapability
  revocation_epoch : RevocationEpoch
  sequence : Nat
  payload : List UInt8
  deriving DecidableEq

end multiplex_controller_security
