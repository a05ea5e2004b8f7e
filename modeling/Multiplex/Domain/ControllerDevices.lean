-- The devices that may control this computer: the Host identity they trust,
-- the offers they pair with, what each of them may do, and who is refused.
import Mathlib.Data.Fintype.Basic
import Multiplex.Domain.Replication
import Multiplex.Lib.FirstMatch

open Checks FirstMatch

namespace multiplex_domain.controller_devices

/-! ## Limits and errors -/

def MAX_PAIRED_DEVICES : Nat := 16
def MAX_PENDING_PAIRING_OFFERS : Nat := 4
def MAX_DEVICE_NAME_SCALARS : Nat := 64
def MAX_PAIRING_OFFER_LIFETIME_SECONDS : Nat := 5 * 60
def PAIRING_ATTEMPT_LIMIT : Nat := 5
def PAIRING_ATTEMPT_WINDOW_SECONDS : Nat := 10 * 60

inductive ControllerDeviceError where
  | InvalidSecretReference
  | InvalidFingerprint
  | InvalidFingerprintPadding
  | InvalidIdentity
  | UnknownCapability
  | InvalidDevice
  | InvalidOffer
  | InvalidAttemptLedger
  | IdentityUnavailable
  | DeviceLimit
  | OfferLimit
  | RateLimited
  | OfferNotFound
  | OfferExpired
  | OfferConsumed
  | DeviceNotFound
  | PairingConflict
  | PairingUncertain
  | CounterOverflow
  | InvalidDeviceName
  deriving DecidableEq

abbrev Fallible (α : Type) := Except ControllerDeviceError α

/-- Counters hold 64 bits: the next one, unless that would wrap. -/
def checked_next (value : Nat) : Option Nat := checked_add value 1

theorem checked_next_eq_some {value next : Nat} :
    checked_next value = some next ↔ value + 1 < 2 ^ 64 ∧ value + 1 = next := by
  unfold checked_next checked_add
  split
  · rename_i h
    rw [Option.some_inj]
    exact ⟨fun hn => ⟨h, hn⟩, fun hn => hn.2⟩
  · rename_i h
    exact ⟨fun hn => (Option.some_ne_none _ hn.symm).elim, fun hn => (h hn.1).elim⟩

/-! ## The Host identity -/

abbrev Key := Vector UInt8 32
abbrev ControllerDeviceId := Nat
abbrev PairingOfferId := Nat

/-- The text that stands before a key in what is hashed to its fingerprint. -/
def FINGERPRINT_DOMAIN : List UInt8 := "multiplex-host-fingerprint-v1\x00".toUTF8.toList

/-- SHA-256 comes from outside the repository. -/
abbrev Sha256 := List UInt8 → Key

def HostFingerprint.derive (sha256 : Sha256) (public_key : Key) : Key :=
  sha256 (FINGERPRINT_DOMAIN ++ public_key.toList)

structure HostIdentityPublic where
  generation : Nat
  public_key : Key
  fingerprint : Key
  deriving DecidableEq

namespace HostIdentityPublic

def validate (sha256 : Sha256) (identity : HostIdentityPublic) : Fallible Unit :=
  refuseIf .InvalidIdentity (identity.generation = 0 ∨
    identity.fingerprint ≠ HostFingerprint.derive sha256 identity.public_key)

end HostIdentityPublic

inductive HostIdentityState where
  | Ready
  | Locked
  | PermissionDenied
  | Lost
  | ResetRequired
  deriving DecidableEq

/-! ## Capabilities -/

inductive ControllerCapability where
  | ObserveSessions
  | AttachOutput
  | SendInput
  | Resize
  | RespondToApproval
  | ObserveScreens
  | ControlPointer
  | ControlKeyboard
  | CreateSession
  deriving DecidableEq

def ControllerCapability.all : List ControllerCapability :=
  [ObserveSessions, AttachOutput, SendInput, Resize, RespondToApproval, ObserveScreens,
    ControlPointer, ControlKeyboard, CreateSession]

instance : Fintype ControllerCapability :=
  Fintype.ofList ControllerCapability.all fun capability => by cases capability <;> decide

/-- The place of a capability among the bits. -/
def ControllerCapability.index : ControllerCapability → UInt16
  | ObserveSessions => 0
  | AttachOutput => 1
  | SendInput => 2
  | Resize => 3
  | RespondToApproval => 4
  | ObserveScreens => 5
  | ControlPointer => 6
  | ControlKeyboard => 7
  | CreateSession => 8

def ControllerCapability.bit (capability : ControllerCapability) : UInt16 := 1 <<< capability.index

structure ControllerCapabilities where
  bits : UInt16
  deriving DecidableEq

namespace ControllerCapabilities

def KNOWN_MASK : UInt16 := 0x1ff

def from_bits (bits : UInt16) : Fallible ControllerCapabilities :=
  if bits &&& ~~~KNOWN_MASK = 0 then .ok ⟨bits⟩ else .error .UnknownCapability

def contains (capabilities : ControllerCapabilities) (capability : ControllerCapability) : Bool :=
  capabilities.bits &&& capability.bit ≠ 0

end ControllerCapabilities

structure ControllerProtocolRange where
  minimum : UInt16
  maximum : UInt16
  deriving DecidableEq

namespace ControllerProtocolRange

def V1 : ControllerProtocolRange := ⟨1, 1⟩

def is_valid (range : ControllerProtocolRange) : Bool :=
  range.minimum ≠ 0 ∧ range.minimum ≤ range.maximum ∧ range.maximum ≤ 1

end ControllerProtocolRange

/-! ## Devices -/

inductive PairedDeviceStatus where
  | Offline
  | Online
  | Revoked
  deriving DecidableEq

structure PairedDeviceRecord where
  device_id : ControllerDeviceId
  public_key : Key
  display_name : String
  capabilities : ControllerCapabilities
  protocol_range : ControllerProtocolRange
  created_at : Nat
  last_seen_at : Option Nat
  revocation_epoch : Nat
  identity_generation : Nat
  status : PairedDeviceStatus
  source_offer_id : PairingOfferId
  deriving DecidableEq

def is_control (c : Char) : Bool := c.val < 0x20 ∨ 0x7f ≤ c.val ∧ c.val ≤ 0x9f

def validate_name (name : String) : Fallible Unit :=
  let count := name.toList.length
  refuseIf .InvalidDeviceName
    (count = 0 ∨ MAX_DEVICE_NAME_SCALARS < count ∨ name.toList.any is_control)

def PairedDeviceRecord.validate (device : PairedDeviceRecord) : Fallible Unit := do
  validate_name device.display_name
  let _ ← ControllerCapabilities.from_bits device.capabilities.bits
  refuseIf .InvalidDevice (¬ device.protocol_range.is_valid ∨ device.identity_generation = 0)

/-! ## Offers -/

inductive PairingOfferState where
  | Offered
  | Handshaking
  | SasReady
  | HostConfirmed
  | Persisted
  | Acknowledged
  | Expired
  | Rejected
  | Failed
  | Uncertain
  deriving DecidableEq

structure PairingOfferRecord where
  offer_id : PairingOfferId
  identity : HostIdentityPublic
  nonce : Key
  created_at : Nat
  expires_at : Nat
  protocol_range : ControllerProtocolRange
  capabilities : ControllerCapabilities
  route_candidates : List String
  state : PairingOfferState
  paired_device_key : Option Key
  deriving DecidableEq

namespace PairingOfferRecord

def validate (sha256 : Sha256) (offer : PairingOfferRecord) : Fallible Unit := do
  offer.identity.validate sha256
  let _ ← ControllerCapabilities.from_bits offer.capabilities.bits
  refuseIf .InvalidOffer (¬ offer.protocol_range.is_valid ∨ offer.expires_at ≤ offer.created_at ∨
    MAX_PAIRING_OFFER_LIFETIME_SECONDS < offer.expires_at - offer.created_at ∨
    offer.route_candidates.any (512 < ·.utf8ByteSize))

end PairingOfferRecord

def PairingOfferState.is_pending : PairingOfferState → Bool
  | Offered | Handshaking | SasReady | HostConfirmed | Persisted | Uncertain => true
  | Acknowledged | Expired | Rejected | Failed => false

def PairingOfferRecord.is_pending (offer : PairingOfferRecord) : Bool := offer.state.is_pending

/-- The times at which offers were made, the oldest first. -/
structure PairingAttemptLedger where
  attempt_timestamps : List Nat
  deriving DecidableEq

namespace PairingAttemptLedger

/-- The times that have left the window are forgotten even when the attempt is refused. -/
def record (ledger : PairingAttemptLedger) (now : Nat) : Fallible Unit × PairingAttemptLedger :=
  let kept := ledger.attempt_timestamps.filter fun timestamp =>
    now - timestamp < PAIRING_ATTEMPT_WINDOW_SECONDS
  if PAIRING_ATTEMPT_LIMIT ≤ kept.length then (.error .RateLimited, ⟨kept⟩)
  else (.ok (), ⟨kept ++ [now]⟩)

def validate (ledger : PairingAttemptLedger) : Fallible Unit :=
  refuseIf .InvalidAttemptLedger (PAIRING_ATTEMPT_LIMIT < ledger.attempt_timestamps.length)

end PairingAttemptLedger

/-! ## The authority -/

/-- The reference under which the private key stands in the credential store. -/
structure HostIdentitySecretRef where
  reference : String
  deriving DecidableEq

structure ControllerDeviceAuthority where
  identity : Option HostIdentityPublic
  secret_ref : Option HostIdentitySecretRef
  state : HostIdentityState
  revocation_epoch : Nat
  session_generation : Nat
  devices : List PairedDeviceRecord
  offers : List PairingOfferRecord
  attempts : PairingAttemptLedger
  deriving DecidableEq

/-- What an operation answers, and the authority it leaves behind, also where it fails. -/
abbrev Outcome (α : Type) := Fallible α × ControllerDeviceAuthority

namespace ControllerDeviceAuthority

def pending (a : ControllerDeviceAuthority) : Nat := a.offers.countP (·.is_pending)

def validate_identity (sha256 : Sha256) (a : ControllerDeviceAuthority) : Fallible Unit := do
  refuseIf .InvalidIdentity (a.identity.isSome ≠ a.secret_ref.isSome)
  match a.identity with
  | some identity =>
    identity.validate sha256
    refuseIf .InvalidDevice (a.devices.any fun d => identity.generation < d.identity_generation)
  | none => refuseIf .InvalidIdentity (a.devices ≠ [] ∨ a.offers ≠ [])

def validate (sha256 : Sha256) (a : ControllerDeviceAuthority) : Fallible Unit := do
  refuseIf .DeviceLimit (MAX_PAIRED_DEVICES < a.devices.length)
  refuseIf .OfferLimit (MAX_PENDING_PAIRING_OFFERS < a.pending)
  a.validate_identity sha256
  forM a.devices fun device => device.validate
  forM a.offers fun offer => offer.validate sha256
  a.attempts.validate

/-! ## Pairing -/

def create_offer (sha256 : Sha256) (a : ControllerDeviceAuthority) (offer_id : PairingOfferId)
    (nonce : Key) (now expires_at : Nat) (capabilities : ControllerCapabilities)
    (route_candidates : List String) : Outcome PairingOfferRecord :=
  if a.state ≠ .Ready then (.error .IdentityUnavailable, a)
  else
    match a.attempts.record now with
    | (.error e, attempts) => (.error e, { a with attempts })
    | (.ok (), attempts) =>
      let a := { a with attempts }
      if MAX_PENDING_PAIRING_OFFERS ≤ a.pending then (.error .OfferLimit, a)
      else
        match a.identity with
        | none => (.error .IdentityUnavailable, a)
        | some identity =>
          let offer : PairingOfferRecord :=
            { offer_id, identity, nonce, created_at := now, expires_at, protocol_range := .V1,
              capabilities, route_candidates, state := .Offered, paired_device_key := none }
          match offer.validate sha256 with
          | .error e => (.error e, a)
          | .ok () => (.ok offer, { a with offers := a.offers ++ [offer] })

/-- The offer of that id: the first one, if there are more. -/
def offer? (a : ControllerDeviceAuthority) (offer_id : PairingOfferId) : Option PairingOfferRecord :=
  a.offers.find? (·.offer_id = offer_id)

def with_offer (a : ControllerDeviceAuthority) (offer_id : PairingOfferId)
    (f : PairingOfferRecord → PairingOfferRecord) : ControllerDeviceAuthority :=
  { a with offers := updateFirst (·.offer_id = offer_id) f a.offers }

def previous_capability_bits (a : ControllerDeviceAuthority) (device_id : ControllerDeviceId) :
    UInt16 :=
  (a.devices.filter (·.device_id = device_id)).foldl (fun bits d => bits ||| d.capabilities.bits) 0

def paired_record (a : ControllerDeviceAuthority) (offer : PairingOfferRecord)
    (device_id : ControllerDeviceId) (public_key : Key) (display_name : String)
    (capabilities : ControllerCapabilities) (now : Nat) : PairedDeviceRecord where
  device_id := device_id
  public_key := public_key
  display_name := display_name
  capabilities := capabilities
  protocol_range := offer.protocol_range
  created_at := now
  last_seen_at := none
  revocation_epoch := a.revocation_epoch
  identity_generation := offer.identity.generation
  status := .Offline
  source_offer_id := offer.offer_id

/-- The offer is used up, and the record takes the place of all that the device had. -/
def with_record (a : ControllerDeviceAuthority) (offer_id : PairingOfferId)
    (record : PairedDeviceRecord) : ControllerDeviceAuthority :=
  { a with
    offers := updateFirst (·.offer_id = offer_id)
      (fun o => { o with state := .Persisted, paired_device_key := some record.public_key }) a.offers
    devices := a.devices.filter (·.device_id ≠ record.device_id) ++ [record] }

/-- The part of `persist_pairing` that comes after the search for a record of the same pairing. -/
def persist_new (a : ControllerDeviceAuthority) (offer_id : PairingOfferId)
    (device_id : ControllerDeviceId) (public_key : Key) (display_name : String) (now : Nat) :
    Outcome PairedDeviceRecord :=
  if MAX_PAIRED_DEVICES ≤ a.devices.countP (·.device_id ≠ device_id) then (.error .DeviceLimit, a)
  else
    match a.offer? offer_id with
    | none => (.error .OfferNotFound, a)
    | some offer =>
      if offer.expires_at < now then
        (.error .OfferExpired, a.with_offer offer_id fun o => { o with state := .Expired })
      else if offer.state ≠ .SasReady ∧ offer.state ≠ .HostConfirmed then (.error .OfferConsumed, a)
      else
        match ControllerCapabilities.from_bits
            (offer.capabilities.bits ||| a.previous_capability_bits device_id) with
        | .error e => (.error e, a)
        | .ok capabilities =>
          let record := a.paired_record offer device_id public_key display_name capabilities now
          match record.validate with
          | .error e => (.error e, a)
          | .ok () =>
            (.ok record, a.with_record offer_id record)

def persist_pairing (a : ControllerDeviceAuthority) (offer_id : PairingOfferId)
    (device_id : ControllerDeviceId) (public_key : Key) (display_name : String) (now : Nat) :
    Outcome PairedDeviceRecord :=
  match a.devices.find? fun d => d.public_key = public_key ∨ d.source_offer_id = offer_id with
  | none => a.persist_new offer_id device_id public_key display_name now
  | some existing =>
    if existing.device_id = device_id ∧ existing.public_key = public_key ∧
        existing.source_offer_id = offer_id then (.ok existing, a)
    else if existing.device_id ≠ device_id then (.error .PairingConflict, a)
    else a.persist_new offer_id device_id public_key display_name now

def acknowledge_pairing (a : ControllerDeviceAuthority) (offer_id : PairingOfferId)
    (public_key : Key) : Outcome ControllerDeviceId :=
  match a.devices.find? fun d => d.source_offer_id = offer_id ∧ d.public_key = public_key with
  | none => (.error .PairingUncertain, a)
  | some device =>
    (.ok device.device_id, a.with_offer offer_id fun o => { o with state := .Acknowledged })

/-! ## Revocation and reset -/

def revoke_device (a : ControllerDeviceAuthority) (device_id : ControllerDeviceId) : Outcome Nat :=
  if ¬ a.devices.any (·.device_id = device_id) then (.error .DeviceNotFound, a)
  else
    match checked_next a.revocation_epoch with
    | none => (.error .CounterOverflow, a)
    | some epoch =>
      let revoked := { a with
        revocation_epoch := epoch
        devices := a.devices.map fun d =>
          { d with
            revocation_epoch := epoch
            status := if d.device_id = device_id then .Revoked else d.status } }
      match checked_next a.session_generation with
      | none => (.error .CounterOverflow, revoked)
      | some generation => (.ok epoch, { revoked with session_generation := generation })

def identity_generation (a : ControllerDeviceAuthority) : Nat :=
  match a.identity with
  | some identity => identity.generation
  | none => 0

def begin_identity_reset (a : ControllerDeviceAuthority) : Outcome Nat :=
  match checked_next a.identity_generation with
  | none => (.error .CounterOverflow, a)
  | some generation =>
    match checked_next a.revocation_epoch with
    | none => (.error .CounterOverflow, a)
    | some epoch =>
      let advanced := { a with revocation_epoch := epoch }
      match checked_next a.session_generation with
      | none => (.error .CounterOverflow, advanced)
      | some session_generation =>
        (.ok generation, { advanced with
          session_generation
          devices := a.devices.map fun d => { d with status := .Revoked, revocation_epoch := epoch }
          offers := a.offers.map fun o => if o.is_pending then { o with state := .Rejected } else o
          state := .ResetRequired })

def finish_identity_reset (sha256 : Sha256) (a : ControllerDeviceAuthority)
    (identity : HostIdentityPublic) (secret_ref : HostIdentitySecretRef) : Outcome Unit :=
  match identity.validate sha256 with
  | .error e => (.error e, a)
  | .ok () =>
    match checked_next a.identity_generation with
    | none => (.error .CounterOverflow, a)
    | some expected_generation =>
      if identity.generation ≠ expected_generation then (.error .InvalidIdentity, a)
      else
        (.ok (), { a with
          identity := some identity, secret_ref := some secret_ref, state := .Ready, offers := [] })

/-! ## Requests -/

structure AuthorizationRequest where
  device_id : ControllerDeviceId
  public_key : Key
  identity_generation : Nat
  capability : ControllerCapability
  revocation_epoch : Nat
  session_generation : Nat
  now_millis : Nat
  deadline_millis : Nat

inductive AuthorizationDenial where
  | IdentityUnavailable
  | UnknownDevice
  | Revoked
  | StaleIdentity
  | StaleRevocationEpoch
  | WrongSessionGeneration
  | Expired
  | CapabilityDenied
  deriving DecidableEq

inductive AuthorizationDecision where
  | Allow
  | Deny (denial : AuthorizationDenial)
  deriving DecidableEq

def authorize (a : ControllerDeviceAuthority) (request : AuthorizationRequest) :
    AuthorizationDecision :=
  if a.state ≠ .Ready then .Deny .IdentityUnavailable
  else
    match a.identity with
    | none => .Deny .IdentityUnavailable
    | some identity =>
      match a.devices.find? fun d =>
          d.device_id = request.device_id ∧ d.public_key = request.public_key with
      | none => .Deny .UnknownDevice
      | some device =>
        if device.status = .Revoked then .Deny .Revoked
        else if request.identity_generation ≠ identity.generation then .Deny .StaleIdentity
        else if request.revocation_epoch ≠ a.revocation_epoch ∨
            device.revocation_epoch ≠ a.revocation_epoch then .Deny .StaleRevocationEpoch
        else if request.session_generation ≠ a.session_generation then
          .Deny .WrongSessionGeneration
        else if request.deadline_millis < request.now_millis then .Deny .Expired
        else if ¬ device.capabilities.contains request.capability then .Deny .CapabilityDenied
        else .Allow

end ControllerDeviceAuthority

end multiplex_domain.controller_devices
