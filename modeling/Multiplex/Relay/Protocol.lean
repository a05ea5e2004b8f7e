-- The outer protocol of the relay, as `multiplex-relay-protocol` has it:
-- routes and their quotas, admission challenges and proofs, and envelopes of
-- ciphertext with their bytes.
import Multiplex.Lib.Bytes
import Multiplex.Lib.Checks

open Bytes

namespace multiplex_relay_protocol

def RELAY_V1 : Nat := 1
def MAX_CIPHERTEXT_PAYLOAD_BYTES : Nat := 1048576
def RELAY_ENVELOPE_HEADER_BYTES : Nat := 52
def MAX_ENCODED_WEBSOCKET_MESSAGE_BYTES : Nat := 1048640
def MAX_REGISTERED_ROUTES : Nat := 1000
def MAX_FORWARDING_PAIRS : Nat := 100
def MAX_UNAUTHENTICATED_HANDSHAKES : Nat := 4
def ADMISSION_LIFETIME_SECONDS : Nat := 30
def MAX_FAILED_ADMISSIONS_PER_SOURCE : Nat := 5
def FAILED_ADMISSION_WINDOW_SECONDS : Nat := 600
def MAX_QUEUE_MESSAGES : Nat := 64
def MAX_QUEUE_ENCODED_BYTES : Nat := 4194304
def RATE_BYTES_PER_SECOND : Nat := 4194304
def RATE_BURST_BYTES : Nat := 8388608

def ENVELOPE_MAGIC : List UInt8 := [0x54, 0x52, 0x52, 0x31]
def CHALLENGE_MAGIC : List UInt8 := [0x54, 0x52, 0x43, 0x31]

/-- `b"multiplex-relay-admission-v1\0"`. -/
def ADMISSION_DOMAIN : List UInt8 :=
  [0x6D, 0x75, 0x6C, 0x74, 0x69, 0x70, 0x6C, 0x65, 0x78, 0x2D, 0x72, 0x65, 0x6C, 0x61, 0x79, 0x2D,
    0x61, 0x64, 0x6D, 0x69, 0x73, 0x73, 0x69, 0x6F, 0x6E, 0x2D, 0x76, 0x31, 0x00]

/-- The bytes of ids are compared as numbers, the first byte first. -/
instance linearOrderUInt8 : LinearOrder UInt8 :=
  LinearOrder.lift' UInt8.toNat fun _ _ => UInt8.toNat_inj.mp

/-- `[u8; n]`. -/
abbrev ByteArrayOf (n : Nat) := {bytes : List UInt8 // bytes.length = n}

abbrev RelayRouteId := ByteArrayOf 32
abbrev RelayCredentialVerifier := ByteArrayOf 32
abbrev RelayConnectionId := Nat

inductive RelayEndpointRole
  | Host
  | Controller
  deriving DecidableEq

def RelayEndpointRole.byte : RelayEndpointRole → UInt8
  | .Host => 1
  | .Controller => 2

inductive RelayDirection
  | HostToController
  | ControllerToHost
  deriving DecidableEq

def RelayDirection.for_sender : RelayEndpointRole → RelayDirection
  | .Host => .HostToController
  | .Controller => .ControllerToHost

inductive RelayProtocolError
  | InvalidEnvelope
  | InvalidAdmissionMessage
  | VersionMismatch
  | NonCanonical
  | FrameLimit
  | InvalidQuota
  | InvalidVerifier
  | InvalidProof
  | UnknownDiagnostic

inductive RelayDiagnosticCode
  | Ready
  | InvalidConfig
  | LoopbackRequired
  | StateLocked
  | StateCorrupt
  | StateVersionUnsupported
  | StatePermissionDenied
  | StateWriteFailed
  | InvalidUpgrade
  | OriginRejected
  | HandshakeLimit
  | AdmissionRateLimited
  | UnknownRoute
  | InvalidProof
  | ReplayedProof
  | ExpiredProof
  | Revoked
  | DuplicateRole
  | PairLimit
  | VersionMismatch
  | MalformedEnvelope
  | FrameLimit
  | RouteMismatch
  | DirectionMismatch
  | SequenceReplay
  | SequenceGap
  | PeerOffline
  | QueueLimit
  | RateLimit
  | IdleTimeout
  | PeerDisconnected
  | RevokedLive
  | Shutdown
  | TransportFailed
  | Internal
  deriving DecidableEq

/-- How a protocol error is reported by the server. -/
def RelayProtocolError.code : RelayProtocolError → RelayDiagnosticCode
  | .VersionMismatch => .VersionMismatch
  | .FrameLimit => .FrameLimit
  | .InvalidEnvelope | .NonCanonical => .MalformedEnvelope
  | .InvalidAdmissionMessage | .InvalidVerifier | .InvalidProof => .InvalidProof
  | .InvalidQuota => .InvalidConfig
  | .UnknownDiagnostic => .Internal

/-! ## Routes -/

structure RelayQuota where
  queue_messages : Nat
  queue_encoded_bytes : Nat
  rate_bytes_per_second : Nat
  rate_burst_bytes : Nat

def RelayQuota.default : RelayQuota :=
  ⟨MAX_QUEUE_MESSAGES, MAX_QUEUE_ENCODED_BYTES, RATE_BYTES_PER_SECOND, RATE_BURST_BYTES⟩

def RelayQuota.validate (q : RelayQuota) : Except RelayProtocolError Unit :=
  if q.queue_messages = 0 ∨ q.queue_messages > MAX_QUEUE_MESSAGES ∨ q.queue_encoded_bytes = 0 ∨
      q.queue_encoded_bytes > MAX_QUEUE_ENCODED_BYTES ∨ q.rate_bytes_per_second = 0 ∨
      q.rate_bytes_per_second > RATE_BYTES_PER_SECOND ∨ q.rate_burst_bytes = 0 ∨
      q.rate_burst_bytes > RATE_BURST_BYTES ∨ q.rate_burst_bytes < q.rate_bytes_per_second then
    .error .InvalidQuota
  else .ok ()

structure RelayRouteRegistration where
  route_id : RelayRouteId
  host_verifier : RelayCredentialVerifier
  controller_verifier : RelayCredentialVerifier
  revocation_epoch : Nat
  quota : RelayQuota
  revoked : Bool

def RelayRouteRegistration.verifier_for (r : RelayRouteRegistration) :
    RelayEndpointRole → RelayCredentialVerifier
  | .Host => r.host_verifier
  | .Controller => r.controller_verifier

/-- Ed25519: which keys are well formed, and which signatures a key accepts. -/
structure Signatures where
  is_key : List UInt8 → Bool
  verify : List UInt8 → List UInt8 → List UInt8 → Bool

def RelayRouteRegistration.validate (S : Signatures) (r : RelayRouteRegistration) :
    Except RelayProtocolError Unit := do
  r.quota.validate
  if !S.is_key r.host_verifier.val then .error .InvalidVerifier
  else if !S.is_key r.controller_verifier.val then .error .InvalidVerifier
  else .ok ()

/-! ## Admission -/

structure RelayAdmissionChallenge where
  route_id : RelayRouteId
  role : RelayEndpointRole
  verifier : RelayCredentialVerifier
  revocation_epoch : Nat
  serial : Nat
  expires_at_unix_seconds : Nat
  nonce : ByteArrayOf 32

def RelayAdmissionChallenge.encode (c : RelayAdmissionChallenge) : List UInt8 :=
  CHALLENGE_MAGIC ++ (beBytes 2 RELAY_V1 ++ (c.role.byte :: 0 :: (c.route_id.val ++
    (c.verifier.val ++ (beBytes 8 c.revocation_epoch ++ (beBytes 8 c.serial ++
      (beBytes 8 c.expires_at_unix_seconds ++ c.nonce.val)))))))

def RelayAdmissionChallenge.signing_bytes (c : RelayAdmissionChallenge) : List UInt8 :=
  ADMISSION_DOMAIN ++ c.encode

structure RelayAdmissionProof where
  route_id : RelayRouteId
  role : RelayEndpointRole
  serial : Nat
  signature : ByteArrayOf 64

def RelayAdmissionProof.verify (S : Signatures) (p : RelayAdmissionProof)
    (challenge : RelayAdmissionChallenge) : Except RelayProtocolError Unit :=
  if p.route_id ≠ challenge.route_id ∨ p.role ≠ challenge.role ∨ p.serial ≠ challenge.serial then
    .error .InvalidProof
  else if !S.is_key challenge.verifier.val then .error .InvalidVerifier
  else if !S.verify challenge.verifier.val challenge.signing_bytes p.signature.val then
    .error .InvalidProof
  else .ok ()

theorem verify_ok {S : Signatures} {p : RelayAdmissionProof} {challenge : RelayAdmissionChallenge}
    (h : p.verify S challenge = .ok ()) :
    p.route_id = challenge.route_id ∧ p.role = challenge.role ∧ p.serial = challenge.serial := by
  unfold RelayAdmissionProof.verify at h
  split at h
  · cases h
  · rename_i hok
    simpa only [ne_eq, not_or, not_not] using hok

/-! ## Envelopes -/

/-- Ciphertext on its way. The fields are private in the source, so no envelope is empty or
too long. -/
structure RelayEnvelopeV1 where
  route_id : RelayRouteId
  direction : RelayDirection
  sequence : UInt64
  ciphertext : List UInt8
  not_empty : ciphertext.isEmpty = false
  fits : ciphertext.length ≤ MAX_CIPHERTEXT_PAYLOAD_BYTES

def RelayEnvelopeV1.new (route_id : RelayRouteId) (direction : RelayDirection) (sequence : UInt64)
    (ciphertext : List UInt8) : Except RelayProtocolError RelayEnvelopeV1 :=
  if h : ciphertext.isEmpty = false ∧ ciphertext.length ≤ MAX_CIPHERTEXT_PAYLOAD_BYTES then
    .ok ⟨route_id, direction, sequence, ciphertext, h.1, h.2⟩
  else .error .FrameLimit

def RelayEnvelopeV1.encoded_len (e : RelayEnvelopeV1) : Nat :=
  RELAY_ENVELOPE_HEADER_BYTES + e.ciphertext.length

def decode_direction (value : UInt8) : Except RelayProtocolError RelayDirection :=
  if value = 1 then .ok .HostToController
  else if value = 2 then .ok .ControllerToHost
  else .error .InvalidEnvelope

def require_supported (version : Nat) : Except RelayProtocolError Unit :=
  if version = RELAY_V1 then .ok () else .error .VersionMismatch

/-- `N` bytes from an offset. -/
def read_array (n : Nat) (bytes : List UInt8) (offset : Nat) :
    Except RelayProtocolError (ByteArrayOf n) :=
  if h : ((bytes.drop offset).take n).length = n then .ok ⟨(bytes.drop offset).take n, h⟩
  else .error .NonCanonical

def check_frame (bytes : List UInt8) (ciphertext_len : Nat) : Except RelayProtocolError Unit :=
  if ciphertext_len = 0 ∨ ciphertext_len > MAX_CIPHERTEXT_PAYLOAD_BYTES ∨
      bytes.length ≠ RELAY_ENVELOPE_HEADER_BYTES + ciphertext_len ∨
      bytes.length > MAX_ENCODED_WEBSOCKET_MESSAGE_BYTES then .error .FrameLimit
  else .ok ()

def RelayEnvelopeV1.decode (bytes : List UInt8) : Except RelayProtocolError RelayEnvelopeV1 :=
  if bytes.length < RELAY_ENVELOPE_HEADER_BYTES ∨ bytes.take 4 ≠ ENVELOPE_MAGIC then
    .error .InvalidEnvelope
  else do
    let version ← read_array 2 bytes 4
    require_supported (beNat version.val)
    if bytes.getD 7 0 ≠ 0 then .error .NonCanonical
    else do
      let direction ← decode_direction (bytes.getD 6 0)
      let route_id ← read_array 32 bytes 8
      let sequence ← read_array 8 bytes 40
      let ciphertext_len ← read_array 4 bytes 48
      check_frame bytes (beNat ciphertext_len.val)
      RelayEnvelopeV1.new route_id direction (UInt64.ofNat (beNat sequence.val))
        (bytes.drop RELAY_ENVELOPE_HEADER_BYTES)

theorem encoded_len_decode {bytes : List UInt8} {e : RelayEnvelopeV1}
    (h : RelayEnvelopeV1.decode bytes = .ok e) : e.encoded_len = bytes.length := by
  unfold RelayEnvelopeV1.decode at h
  split at h
  · cases h
  obtain ⟨_, -, h⟩ := Checks.bind_ok_iff.mp h
  obtain ⟨_, -, h⟩ := Checks.bind_ok_iff.mp h
  split at h
  · cases h
  obtain ⟨_, -, h⟩ := Checks.bind_ok_iff.mp h
  obtain ⟨_, -, h⟩ := Checks.bind_ok_iff.mp h
  obtain ⟨_, -, h⟩ := Checks.bind_ok_iff.mp h
  obtain ⟨_, -, h⟩ := Checks.bind_ok_iff.mp h
  obtain ⟨_, -, h⟩ := Checks.bind_ok_iff.mp h
  unfold RelayEnvelopeV1.new at h
  split at h
  · cases h
    simp [RelayEnvelopeV1.encoded_len]
    omega
  · cases h

end multiplex_relay_protocol
