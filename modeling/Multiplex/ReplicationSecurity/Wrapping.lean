-- An epoch key that is wrapped for one device. HPKE itself comes from a library,
-- so the model takes it as given.
import Multiplex.Domain.Replication

open Checks multiplex_domain

namespace multiplex_replication_security

def REPLICATION_KEY_PACKAGE_VERSION : UInt16 := 1
def REPLICATION_WRAPPED_EPOCH_CIPHERTEXT_BYTES : Nat := 48
def HPKE_INFO_DOMAIN : String := "termirust.replication.epoch-wrap.hpke-info.v1"
def HPKE_AAD_DOMAIN : String := "termirust.replication.epoch-wrap.aad.v1"

abbrev Bytes32 := Vector UInt8 32

def allZero (bytes : Bytes32) : Bool := bytes.toList.all fun byte => byte == 0

/-- A list as an array of a fixed length, when it has that length. -/
def try_into (n : Nat) (l : List UInt8) : Option (Vector UInt8 n) :=
  if h : l.length = n then some ⟨l.toArray, h⟩ else none

/-- The parts of HPKE that are used: whether bytes are a key, the public key of a private one, and
the seal of a message with the entropy for its ephemeral key. -/
structure Hpke where
  private_from_bytes : Bytes32 → Bool
  public_from_bytes : Bytes32 → Bool
  sk_to_pk : Bytes32 → Bytes32
  single_shot_seal (private_key recipient : Bytes32) (info plaintext aad : List UInt8)
    (ephemeral_ikm : Bytes32) : Option (List UInt8 × List UInt8)
  /-- A derived public key is a key, and never zero. -/
  derived : ∀ bytes, private_from_bytes bytes = true →
    allZero (sk_to_pk bytes) = false ∧ public_from_bytes (sk_to_pk bytes) = true

variable {hpke : Hpke}

/-! ## Keys -/

variable (hpke) in
structure ReplicationAuthorityPrivateKey where
  bytes : Bytes32
  nonzero : allZero bytes = false
  accepted : hpke.private_from_bytes bytes = true

variable (hpke) in
@[ext]
structure ReplicationAuthorityPublicKey where
  bytes : Bytes32
  nonzero : allZero bytes = false
  accepted : hpke.public_from_bytes bytes = true
  deriving DecidableEq

variable (hpke) in
@[ext]
structure ReplicationDevicePublicKey where
  bytes : Bytes32
  nonzero : allZero bytes = false
  accepted : hpke.public_from_bytes bytes = true
  deriving DecidableEq

inductive ReplicationKeyWrappingError where
  | InvalidPrivateKey
  | InvalidPublicKey
  | InvalidContext
  | RandomUnavailable
  | SealFailed

def ReplicationAuthorityPrivateKey.public_key (key : ReplicationAuthorityPrivateKey hpke) :
    ReplicationAuthorityPublicKey hpke :=
  ⟨hpke.sk_to_pk key.bytes, (hpke.derived key.bytes key.accepted).1,
    (hpke.derived key.bytes key.accepted).2⟩

variable (hpke) in
def ReplicationAuthorityPublicKey.from_bytes (bytes : Bytes32) :
    Except ReplicationKeyWrappingError (ReplicationAuthorityPublicKey hpke) :=
  if h : allZero bytes = false ∧ hpke.public_from_bytes bytes = true then .ok ⟨bytes, h.1, h.2⟩
  else .error .InvalidPublicKey

variable (hpke) in
def ReplicationDevicePublicKey.from_bytes (bytes : Bytes32) :
    Except ReplicationKeyWrappingError (ReplicationDevicePublicKey hpke) :=
  if h : allZero bytes = false ∧ hpke.public_from_bytes bytes = true then .ok ⟨bytes, h.1, h.2⟩
  else .error .InvalidPublicKey

theorem authority_from_bytes (key : ReplicationAuthorityPublicKey hpke) :
    ReplicationAuthorityPublicKey.from_bytes hpke key.bytes = .ok key := by
  unfold ReplicationAuthorityPublicKey.from_bytes
  rw [dif_pos ⟨key.nonzero, key.accepted⟩]

theorem device_from_bytes (key : ReplicationDevicePublicKey hpke) :
    ReplicationDevicePublicKey.from_bytes hpke key.bytes = .ok key := by
  unfold ReplicationDevicePublicKey.from_bytes
  rw [dif_pos ⟨key.nonzero, key.accepted⟩]

/-! ## Epoch keys -/

inductive ReplicationCryptoError where
  | InvalidKeyEpoch
  | InvalidKeyMaterial

@[ext]
structure ReplicationKeyEpoch where
  value : UInt64
  nonzero : value ≠ 0
  deriving DecidableEq

def ReplicationKeyEpoch.new (value : UInt64) : Except ReplicationCryptoError ReplicationKeyEpoch :=
  if h : value = 0 then .error .InvalidKeyEpoch else .ok ⟨value, h⟩

structure ReplicationEpochKey where
  epoch : ReplicationKeyEpoch
  bytes : Bytes32
  nonzero : allZero bytes = false

def ReplicationEpochKey.from_bytes (epoch : ReplicationKeyEpoch) (bytes : Bytes32) :
    Except ReplicationCryptoError ReplicationEpochKey :=
  if h : allZero bytes = false then .ok ⟨epoch, bytes, h⟩ else .error .InvalidKeyMaterial

/-! ## The package of one device -/

structure ReplicationKeyWrapContext where
  workspace_id : ReplicationWorkspaceId
  recipient : ReplicationReplicaId

def ReplicationKeyWrapContext.validate (context : ReplicationKeyWrapContext) :
    Except ReplicationKeyWrappingError Unit := do
  (ReplicationWorkspaceId.validate context.workspace_id).mapError fun _ => .InvalidContext
  (ReplicationReplicaId.validate context.recipient).mapError fun _ => .InvalidContext

inductive ReplicationKeyWrappingSuite where
  | HpkeAuthX25519HkdfSha256ChaCha20Poly1305

def ReplicationKeyWrappingSuite.id : ReplicationKeyWrappingSuite → UInt8
  | .HpkeAuthX25519HkdfSha256ChaCha20Poly1305 => 1

structure WrappedReplicationEpochKey where
  version : UInt16
  suite : ReplicationKeyWrappingSuite
  key_epoch : ReplicationKeyEpoch
  encapsulated_key : Bytes32
  ciphertext : Vector UInt8 REPLICATION_WRAPPED_EPOCH_CIPHERTEXT_BYTES

def be16 (n : UInt16) : List UInt8 := [(n >>> 8).toUInt8, n.toUInt8]

def be64 (n : UInt64) : List UInt8 :=
  [(n >>> 56).toUInt8, (n >>> 48).toUInt8, (n >>> 40).toUInt8, (n >>> 32).toUInt8,
    (n >>> 24).toUInt8, (n >>> 16).toUInt8, (n >>> 8).toUInt8, n.toUInt8]

def push_field (target field : List UInt8) : Except ReplicationKeyWrappingError (List UInt8) :=
  if field.length < 2 ^ 16 then .ok (target ++ be16 (UInt16.ofNat field.length) ++ field)
  else .error .InvalidContext

def encode_wrap_metadata (domain : String) (context : ReplicationKeyWrapContext)
    (epoch : ReplicationKeyEpoch) (suite : ReplicationKeyWrappingSuite)
    (authority_public recipient_public : Bytes32) :
    Except ReplicationKeyWrappingError (List UInt8) := do
  let encoded ← push_field [] domain.toUTF8.toList
  let encoded := encoded ++ be16 REPLICATION_KEY_PACKAGE_VERSION ++ [suite.id] ++ be64 epoch.value
  let encoded ← push_field encoded context.workspace_id.toUTF8.toList
  let encoded ← push_field encoded context.recipient.toUTF8.toList
  let encoded ← push_field encoded authority_public.toList
  push_field encoded recipient_public.toList

/-- The entropy is what the source of it fills in, or nothing when it fails. -/
def wrap_replication_epoch_key_with_entropy (context : ReplicationKeyWrapContext)
    (authority_private : ReplicationAuthorityPrivateKey hpke)
    (recipient_public : ReplicationDevicePublicKey hpke) (epoch_key : ReplicationEpochKey)
    (entropy : Option Bytes32) : Except ReplicationKeyWrappingError WrappedReplicationEpochKey := do
  context.validate
  refuseIf .InvalidPrivateKey (hpke.private_from_bytes authority_private.bytes = false)
  refuseIf .InvalidPublicKey (hpke.public_from_bytes recipient_public.bytes = false)
  let suite := ReplicationKeyWrappingSuite.HpkeAuthX25519HkdfSha256ChaCha20Poly1305
  let info ← encode_wrap_metadata HPKE_INFO_DOMAIN context epoch_key.epoch suite
    authority_private.public_key.bytes recipient_public.bytes
  let aad ← encode_wrap_metadata HPKE_AAD_DOMAIN context epoch_key.epoch suite
    authority_private.public_key.bytes recipient_public.bytes
  match entropy with
  | none => .error .RandomUnavailable
  | some ephemeral_ikm =>
    if allZero ephemeral_ikm then .error .RandomUnavailable
    else
      match hpke.single_shot_seal authority_private.bytes recipient_public.bytes info
        epoch_key.bytes.toList aad ephemeral_ikm with
      | none => .error .SealFailed
      | some (encapsulated_key, ciphertext) =>
        match try_into 32 encapsulated_key, try_into 48 ciphertext with
        | some encapsulated_key, some ciphertext =>
          .ok ⟨REPLICATION_KEY_PACKAGE_VERSION, suite, epoch_key.epoch, encapsulated_key, ciphertext⟩
        | _, _ => .error .SealFailed

end multiplex_replication_security
