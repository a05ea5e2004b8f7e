-- The authority of a replicated workspace. It knows every device that was ever
-- enrolled, and each of its transitions makes a new epoch key for those that are
-- active.
import Multiplex.ReplicationSecurity.Wrapping

open Checks multiplex_domain

namespace multiplex_replication_security

def REPLICATION_AUTHORITY_STATE_VERSION : UInt16 := 1
def MAX_REPLICATION_AUTHORITY_STATE_BYTES : Nat := 64 * 1024
def INITIAL_AUTHORITY_REVISION : UInt64 := 1
def INITIAL_KEY_EPOCH : UInt64 := 1

inductive ReplicationAuthorityError where
  | InvalidRevision
  | UnsupportedStateVersion
  | InvalidState
  | StateTooLarge
  | NonCanonicalState
  | StaleRevision
  | RevisionOverflow
  | EpochOverflow
  | AuthorityMismatch
  | DeviceAlreadyExists
  | DuplicateDeviceKey
  | TooManyDevices
  | UnknownDevice
  | DeviceAlreadyRevoked
  | LastActiveDevice
  | RandomUnavailable
  | WrappingFailed

abbrev Answer (α : Type) := Except ReplicationAuthorityError α

/-- A check of another kind, with an error of the authority. -/
def orElse {ε α : Type} (failure : ReplicationAuthorityError) (x : Except ε α) : Answer α :=
  x.mapError fun _ => failure

/-- One more, unless that would wrap. -/
def checked_next (value : UInt64) : Option UInt64 :=
  if value = UInt64.ofNat (2 ^ 64 - 1) then none else some (value + 1)

/-! ## Revisions and devices -/

@[ext]
structure ReplicationAuthorityRevision where
  value : UInt64
  nonzero : value ≠ 0

instance : DecidableEq ReplicationAuthorityRevision := fun a b =>
  decidable_of_iff (a.value = b.value) ReplicationAuthorityRevision.ext_iff.symm

namespace ReplicationAuthorityRevision

def new (value : UInt64) : Answer ReplicationAuthorityRevision :=
  if h : value = 0 then .error .InvalidRevision else .ok ⟨value, h⟩

def next (revision : ReplicationAuthorityRevision) : Answer ReplicationAuthorityRevision :=
  match checked_next revision.value with
  | none => .error .RevisionOverflow
  | some value => new value

end ReplicationAuthorityRevision

inductive ReplicationAuthorityDeviceStatus where
  | Active
  | Revoked (accepted_through : UInt64) (revoked_at_revision : ReplicationAuthorityRevision)
      (revoked_at_epoch : ReplicationKeyEpoch)
  deriving DecidableEq

variable {hpke : Hpke}

variable (hpke) in
structure ReplicationAuthorityDevice where
  replica_id : ReplicationReplicaId
  public_key : ReplicationDevicePublicKey hpke
  status : ReplicationAuthorityDeviceStatus
  deriving DecidableEq

variable (hpke) in
structure ReplicationAuthorityState where
  version : UInt16
  workspace_id : ReplicationWorkspaceId
  authority_public_key : ReplicationAuthorityPublicKey hpke
  revision : ReplicationAuthorityRevision
  key_epoch : ReplicationKeyEpoch
  devices : SortedMap ReplicationReplicaId (ReplicationAuthorityDevice hpke)

def ReplicationAuthorityDevice.is_active (device : ReplicationAuthorityDevice hpke) : Bool :=
  decide (device.status = .Active)

namespace ReplicationAuthorityState

def active_devices (state : ReplicationAuthorityState hpke) : List (ReplicationAuthorityDevice hpke) :=
  (state.devices.entries.map Prod.snd).filter ReplicationAuthorityDevice.is_active

def active_device_count (state : ReplicationAuthorityState hpke) : Nat := state.active_devices.length

/-- One turn of the loop of `validate`: how many are active so far, and the keys seen. -/
def validate_device (state : ReplicationAuthorityState hpke) (seen : Nat × List Bytes32)
    (e : ReplicationReplicaId × ReplicationAuthorityDevice hpke) : Answer (Nat × List Bytes32) := do
  refuseIf .InvalidState (e.1 ≠ e.2.replica_id)
  orElse .InvalidState (ReplicationReplicaId.validate e.1)
  refuseIf .DuplicateDeviceKey (e.2.public_key.bytes ∈ seen.2)
  match e.2.status with
  | .Active => return (seen.1 + 1, e.2.public_key.bytes :: seen.2)
  | .Revoked _ revoked_at_revision revoked_at_epoch =>
    refuseIf .InvalidState (revoked_at_revision.value > state.revision.value ∨
      revoked_at_epoch.value > state.key_epoch.value)
    return (seen.1, e.2.public_key.bytes :: seen.2)

def validate (state : ReplicationAuthorityState hpke) : Answer Unit := do
  refuseIf .UnsupportedStateVersion (state.version ≠ REPLICATION_AUTHORITY_STATE_VERSION)
  orElse .InvalidState (ReplicationWorkspaceId.validate state.workspace_id)
  refuseIf .InvalidState
    (state.devices.entries = [] ∨ state.devices.size > MAX_REPLICATION_REPLICAS)
  let seen ← state.devices.entries.foldlM state.validate_device (0, [])
  refuseIf .LastActiveDevice (seen.1 = 0)

end ReplicationAuthorityState

/-! ## Transitions -/

structure ReplicationRecipientKeyPackage where
  recipient : ReplicationReplicaId
  package : WrappedReplicationEpochKey

structure ReplicationEpochDistribution where
  authority_revision : ReplicationAuthorityRevision
  key_epoch : ReplicationKeyEpoch
  packages : List ReplicationRecipientKeyPackage

variable (hpke) in
structure ReplicationAuthorityTransition where
  base_revision : Option ReplicationAuthorityRevision
  state : ReplicationAuthorityState hpke
  epoch_key : ReplicationEpochKey
  distribution : ReplicationEpochDistribution

/-- What each call of `fill` gives during one transition. -/
abbrev ReplicationEntropy := Nat → Option Bytes32

def map_wrapping_error : ReplicationKeyWrappingError → ReplicationAuthorityError
  | .RandomUnavailable => .RandomUnavailable
  | _ => .WrappingFailed

def generate_epoch_key (epoch : ReplicationKeyEpoch) (entropy : Option Bytes32) :
    Answer ReplicationEpochKey :=
  match entropy with
  | none => .error .RandomUnavailable
  | some bytes =>
    if allZero bytes then .error .RandomUnavailable
    else orElse .RandomUnavailable (ReplicationEpochKey.from_bytes epoch bytes)

/-- The packages of some devices. The n-th call of `fill` is for the first of them. -/
def wrap_for (workspace_id : ReplicationWorkspaceId)
    (authority_private : ReplicationAuthorityPrivateKey hpke) (epoch_key : ReplicationEpochKey)
    (entropy : ReplicationEntropy) :
    Nat → List (ReplicationAuthorityDevice hpke) → Answer (List ReplicationRecipientKeyPackage)
  | _, [] => .ok []
  | n, device :: devices => do
    let package ← (wrap_replication_epoch_key_with_entropy ⟨workspace_id, device.replica_id⟩
      authority_private device.public_key epoch_key (entropy n)).mapError map_wrapping_error
    let packages ← wrap_for workspace_id authority_private epoch_key entropy (n + 1) devices
    return ⟨device.replica_id, package⟩ :: packages

def issue_transition (base_revision : Option ReplicationAuthorityRevision)
    (state : ReplicationAuthorityState hpke)
    (authority_private : ReplicationAuthorityPrivateKey hpke) (entropy : ReplicationEntropy) :
    Answer (ReplicationAuthorityTransition hpke) := do
  state.validate
  refuseIf .AuthorityMismatch (state.authority_public_key ≠ authority_private.public_key)
  let epoch_key ← generate_epoch_key state.key_epoch (entropy 0)
  let packages ← wrap_for state.workspace_id authority_private epoch_key entropy 1
    state.active_devices
  refuseIf .LastActiveDevice (packages.isEmpty = true)
  return ⟨base_revision, state, epoch_key, ⟨state.revision, state.key_epoch, packages⟩⟩

def advance_state (state : ReplicationAuthorityState hpke) :
    Answer (ReplicationAuthorityState hpke) := do
  let revision ← state.revision.next
  match checked_next state.key_epoch.value with
  | none => .error .EpochOverflow
  | some value =>
    let key_epoch ← orElse .EpochOverflow (ReplicationKeyEpoch.new value)
    return { state with revision, key_epoch }

def validate_transition_request (state : ReplicationAuthorityState hpke)
    (authority_private : ReplicationAuthorityPrivateKey hpke)
    (expected_revision : ReplicationAuthorityRevision) : Answer Unit := do
  state.validate
  refuseIf .StaleRevision (state.revision ≠ expected_revision)
  refuseIf .AuthorityMismatch (state.authority_public_key ≠ authority_private.public_key)

def bootstrap_replication_authority_with_entropy (workspace_id : ReplicationWorkspaceId)
    (authority_private : ReplicationAuthorityPrivateKey hpke) (initial_replica : ReplicationReplicaId)
    (initial_device_public_key : ReplicationDevicePublicKey hpke) (entropy : ReplicationEntropy) :
    Answer (ReplicationAuthorityTransition hpke) := do
  orElse .InvalidState (ReplicationWorkspaceId.validate workspace_id)
  orElse .InvalidState (ReplicationReplicaId.validate initial_replica)
  let revision ← ReplicationAuthorityRevision.new INITIAL_AUTHORITY_REVISION
  let key_epoch ← orElse .InvalidState (ReplicationKeyEpoch.new INITIAL_KEY_EPOCH)
  let state : ReplicationAuthorityState hpke :=
    ⟨REPLICATION_AUTHORITY_STATE_VERSION, workspace_id, authority_private.public_key, revision,
      key_epoch, SortedMap.empty.insert initial_replica
        ⟨initial_replica, initial_device_public_key, .Active⟩⟩
  state.validate
  issue_transition none state authority_private entropy

def enroll_replication_device_with_entropy (state : ReplicationAuthorityState hpke)
    (authority_private : ReplicationAuthorityPrivateKey hpke)
    (expected_revision : ReplicationAuthorityRevision) (replica_id : ReplicationReplicaId)
    (public_key : ReplicationDevicePublicKey hpke) (entropy : ReplicationEntropy) :
    Answer (ReplicationAuthorityTransition hpke) := do
  validate_transition_request state authority_private expected_revision
  orElse .InvalidState (ReplicationReplicaId.validate replica_id)
  refuseIf .DeviceAlreadyExists (state.devices.contains replica_id = true)
  refuseIf .TooManyDevices (state.devices.size = MAX_REPLICATION_REPLICAS)
  refuseIf .DuplicateDeviceKey
    (state.devices.entries.any (fun e => decide (e.2.public_key = public_key)) = true)
  let next ← advance_state state
  let next := { next with devices := next.devices.insert replica_id ⟨replica_id, public_key, .Active⟩ }
  next.validate
  issue_transition (some state.revision) next authority_private entropy

def rotate_replication_epoch_with_entropy (state : ReplicationAuthorityState hpke)
    (authority_private : ReplicationAuthorityPrivateKey hpke)
    (expected_revision : ReplicationAuthorityRevision) (entropy : ReplicationEntropy) :
    Answer (ReplicationAuthorityTransition hpke) := do
  validate_transition_request state authority_private expected_revision
  let next ← advance_state state
  issue_transition (some state.revision) next authority_private entropy

def revoke_replication_device_with_entropy (state : ReplicationAuthorityState hpke)
    (authority_private : ReplicationAuthorityPrivateKey hpke)
    (expected_revision : ReplicationAuthorityRevision) (replica_id : ReplicationReplicaId)
    (accepted_through : UInt64) (entropy : ReplicationEntropy) :
    Answer (ReplicationAuthorityTransition hpke) := do
  validate_transition_request state authority_private expected_revision
  match state.devices.get? replica_id with
  | none => .error .UnknownDevice
  | some device =>
    refuseIf .DeviceAlreadyRevoked (device.status ≠ .Active)
    refuseIf .LastActiveDevice (state.active_device_count = 1)
    let next ← advance_state state
    match next.devices.get? replica_id with
    | none => .error .UnknownDevice
    | some next_device =>
      let next := { next with
        devices := next.devices.insert replica_id { next_device with
          status := .Revoked accepted_through next.revision next.key_epoch } }
      next.validate
      issue_transition (some state.revision) next authority_private entropy

/-! ## The stored form -/

inductive StoredAuthorityDeviceStatus where
  | Active
  | Revoked (accepted_through revoked_at_revision revoked_at_epoch : UInt64)
  deriving DecidableEq

structure StoredAuthorityDevice where
  replica_id : String
  public_key : Bytes32
  status : StoredAuthorityDeviceStatus
  deriving DecidableEq

structure StoredAuthorityState where
  version : UInt16
  workspace_id : String
  authority_public_key : Bytes32
  revision : UInt64
  key_epoch : UInt64
  devices : List StoredAuthorityDevice
  deriving DecidableEq

/-- How the stored form is written as JSON and read from it. -/
structure SerdeJson where
  to_vec : StoredAuthorityState → Option (List UInt8)
  from_slice : List UInt8 → Option StoredAuthorityState

def ReplicationAuthorityDevice.stored (device : ReplicationAuthorityDevice hpke) :
    StoredAuthorityDevice where
  replica_id := device.replica_id
  public_key := device.public_key.bytes
  status :=
    match device.status with
    | .Active => .Active
    | .Revoked accepted_through revoked_at_revision revoked_at_epoch =>
      .Revoked accepted_through revoked_at_revision.value revoked_at_epoch.value

namespace StoredAuthorityState

def from_state (state : ReplicationAuthorityState hpke) : StoredAuthorityState where
  version := state.version
  workspace_id := state.workspace_id
  authority_public_key := state.authority_public_key.bytes
  revision := state.revision.value
  key_epoch := state.key_epoch.value
  devices := state.devices.entries.map fun e => e.2.stored

def status_from : StoredAuthorityDeviceStatus → Answer ReplicationAuthorityDeviceStatus
  | .Active => .ok .Active
  | .Revoked accepted_through revoked_at_revision revoked_at_epoch => do
    let revision ← ReplicationAuthorityRevision.new revoked_at_revision
    let epoch ← orElse .InvalidState (ReplicationKeyEpoch.new revoked_at_epoch)
    return .Revoked accepted_through revision epoch

def insert_device (devices : SortedMap ReplicationReplicaId (ReplicationAuthorityDevice hpke))
    (stored : StoredAuthorityDevice) :
    Answer (SortedMap ReplicationReplicaId (ReplicationAuthorityDevice hpke)) := do
  orElse .InvalidState (ReplicationReplicaId.validate stored.replica_id)
  let public_key ← orElse .InvalidState (ReplicationDevicePublicKey.from_bytes hpke stored.public_key)
  let status ← status_from stored.status
  refuseIf .InvalidState (devices.contains stored.replica_id = true)
  return devices.insert stored.replica_id ⟨stored.replica_id, public_key, status⟩

variable (hpke) in
def into_state (stored : StoredAuthorityState) : Answer (ReplicationAuthorityState hpke) := do
  refuseIf .UnsupportedStateVersion (stored.version ≠ REPLICATION_AUTHORITY_STATE_VERSION)
  orElse .InvalidState (ReplicationWorkspaceId.validate stored.workspace_id)
  let authority_public_key ← orElse .InvalidState
    (ReplicationAuthorityPublicKey.from_bytes hpke stored.authority_public_key)
  let revision ← ReplicationAuthorityRevision.new stored.revision
  let key_epoch ← orElse .InvalidState (ReplicationKeyEpoch.new stored.key_epoch)
  let devices ← stored.devices.foldlM insert_device SortedMap.empty
  let state : ReplicationAuthorityState hpke :=
    ⟨stored.version, stored.workspace_id, authority_public_key, revision, key_epoch, devices⟩
  state.validate
  return state

end StoredAuthorityState

namespace ReplicationAuthorityState

def to_canonical_bytes (json : SerdeJson) (state : ReplicationAuthorityState hpke) :
    Answer (List UInt8) := do
  state.validate
  match json.to_vec (StoredAuthorityState.from_state state) with
  | none => .error .InvalidState
  | some bytes =>
    refuseIf .StateTooLarge (bytes.length > MAX_REPLICATION_AUTHORITY_STATE_BYTES)
    return bytes

variable (hpke) in
def from_canonical_bytes (json : SerdeJson) (bytes : List UInt8) :
    Answer (ReplicationAuthorityState hpke) := do
  refuseIf .StateTooLarge (bytes.length > MAX_REPLICATION_AUTHORITY_STATE_BYTES)
  match json.from_slice bytes with
  | none => .error .InvalidState
  | some stored =>
    let state ← stored.into_state hpke
    let canonical ← state.to_canonical_bytes json
    refuseIf .NonCanonicalState (canonical ≠ bytes)
    return state

end ReplicationAuthorityState

end multiplex_replication_security
