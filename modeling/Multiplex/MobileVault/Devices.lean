-- The devices of a mobile vault and the keys that are wrapped for them. Devices
-- and keys are two lists that an id joins. Pairing takes an id as it comes,
-- while revoking and looking up trim it first.
import Multiplex.Lib.Runs
import Multiplex.Domain.Sessions

open FirstMatch
open multiplex_domain.session (trim)

namespace multiplex_protocol

def MOBILE_VAULT_SCHEMA_VERSION : Nat := 1
def MOBILE_DEVICE_WRAPPING_ALGORITHM : List Char := "x25519-xsalsa20poly1305".toList

/-! ## Records -/

structure MobileDeviceRecord where
  device_id : List Char
  label : List Char
  platform : Option (List Char)
  public_key : Option (List Char)
  paired_at_millis : Option Nat
  last_seen_at_millis : Option Nat
  revoked_at_millis : Option Nat
  deriving DecidableEq

structure MobileDeviceVaultKey where
  key_id : List Char
  device_id : List Char
  wrapping_algorithm : List Char
  encrypted_vault_key : List Char
  created_at_millis : Option Nat
  revoked_at_millis : Option Nat
  deriving DecidableEq

structure MobileSyncMetadata where
  revision : Nat
  deriving DecidableEq

/-- The export, as far as devices change it. -/
structure MobileVaultExport where
  updated_at_millis : Nat
  sync : MobileSyncMetadata
  devices : List MobileDeviceRecord
  device_keys : List MobileDeviceVaultKey
  deriving DecidableEq

def MobileVaultExport.empty : MobileVaultExport := ⟨0, ⟨0⟩, [], []⟩

structure MobileDevicePairingRequest where
  schema_version : Nat
  request_id : List Char
  device_id : List Char
  label : List Char
  platform : List Char
  public_key : Option (List Char)

inductive MobileDevicePairingError where
  | UnsupportedSchemaVersion (version : Nat)
  | MissingRequestId
  | MissingDeviceId
  | MissingLabel
  | MissingPlatform
  | MissingEncryptedVaultKey
  | MissingKeyId
  | DeviceRevoked (device_id : List Char)
  | UnknownDevice (device_id : List Char)
  deriving DecidableEq

/-! ## Pairing and revoking -/

def MobileDevicePairingRequest.validate (request : MobileDevicePairingRequest) :
    Except MobileDevicePairingError Unit :=
  if request.schema_version ≠ MOBILE_VAULT_SCHEMA_VERSION then
    .error (.UnsupportedSchemaVersion request.schema_version)
  else if trim request.request_id = [] then .error .MissingRequestId
  else if trim request.device_id = [] then .error .MissingDeviceId
  else if trim request.label = [] then .error .MissingLabel
  else if trim request.platform = [] then .error .MissingPlatform
  else .ok ()

def MobileDeviceVaultKey.active_for (key : MobileDeviceVaultKey) (device_id : List Char) : Bool :=
  key.device_id = device_id ∧ key.revoked_at_millis = none

/-- The loop that revokes every key of a device that still counts. -/
def revoke_keys (device_id : List Char) (millis : Nat) (keys : List MobileDeviceVaultKey) :
    List MobileDeviceVaultKey :=
  keys.map fun key =>
    if key.active_for device_id then { key with revoked_at_millis := some millis } else key

namespace MobileVaultExport

def is_device_revoked (e : MobileVaultExport) (device_id : List Char) : Bool :=
  let device_id := trim device_id
  decide (device_id ≠ []) &&
    e.devices.any fun device => device.device_id = device_id ∧ device.revoked_at_millis.isSome

def active_device_key (e : MobileVaultExport) (device_id : List Char) : Option MobileDeviceVaultKey :=
  let device_id := trim device_id
  if device_id = [] ∨ e.is_device_revoked device_id then none
  else e.device_keys.find? fun key => key.active_for device_id

/-- What both calls do last. -/
def touch (e : MobileVaultExport) (millis : Nat) : MobileVaultExport :=
  { e with
    updated_at_millis := max e.updated_at_millis millis
    sync := ⟨min (e.sync.revision + 1) (2 ^ 64 - 1)⟩ }

def record_device (e : MobileVaultExport) (request : MobileDevicePairingRequest) (millis : Nat) :
    MobileVaultExport :=
  if e.devices.any fun device => device.device_id = request.device_id then
    { e with
      devices := updateFirst (fun device => device.device_id = request.device_id)
        (fun device =>
          { device with
            label := request.label
            platform := some request.platform
            public_key := request.public_key
            paired_at_millis := device.paired_at_millis.or (some millis)
            last_seen_at_millis := some millis }) e.devices }
  else
    { e with
      devices := e.devices ++ [⟨request.device_id, request.label, some request.platform,
        request.public_key, some millis, some millis, none⟩] }

def paired_key (request : MobileDevicePairingRequest) (encrypted_vault_key key_id : List Char)
    (created_at_millis : Nat) : MobileDeviceVaultKey :=
  ⟨key_id, request.device_id, MOBILE_DEVICE_WRAPPING_ALGORITHM, encrypted_vault_key,
    some created_at_millis, none⟩

def apply_pairing_request (e : MobileVaultExport) (request : MobileDevicePairingRequest)
    (encrypted_vault_key key_id : List Char) (created_at_millis : Nat) :
    Except MobileDevicePairingError Unit × MobileVaultExport :=
  match request.validate with
  | .error error => (.error error, e)
  | .ok () =>
    if e.is_device_revoked request.device_id then (.error (.DeviceRevoked request.device_id), e)
    else if trim encrypted_vault_key = [] then (.error .MissingEncryptedVaultKey, e)
    else if trim key_id = [] then (.error .MissingKeyId, e)
    else
      let e := e.record_device request created_at_millis
      let e := { e with device_keys := revoke_keys request.device_id created_at_millis e.device_keys }
      let key := paired_key request encrypted_vault_key key_id created_at_millis
      let e := { e with device_keys := e.device_keys ++ [key] }
      (.ok (), e.touch created_at_millis)

def revoke_device (e : MobileVaultExport) (device_id : List Char) (revoked_at_millis : Nat) :
    Except MobileDevicePairingError Unit × MobileVaultExport :=
  let device_id := trim device_id
  if device_id = [] then (.error .MissingDeviceId, e)
  else if e.devices.any fun device => device.device_id = device_id then
    let e := { e with
      devices := updateFirst (fun device => device.device_id = device_id)
        (fun device =>
          { device with
            revoked_at_millis := some revoked_at_millis
            last_seen_at_millis := some revoked_at_millis }) e.devices }
    let e := { e with device_keys := revoke_keys device_id revoked_at_millis e.device_keys }
    (.ok (), e.touch revoked_at_millis)
  else (.error (.UnknownDevice device_id), e)

end MobileVaultExport

/-! ## Calls -/

structure Pairing where
  request : MobileDevicePairingRequest
  encrypted_vault_key : List Char
  key_id : List Char
  created_at_millis : Nat

inductive VaultCall where
  | pair (pairing : Pairing)
  | revoke (device_id : List Char) (revoked_at_millis : Nat)

def Pairing.key (p : Pairing) : MobileDeviceVaultKey :=
  MobileVaultExport.paired_key p.request p.encrypted_vault_key p.key_id p.created_at_millis

namespace MobileVaultExport

def call (e : MobileVaultExport) : VaultCall → Except MobileDevicePairingError Unit × MobileVaultExport
  | .pair p =>
    e.apply_pairing_request p.request p.encrypted_vault_key p.key_id p.created_at_millis
  | .revoke device_id revoked_at_millis => e.revoke_device device_id revoked_at_millis

def step (e : MobileVaultExport) (c : VaultCall) : MobileVaultExport := (e.call c).2

/-- The export after some calls, whether they succeed or not. -/
def after (e : MobileVaultExport) (calls : List VaultCall) : MobileVaultExport :=
  Runs.run step e calls

/-- A call that succeeds. -/
def accepts (e : MobileVaultExport) (c : VaultCall) : Bool := (e.call c).1.toBool

end MobileVaultExport

end multiplex_protocol
