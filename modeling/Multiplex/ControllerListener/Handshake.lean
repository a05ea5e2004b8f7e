-- How a paired device comes back: it presents the generation and the epoch it
-- remembers, and the Host compares both with its own before it looks at the key.
import Multiplex.ControllerListener.Revocation

open Checks
open multiplex_domain.controller_devices multiplex_store.controller_devices

namespace multiplex_controller_listener

open ControllerDeviceAuthority

inductive ListenerErrorCode where
  | RandomUnavailable
  | RateLimited
  | HandshakeTimeout
  | AuthenticationFailed
  | MalformedFrame
  | FrameTooLarge
  | QueueFull
  | Unauthorized
  | StaleGeneration
  | WriterLeaseRequired
  | HostUnavailable
  | Cancelled
  | Io
  deriving DecidableEq

structure ListenerError where
  code : ListenerErrorCode
  authorization : Option AuthorizationDenial
  deriving DecidableEq

namespace ListenerError

def new (code : ListenerErrorCode) : ListenerError := ⟨code, none⟩

def denied (denial : AuthorizationDenial) : ListenerError := ⟨.Unauthorized, some denial⟩

end ListenerError

abbrev Listened (α : Type) := Except ListenerError α

def authentication_failed : ListenerError := .new .AuthenticationFailed

structure AuthenticatedPeer where
  device_id : ControllerDeviceId
  public_key : Key
  identity_generation : Nat
  revocation_epoch : Nat
  capabilities : ControllerCapabilities
  deriving DecidableEq

/-! ## The handshake of a connection -/

/-- What a device opens a connection with. -/
structure ConnectionPrelude where
  identity_generation : Nat
  revocation_epoch : Nat

structure AuthenticatedPeerClaim where
  device_key : Key
  requested_capabilities : UInt16
  identity_generation : Nat
  revocation_epoch : Nat

/-- The hello as the Noise responder reads it: the key it proves and the capabilities it asks for,
or nothing. It repeats the prelude, and fails where it does not. -/
abbrev Hello := Option (Key × UInt16)

def read_hello (prelude : ConnectionPrelude) (hello : Hello) : Listened AuthenticatedPeerClaim :=
  match hello with
  | none => .error authentication_failed
  | some (device_key, requested_capabilities) =>
    .ok ⟨device_key, requested_capabilities, prelude.identity_generation, prelude.revocation_epoch⟩

def find_authorized_device (a : ControllerDeviceAuthority) (key : Key) : Listened PairedDeviceRecord :=
  match a.devices.find? fun d =>
      d.public_key = key ∧ d.status ≠ .Revoked ∧ d.revocation_epoch = a.revocation_epoch with
  | none => .error authentication_failed
  | some device => .ok device

/-- The Host side of a connection, with the public key of the private key it was started with. -/
def authenticate_controller (sha256 : Sha256) (a : ControllerDeviceAuthority) (host_key : Key)
    (prelude : ConnectionPrelude) (hello : Hello) : Listened AuthenticatedPeer := do
  (a.validate sha256).mapError fun _ => authentication_failed
  refuseIf authentication_failed (a.state ≠ .Ready)
  match a.identity with
  | none => throw authentication_failed
  | some identity =>
    refuseIf authentication_failed (host_key ≠ identity.public_key)
    refuseIf authentication_failed (prelude.identity_generation ≠ identity.generation ∨
      prelude.revocation_epoch ≠ a.revocation_epoch)
    let claim ← read_hello prelude hello
    let device ← find_authorized_device a claim.device_key
    refuseIf authentication_failed (claim.identity_generation ≠ device.identity_generation ∨
      claim.revocation_epoch ≠ device.revocation_epoch)
    let granted_bits := claim.requested_capabilities &&& device.capabilities.bits
    refuseIf authentication_failed (granted_bits = 0)
    let capabilities ← (ControllerCapabilities.from_bits granted_bits).mapError fun _ =>
      authentication_failed
    pure ⟨device.device_id, device.public_key, device.identity_generation, device.revocation_epoch,
      capabilities⟩

/-! ## A command of the connection -/

structure ControllerCommandEnvelope where
  capability : ControllerCapability
  session_generation : Nat
  deadline_millis : Nat

def require_current_peer (a : ControllerDeviceAuthority) (peer : AuthenticatedPeer) : Listened Unit :=
  match a.devices.find? fun d => d.device_id = peer.device_id ∧ d.public_key = peer.public_key with
  | none => .error authentication_failed
  | some current =>
    refuseIf authentication_failed (a.revocation_epoch ≠ peer.revocation_epoch ∨
      current.revocation_epoch ≠ peer.revocation_epoch ∨
      current.identity_generation ≠ peer.identity_generation ∨ current.status = .Revoked)

/-- What the Host checks of a command before the terminal or the screen it is for is looked at. -/
def authorize_command (a : ControllerDeviceAuthority) (peer : AuthenticatedPeer)
    (command : ControllerCommandEnvelope)
    (now_millis : Nat) : Listened Unit := do
  require_current_peer a peer
  match a.authorize
      { device_id := peer.device_id, public_key := peer.public_key,
        identity_generation := peer.identity_generation, capability := command.capability,
        revocation_epoch := peer.revocation_epoch, session_generation := command.session_generation,
        now_millis, deadline_millis := command.deadline_millis } with
  | .Allow => pure ()
  | .Deny denial => throw (.denied denial)

/-! ## A device with what it remembers -/

/-- What the Host told a device in its pairing. A connection tells it nothing newer. -/
structure Remembered where
  identity_generation : Nat
  revocation_epoch : Nat
  session_generation : Nat

/-- The device connects with what it remembers, and sends one command: what the Host makes of it. A
channel with session generation zero is not even opened. -/
def connect_and_send (sha256 : Sha256) (a : ControllerDeviceAuthority) (host_key : Key)
    (memory : Remembered) (device_key : Key) (requested : UInt16) (capability : ControllerCapability)
    (now_millis deadline_millis : Nat) : Listened AuthenticatedPeer := do
  refuseIf (.new .StaleGeneration) (memory.session_generation = 0)
  let peer ← authenticate_controller sha256 a host_key
    ⟨memory.identity_generation, memory.revocation_epoch⟩ (some (device_key, requested))
  refuseIf (.new .Unauthorized) (¬ peer.capabilities.contains capability)
  authorize_command a peer ⟨capability, memory.session_generation, deadline_millis⟩ now_millis
  pure peer

variable {env : Surroundings}

variable {sha256 : Sha256} {a : ControllerDeviceAuthority} {peer : AuthenticatedPeer}

theorem authenticate_controller_epoch {host_key : Key} {prelude : ConnectionPrelude} {hello : Hello}
    (h : authenticate_controller sha256 a host_key prelude hello = .ok peer) :
    prelude.revocation_epoch = a.revocation_epoch := by
  unfold authenticate_controller at h
  simp only [bind_ok_iff, refuseIf_ok_iff] at h
  obtain ⟨_, -, _, -, h⟩ := h
  split at h
  · simp at h
  simp only [bind_ok_iff, refuseIf_ok_iff] at h
  obtain ⟨_, -, _, hprelude, -⟩ := h
  rw [not_or, not_ne_iff, not_ne_iff] at hprelude
  exact hprelude.2

theorem connect_and_send_epoch {host_key device_key : Key} {memory : Remembered}
    {requested : UInt16} {capability : ControllerCapability} {now deadline : Nat}
    (h : connect_and_send sha256 a host_key memory device_key requested capability now deadline =
      .ok peer) : memory.revocation_epoch = a.revocation_epoch := by
  unfold connect_and_send at h
  simp only [bind_ok_iff, refuseIf_ok_iff] at h
  obtain ⟨_, -, _, hpeer, -⟩ := h
  exact authenticate_controller_epoch hpeer

/-! ## After the revocation of another device -/

/-- A device that was served at some point of a run is not served again, with what it remembers,
once any device has been revoked. -/
theorem revoking_one_device_shuts_out_every_other {file : ControllerDeviceDocument}
    (calls later : List Call) {call : Call} {revoked : ControllerDeviceId} {host_key device_key : Key}
    {memory : Remembered} {requested : UInt16} {capability : ControllerCapability}
    {now deadline : Nat} {peer : AuthenticatedPeer}
    (hserved : connect_and_send env.sha256 (run env file calls).authority host_key memory device_key
      requested capability now deadline = .ok peer)
    (hoperation : call.operation = .revoke_device revoked)
    (hok : call.succeeds env (run env file (calls ++ later)) = true) :
    ∀ (host_key : Key) (requested : UInt16) (capability : ControllerCapability) (now deadline : Nat)
      (peer : AuthenticatedPeer),
      connect_and_send env.sha256 (run env file (calls ++ later ++ [call])).authority host_key memory
        device_key requested capability now deadline ≠ .ok peer := by
  intro host_key' requested' capability' now' deadline' peer' hagain
  have hbefore := connect_and_send_epoch hserved
  have hafter := connect_and_send_epoch hagain
  rw [run_concat] at hafter
  have hmoved := (ends_step (Or.inl hoperation : call.ends revoked) hok).1
  have hle := (counters_run env (run env file calls) later).1
  rw [run_append] at hmoved hafter
  omega

/-- A phone and a tablet, which is then revoked. -/
def sampleTablet : PairedDeviceRecord :=
  { samplePhone with device_id := 11, public_key := Vector.replicate 32 9, display_name := "Tablet" }

theorem the_phone_is_served_before_the_tablet_is_revoked :
    connect_and_send sampleSurroundings.sha256 (sampleFile [samplePhone, sampleTablet]).authority
        sampleHostKey ⟨1, 1, 1⟩ samplePhone.public_key 5 .SendInput 10 20 =
      .ok ⟨7, samplePhone.public_key, 1, 1, ⟨5⟩⟩ ∧ connect_and_send sampleSurroundings.sha256
        (run sampleSurroundings (sampleFile [samplePhone, sampleTablet])
          [⟨4, .revoke_device 11, .written⟩]).authority
        sampleHostKey ⟨1, 1, 1⟩ samplePhone.public_key 5 .SendInput 10 20 ≠
      .ok ⟨7, samplePhone.public_key, 1, 1, ⟨5⟩⟩ := by
  have hserved : connect_and_send sampleSurroundings.sha256
      (sampleFile [samplePhone, sampleTablet]).authority
      sampleHostKey ⟨1, 1, 1⟩ samplePhone.public_key 5 .SendInput 10 20 =
        .ok ⟨7, samplePhone.public_key, 1, 1, ⟨5⟩⟩ := by decide +kernel
  refine ⟨hserved, ?_⟩
  exact revoking_one_device_shuts_out_every_other [] [] hserved rfl (by decide +kernel)
    sampleHostKey 5 .SendInput 10 20 _

theorem revoking_the_tablet_shuts_out_the_phone :
    ¬ ∀ (env : Surroundings) (file : ControllerDeviceDocument) (calls : List Call) (call : Call)
      (revoked : ControllerDeviceId) (device : PairedDeviceRecord) (host_key : Key)
      (memory : Remembered) (requested : UInt16) (capability : ControllerCapability)
      (now deadline : Nat) (peer : AuthenticatedPeer), file.authority.validate env.sha256 = .ok () →
      (run env file calls).authority.state = .Ready → call.operation = .revoke_device revoked →
      call.succeeds env (run env file calls) = true →
      device ∈ (run env file calls).authority.devices → device.device_id ≠ revoked →
      device.status ≠ .Revoked →
      connect_and_send env.sha256 (run env file calls).authority host_key memory device.public_key
        requested capability now deadline = .ok peer →
      ∃ peer, connect_and_send env.sha256 (run env file (calls ++ [call])).authority host_key memory
        device.public_key requested capability now deadline = .ok peer := by
  intro h
  obtain ⟨peer, hpeer⟩ := h sampleSurroundings (sampleFile [samplePhone, sampleTablet]) []
    ⟨4, .revoke_device 11, .written⟩ 11 samplePhone sampleHostKey ⟨1, 1, 1⟩ 5 .SendInput 10 20
    ⟨7, samplePhone.public_key, 1, 1, ⟨5⟩⟩ (by decide +kernel) rfl rfl (by decide +kernel)
    (by decide +kernel) (by decide) (by decide) (by decide +kernel)
  have hrefused : (connect_and_send sampleSurroundings.sha256
      (run sampleSurroundings (sampleFile [samplePhone, sampleTablet])
        ([] ++ [⟨4, .revoke_device 11, .written⟩])).authority
      sampleHostKey ⟨1, 1, 1⟩ samplePhone.public_key 5 .SendInput 10 20).toBool = false := by
    decide +kernel
  rw [hpeer] at hrefused
  cases hrefused

end multiplex_controller_listener
