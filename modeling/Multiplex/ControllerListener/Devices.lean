-- What happens over time to the devices that may control this computer: which
-- record a device has after each update, and that a revoked device gets
-- nothing back by itself.
import Multiplex.Store.ControllerDevices

open Checks FirstMatch
open multiplex_domain.controller_devices multiplex_store.controller_devices

namespace multiplex_controller_listener

/-! ## The operations of the service and the listener -/

/-- The loop of `set_capabilities`, which stops at the first record that would not be valid. -/
def set_each (device_id : ControllerDeviceId) (capabilities : ControllerCapabilities) :
    List PairedDeviceRecord → Fallible Bool × List PairedDeviceRecord
  | [] => (.ok false, [])
  | device :: rest =>
    if device.device_id = device_id ∧ device.status ≠ .Revoked then
      let device := { device with capabilities }
      match device.validate with
      | .error e => (.error e, device :: rest)
      | .ok () =>
        match set_each device_id capabilities rest with
        | (.error e, rest) => (.error e, device :: rest)
        | (.ok _, rest) => (.ok true, device :: rest)
    else
      match set_each device_id capabilities rest with
      | (found, rest) => (found, device :: rest)

/-- What `set_capabilities` does to the authority within its update. -/
def grant (device_id : ControllerDeviceId) (capabilities : ControllerCapabilities)
    (a : ControllerDeviceAuthority) : Outcome Unit :=
  match set_each device_id capabilities a.devices with
  | (.error e, devices) => (.error e, { a with devices })
  | (.ok false, devices) => (.error .DeviceNotFound, { a with devices })
  | (.ok true, devices) => (.ok (), { a with devices })

/-- What `set_offer_state` does to the authority within its update. -/
def put_offer_state (offer_id : PairingOfferId) (state : PairingOfferState)
    (a : ControllerDeviceAuthority) : Outcome Unit :=
  match a.offer? offer_id with
  | none => (.error .OfferNotFound, a)
  | some _ => (.ok (), a.with_offer offer_id fun o => { o with state })

def set_capabilities (env : Surroundings) (file : ControllerDeviceDocument)
    (device_id : ControllerDeviceId) (capabilities : ControllerCapabilities) (expected : Nat)
    (write : AtomicWrite) : Stored (ControllerDeviceSnapshot × Unit) × ControllerDeviceDocument :=
  match ControllerCapabilities.from_bits capabilities.bits with
  | .error e => (.error (.Domain e), file)
  | .ok _ => update env file expected (grant device_id capabilities) write

inductive Operation where
  | create_offer (offer_id : PairingOfferId) (nonce : Key) (now expires_at : Nat)
      (capabilities : ControllerCapabilities) (route_candidates : List String)
  | set_offer_state (offer_id : PairingOfferId) (state : PairingOfferState)
  | persist_pairing (offer_id : PairingOfferId) (device_id : ControllerDeviceId) (public_key : Key)
      (display_name : String) (now : Nat)
  | acknowledge_pairing (offer_id : PairingOfferId) (public_key : Key)
  | set_capabilities (device_id : ControllerDeviceId) (capabilities : ControllerCapabilities)
  | revoke_device (device_id : ControllerDeviceId)
  | begin_identity_reset
  | finish_identity_reset (identity : HostIdentityPublic) (secret_ref : HostIdentitySecretRef)

def silent {α : Type} (outcome : Outcome α) : Outcome Unit := (outcome.1.map fun _ => (), outcome.2)

def Operation.on (sha256 : Sha256) (a : ControllerDeviceAuthority) : Operation → Outcome Unit
  | .create_offer offer_id nonce now expires_at capabilities route_candidates =>
    silent (a.create_offer sha256 offer_id nonce now expires_at capabilities route_candidates)
  | .set_offer_state offer_id state => put_offer_state offer_id state a
  | .persist_pairing offer_id device_id public_key display_name now =>
    silent (a.persist_pairing offer_id device_id public_key display_name now)
  | .acknowledge_pairing offer_id public_key => silent (a.acknowledge_pairing offer_id public_key)
  | .set_capabilities device_id capabilities => grant device_id capabilities a
  | .revoke_device device_id => silent (a.revoke_device device_id)
  | .begin_identity_reset => silent a.begin_identity_reset
  | .finish_identity_reset identity secret_ref =>
    a.finish_identity_reset sha256 identity secret_ref

/-- One update: the revision it expects, what it does, and what becomes of its write. -/
structure Call where
  expected : Nat
  operation : Operation
  write : AtomicWrite

variable (env : Surroundings)

def Call.answer (call : Call) (file : ControllerDeviceDocument) :
    Stored (ControllerDeviceSnapshot × Unit) × ControllerDeviceDocument :=
  match call.operation with
  | .set_capabilities device_id capabilities =>
    set_capabilities env file device_id capabilities call.expected call.write
  | operation => update env file call.expected (fun a => operation.on env.sha256 a) call.write

def Call.succeeds (call : Call) (file : ControllerDeviceDocument) : Bool :=
  (call.answer env file).1.toBool

def step (file : ControllerDeviceDocument) (call : Call) : ControllerDeviceDocument :=
  (call.answer env file).2

def run (file : ControllerDeviceDocument) (calls : List Call) : ControllerDeviceDocument :=
  calls.foldl (step env) file

variable (file : ControllerDeviceDocument) (calls : List Call)

@[simp] theorem run_nil : run env file [] = file := rfl

@[simp] theorem run_concat (call : Call) :
    run env file (calls ++ [call]) = step env (run env file calls) call := by
  unfold run
  rw [List.foldl_append]
  rfl

theorem run_append (later : List Call) :
    run env file (calls ++ later) = run env (run env file calls) later := by
  exact List.foldl_append

/-! ## One call -/

variable {env}

variable {u : Unit} {device_id : ControllerDeviceId} {capabilities : ControllerCapabilities}

theorem silent_ok {α : Type} {outcome : Outcome α} {a : ControllerDeviceAuthority}
    (h : silent outcome = (.ok u, a)) : ∃ answer, outcome = (.ok answer, a) := by
  obtain ⟨result, authority⟩ := outcome
  cases result with
  | error e => simp [silent, Except.map] at h
  | ok answer =>
    simp [silent] at h
    exact ⟨answer, by rw [h.2]⟩

theorem set_each_ok {l l' : List PairedDeviceRecord} {found : Bool}
    (h : set_each device_id capabilities l = (.ok found, l')) : l' = l.map fun d =>
      if d.device_id = device_id ∧ d.status ≠ .Revoked then { d with capabilities } else d := by
  induction l generalizing found l' with
  | nil =>
    exact (Prod.mk.inj h).2.symm
  | cons d l ih =>
    unfold set_each at h
    rw [List.map_cons]
    split at h
    · rename_i hlive
      rw [if_pos hlive]
      dsimp only at h
      split at h
      · simp at h
      split at h
      · simp at h
      · rename_i hrest
        rw [← ih hrest]
        exact (Prod.mk.inj h).2.symm
    · rename_i hother
      rw [if_neg hother]
      rw [← ih (Prod.ext (Prod.mk.inj h).1 rfl)]
      exact (Prod.mk.inj h).2.symm

theorem grant_ok {a a' : ControllerDeviceAuthority}
    (h : grant device_id capabilities a = (.ok u, a')) :
    a' = { a with devices := a.devices.map fun d =>
      if d.device_id = device_id ∧ d.status ≠ .Revoked then { d with capabilities } else d } := by
  unfold grant at h
  split at h
  · simp at h
  · simp at h
  · rename_i devices hdevices
    rw [← set_each_ok hdevices]
    exact (Prod.mk.inj h).2.symm

theorem put_offer_state_ok {offer_id : PairingOfferId} {state : PairingOfferState}
    {a a' : ControllerDeviceAuthority} (h : put_offer_state offer_id state a = (.ok u, a')) :
    (∃ offer, a.offer? offer_id = some offer) ∧
      a' = a.with_offer offer_id fun o => { o with state } := by
  unfold put_offer_state at h
  split at h
  · simp at h
  · rename_i offer hoffer
    exact ⟨⟨offer, hoffer⟩, (Prod.mk.inj h).2.symm⟩

theorem answer_updated {file : ControllerDeviceDocument} {call : Call} :
    Updated env file call.expected (fun a => call.operation.on env.sha256 a) call.write
      (call.answer env file).1 (call.answer env file).2 := by
  unfold Call.answer
  split
  · rename_i device_id capabilities hoperation
    unfold set_capabilities
    rw [hoperation]
    split
    · exact Updated.refused _
    · exact update_updated
  · exact update_updated

/-! ## A computer with its devices -/

def sampleHostKey : Key := Vector.ofFn fun i => UInt8.ofNat i.val

/-- The digest that stands in the tests of the source for the key 0, 1, …, 31. -/
def sampleDigest : Key :=
  #v[0xc6, 0xd5, 0xa8, 0xcd, 0x2f, 0x45, 0x2d, 0x06, 0x6c, 0xde, 0xc3, 0x23, 0x71, 0x5e, 0x84, 0x89,
    0x1e, 0x7b, 0x1b, 0xe8, 0xd8, 0xfe, 0x68, 0xda, 0x67, 0x75, 0xd0, 0xfe, 0xf1, 0xc0, 0x31, 0xad]

def sampleSurroundings : Surroundings where
  sha256 := fun bytes =>
    if bytes = FINGERPRINT_DOMAIN ++ sampleHostKey.toList then sampleDigest else Vector.replicate 32 0
  encoded_len := fun _ => 2048

def sampleHost : HostIdentityPublic := ⟨1, sampleHostKey, sampleDigest⟩

def samplePhone : PairedDeviceRecord where
  device_id := 7
  public_key := Vector.replicate 32 8
  display_name := "Phone"
  capabilities := ⟨5⟩
  protocol_range := .V1
  created_at := 1
  last_seen_at := none
  revocation_epoch := 1
  identity_generation := 1
  status := .Offline
  source_offer_id := 3

def sampleFile (devices : List PairedDeviceRecord) : ControllerDeviceDocument :=
  ⟨1, 4, ⟨some sampleHost, some ⟨"identity:test"⟩, .Ready, 1, 1, devices, [], ⟨[]⟩⟩⟩

end multiplex_controller_listener
