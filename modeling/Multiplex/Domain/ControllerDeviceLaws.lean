-- What each operation on the devices does where it succeeds: one law for each
-- of them, from which everything said about whole runs follows.
import Multiplex.Domain.ControllerDevices

open Checks FirstMatch

namespace multiplex_domain.controller_devices

namespace ControllerDeviceAuthority

variable {sha256 : Sha256} {a a' : ControllerDeviceAuthority}

/-! ## Offers -/

variable {offer_id : PairingOfferId} {f : PairingOfferRecord → PairingOfferRecord}
  {record : PairedDeviceRecord} {device_id : ControllerDeviceId} {public_key : Key}
  {display_name : String}

variable {other : PairingOfferId} {offer : PairingOfferRecord} {now : Nat}
  {capabilities : ControllerCapabilities} {capability : ControllerCapability}

theorem create_offer_ok {nonce : Key} {expires_at : Nat} {route_candidates : List String}
    (h : a.create_offer sha256 offer_id nonce now expires_at capabilities route_candidates =
      (.ok offer, a')) :
    a.state = .Ready ∧ a.pending < MAX_PENDING_PAIRING_OFFERS ∧ offer.offer_id = offer_id ∧
      offer.state = .Offered ∧ ∃ attempts, a' = { a with attempts, offers := a.offers ++ [offer] } := by
  unfold create_offer at h
  split at h
  · simp at h
  rename_i hready
  split at h
  · simp at h
  rename_i attempts _
  dsimp only at h
  split at h
  · simp at h
  rename_i hroom
  split at h
  · simp at h
  split at h
  · simp at h
  obtain ⟨rfl, rfl⟩ := h
  exact ⟨not_not.mp hready, not_le.mp hroom, rfl, rfl, attempts, rfl⟩

theorem offer?_with_record :
    (a.with_record offer_id record).offer? offer_id = (a.offer? offer_id).map fun o =>
      { o with state := .Persisted, paired_device_key := some record.public_key } := by
  apply find?_updateFirst
  intro o ho
  exact ho

/-- A pairing that is saved: either the record was there, or the offer is used up for it. -/
inductive Paired (a : ControllerDeviceAuthority) (offer_id : PairingOfferId)
    (device_id : ControllerDeviceId) (public_key : Key) (display_name : String) (now : Nat)
    (record : PairedDeviceRecord) : ControllerDeviceAuthority → Prop where
  | again
      (known : record ∈ a.devices)
      (same : record.device_id = device_id ∧ record.public_key = public_key ∧
        record.source_offer_id = offer_id) :
      Paired a offer_id device_id public_key display_name now record a
  | anew (offer : PairingOfferRecord)
      (found : a.offer? offer_id = some offer)
      (intime : now ≤ offer.expires_at)
      (ready : offer.state = .SasReady ∨ offer.state = .HostConfirmed)
      (eq : record = a.paired_record offer device_id public_key display_name
        ⟨offer.capabilities.bits ||| a.previous_capability_bits device_id⟩ now) :
      Paired a offer_id device_id public_key display_name now record
        (a.with_record offer_id record)

theorem from_bits_ok {bits : UInt16}
    (h : ControllerCapabilities.from_bits bits = .ok capabilities) : capabilities = ⟨bits⟩ := by
  unfold ControllerCapabilities.from_bits at h
  split at h
  · exact (Except.ok.inj h).symm
  · cases h

theorem persist_new_ok
    (h : a.persist_new offer_id device_id public_key display_name now = (.ok record, a')) :
    ∃ offer, a.offer? offer_id = some offer ∧ now ≤ offer.expires_at ∧
      (offer.state = .SasReady ∨ offer.state = .HostConfirmed) ∧
      record = a.paired_record offer device_id public_key display_name
        ⟨offer.capabilities.bits ||| a.previous_capability_bits device_id⟩ now ∧
      a' = a.with_record offer_id record := by
  unfold persist_new at h
  split at h
  · simp at h
  split at h
  · simp at h
  rename_i offer hfound
  split at h
  · simp at h
  rename_i hintime
  split at h
  · simp at h
  rename_i hstate
  split at h
  · simp at h
  rename_i capabilities hbits
  dsimp only at h
  split at h
  · simp at h
  obtain ⟨rfl, rfl⟩ := h
  refine ⟨offer, hfound, not_lt.mp hintime, ?_, ?_, rfl⟩
  · by_contra hnot
    rw [not_or] at hnot
    exact hstate hnot
  · rw [from_bits_ok hbits]

section
variable (h : a.persist_pairing offer_id device_id public_key display_name now = (.ok record, a'))
include h

theorem persist_pairing_ok : Paired a offer_id device_id public_key display_name now record a' := by
  have hanew (h : a.persist_new offer_id device_id public_key display_name now = (.ok record, a')) :
      Paired a offer_id device_id public_key display_name now record a' := by
    obtain ⟨offer, found, intime, ready, eq, rfl⟩ := persist_new_ok h
    exact Paired.anew offer found intime ready eq
  unfold persist_pairing at h
  split at h
  · exact hanew h
  rename_i existing hexisting
  split at h
  · rename_i hsame
    obtain ⟨rfl, rfl⟩ := h
    exact Paired.again (List.mem_of_find?_eq_some hexisting) hsame
  · split at h
    · simp at h
    · exact hanew h

end

theorem acknowledge_pairing_ok
    (h : a.acknowledge_pairing offer_id public_key = (.ok device_id, a')) :
    (∃ device ∈ a.devices, device.source_offer_id = offer_id ∧ device.public_key = public_key ∧
      device.device_id = device_id) ∧
    a' = a.with_offer offer_id fun o => { o with state := .Acknowledged } := by
  unfold acknowledge_pairing at h
  split at h
  · simp at h
  · rename_i device hdevice
    obtain ⟨rfl, rfl⟩ := h
    have hmatch := List.find?_some hdevice
    simp at hmatch
    exact ⟨⟨device, List.mem_of_find?_eq_some hdevice, hmatch.1, hmatch.2, rfl⟩, rfl⟩

/-! ## Revocation and reset -/

def revokedIn (device_id : ControllerDeviceId) (epoch : Nat) (d : PairedDeviceRecord) :
    PairedDeviceRecord :=
  { d with
    revocation_epoch := epoch
    status := if d.device_id = device_id then .Revoked else d.status }

theorem revoke_device_ok {epoch : Nat} (h : a.revoke_device device_id = (.ok epoch, a')) :
    epoch = a.revocation_epoch + 1 ∧ a' = { a with
      revocation_epoch := a.revocation_epoch + 1
      session_generation := a.session_generation + 1
      devices := a.devices.map (revokedIn device_id (a.revocation_epoch + 1)) } := by
  unfold revoke_device at h
  split at h
  · simp at h
  split at h
  · simp at h
  rename_i next hnext
  split at h
  · simp at h
  rename_i generation hgeneration
  obtain ⟨rfl, rfl⟩ := h
  obtain ⟨-, rfl⟩ := checked_next_eq_some.mp hnext
  obtain ⟨-, rfl⟩ := checked_next_eq_some.mp hgeneration
  exact ⟨rfl, rfl⟩

theorem begin_identity_reset_ok {generation : Nat}
    (h : a.begin_identity_reset = (.ok generation, a')) : a' = { a with
      revocation_epoch := a.revocation_epoch + 1
      session_generation := a.session_generation + 1
      devices := a.devices.map fun d =>
        { d with status := .Revoked, revocation_epoch := a.revocation_epoch + 1 }
      offers := a.offers.map fun o => if o.is_pending then { o with state := .Rejected } else o
      state := .ResetRequired } := by
  unfold begin_identity_reset at h
  split at h
  · simp at h
  split at h
  · simp at h
  rename_i epoch hepoch
  split at h
  · simp at h
  rename_i session hsession
  obtain ⟨-, rfl⟩ := h
  obtain ⟨-, rfl⟩ := checked_next_eq_some.mp hepoch
  obtain ⟨-, rfl⟩ := checked_next_eq_some.mp hsession
  rfl

theorem finish_identity_reset_ok {identity : HostIdentityPublic} {secret_ref : HostIdentitySecretRef}
    {u : Unit} (h : a.finish_identity_reset sha256 identity secret_ref = (.ok u, a')) :
    a' = { a with
      identity := some identity, secret_ref := some secret_ref, state := .Ready, offers := [] } := by
  unfold finish_identity_reset at h
  split at h
  · simp at h
  split at h
  · simp at h
  split at h
  · simp at h
  · exact (Prod.mk.inj h).2.symm

/-! ## Requests -/

structure Allowed (a : ControllerDeviceAuthority) (request : AuthorizationRequest)
    (device : PairedDeviceRecord) : Prop where
  known : device ∈ a.devices
  device_id : device.device_id = request.device_id
  live : device.status ≠ .Revoked
  epoch : request.revocation_epoch = a.revocation_epoch
  contains : device.capabilities.contains request.capability = true

theorem authorize_allow {request : AuthorizationRequest} (h : a.authorize request = .Allow) :
    ∃ device, Allowed a request device := by
  unfold authorize at h
  split at h
  · cases h
  split at h
  · cases h
  split at h
  · cases h
  rename_i device hdevice
  split at h
  · cases h
  rename_i hlive
  split at h
  · cases h
  split at h
  · cases h
  rename_i hepoch
  split at h
  · cases h
  split at h
  · cases h
  split at h
  · cases h
  rename_i hcontains
  rw [not_or, not_ne_iff, not_ne_iff] at hepoch
  have hmatch := List.find?_some hdevice
  simp at hmatch
  exact ⟨device, List.mem_of_find?_eq_some hdevice, hmatch.1, hlive, hepoch.1, not_not.mp hcontains⟩

/-! ## The capabilities of earlier records -/

theorem or_and {x y z : UInt16} : (x ||| y) &&& z = x &&& z ||| y &&& z := by
  rw [← UInt16.toBitVec_inj]
  exact BitVec.and_or_distrib_right

theorem contains_or {x y : UInt16}
    (h : ControllerCapabilities.contains ⟨x ||| y⟩ capability = true) :
    ControllerCapabilities.contains ⟨x⟩ capability = true ∨
      ControllerCapabilities.contains ⟨y⟩ capability = true := by
  unfold ControllerCapabilities.contains at *
  simp at *
  by_contra hnot
  rw [not_or, not_ne_iff, not_ne_iff] at hnot
  apply h
  rw [or_and, hnot.1, hnot.2]
  rfl

theorem contains_previous
    (h : ControllerCapabilities.contains ⟨a.previous_capability_bits device_id⟩ capability = true) :
    ∃ device ∈ a.devices, device.device_id = device_id ∧
      device.capabilities.contains capability = true := by
  have hfold : ∀ (l : List PairedDeviceRecord) (bits : UInt16),
      ControllerCapabilities.contains
        ⟨l.foldl (fun bits d => bits ||| d.capabilities.bits) bits⟩ capability = true →
      ControllerCapabilities.contains ⟨bits⟩ capability = true ∨
        ∃ device ∈ l, device.capabilities.contains capability = true := by
    intro l
    induction l with
    | nil => exact fun bits h => .inl h
    | cons d l ih =>
      intro bits h
      rcases ih _ h with hbits | ⟨device, hmem, hcontains⟩
      · rcases contains_or hbits with hbits | hd
        · exact .inl hbits
        · exact .inr ⟨d, List.mem_cons_self, hd⟩
      · exact .inr ⟨device, List.mem_cons_of_mem _ hmem, hcontains⟩
  rcases hfold _ _ h with hzero | ⟨device, hmem, hcontains⟩
  · simp [ControllerCapabilities.contains] at hzero
  · rw [List.mem_filter, decide_eq_true_eq] at hmem
    exact ⟨device, hmem.1, hmem.2, hcontains⟩

end ControllerDeviceAuthority

end multiplex_domain.controller_devices
