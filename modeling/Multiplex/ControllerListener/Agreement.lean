-- Whether the two sides of a pairing agree on it. The Host acknowledges the
-- record that it saved and the device expects what its offer announced, so they
-- agree exactly where the record is the one the offer describes.
import Multiplex.ControllerListener.Registration

open Checks
open multiplex_domain.controller_devices multiplex_store.controller_devices

namespace multiplex_controller_listener

open ControllerDeviceAuthority

variable {env : Surroundings} {json_len : Control → Nat}

/-! ## The frames that pass between the two sides -/

variable {bytes : Control}

theorem encode_control_ok {value : Control} (h : encode_control json_len value = .ok bytes) :
    bytes = value ∧ json_len value ≠ 0 ∧ json_len value ≤ MAX_PAIRING_CONTROL_BYTES := by
  unfold encode_control at h
  simp only [bind_ok_iff, refuseIf_ok_iff, pure_ok_iff, not_or, not_lt] at h
  obtain ⟨_, ⟨hsome, hroom⟩, rfl⟩ := h
  exact ⟨rfl, hsome, hroom⟩

variable {ack : PairingHostAck} {registration : PairingDeviceRegistration}

theorem encode_ack_ok (h : ack.encode json_len = .ok bytes) : bytes = .ack ack := by
  unfold PairingHostAck.encode at h
  simp only [bind_ok_iff] at h
  obtain ⟨_, -, h⟩ := h
  exact (encode_control_ok h).1

theorem decode_ack_encode (h : ack.encode json_len = .ok bytes) :
    PairingHostAck.decode json_len bytes = .ok ack := by
  obtain rfl := encode_ack_ok h
  have hlen : decode_control json_len (.ack ack) = .ok (.ack ack) := by
    unfold PairingHostAck.encode at h
    simp only [bind_ok_iff] at h
    obtain ⟨_, -, h⟩ := h
    exact h
  unfold PairingHostAck.decode
  rw [hlen]
  change (ack.encode json_len >>= fun _ => pure ack) = .ok ack
  rw [h]
  rfl

theorem encode_registration_ok (h : registration.encode json_len = .ok bytes) :
    bytes = .registration registration := by
  unfold PairingDeviceRegistration.encode at h
  simp only [bind_ok_iff] at h
  obtain ⟨_, -, h⟩ := h
  exact (encode_control_ok h).1

theorem decode_registration_ok {decoded : PairingDeviceRegistration}
    (h : PairingDeviceRegistration.decode json_len (.registration registration) = .ok decoded) :
    decoded = registration := by
  unfold PairingDeviceRegistration.decode decode_control at h
  simp only [bind_ok_iff, refuseIf_ok_iff, pure_ok_iff] at h
  obtain ⟨_, ⟨_, -, rfl⟩, h⟩ := h
  simp only [bind_ok_iff, pure_ok_iff] at h
  obtain ⟨_, -, rfl⟩ := h
  rfl

namespace ControllerTransport

variable {transport after : ControllerTransport} {capability : ControllerCapability} {epoch : Nat}
  {payload : Control} {frame opened : SealedControllerFrame}

theorem require_ok {u : Unit} (h : transport.require capability epoch = .ok u) :
    epoch = transport.policy.revocation_epoch ∧ transport.policy.granted.contains capability = true := by
  unfold require at h
  rw [refuseIf_ok_iff, not_or, not_ne_iff, not_not] at h
  exact h

theorem seal_ok (h : transport.seal json_len capability epoch payload = .ok (frame, after)) :
    epoch = transport.policy.revocation_epoch ∧
      transport.policy.granted.contains capability = true ∧
      json_len payload ≤ MAX_CONTROL_PAYLOAD_BYTES ∧
      frame = ⟨capability, epoch, transport.send, payload⟩ ∧
      after = { transport with send := transport.send + 1 } := by
  unfold ControllerTransport.seal at h
  simp only [bind_ok_iff, refuseIf_ok_iff, pure_ok_iff, Prod.mk.injEq, not_lt] at h
  obtain ⟨_, hrequire, _, hroom, rfl, rfl⟩ := h
  obtain ⟨hepoch, hgranted⟩ := require_ok hrequire
  exact ⟨hepoch, hgranted, hroom, rfl, rfl⟩

theorem open_ok (h : transport.open json_len frame = .ok (opened, after)) :
    frame.revocation_epoch = transport.policy.revocation_epoch ∧ opened = frame ∧
      after = { transport with receive := transport.receive + 1 } := by
  unfold ControllerTransport.open at h
  simp only [bind_ok_iff, refuseIf_ok_iff, pure_ok_iff, Prod.mk.injEq] at h
  obtain ⟨_, hrequire, _, -, _, -, rfl, rfl⟩ := h
  exact ⟨(require_ok hrequire).1, rfl, rfl⟩

/-- The next frame of the other side is opened, under the same capabilities and epoch. -/
theorem open_sealed (hepoch : frame.revocation_epoch = transport.policy.revocation_epoch)
    (hgranted : transport.policy.granted.contains frame.capability = true)
    (hnext : frame.sequence = transport.receive)
    (hroom : json_len frame.payload ≤ MAX_CONTROL_PAYLOAD_BYTES) :
    transport.open json_len frame = .ok (frame, { transport with receive := transport.receive + 1 }) := by
  unfold ControllerTransport.open require
  simp only [bind_ok_iff, refuseIf_ok_iff, pure_ok_iff]
  refine ⟨(), ?_, (), not_not.mpr hnext, (), not_lt.mpr hroom, trivial⟩
  rw [not_or, not_ne_iff, not_not]
  exact ⟨hepoch, hgranted⟩

end ControllerTransport

/-! ## What the Host saves and acknowledges -/

variable {device_id : ControllerDeviceId} {display_name : String} {peer : AuthenticatedPeer}
  {record : PairedDeviceRecord} {x : Exchange}

variable {offer_id : PairingOfferId} {now : Nat} {initial : PairingAuthoritySnapshot}
  {result : ControllerClientPairingResult} {authority : ControllerDeviceAuthority}

theorem persist_ok {visit : Visit} {device_key : Key} {file : ControllerDeviceDocument}
    (h : persist env visit offer_id device_id device_key display_name now =
      (.ok (peer, record), file)) :
    ∃ authority, visit.file.authority.persist_pairing offer_id device_id device_key display_name now =
        (.ok record, authority) ∧
      peer = ⟨record.device_id, record.public_key, record.identity_generation,
        authority.revocation_epoch, record.capabilities⟩ := by
  unfold persist at h
  have hupdated := @update_updated env _ visit.file visit.expected
    (fun a => a.persist_pairing offer_id device_id device_key display_name now) visit.write
  split at h
  · simp at h
  rename_i saved answer after hupdate
  split at h
  · simp at h
  rename_i capabilities hbits
  simp at h
  obtain ⟨⟨rfl, rfl⟩, rfl⟩ := h
  rw [hupdate] at hupdated
  generalize hresult : (Except.ok (saved, answer) :
    Stored (ControllerDeviceSnapshot × PairedDeviceRecord)) = result at hupdated
  cases hupdated with
  | refused e => cases hresult
  | changed record authority current operated valid result told =>
    subst hresult
    rcases told with ⟨htold, -⟩ | ⟨htold, -⟩
    · obtain ⟨rfl, rfl⟩ := htold
      exact ⟨authority, operated, by rw [from_bits_ok hbits]⟩
    · cases htold

theorem seal_ack_ok {transport : ControllerTransport} {frame : SealedControllerFrame}
    (h : seal_ack json_len initial transport peer = .ok frame) :
    peer.revocation_epoch = transport.policy.revocation_epoch ∧
      transport.policy.granted.contains .ObserveSessions = true ∧
      json_len frame.payload ≤ MAX_CONTROL_PAYLOAD_BYTES ∧
      frame = ⟨.ObserveSessions, peer.revocation_epoch, transport.send,
        .ack (host_ack initial peer)⟩ ∧
      (host_ack initial peer).encode json_len = .ok frame.payload := by
  unfold seal_ack write_bounded_frame at h
  simp only [bind_ok_iff, refuseIf_ok_iff, pure_ok_iff] at h
  obtain ⟨bytes, hencode, ⟨sealed, after⟩, hseal, _, -, rfl⟩ := h
  obtain rfl := encode_ack_ok hencode
  obtain ⟨hepoch, hgranted, hroom, rfl, -⟩ := ControllerTransport.seal_ok hseal
  exact ⟨hepoch, hgranted, hroom, rfl, hencode⟩

theorem send_registration_ok {envelope : OfferGenerations} {offer : PairingOfferCore}
    {confirmed after : ConfirmedPairing} {prepared : Listened Unit} {frame : SealedControllerFrame}
    (h : send_registration json_len envelope offer confirmed device_id display_name prepared =
      .ok (result, frame, after)) :
    result = ⟨device_id, offer.host_static_public_key, envelope.identity, envelope.revocation_epoch,
        envelope.session, offer.capabilities.bits⟩ ∧
      frame = ⟨.ObserveSessions, envelope.revocation_epoch, confirmed.transport.send,
        .registration (.new device_id display_name)⟩ ∧ after = { confirmed with
        transport := { confirmed.transport with send := confirmed.transport.send + 1 } } := by
  unfold send_registration write_bounded_frame at h
  simp only [bind_ok_iff, refuseIf_ok_iff, pure_ok_iff, Prod.mk.injEq] at h
  obtain ⟨_, -, bytes, hencode, ⟨sealed, transport⟩, hseal, _, ⟨_, -, rfl⟩, rfl, rfl, rfl⟩ := h
  obtain rfl := encode_registration_ok hencode
  obtain ⟨-, -, -, rfl, rfl⟩ := ControllerTransport.seal_ok hseal
  exact ⟨rfl, rfl, rfl⟩

theorem read_registration_ok {confirmed : ConfirmedPairing} {capability : ControllerCapability}
    {epoch sequence : Nat} {sent registration : PairingDeviceRegistration}
    {transport : ControllerTransport} (h : read_registration json_len initial confirmed
      ⟨capability, epoch, sequence, .registration sent⟩ = .ok (registration, transport)) :
    epoch = confirmed.transport.policy.revocation_epoch ∧ registration = sent ∧
      transport = { confirmed.transport with receive := confirmed.transport.receive + 1 } := by
  unfold read_registration at h
  simp only [bind_ok_iff, refuseIf_ok_iff, pure_ok_iff, Prod.mk.injEq] at h
  obtain ⟨⟨opened, after⟩, hopen, _, -, decoded, hdecode, rfl, rfl⟩ := h
  obtain ⟨hepoch, rfl, rfl⟩ := ControllerTransport.open_ok hopen
  exact ⟨hepoch, decode_registration_ok hdecode, rfl⟩

/-- An acknowledgement that reached the device: what the Host saved, and the frame that says so. -/
structure Delivered (env : Surroundings) (json_len : Control → Nat) (x : Exchange)
    (record : PairedDeviceRecord) (authority : ControllerDeviceAuthority)
    (frame : SealedControllerFrame) : Prop where
  arrived : (x.host env json_len).ack = some frame
  recorded : (x.host env json_len).record = some record
  sent : x.sent json_len = .ok
    (⟨x.device_id, x.initial.host_key, x.envelope.identity, x.envelope.revocation_epoch,
        x.envelope.session, x.initial.capabilities.bits⟩,
      ⟨.ObserveSessions, x.envelope.revocation_epoch, 0,
        .registration (.new x.device_id x.display_name)⟩,
      { x.device_side with transport := { x.device_side.transport with send := 1 } })
  saved : x.saving.file.authority.persist_pairing x.offer_id x.device_id x.device_key x.display_name
    x.now = (.ok record, authority)
  announced : x.envelope.revocation_epoch = x.initial.revocation_epoch
  current : authority.revocation_epoch = x.initial.revocation_epoch
  granted : x.initial.capabilities.contains .ObserveSessions = true
  room : json_len frame.payload ≤ MAX_CONTROL_PAYLOAD_BYTES
  eq : frame = ⟨.ObserveSessions, authority.revocation_epoch, 0, .ack
    ⟨1, record.device_id, record.identity_generation, authority.revocation_epoch,
      x.initial.session_generation, record.capabilities.bits⟩⟩
  read : PairingHostAck.decode json_len frame.payload = .ok
    ⟨1, record.device_id, record.identity_generation, authority.revocation_epoch,
      x.initial.session_generation, record.capabilities.bits⟩

theorem delivered_of_ack {frame : SealedControllerFrame}
    (h : (x.host env json_len).ack = some frame) :
    ∃ record authority, Delivered env json_len x record authority frame := by
  have harrived := h
  cases hsent : x.sent json_len with
  | error e =>
    unfold Exchange.host Exchange.register_paired_device at h
    rw [hsent] at h
    split at h <;> cases h
  | ok out =>
    obtain ⟨result, request, after⟩ := out
    have hhost : ∃ record, (x.host env json_len).record = some record ∧
        ∃ registration transport, read_registration json_len x.initial x.host_side request =
            .ok (registration, transport) ∧
        ∃ peer file, persist env x.saving x.offer_id registration.device_id x.device_key
            registration.display_name x.now = (.ok (peer, record), file) ∧
        seal_ack json_len x.initial transport peer = .ok frame := by
      unfold Exchange.host Exchange.register_paired_device at h ⊢
      rw [hsent] at h ⊢
      dsimp only [Except.toOption, Option.map_some] at h ⊢
      split at h
      · cases h
      rename_i hgoes
      split at h
      · cases h
      rename_i registration transport hread
      split at h
      · cases h
      rename_i peer record file hpersist
      refine ⟨record, ?_, registration, transport, hread, peer, file, hpersist, ?_⟩
      · rw [if_neg hgoes]
        cases seal_ack json_len x.initial transport peer with
        | error e => rfl
        | ok ack => cases x.written <;> rfl
      · split at h
        · cases h
        rename_i ack hack
        rw [hack]
        split at h
        · split at h
          · rw [Option.some.inj h]
          · cases h
        · rw [Option.some.inj h]
    obtain ⟨record, hrecord, registration, transport, hread, peer, file, hpersist, hack⟩ := hhost
    obtain ⟨rfl, rfl, rfl⟩ := send_registration_ok hsent
    obtain ⟨hannounced, rfl, rfl⟩ := read_registration_ok hread
    obtain ⟨authority, hsaved, rfl⟩ := persist_ok hpersist
    obtain ⟨hcurrent, hgranted, hroom, hframe, hencode⟩ := seal_ack_ok hack
    refine ⟨record, authority, harrived, hrecord, hsent, hsaved, hannounced, hcurrent, hgranted, hroom,
      hframe, decode_ack_encode hencode⟩

theorem ack_of_answer (h : (x.host env json_len).answer = .ok peer) :
    ∃ frame, (x.host env json_len).ack = some frame := by
  unfold Exchange.host Exchange.register_paired_device at h ⊢
  split at h
  · cases h
  rename_i hgoes
  rw [if_neg hgoes]
  split at h
  · cases h
  split at h
  · cases h
  split at h
  · cases h
  split at h
  · cases h
  rename_i ack _
  split at h
  · cases h
  · exact ⟨ack, rfl⟩

/-! ## What the device makes of it -/

theorem persist_pairing_device {a a' : ControllerDeviceAuthority} {public_key : Key}
    (h : a.persist_pairing offer_id device_id public_key display_name now = (.ok record, a')) :
    record.device_id = device_id ∧ a'.revocation_epoch = a.revocation_epoch := by
  cases persist_pairing_ok h with
  | again known same => exact ⟨same.1, rfl⟩
  | anew offer found intime ready eq =>
    rw [eq]
    exact ⟨rfl, rfl⟩

/-- The device takes the acknowledgement where the record is what its offer announced. -/
theorem device_ok_iff {frame : SealedControllerFrame}
    (h : Delivered env json_len x record authority frame) : x.device env json_len = .ok result ↔
      (record.identity_generation = x.envelope.identity ∧
        x.initial.session_generation = x.envelope.session ∧
        record.capabilities.bits = x.initial.capabilities.bits) ∧
      result = ⟨x.device_id, x.initial.host_key, x.envelope.identity, x.envelope.revocation_epoch,
        x.envelope.session, x.initial.capabilities.bits⟩ := by
  have hepoch : authority.revocation_epoch = x.envelope.revocation_epoch :=
    h.current.trans h.announced.symm
  have hopen : (ControllerTransport.open json_len
      { x.device_side.transport with send := 1 } frame) =
        .ok (frame, { x.device_side.transport with send := 1, receive := 1 }) := by
    refine ControllerTransport.open_sealed ?_ ?_ ?_ h.room
    · rw [h.eq]
      exact hepoch
    · rw [h.eq]
      exact h.granted
    · rw [h.eq]
      rfl
  have hid := (persist_pairing_device h.saved).1
  unfold Exchange.device
  rw [h.sent, h.arrived]
  change read_ack json_len x.envelope _ _ frame = .ok result ↔ _
  unfold read_ack
  rw [hopen]
  simp only [bind_ok_iff, refuseIf_ok_iff, pure_ok_iff, Except.ok.injEq, exists_eq_left', h.read]
  have hsame : frame.capability = .ObserveSessions ∧
      frame.revocation_epoch = x.envelope.revocation_epoch := by
    rw [h.eq]
    exact ⟨rfl, hepoch⟩
  constructor
  · rintro ⟨_, -, _, hchecks, rfl⟩
    simp at hchecks
    obtain ⟨-, hgeneration, -, hsession, hbits, -⟩ := hchecks
    exact ⟨⟨hgeneration, hsession, hbits⟩, rfl⟩
  · rintro ⟨⟨hgeneration, hsession, hbits⟩, rfl⟩
    refine ⟨(), ?_, (), ?_, rfl⟩
    · simp
      exact hsame
    · simp
      exact ⟨hid, hgeneration, hepoch, hsession, hbits, rfl⟩

/-! ## Agreement -/

/-- The two sides agree: what the Host accepts, the device accepts as the record that was saved, and
a device that refuses an acknowledgement has not been saved anew. -/
structure Agree (env : Surroundings) (json_len : Control → Nat) (x : Exchange) : Prop where
  accepted : ∀ peer, (x.host env json_len).answer = .ok peer →
    ∃ record result, (x.host env json_len).record = some record ∧
      x.device env json_len = .ok result ∧
      result.device_id = record.device_id ∧
      result.identity_generation = record.identity_generation ∧
      result.revocation_epoch = record.revocation_epoch ∧
      result.capability_bits = record.capabilities.bits
  refused : ∀ e frame, x.device env json_len = .error e → (x.host env json_len).ack = some frame →
    ∀ record, (x.host env json_len).record = some record → record ∈ x.saving.file.authority.devices

/-- The record of the very same pairing, if it is already there. -/
def Exchange.existing (x : Exchange) : Option PairedDeviceRecord :=
  (x.saving.file.authority.devices.find? fun d =>
    d.public_key = x.device_key ∨ d.source_offer_id = x.offer_id).filter fun d =>
      d.device_id = x.device_id ∧ d.public_key = x.device_key ∧ d.source_offer_id = x.offer_id

/-- The pairing gives what its offer announced: the offer still has the announced identity and the
snapshot its session generation, and the device id has had no capabilities that the offer lacks. A
record of the same pairing that is already there is one that the offer describes. -/
def Exchange.fits (x : Exchange) : Bool :=
  let a := x.saving.file.authority
  x.initial.session_generation = x.envelope.session &&
    match x.existing with
    | some existing =>
      existing.identity_generation = x.envelope.identity ∧
        existing.revocation_epoch = a.revocation_epoch ∧
        existing.capabilities.bits = x.initial.capabilities.bits
    | none => (a.offer? x.offer_id).all fun offer =>
      offer.identity.generation = x.envelope.identity ∧
        offer.capabilities.bits ||| a.previous_capability_bits x.device_id =
          x.initial.capabilities.bits

/-- What is saved is what the offer announced, exactly where the pairing fits. -/
theorem fits_iff
    (h : x.saving.file.authority.persist_pairing x.offer_id x.device_id x.device_key x.display_name
      x.now = (.ok record, authority)) :
    x.fits = true ↔ x.initial.session_generation = x.envelope.session ∧
      record.identity_generation = x.envelope.identity ∧
      record.revocation_epoch = x.saving.file.authority.revocation_epoch ∧
      record.capabilities.bits = x.initial.capabilities.bits := by
  unfold Exchange.fits
  rw [Bool.and_eq_true, decide_eq_true_eq]
  apply and_congr_right
  intro hsession
  have hanew (hnone : x.existing = none)
      (h : x.saving.file.authority.persist_new x.offer_id x.device_id x.device_key x.display_name
        x.now = (.ok record, authority)) :
      (match x.existing with
        | some existing => decide (existing.identity_generation = x.envelope.identity ∧
            existing.revocation_epoch = x.saving.file.authority.revocation_epoch ∧
            existing.capabilities.bits = x.initial.capabilities.bits)
        | none => (x.saving.file.authority.offer? x.offer_id).all fun offer =>
          decide (offer.identity.generation = x.envelope.identity ∧ offer.capabilities.bits |||
            x.saving.file.authority.previous_capability_bits x.device_id =
              x.initial.capabilities.bits)) = true ↔
        record.identity_generation = x.envelope.identity ∧
          record.revocation_epoch = x.saving.file.authority.revocation_epoch ∧
          record.capabilities.bits = x.initial.capabilities.bits := by
    obtain ⟨offer, hoffer, -, -, rfl, -⟩ := persist_new_ok h
    rw [hnone, hoffer, Option.all_some, decide_eq_true_eq]
    unfold paired_record
    simp
  unfold persist_pairing at h
  split at h
  · rename_i hnone
    refine hanew ?_ h
    unfold Exchange.existing
    rw [hnone]
    rfl
  rename_i existing hexisting
  split at h
  · rename_i hsame
    obtain ⟨rfl, -⟩ := Prod.mk.inj h |>.imp Except.ok.inj id
    have : x.existing = some existing := by
      unfold Exchange.existing
      rw [hexisting, Option.filter_some, if_pos (decide_eq_true hsame)]
    rw [this]
    exact decide_eq_true_iff
  · split at h
    · simp at h
    · refine hanew ?_ h
      unfold Exchange.existing
      rw [hexisting, Option.filter_some, if_neg (by rwa [decide_eq_true_eq])]

/-- The Host accepts the device, or it has saved it anew and its acknowledgement arrives. -/
def Exchange.Completes (env : Surroundings) (json_len : Control → Nat) (x : Exchange) : Prop :=
  (∃ peer, (x.host env json_len).answer = .ok peer) ∨
    ∃ frame record, (x.host env json_len).ack = some frame ∧
      (x.host env json_len).record = some record ∧ record ∉ x.saving.file.authority.devices

theorem agree_of_fits (hfits : x.fits = true) : Agree env json_len x := by
  have htakes : ∀ frame, (x.host env json_len).ack = some frame → ∃ record result,
      (x.host env json_len).record = some record ∧ x.device env json_len = .ok result ∧
      result.device_id = record.device_id ∧
      result.identity_generation = record.identity_generation ∧
      result.revocation_epoch = record.revocation_epoch ∧
      result.capability_bits = record.capabilities.bits := by
    intro frame hack
    obtain ⟨record, authority, h⟩ := delivered_of_ack hack
    obtain ⟨hsession, hgeneration, hepoch, hbits⟩ := (fits_iff h.saved).mp hfits
    obtain ⟨hid, hkept⟩ := persist_pairing_device h.saved
    refine ⟨record, _, h.recorded, (device_ok_iff h).mpr ⟨⟨hgeneration, hsession, hbits⟩, rfl⟩,
      hid.symm, hgeneration.symm, ?_, hbits.symm⟩
    calc x.envelope.revocation_epoch = x.initial.revocation_epoch := h.announced
      _ = authority.revocation_epoch := h.current.symm
      _ = x.saving.file.authority.revocation_epoch := hkept
      _ = record.revocation_epoch := hepoch.symm
  constructor
  · intro peer hanswer
    obtain ⟨frame, hack⟩ := ack_of_answer hanswer
    exact htakes frame hack
  · intro e frame herror hack
    obtain ⟨record, result, -, hok, -⟩ := htakes frame hack
    rw [hok] at herror
    cases herror

theorem fits_of_agree (hcompletes : x.Completes env json_len) (h : Agree env json_len x) :
    x.fits = true := by
  rcases hcompletes with ⟨peer, hanswer⟩ | ⟨frame, record, hack, hrecord, hnew⟩
  · obtain ⟨frame, hack⟩ := ack_of_answer hanswer
    obtain ⟨record, authority, hd⟩ := delivered_of_ack hack
    obtain ⟨saved, result, hsaved, hok, -, -, hepoch, -⟩ := h.accepted peer hanswer
    rw [hd.recorded, Option.some.injEq] at hsaved
    subst hsaved
    obtain ⟨⟨hgeneration, hsession, hbits⟩, rfl⟩ := (device_ok_iff hd).mp hok
    refine (fits_iff hd.saved).mpr ⟨hsession, hgeneration, ?_, hbits⟩
    calc record.revocation_epoch = x.envelope.revocation_epoch := hepoch.symm
      _ = x.initial.revocation_epoch := hd.announced
      _ = authority.revocation_epoch := hd.current.symm
      _ = x.saving.file.authority.revocation_epoch := (persist_pairing_device hd.saved).2
  · obtain ⟨saved, authority, hd⟩ := delivered_of_ack hack
    rw [hd.recorded, Option.some.injEq] at hrecord
    subst hrecord
    cases hdevice : x.device env json_len with
    | error e => exact (hnew (h.refused e frame hdevice hack saved hd.recorded)).elim
    | ok result =>
      obtain ⟨⟨hgeneration, hsession, hbits⟩, -⟩ := (device_ok_iff hd).mp hdevice
      refine (fits_iff hd.saved).mpr ⟨hsession, hgeneration, ?_, hbits⟩
      cases persist_pairing_ok hd.saved with
      | again known => exact (hnew known).elim
      | anew offer found intime ready eq =>
        rw [eq]
        rfl

/-- Both sides agree wherever the pairing fits, and nowhere else if it completes. -/
theorem host_and_device_agree_exactly_where_the_pairing_fits {x : Exchange} :
    (x.fits = true → Agree env json_len x) ∧
      (x.Completes env json_len → Agree env json_len x → x.fits = true) :=
  ⟨agree_of_fits, fits_of_agree⟩

/-! ## A phone that comes back over an offer -/

def sampleOffered (phones : List PairedDeviceRecord) : ControllerDeviceDocument :=
  run sampleSurroundings (sampleFile phones)
    [⟨4, .create_offer 20 (Vector.replicate 32 5) 10 310 ⟨3⟩ [], .written⟩]

/-- The offer is confirmed, and the phone then saved under it. -/
def sampleSaving : List Call :=
  [⟨5, .set_offer_state 20 .HostConfirmed, .written⟩,
    ⟨6, .persist_pairing 20 7 samplePhone.public_key "Phone" 20, .written⟩]

def sampleExchange (phones : List PairedDeviceRecord) : Exchange where
  offer_id := 20
  initial := ⟨310, Vector.replicate 32 5, sampleHostKey, ⟨3⟩, 1, 1, 1⟩
  envelope := ⟨1, 1, 1⟩
  device_id := 7
  device_key := samplePhone.public_key
  display_name := "Phone"
  prepared := .ok ()
  cancelled := false
  saving := ⟨run sampleSurroundings (sampleOffered phones) (sampleSaving.take 1), 6, .written⟩
  now := 20
  written := .ok ()
  arrives := true
  acknowledging := ⟨run sampleSurroundings (sampleOffered phones) sampleSaving, 7, .written⟩
  told := .ok ()

theorem a_new_phone_and_the_host_agree :
    Agree sampleSurroundings (fun _ => 128) (sampleExchange []) :=
  host_and_device_agree_exactly_where_the_pairing_fits.1 (by decide +kernel)

/-- The phone had send its input before, and the offer does not say so. -/
theorem a_phone_with_earlier_rights_is_saved_and_refuses :
    ¬ ∀ (env : Surroundings) (json_len : Control → Nat) (file : ControllerDeviceDocument)
      (calls : List Call) (x : Exchange), file.authority.validate env.sha256 = .ok () →
      snapshot env file x.offer_id = .ok x.initial → x.now ≤ x.initial.expires_at →
      x.envelope = ⟨x.initial.identity_generation, x.initial.revocation_epoch,
        x.initial.session_generation⟩ →
      x.saving.file = run env file calls → Agree env json_len x := by
  intro h
  have hagree := h sampleSurroundings (fun _ => 128) (sampleOffered [samplePhone])
    (sampleSaving.take 1) (sampleExchange [samplePhone]) (by decide +kernel) (by decide +kernel)
    (by decide) rfl rfl
  have hfits := fits_of_agree (Or.inl ⟨⟨7, samplePhone.public_key, 1, 1, ⟨7⟩⟩, by decide +kernel⟩) hagree
  exact absurd hfits (by decide +kernel)

end multiplex_controller_listener
