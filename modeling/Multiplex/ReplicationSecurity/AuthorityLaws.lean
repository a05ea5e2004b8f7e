-- The states that `validate` accepts, everything that one transition can do, and
-- the stored form of a state.
import Multiplex.ReplicationSecurity.Authority

open Checks multiplex_domain

namespace multiplex_replication_security

variable {hpke : Hpke}

@[simp] theorem orElse_ok_iff {ε α : Type} {failure : ReplicationAuthorityError} {x : Except ε α}
    {a : α} : orElse failure x = .ok a ↔ x = .ok a := by
  unfold orElse
  cases x with
  | error e => simp [Except.mapError]
  | ok b => simp [Except.mapError]

@[simp] theorem mapError_ok_iff {ε δ α : Type} {f : ε → δ} {x : Except ε α} {a : α} :
    x.mapError f = .ok a ↔ x = .ok a := by
  cases x with
  | error e => simp [Except.mapError]
  | ok b => simp [Except.mapError]

theorem checked_next_some {value next : UInt64} (h : checked_next value = some next) :
    next.toNat = value.toNat + 1 := by
  unfold checked_next at h
  split at h
  · cases h
  · rename_i hne
    cases h
    have hlt : value.toNat ≠ 2 ^ 64 - 1 := by
      intro heq
      apply hne
      rw [← UInt64.toNat_inj, heq]
      rfl
    have hbound := value.toNat_lt
    change (value.toNat + 1) % 2 ^ 64 = value.toNat + 1
    exact Nat.mod_eq_of_lt (by omega)

/-! ## Valid states -/

/-- The keys of the devices, in the order of their replicas. -/
def deviceKeys (entries : List (ReplicationReplicaId × ReplicationAuthorityDevice hpke)) :
    List Bytes32 := entries.map fun e => e.2.public_key.bytes

/-- A device under its own identifier, revoked no later than now if at all. -/
structure ValidDevice (state : ReplicationAuthorityState hpke)
    (e : ReplicationReplicaId × ReplicationAuthorityDevice hpke) : Prop where
  own : e.1 = e.2.replica_id
  id : ReplicationReplicaId.validate e.1 = .ok ()
  past : ∀ accepted revision epoch, e.2.status = .Revoked accepted revision epoch →
    revision.value ≤ state.revision.value ∧ epoch.value ≤ state.key_epoch.value

structure Valid (state : ReplicationAuthorityState hpke) : Prop where
  version : state.version = REPLICATION_AUTHORITY_STATE_VERSION
  workspace : ReplicationWorkspaceId.validate state.workspace_id = .ok ()
  nonempty : state.devices.entries ≠ []
  few : state.devices.size ≤ MAX_REPLICATION_REPLICAS
  devices : ∀ e ∈ state.devices.entries, ValidDevice state e
  keys : (deviceKeys state.devices.entries).Nodup
  active : state.active_devices ≠ []

variable {e : ReplicationReplicaId × ReplicationAuthorityDevice hpke}
  {replica_id : ReplicationReplicaId}

variable {state : ReplicationAuthorityState hpke}

theorem validate_device_ok_iff {seen seen' : Nat × List Bytes32} :
    state.validate_device seen e = .ok seen' ↔ ValidDevice state e ∧ e.2.public_key.bytes ∉ seen.2 ∧
        seen' = (seen.1 + [e.2].countP ReplicationAuthorityDevice.is_active,
          e.2.public_key.bytes :: seen.2) := by
  unfold ReplicationAuthorityState.validate_device
  simp only [bind_ok_iff, refuseIf_ok_iff, orElse_ok_iff, not_not, List.countP_singleton]
  unfold ReplicationAuthorityDevice.is_active
  cases hstatus : e.2.status with
  | Active =>
    simp only [pure_ok_iff, decide_true, if_true]
    constructor
    · rintro ⟨-, hown, ⟨⟩, hid, -, hkey, rfl⟩
      exact ⟨⟨hown, hid, fun _ _ _ hrevoked => by rw [hstatus] at hrevoked; cases hrevoked⟩, hkey, rfl⟩
    · rintro ⟨⟨hown, hid, -⟩, hkey, rfl⟩
      exact ⟨(), hown, (), hid, (), hkey, rfl⟩
  | Revoked accepted revision epoch =>
    simp only [bind_ok_iff, refuseIf_ok_iff, pure_ok_iff, not_or, gt_iff_lt, UInt64.not_lt, reduceCtorEq,
      decide_false, Bool.false_eq_true, if_false, Nat.add_zero]
    constructor
    · rintro ⟨-, hown, ⟨⟩, hid, -, hkey, -, hpast, rfl⟩
      refine ⟨⟨hown, hid, fun _ _ _ hrevoked => ?_⟩, hkey, rfl⟩
      rw [hstatus] at hrevoked
      cases hrevoked
      exact hpast
    · rintro ⟨⟨hown, hid, hpast⟩, hkey, rfl⟩
      exact ⟨(), hown, (), hid, (), hkey, (), hpast _ _ _ hstatus, rfl⟩

theorem validate_devices_ok_iff
    {entries : List (ReplicationReplicaId × ReplicationAuthorityDevice hpke)} :
    ∀ {seen seen' : Nat × List Bytes32}, entries.foldlM state.validate_device seen = .ok seen' ↔
      (∀ e ∈ entries, ValidDevice state e) ∧ (deviceKeys entries).Nodup ∧
        (∀ key ∈ deviceKeys entries, key ∉ seen.2) ∧
        seen' = (seen.1 + (entries.map Prod.snd).countP ReplicationAuthorityDevice.is_active,
          (deviceKeys entries).reverse ++ seen.2) := by
  induction entries with
  | nil =>
    simp only [List.foldlM_nil, pure_ok_iff, deviceKeys, List.map_nil, List.countP_nil, List.reverse_nil,
      List.nil_append, Nat.add_zero, List.nodup_nil, List.not_mem_nil, false_imp_iff, implies_true,
      true_and]
    exact eq_comm
  | cons e entries ih =>
    intro seen seen'
    rw [List.foldlM_cons, bind_ok_iff]
    unfold deviceKeys at ih ⊢
    simp only [List.map_cons, List.nodup_cons, List.forall_mem_cons, List.reverse_cons,
      List.append_assoc, List.singleton_append]
    constructor
    · rintro ⟨middle, hfirst, hrest⟩
      obtain ⟨hvalid, hkey, rfl⟩ := validate_device_ok_iff.mp hfirst
      obtain ⟨hdevices, hnodup, hfresh, rfl⟩ := ih.mp hrest
      refine ⟨⟨hvalid, hdevices⟩, ⟨fun hmem => hfresh _ hmem List.mem_cons_self, hnodup⟩,
        ⟨hkey, fun key hmem hseen => hfresh key hmem (List.mem_cons_of_mem _ hseen)⟩, ?_⟩
      rw [Nat.add_assoc, ← List.countP_append, List.singleton_append]
    · rintro ⟨⟨hvalid, hdevices⟩, ⟨hnew, hnodup⟩, ⟨hkey, hfresh⟩, rfl⟩
      refine ⟨_, validate_device_ok_iff.mpr ⟨hvalid, hkey, rfl⟩, ih.mpr ⟨hdevices, hnodup, ?_, ?_⟩⟩
      · intro key hmem hseen
        rcases List.mem_cons.mp hseen with rfl | hseen
        · exact hnew hmem
        · exact hfresh key hmem hseen
      · rw [Nat.add_assoc, ← List.countP_append, List.singleton_append]

theorem validate_ok_iff : state.validate = .ok () ↔ Valid state := by
  unfold ReplicationAuthorityState.validate
  simp only [bind_ok_iff, refuseIf_ok_iff, orElse_ok_iff, not_or, gt_iff_lt, not_lt, not_not,
    validate_devices_ok_iff]
  have hcount : (0 + (state.devices.entries.map Prod.snd).countP ReplicationAuthorityDevice.is_active = 0)
      ↔ state.active_devices = [] := by
    unfold ReplicationAuthorityState.active_devices
    rw [Nat.zero_add, List.countP_eq_length_filter, List.length_eq_zero_iff]
  constructor
  · rintro ⟨-, hversion, ⟨⟩, hworkspace, -, ⟨hnonempty, hfew⟩, seen, ⟨hdevices, hkeys, -, rfl⟩, hactive⟩
    exact ⟨hversion, hworkspace, hnonempty, hfew, hdevices, hkeys, mt hcount.mpr hactive⟩
  · rintro ⟨hversion, hworkspace, hnonempty, hfew, hdevices, hkeys, hactive⟩
    refine ⟨(), hversion, (), hworkspace, (), ⟨hnonempty, hfew⟩, _, ⟨hdevices, hkeys, ?_, rfl⟩,
      mt hcount.mp hactive⟩
    exact fun _ _ => List.not_mem_nil

/-! ## What a transition does -/

/-- One package for each active device, in order, and each of them is the epoch key wrapped for the
key of that device. -/
structure Packaged (t : ReplicationAuthorityTransition hpke) : Prop where
  revision : t.distribution.authority_revision = t.state.revision
  epoch : t.distribution.key_epoch = t.state.key_epoch
  key : t.epoch_key.epoch = t.state.key_epoch
  packages : List.Forall₂ (fun device package => package.recipient = device.replica_id ∧
    ∃ (authority_private : ReplicationAuthorityPrivateKey hpke) (entropy : Option Bytes32),
      t.state.authority_public_key = authority_private.public_key ∧
      wrap_replication_epoch_key_with_entropy ⟨t.state.workspace_id, device.replica_id⟩
        authority_private device.public_key t.epoch_key entropy = .ok package.package)
    t.state.active_devices t.distribution.packages

variable {authority_private : ReplicationAuthorityPrivateKey hpke} {entropy : ReplicationEntropy}

theorem wrap_for_ok {workspace_id : ReplicationWorkspaceId} {epoch_key : ReplicationEpochKey}
    {devices : List (ReplicationAuthorityDevice hpke)} :
    ∀ {n : Nat} {packages : List ReplicationRecipientKeyPackage},
    wrap_for workspace_id authority_private epoch_key entropy n devices = .ok packages →
    List.Forall₂ (fun device package => package.recipient = device.replica_id ∧
      ∃ entropy : Option Bytes32, wrap_replication_epoch_key_with_entropy
        ⟨workspace_id, device.replica_id⟩ authority_private device.public_key epoch_key entropy =
          .ok package.package) devices packages := by
  induction devices with
  | nil =>
    rintro n _ ⟨rfl⟩
    exact List.Forall₂.nil
  | cons device devices ih =>
    intro n packages h
    unfold wrap_for at h
    simp only [bind_ok_iff, mapError_ok_iff, pure_ok_iff] at h
    obtain ⟨package, hpackage, rest, hrest, rfl⟩ := h
    exact List.Forall₂.cons ⟨rfl, entropy n, hpackage⟩ (ih hrest)

theorem generate_epoch_key_ok {epoch : ReplicationKeyEpoch} {entropy : Option Bytes32}
    {key : ReplicationEpochKey} (h : generate_epoch_key epoch entropy = .ok key) : key.epoch = epoch := by
  unfold generate_epoch_key at h
  split at h
  · cases h
  split at h
  · cases h
  unfold ReplicationEpochKey.from_bytes at h
  split at h
  · cases h
    rfl
  · cases h

variable {t : ReplicationAuthorityTransition hpke}

theorem issue_transition_ok {base_revision : Option ReplicationAuthorityRevision}
    (h : issue_transition base_revision state authority_private entropy = .ok t) :
    t.state = state ∧ Valid state ∧ Packaged t := by
  unfold issue_transition at h
  simp only [bind_ok_iff, refuseIf_ok_iff, pure_ok_iff, not_not] at h
  obtain ⟨⟨⟩, hvalid, -, hauthority, epoch_key, hkey, packages, hpackages, -, -, rfl⟩ := h
  refine ⟨rfl, validate_ok_iff.mp hvalid, rfl, rfl, generate_epoch_key_ok hkey, ?_⟩
  refine (wrap_for_ok hpackages).imp ?_
  rintro device package ⟨hrecipient, drawn, hwrap⟩
  exact ⟨hrecipient, authority_private, drawn, hauthority, hwrap⟩

/-- The revision and the epoch after a transition, and what it never changes. -/
structure Advanced (state next : ReplicationAuthorityState hpke) : Prop where
  revision : next.revision.value.toNat = state.revision.value.toNat + 1
  epoch : next.key_epoch.value.toNat = state.key_epoch.value.toNat + 1
  workspace : next.workspace_id = state.workspace_id
  authority : next.authority_public_key = state.authority_public_key

theorem advance_state_ok {next : ReplicationAuthorityState hpke}
    (h : advance_state state = .ok next) : Advanced state next ∧ next.devices = state.devices := by
  unfold advance_state at h
  rw [bind_ok_iff] at h
  obtain ⟨revision, hrevision, h⟩ := h
  have hone : revision.value.toNat = state.revision.value.toNat + 1 := by
    unfold ReplicationAuthorityRevision.next ReplicationAuthorityRevision.new at hrevision
    split at hrevision
    · cases hrevision
    · rename_i hnext
      split at hrevision
      · cases hrevision
      · cases hrevision
        exact checked_next_some hnext
  split at h
  · cases h
  · rename_i value hnext
    simp only [bind_ok_iff, orElse_ok_iff, pure_ok_iff] at h
    obtain ⟨epoch, hepoch, rfl⟩ := h
    unfold ReplicationKeyEpoch.new at hepoch
    split at hepoch
    · cases hepoch
    · cases hepoch
      exact ⟨⟨hone, checked_next_some hnext, rfl, rfl⟩, rfl⟩

inductive Changed (state next : ReplicationAuthorityState hpke) : Prop where
  | enrolled (replica_id : ReplicationReplicaId) (public_key : ReplicationDevicePublicKey hpke)
      (absent : state.devices.get? replica_id = none)
      (fresh : ∀ e ∈ state.devices.entries, e.2.public_key ≠ public_key)
      (devices : next.devices = state.devices.insert replica_id ⟨replica_id, public_key, .Active⟩)
  | rotated (devices : next.devices = state.devices)
  | revoked (replica_id : ReplicationReplicaId) (device : ReplicationAuthorityDevice hpke)
      (accepted_through : UInt64) (found : state.devices.get? replica_id = some device)
      (active : device.status = .Active)
      (devices : next.devices = state.devices.insert replica_id { device with
        status := .Revoked accepted_through next.revision next.key_epoch })

/-- Everything that a transition from a state has to it. -/
structure Follows (state : ReplicationAuthorityState hpke) (t : ReplicationAuthorityTransition hpke) :
    Prop where
  advanced : Advanced state t.state
  changed : Changed state t.state
  valid : Valid t.state
  packaged : Packaged t

variable {expected_revision : ReplicationAuthorityRevision}

theorem enroll_follows {public_key : ReplicationDevicePublicKey hpke}
    (h : enroll_replication_device_with_entropy state authority_private expected_revision replica_id
      public_key entropy = .ok t) : Follows state t := by
  unfold enroll_replication_device_with_entropy at h
  simp only [bind_ok_iff, refuseIf_ok_iff, orElse_ok_iff] at h
  obtain ⟨-, -, -, -, -, hcontains, -, -, -, hany, next, hnext, -, -, hissue⟩ := h
  obtain ⟨hadvanced, hdevices⟩ := advance_state_ok hnext
  obtain ⟨hstate, hvalid, hpackaged⟩ := issue_transition_ok hissue
  refine ⟨?_, ?_, hstate ▸ hvalid, hpackaged⟩
  · rw [hstate]
    exact ⟨hadvanced.revision, hadvanced.epoch, hadvanced.workspace, hadvanced.authority⟩
  · rw [hstate]
    refine .enrolled replica_id public_key ?_ ?_ (by rw [hdevices])
    · unfold SortedMap.contains at hcontains
      rwa [Bool.not_eq_true, Option.isSome_eq_false_iff, Option.isNone_iff_eq_none] at hcontains
    · intro e he heq
      exact hany (List.any_eq_true.mpr ⟨e, he, decide_eq_true heq⟩)

theorem rotate_follows
    (h : rotate_replication_epoch_with_entropy state authority_private expected_revision entropy =
      .ok t) : Follows state t := by
  unfold rotate_replication_epoch_with_entropy at h
  simp only [bind_ok_iff] at h
  obtain ⟨-, -, next, hnext, hissue⟩ := h
  obtain ⟨hadvanced, hdevices⟩ := advance_state_ok hnext
  obtain ⟨hstate, hvalid, hpackaged⟩ := issue_transition_ok hissue
  rw [← hstate] at hadvanced hdevices hvalid
  exact ⟨hadvanced, .rotated hdevices, hvalid, hpackaged⟩

theorem revoke_follows {accepted_through : UInt64}
    (h : revoke_replication_device_with_entropy state authority_private expected_revision replica_id
      accepted_through entropy = .ok t) : Follows state t := by
  unfold revoke_replication_device_with_entropy at h
  rw [bind_ok_iff] at h
  obtain ⟨-, -, h⟩ := h
  split at h
  · cases h
  rename_i device hfound
  simp only [bind_ok_iff, refuseIf_ok_iff, not_not] at h
  obtain ⟨-, hactive, -, -, next, hnext, h⟩ := h
  obtain ⟨hadvanced, hdevices⟩ := advance_state_ok hnext
  rw [hdevices, hfound] at h
  simp only [bind_ok_iff] at h
  obtain ⟨-, -, hissue⟩ := h
  obtain ⟨hstate, hvalid, hpackaged⟩ := issue_transition_ok hissue
  refine ⟨?_, ?_, hstate ▸ hvalid, hpackaged⟩
  · rw [hstate]
    exact ⟨hadvanced.revision, hadvanced.epoch, hadvanced.workspace, hadvanced.authority⟩
  · rw [hstate]
    exact .revoked replica_id device accepted_through hfound hactive rfl

/-! ## The stored form -/

theorem insert_device_stored (h : ValidDevice state e)
    {devices : SortedMap ReplicationReplicaId (ReplicationAuthorityDevice hpke)}
    (hnew : devices.contains e.1 = false) :
    StoredAuthorityState.insert_device devices e.2.stored = .ok (devices.insert e.1 e.2) := by
  obtain ⟨id, replica_id, public_key, status⟩ := e
  obtain ⟨hown, hid, -⟩ := h
  cases (show id = replica_id from hown)
  have hstatus : StoredAuthorityState.status_from
      (ReplicationAuthorityDevice.stored ⟨id, public_key, status⟩).status = .ok status := by
    cases status with
    | Active => rfl
    | Revoked accepted revision epoch =>
      unfold StoredAuthorityState.status_from ReplicationAuthorityDevice.stored
        ReplicationAuthorityRevision.new ReplicationKeyEpoch.new
      simp only
      rw [dif_neg revision.nonzero, dif_neg epoch.nonzero]
      rfl
  unfold StoredAuthorityState.insert_device
  simp only [bind_ok_iff, refuseIf_ok_iff, orElse_ok_iff, pure_ok_iff]
  exact ⟨(), hid, public_key, device_from_bytes public_key, status, hstatus, (),
    by rw [Bool.not_eq_true]; exact hnew, rfl⟩

theorem into_state_from_state (h : Valid state) :
    (StoredAuthorityState.from_state state).into_state hpke = .ok state := by
  obtain ⟨devices, hfold, hentries⟩ := SortedMap.foldlM_insert_entries (m := SortedMap.empty)
    StoredAuthorityState.insert_device (fun e => e.2.stored) state.devices.sorted
      fun e he _ hnew => insert_device_stored (h.devices e he) hnew
  have hdevices : devices = state.devices := SortedMap.ext hentries
  have hrevision : ReplicationAuthorityRevision.new state.revision.value = .ok state.revision := by
    unfold ReplicationAuthorityRevision.new
    rw [dif_neg state.revision.nonzero]
  have hepoch : ReplicationKeyEpoch.new state.key_epoch.value = .ok state.key_epoch := by
    unfold ReplicationKeyEpoch.new
    rw [dif_neg state.key_epoch.nonzero]
  unfold StoredAuthorityState.into_state
  simp only [bind_ok_iff, refuseIf_ok_iff, orElse_ok_iff, pure_ok_iff, not_not]
  exact ⟨(), h.version, (), h.workspace, state.authority_public_key, authority_from_bytes _,
    state.revision, hrevision, state.key_epoch, hepoch, state.devices, hdevices ▸ hfold, (),
    validate_ok_iff.mpr h, rfl⟩

/-- A state that fits is read back from what was written of it, if the JSON of its stored form is. -/
theorem canonical_round_trip (h : Valid state) {json : SerdeJson} {bytes : List UInt8}
    (hwrite : json.to_vec (StoredAuthorityState.from_state state) = some bytes)
    (hread : json.from_slice bytes = some (StoredAuthorityState.from_state state))
    (hsize : bytes.length ≤ MAX_REPLICATION_AUTHORITY_STATE_BYTES) :
    state.to_canonical_bytes json = .ok bytes ∧
      ReplicationAuthorityState.from_canonical_bytes hpke json bytes = .ok state := by
  have hbytes : state.to_canonical_bytes json = .ok bytes := by
    unfold ReplicationAuthorityState.to_canonical_bytes
    rw [hwrite]
    simp only [bind_ok_iff, refuseIf_ok_iff, pure_ok_iff]
    exact ⟨(), validate_ok_iff.mpr h, (), not_lt.mpr hsize, trivial⟩
  refine ⟨hbytes, ?_⟩
  unfold ReplicationAuthorityState.from_canonical_bytes
  rw [hread]
  simp only [bind_ok_iff, refuseIf_ok_iff, pure_ok_iff, not_not]
  exact ⟨(), not_lt.mpr hsize, state, into_state_from_state h, bytes, hbytes, (), rfl, rfl⟩

end multiplex_replication_security
