-- Whole runs of the authority: any requests after a bootstrap, each of which
-- succeeds or fails. Revocation is final, and the keys follow the membership.
import Multiplex.ReplicationSecurity.AuthorityLaws

open Checks multiplex_domain

namespace multiplex_replication_security

inductive Request (hpke : Hpke) where
  | enroll (replica_id : ReplicationReplicaId) (public_key : ReplicationDevicePublicKey hpke)
  | rotate
  | revoke (replica_id : ReplicationReplicaId) (accepted_through : UInt64)

/-- A request with the key of whoever makes it, the revision that is expected, and the entropy. -/
structure Call (hpke : Hpke) where
  authority_private : ReplicationAuthorityPrivateKey hpke
  expected_revision : ReplicationAuthorityRevision
  request : Request hpke
  entropy : ReplicationEntropy

variable {hpke : Hpke}

def Call.answer (call : Call hpke) (state : ReplicationAuthorityState hpke) :
    Answer (ReplicationAuthorityTransition hpke) :=
  match call.request with
  | .enroll replica_id public_key =>
    enroll_replication_device_with_entropy state call.authority_private call.expected_revision
      replica_id public_key call.entropy
  | .rotate =>
    rotate_replication_epoch_with_entropy state call.authority_private call.expected_revision
      call.entropy
  | .revoke replica_id accepted_through =>
    revoke_replication_device_with_entropy state call.authority_private call.expected_revision
      replica_id accepted_through call.entropy

/-- The transition that counts after a call: the new one, or the last one when the call fails. -/
def step (t : ReplicationAuthorityTransition hpke) (call : Call hpke) :
    ReplicationAuthorityTransition hpke :=
  match call.answer t.state with
  | .ok next => next
  | .error _ => t

def run (t : ReplicationAuthorityTransition hpke) (calls : List (Call hpke)) :
    ReplicationAuthorityTransition hpke := calls.foldl step t

/-! ## One step -/

variable {state : ReplicationAuthorityState hpke} {t : ReplicationAuthorityTransition hpke}
  {replica_id : ReplicationReplicaId} {device : ReplicationAuthorityDevice hpke}

theorem answer_follows {call : Call hpke} (h : call.answer state = .ok t) : Follows state t := by
  unfold Call.answer at h
  split at h
  · exact enroll_follows h
  · exact rotate_follows h
  · exact revoke_follows h

structure Sound (t : ReplicationAuthorityTransition hpke) : Prop where
  valid : Valid t.state
  packaged : Packaged t

theorem sound_step (h : Sound t) (call : Call hpke) : Sound (step t call) := by
  unfold step
  split
  · rename_i next hnext
    exact ⟨(answer_follows hnext).valid, (answer_follows hnext).packaged⟩
  · exact h

theorem revoked_stays_step (h : t.state.devices.get? replica_id = some device)
    (hrevoked : device.status ≠ .Active) (call : Call hpke) :
    (step t call).state.devices.get? replica_id = some device := by
  unfold step
  split
  · rename_i next hnext
    cases (answer_follows hnext).changed with
    | enrolled other public_key absent fresh devices =>
      have hne : replica_id ≠ other := by
        rintro rfl
        rw [absent] at h
        cases h
      rw [devices, SortedMap.get?_insert_of_ne hne]
      exact h
    | rotated devices =>
      rw [devices]
      exact h
    | revoked other found_device accepted_through found active devices =>
      have hne : replica_id ≠ other := by
        rintro rfl
        rw [found] at h
        cases h
        exact hrevoked active
      rw [devices, SortedMap.get?_insert_of_ne hne]
      exact h
  · exact h

/-! ## Whole runs -/

theorem sound_run {calls : List (Call hpke)} : ∀ {t : ReplicationAuthorityTransition hpke},
    Sound t → Sound (run t calls) := by
  induction calls with
  | nil => exact fun h => h
  | cons call calls ih => exact fun h => ih (sound_step h call)

theorem revoked_stays_run (hrevoked : device.status ≠ .Active) {calls : List (Call hpke)} :
    ∀ {t : ReplicationAuthorityTransition hpke}, t.state.devices.get? replica_id = some device →
    (run t calls).state.devices.get? replica_id = some device := by
  induction calls with
  | nil => exact fun h => h
  | cons call calls ih => exact fun h => ih (revoked_stays_step h hrevoked call)

/-! ## What a sound transition says -/

theorem mem_active_devices : device ∈ state.active_devices ↔
      (∃ e ∈ state.devices.entries, e.2 = device) ∧ device.status = .Active := by
  unfold ReplicationAuthorityState.active_devices ReplicationAuthorityDevice.is_active
  rw [List.mem_filter, List.mem_map, decide_eq_true_eq]

/-- No two devices have the same identifier or the same key. -/
structure Distinct (state : ReplicationAuthorityState hpke) : Prop where
  ids : state.devices.entries.Pairwise fun a b => a.2.replica_id ≠ b.2.replica_id
  keys : state.devices.entries.Pairwise fun a b => a.2.public_key ≠ b.2.public_key

theorem distinct_of_valid (h : Valid state) : Distinct state where
  ids := by
    refine List.Pairwise.imp_of_mem ?_ state.devices.sorted
    intro a b ha hb hlt
    rw [← (h.devices a ha).own, ← (h.devices b hb).own]
    exact hlt.ne
  keys := by
    have hkeys := h.keys
    refine (List.pairwise_map.mp hkeys).imp ?_
    intro a b hne heq
    exact hne (congrArg ReplicationDevicePublicKey.bytes heq)

/-- The recipients are the active devices, each of them once. -/
def OnePackageEach (t : ReplicationAuthorityTransition hpke) : Prop :=
  (t.distribution.packages.map ReplicationRecipientKeyPackage.recipient).Nodup ∧
  ∀ replica_id, replica_id ∈ t.distribution.packages.map ReplicationRecipientKeyPackage.recipient ↔
    ∃ device, t.state.devices.get? replica_id = some device ∧ device.status = .Active

theorem recipients_of_sound (h : Sound t) :
    t.distribution.packages.map ReplicationRecipientKeyPackage.recipient =
      t.state.active_devices.map ReplicationAuthorityDevice.replica_id := by
  have hall : List.Forall₂ (fun device package => package.recipient = device.replica_id)
    t.state.active_devices t.distribution.packages := h.packaged.packages.imp fun _ _ hone => hone.1
  generalize t.state.active_devices = devices, t.distribution.packages = packages at hall
  induction hall with
  | nil => rfl
  | cons hhead _ ih => rw [List.map_cons, List.map_cons, hhead, ih]

theorem onePackageEach_of_sound (h : Sound t) : OnePackageEach t := by
  refine ⟨?_, ?_⟩
  · rw [recipients_of_sound h]
    have hids := (distinct_of_valid h.valid).ids
    refine List.Nodup.sublist (List.filter_sublist.map _) ?_
    rw [List.map_map]
    exact List.pairwise_map.mpr hids
  · intro replica_id
    rw [recipients_of_sound h, List.mem_map]
    constructor
    · rintro ⟨device, hdevice, rfl⟩
      obtain ⟨⟨e, he, rfl⟩, hactive⟩ := mem_active_devices.mp hdevice
      refine ⟨e.2, ?_, hactive⟩
      rw [← (h.valid.devices e he).own]
      exact SortedMap.get?_eq_some_iff.mpr he
    · rintro ⟨device, hdevice, hactive⟩
      have he := SortedMap.get?_eq_some_iff.mp hdevice
      exact ⟨device, mem_active_devices.mpr ⟨⟨_, he, rfl⟩, hactive⟩, (h.valid.devices _ he).own.symm⟩

/-- A device under the identifier or the key of another is that device. -/
theorem device_unique (h : Valid state) (hdevice : state.devices.get? replica_id = some device)
    {e : ReplicationReplicaId × ReplicationAuthorityDevice hpke} (he : e ∈ state.devices.entries)
    (hsame : e.2.replica_id = replica_id ∨ e.2.public_key = device.public_key) : e.2 = device := by
  have hmem := SortedMap.get?_eq_some_iff.mp hdevice
  have heq : e = (replica_id, device) := by
    rcases hsame with hid | hkey
    · exact SortedMap.key_injective he hmem ((h.devices e he).own.trans hid)
    · by_contra hne
      have : Std.Symm fun a b : ReplicationReplicaId × ReplicationAuthorityDevice hpke =>
        a.2.public_key ≠ b.2.public_key := ⟨fun _ _ => Ne.symm⟩
      exact (distinct_of_valid h).keys.forall he hmem hne hkey
  rw [heq]

/-- From now on a device stays exactly as it is, no other one takes its identifier or its key, and no
epoch key is packaged for it. -/
def StaysRevoked (t : ReplicationAuthorityTransition hpke) (replica_id : ReplicationReplicaId)
    (device : ReplicationAuthorityDevice hpke) : Prop :=
  ∀ later : List (Call hpke),
    (run t later).state.devices.get? replica_id = some device ∧
    (∀ e ∈ (run t later).state.devices.entries,
      e.2.replica_id = replica_id ∨ e.2.public_key = device.public_key → e.2 = device) ∧
    ∀ package ∈ (run t later).distribution.packages, package.recipient ≠ replica_id

theorem stays_revoked (h : Sound t) (hdevice : t.state.devices.get? replica_id = some device)
    (hrevoked : device.status ≠ .Active) : StaysRevoked t replica_id device := by
  intro later
  have hlater : Sound (run t later) := sound_run h
  have hstays : (run t later).state.devices.get? replica_id = some device :=
    revoked_stays_run hrevoked hdevice
  refine ⟨hstays, fun e he hsame => device_unique hlater.valid hstays he hsame, ?_⟩
  intro package hpackage hrecipient
  have hmem : replica_id ∈
      (run t later).distribution.packages.map ReplicationRecipientKeyPackage.recipient :=
    List.mem_map.mpr ⟨package, hpackage, hrecipient⟩
  obtain ⟨other, hother, hactive⟩ := ((onePackageEach_of_sound hlater).2 replica_id).mp hmem
  rw [hstays] at hother
  cases hother
  exact hrevoked hactive

theorem bootstrap_sound {workspace_id : ReplicationWorkspaceId}
    {authority_private : ReplicationAuthorityPrivateKey hpke}
    {initial_replica : ReplicationReplicaId}
    {initial_device_public_key : ReplicationDevicePublicKey hpke} {entropy : ReplicationEntropy}
    (h : bootstrap_replication_authority_with_entropy workspace_id authority_private initial_replica
      initial_device_public_key entropy = .ok t) :
    Sound t ∧ t.state.revision.value = 1 ∧ t.state.key_epoch.value = 1 := by
  unfold bootstrap_replication_authority_with_entropy at h
  simp only [bind_ok_iff, orElse_ok_iff] at h
  obtain ⟨-, -, -, -, revision, hrevision, key_epoch, hepoch, -, -, hissue⟩ := h
  obtain ⟨hstate, hvalid, hpackaged⟩ := issue_transition_ok hissue
  rw [← hstate] at hvalid
  refine ⟨⟨hvalid, hpackaged⟩, ?_, ?_⟩
  · rw [hstate]
    cases hrevision
    rfl
  · rw [hstate]
    cases hepoch
    rfl

/-- One more revision and one more epoch when a call succeeds, and nothing at all when it fails. -/
def StepsByOne (t : ReplicationAuthorityTransition hpke) (call : Call hpke) : Prop :=
  match call.answer t.state with
  | .ok next => step t call = next ∧
    next.state.revision.value.toNat = t.state.revision.value.toNat + 1 ∧
    next.state.key_epoch.value.toNat = t.state.key_epoch.value.toNat + 1
  | .error _ => step t call = t

theorem steps_by_one (t : ReplicationAuthorityTransition hpke) (call : Call hpke) :
    StepsByOne t call := by
  unfold StepsByOne step
  split
  · rename_i next hnext
    have hadvanced := (answer_follows hnext).advanced
    exact ⟨rfl, hadvanced.revision, hadvanced.epoch⟩
  · rfl

/-- After a bootstrap and any calls: revisions and epochs go up one by one, devices stay distinct and
one of them active, a revoked device stays revoked and gets no key, every active one gets exactly one
package, and the state can be stored and read back. -/
theorem revocation_is_final_and_keys_follow_membership {workspace_id : ReplicationWorkspaceId}
    {authority_private : ReplicationAuthorityPrivateKey hpke} {initial_replica : ReplicationReplicaId}
    {initial_device_public_key : ReplicationDevicePublicKey hpke} {entropy : ReplicationEntropy}
    {first : ReplicationAuthorityTransition hpke}
    (h : bootstrap_replication_authority_with_entropy workspace_id authority_private initial_replica
      initial_device_public_key entropy = .ok first) (calls : List (Call hpke)) :
    first.state.revision.value = 1 ∧ first.state.key_epoch.value = 1 ∧
    (∀ call, StepsByOne (run first calls) call) ∧ Distinct (run first calls).state ∧
    (∃ e ∈ (run first calls).state.devices.entries, e.2.status = .Active) ∧
    (∀ replica_id device, (run first calls).state.devices.get? replica_id = some device →
      device.status ≠ .Active → StaysRevoked (run first calls) replica_id device) ∧
    OnePackageEach (run first calls) ∧ Packaged (run first calls) ∧
    ∀ (json : SerdeJson) (bytes : List UInt8),
      json.to_vec (StoredAuthorityState.from_state (run first calls).state) = some bytes →
      json.from_slice bytes = some (StoredAuthorityState.from_state (run first calls).state) →
      bytes.length ≤ MAX_REPLICATION_AUTHORITY_STATE_BYTES →
      (run first calls).state.to_canonical_bytes json = .ok bytes ∧
        ReplicationAuthorityState.from_canonical_bytes hpke json bytes = .ok (run first calls).state := by
  obtain ⟨hfirst, hrevision, hepoch⟩ := bootstrap_sound h
  have hsound : Sound (run first calls) := sound_run hfirst
  refine ⟨hrevision, hepoch, fun call => steps_by_one _ call, distinct_of_valid hsound.valid, ?_,
    fun replica_id device hdevice hrevoked => stays_revoked hsound hdevice hrevoked,
    onePackageEach_of_sound hsound, hsound.packaged, ?_⟩
  · obtain ⟨device, hdevice⟩ := List.exists_mem_of_ne_nil _ hsound.valid.active
    obtain ⟨⟨e, he, rfl⟩, hactive⟩ := mem_active_devices.mp hdevice
    exact ⟨e, he, hactive⟩
  · exact fun json bytes hwrite hread hsize => canonical_round_trip hsound.valid hwrite hread hsize

/-! ## A device that comes and goes -/

def bytesOf (length value : Nat) : List UInt8 :=
  (List.range length).map fun i => UInt8.ofNat (value / 256 ^ (length - 1 - i))

def bytes32Of (value : Nat) : Bytes32 := Vector.ofFn fun i => UInt8.ofNat (value / 256 ^ (31 - i.val))

/-- What HPKE gives for one authority key, two devices and four packages. -/
def sampleHpke : Hpke where
  private_from_bytes := fun _ => true
  public_from_bytes := fun _ => true
  sk_to_pk := fun bytes =>
    if bytes = Vector.replicate 32 1 then
      bytes32Of 0xa4e09292b651c278b9772c569f5fa9bb13d906b46ab68c9df9dc2b4409f8a209
    else bytes32Of 0xce8d3ad1ccb633ec7b70c17814a5c76ecd029685050d344745ba05870e587d59
  single_shot_seal := fun _ _ _ _ _ ephemeral_ikm =>
    if ephemeral_ikm = Vector.replicate 32 0x12 then
      some (bytesOf 32 0xef318102dece03b0f25a53f513652ad349cf01a7d4134bb44f10b8774ba65a34,
        bytesOf 48
      0x80e9b6470c0f0b983e1ed1fe9f7a423d52fbb402388093eab8acc6d0f4e7b684234762911f63d6d4ffe1c428a62e2569)
    else if ephemeral_ikm = Vector.replicate 32 0x22 then
      some (bytesOf 32 0xe3b9708aaa21a7f1e62a95ee28d1e5d60b0fceed6c68599013a54b318e9e0b15,
        bytesOf 48
      0x7611d053e8026d645b0c3588534c0a466bd9b14210e2311b11ab3b8d4a3237442fbabcd29cd732040f362e48d9c66b45)
    else if ephemeral_ikm = Vector.replicate 32 0x23 then
      some (bytesOf 32 0x725d664f8464af7cbaf439c9e07d945885516559cc597a14d6bfcfde03c04363,
        bytesOf 48
      0x8c27a1a82136d818cad78c925b19c9c023f49bba01a4ae6aeb3096f6a4fecbd35a05395dc6d5c2ef70a5a844ee743e1a)
    else
      some (bytesOf 32 0x0e657d3e3f68c49c063132762504d699759fa3e743d6a13fabfa41663af5e612,
        bytesOf 48
      0x067d8f29026038db2a38a78578dc3b8f73e7af968a65719e39c4b0e110776f6c3e89c493aefe3f7a40fd3a7d571c3b51)
  derived := by
    intro bytes _
    refine ⟨?_, rfl⟩
    split
    · decide +kernel
    · decide +kernel

def samplePrivate : ReplicationAuthorityPrivateKey sampleHpke :=
  ⟨Vector.replicate 32 1, by decide +kernel, rfl⟩

def deskKey : ReplicationDevicePublicKey sampleHpke :=
  ⟨bytes32Of 0xce8d3ad1ccb633ec7b70c17814a5c76ecd029685050d344745ba05870e587d59,
    by decide +kernel, rfl⟩

def lapKey : ReplicationDevicePublicKey sampleHpke :=
  ⟨bytes32Of 0x5dfedd3b6bd47f6fa28ee15d969d5bb0ea53774d488bdaf9df1c6e0124b3ef22,
    by decide +kernel, rfl⟩

/-- Fixed bytes for each call of `fill`. -/
def sampleEntropy (bytes : List UInt8) : ReplicationEntropy := fun n =>
  (bytes[n]?).map fun byte => Vector.replicate 32 byte

def sampleCalls : List (Call sampleHpke) :=
  [⟨samplePrivate, ⟨1, by decide⟩, .enroll "lap" lapKey, sampleEntropy [0x21, 0x22, 0x23]⟩,
    ⟨samplePrivate, ⟨1, by decide⟩, .rotate, sampleEntropy [0x31, 0x32, 0x33]⟩,
    ⟨samplePrivate, ⟨2, by decide⟩, .revoke "lap" 7, sampleEntropy [0x31, 0x32]⟩,
    ⟨samplePrivate, ⟨3, by decide⟩, .enroll "phone" lapKey, sampleEntropy [0x41, 0x42, 0x43]⟩]

def lapDevice : ReplicationAuthorityDevice sampleHpke :=
  ⟨"lap", lapKey, .Revoked 7 ⟨3, by decide⟩ ⟨3, by decide⟩⟩

def sampleStored : StoredAuthorityState :=
  ⟨1, "ws", samplePrivate.public_key.bytes, 3, 3,
    [⟨"desk", deskKey.bytes, .Active⟩, ⟨"lap", lapKey.bytes, .Revoked 7 3 3⟩]⟩

def jsonNumbers (bytes : List UInt8) : String :=
  "[" ++ ",".intercalate (bytes.map fun byte => toString byte.toNat) ++ "]"

def jsonStatus : StoredAuthorityDeviceStatus → String
  | .Active => "\x7b\"state\":\"active\"\x7d"
  | .Revoked accepted_through revoked_at_revision revoked_at_epoch =>
    "\x7b\"state\":\"revoked\",\"accepted_through\":" ++ toString accepted_through.toNat ++
      ",\"revoked_at_revision\":" ++ toString revoked_at_revision.toNat ++
      ",\"revoked_at_epoch\":" ++ toString revoked_at_epoch.toNat ++ "\x7d"

def jsonDevice (device : StoredAuthorityDevice) : String :=
  "\x7b\"replica_id\":\"" ++ device.replica_id ++ "\",\"public_key\":" ++
    jsonNumbers device.public_key.toList ++ ",\"status\":" ++ jsonStatus device.status ++ "\x7d"

/-- The JSON of a stored state whose names need no escapes. -/
def jsonState (stored : StoredAuthorityState) : List UInt8 :=
  ("\x7b\"version\":" ++ toString stored.version.toNat ++ ",\"workspace_id\":\"" ++
    stored.workspace_id ++ "\",\"authority_public_key\":" ++
    jsonNumbers stored.authority_public_key.toList ++ ",\"revision\":" ++
    toString stored.revision.toNat ++ ",\"key_epoch\":" ++ toString stored.key_epoch.toNat ++
    ",\"devices\":[" ++ ",".intercalate (stored.devices.map jsonDevice) ++ "]\x7d").toUTF8.toList

def sampleJson : SerdeJson where
  to_vec := fun stored => some (jsonState stored)
  from_slice := fun bytes => if bytes = jsonState sampleStored then some sampleStored else none

theorem lap_stays_revoked :
    ∃ first, bootstrap_replication_authority_with_entropy "ws" samplePrivate "desk" deskKey
        (sampleEntropy [0x11, 0x12]) = .ok first ∧
      (run first sampleCalls).state.revision.value = 3 ∧
      StaysRevoked (run first sampleCalls) "lap" lapDevice ∧
      ReplicationAuthorityState.from_canonical_bytes sampleHpke sampleJson (jsonState sampleStored) =
        .ok (run first sampleCalls).state := by
  have hrun : (match bootstrap_replication_authority_with_entropy "ws" samplePrivate "desk" deskKey
        (sampleEntropy [0x11, 0x12]) with
      | .ok first => decide ((run first sampleCalls).state.revision.value = 3 ∧
          (run first sampleCalls).state.devices.get? "lap" = some lapDevice ∧
          StoredAuthorityState.from_state (run first sampleCalls).state = sampleStored)
      | .error _ => false) = true := by decide +kernel
  split at hrun
  · rename_i first hfirst
    obtain ⟨hrevision, hdevice, hstored⟩ := of_decide_eq_true hrun
    obtain ⟨-, -, -, -, -, hstays, -, -, hround⟩ :=
      revocation_is_final_and_keys_follow_membership hfirst sampleCalls
    refine ⟨first, hfirst, hrevision, hstays "lap" lapDevice hdevice (by decide), ?_⟩
    refine (hround sampleJson (jsonState sampleStored) (by rw [hstored]; rfl) ?_ ?_).2
    · rw [hstored]
      exact if_pos rfl
    · decide +kernel
  · cases hrun

end multiplex_replication_security
