-- What holds of a mobile vault over any calls: a device has one key that
-- counts, and a revocation is final. Both go by the id as it is trimmed, so
-- they hold of the ids that come trimmed, and of no others.
import Multiplex.MobileVault.Devices

open FirstMatch
open multiplex_domain.session (trim)

namespace multiplex_protocol

/-! ## What the lists say of one id -/

namespace MobileVaultExport

def knows (e : MobileVaultExport) (device_id : List Char) : Bool :=
  e.devices.any fun device => device.device_id = device_id

def revoked (e : MobileVaultExport) (device_id : List Char) : Bool :=
  e.devices.any fun device => device.device_id = device_id ∧ device.revoked_at_millis.isSome

def active_keys (e : MobileVaultExport) (device_id : List Char) : List MobileDeviceVaultKey :=
  e.device_keys.filter fun key => key.active_for device_id

end MobileVaultExport

open MobileVaultExport

variable {e : MobileVaultExport} {d d' : List Char} {p : Pairing} {millis : Nat}

theorem revoke_keys_own (keys : List MobileDeviceVaultKey) :
    (revoke_keys d millis keys).filter (fun key => key.active_for d) = [] := by
  rw [List.filter_eq_nil_iff]
  intro key hkey
  obtain ⟨old, -, rfl⟩ := List.mem_map.mp hkey
  split
  · simp [MobileDeviceVaultKey.active_for]
  · assumption

theorem revoke_keys_other (h : d' ≠ d) (keys : List MobileDeviceVaultKey) :
    (revoke_keys d millis keys).filter (fun key => key.active_for d') =
      keys.filter (fun key => key.active_for d') := by
  induction keys with
  | nil => rfl
  | cons key keys ih =>
    unfold revoke_keys at ih ⊢
    by_cases hkey : key.active_for d = true
    · -- the key is of the other device, before and after
      have hid : key.device_id = d := by
        unfold MobileDeviceVaultKey.active_for at hkey
        rw [decide_eq_true_eq] at hkey
        exact hkey.1
      have hold : key.active_for d' = false := by
        simp [MobileDeviceVaultKey.active_for, hid, Ne.symm h]
      have hnew : MobileDeviceVaultKey.active_for
          { key with revoked_at_millis := some millis } d' = false := by
        simp [MobileDeviceVaultKey.active_for]
      simp [hkey, hold, hnew]
      exact ih
    · rw [List.map_cons, if_neg hkey, List.filter_cons, List.filter_cons, ih]

variable {f : MobileDeviceRecord → MobileDeviceRecord} {q : MobileDeviceRecord → Bool}
  {c : VaultCall} {calls : List VaultCall}

variable (devices : List MobileDeviceRecord)

theorem revoked_eq (hid : ∀ device, (f device).device_id = device.device_id)
    (hrevoked : ∀ device, (f device).revoked_at_millis = device.revoked_at_millis) :
    (updateFirst q f devices).any (fun device =>
        device.device_id = d ∧ device.revoked_at_millis.isSome) =
      devices.any fun device => device.device_id = d ∧ device.revoked_at_millis.isSome := by
  have hmap : (updateFirst q f devices).map (fun device =>
        decide (device.device_id = d ∧ device.revoked_at_millis.isSome)) =
      devices.map fun device => decide (device.device_id = d ∧ device.revoked_at_millis.isSome) :=
    map_updateFirst fun device => by rw [hid, hrevoked]
  have hany := congrArg (List.any · id) hmap
  simpa only [List.any_map, Function.id_comp] using hany

theorem knows_eq (hid : ∀ device, (f device).device_id = device.device_id) :
    (updateFirst q f devices).any (fun device => decide (device.device_id = d)) =
      devices.any fun device => decide (device.device_id = d) := by
  have hmap : (updateFirst q f devices).map (fun device => decide (device.device_id = d)) =
      devices.map fun device => decide (device.device_id = d) :=
    map_updateFirst fun device => by rw [hid]
  have hany := congrArg (List.any · id) hmap
  simpa only [List.any_map, Function.id_comp] using hany

/-! ## What a call does -/

/-- What a pairing that succeeds has checked, and what it leaves. -/
structure Paired (e : MobileVaultExport) (p : Pairing) (e' : MobileVaultExport) : Prop where
  named : trim p.request.device_id ≠ []
  allowed : e.revoked (trim p.request.device_id) = false
  knows : ∀ d, e'.knows d = (e.knows d || decide (d = p.request.device_id))
  revoked : ∀ d, e'.revoked d = e.revoked d
  own : e'.active_keys p.request.device_id = [p.key]
  others : ∀ d ≠ p.request.device_id, e'.active_keys d = e.active_keys d
  touched : e'.updated_at_millis = max e.updated_at_millis p.created_at_millis ∧
    e'.sync.revision = min (e.sync.revision + 1) (2 ^ 64 - 1)

/-- What a revocation that succeeds has checked, and what it leaves. -/
structure Revoked (e : MobileVaultExport) (device_id : List Char) (millis : Nat)
    (e' : MobileVaultExport) : Prop where
  known : e.knows (trim device_id) = true
  knows : ∀ d, e'.knows d = e.knows d
  own : e'.revoked (trim device_id) = true
  revoked : ∀ d ≠ trim device_id, e'.revoked d = e.revoked d
  gone : e'.active_keys (trim device_id) = []
  others : ∀ d ≠ trim device_id, e'.active_keys d = e.active_keys d
  touched : e'.updated_at_millis = max e.updated_at_millis millis ∧
    e'.sync.revision = min (e.sync.revision + 1) (2 ^ 64 - 1)

theorem validate_ok {request : MobileDevicePairingRequest} (h : request.validate = .ok ()) :
    trim request.device_id ≠ [] := by
  unfold MobileDevicePairingRequest.validate at h
  split at h <;> try cases h
  split at h <;> try cases h
  split at h
  · cases h
  · assumption

theorem is_device_revoked_eq (h : trim d ≠ []) : e.is_device_revoked d = e.revoked (trim d) := by
  unfold MobileVaultExport.is_device_revoked
  simp only [ne_eq, h, not_false_eq_true, decide_true, Bool.true_and]
  rfl

theorem knows_record_device : (e.record_device p.request millis).knows d =
      (e.knows d || decide (d = p.request.device_id)) := by
  unfold MobileVaultExport.record_device
  split
  · rename_i hknown
    unfold MobileVaultExport.knows
    rw [knows_eq]
    · by_cases hd : d = p.request.device_id
      · rw [hd, hknown]
        simp
      · simp [hd]
    · exact fun _ => rfl
  · unfold MobileVaultExport.knows
    rw [List.any_append, List.any_cons, List.any_nil, Bool.or_false]
    simp only [eq_comm]

theorem revoked_record_device : (e.record_device p.request millis).revoked d = e.revoked d := by
  unfold MobileVaultExport.record_device
  split
  · exact revoked_eq _ (fun _ => rfl) (fun _ => rfl)
  · unfold MobileVaultExport.revoked
    simp

theorem device_keys_record_device :
    (e.record_device p.request millis).device_keys = e.device_keys := by
  unfold MobileVaultExport.record_device
  split <;> rfl

theorem call_error {error : MobileDevicePairingError} (h : (e.call c).1 = .error error) :
    (e.call c).2 = e := by
  cases c with
  | pair p =>
    simp only [MobileVaultExport.call, MobileVaultExport.apply_pairing_request] at h ⊢
    split
    · rfl
    · rename_i hvalid
      simp only [hvalid] at h
      split_ifs at h ⊢ <;> rfl
  | revoke device_id millis =>
    simp only [MobileVaultExport.call, MobileVaultExport.revoke_device] at h ⊢
    split_ifs at h ⊢ <;> rfl

theorem paired_of_accepts (h : e.accepts (.pair p) = true) : Paired e p (e.step (.pair p)) := by
  unfold MobileVaultExport.accepts at h
  unfold MobileVaultExport.step
  simp only [MobileVaultExport.call, MobileVaultExport.apply_pairing_request] at h ⊢
  split at h
  · cases h
  · rename_i hvalid
    have hnamed := validate_ok hvalid
    split at h
    · cases h
    split at h
    · cases h
    split at h
    · cases h
    rename_i hallowed hkey hid
    rw [is_device_revoked_eq hnamed, Bool.not_eq_true] at hallowed
    rw [if_neg (by rw [is_device_revoked_eq hnamed, hallowed]; exact Bool.false_ne_true),
      if_neg hkey, if_neg hid]
    refine ⟨hnamed, hallowed, fun d => ?_, fun d => ?_, ?_, fun d hd => ?_, ?_⟩
    · exact knows_record_device
    · exact revoked_record_device
    · unfold MobileVaultExport.active_keys MobileVaultExport.touch
      simp [revoke_keys_own]
      exact List.filter_cons_of_pos (by
        simp [MobileVaultExport.paired_key, MobileDeviceVaultKey.active_for])
    · unfold MobileVaultExport.active_keys MobileVaultExport.touch
      simp [revoke_keys_other hd, device_keys_record_device]
      simp [MobileVaultExport.paired_key, MobileDeviceVaultKey.active_for, Ne.symm hd]
    · unfold MobileVaultExport.touch MobileVaultExport.record_device
      split <;> exact ⟨rfl, rfl⟩

theorem revoked_of_accepts (h : e.accepts (.revoke d millis) = true) :
    Revoked e d millis (e.step (.revoke d millis)) := by
  unfold MobileVaultExport.accepts at h
  unfold MobileVaultExport.step
  simp only [MobileVaultExport.call, MobileVaultExport.revoke_device] at h ⊢
  split at h
  · cases h
  rename_i hnamed
  split at h
  case isFalse => cases h
  rename_i hknown
  rw [if_neg hnamed, if_pos hknown]
  refine ⟨hknown, fun x => ?_, ?_, fun x hx => ?_, ?_, fun x hx => ?_, rfl, rfl⟩
  · exact knows_eq _ fun _ => rfl
  · -- the first record of that id is there, and is revoked now
    have hsome : (e.devices.find? fun device => decide (device.device_id = trim d)).isSome = true :=
      List.find?_isSome.mpr (List.any_eq_true.mp hknown)
    obtain ⟨device, hfind⟩ := Option.isSome_iff_exists.mp hsome
    have hupdated := find?_updateFirst (l := e.devices)
      (p := fun device : MobileDeviceRecord => decide (device.device_id = trim d))
      (f := fun device => { device with
        revoked_at_millis := some millis, last_seen_at_millis := some millis })
      (fun _ ha => ha)
    rw [hfind, Option.map_some] at hupdated
    refine List.any_eq_true.mpr ⟨_, List.mem_of_find?_eq_some hupdated, ?_⟩
    have hid := List.find?_some hfind
    simp [hid]
  · unfold MobileVaultExport.revoked MobileVaultExport.touch
    rw [← List.isSome_find?, ← List.isSome_find?, find?_updateFirst_other]
    intro device hdevice
    rw [decide_eq_true_eq] at hdevice
    simp [hdevice, Ne.symm hx]
  · exact revoke_keys_own _
  · exact revoke_keys_other hx _

/-! ## What calls leave of one id -/

/-- A call that names the device, as far as its records go. -/
def VaultCall.names (d : List Char) : VaultCall → Bool
  | .pair p => p.request.device_id = d
  | .revoke device_id _ => trim device_id = d

theorem step_cases (e : MobileVaultExport) (c : VaultCall) :
    e.step c = e ∨ (∃ p, c = .pair p ∧ e.accepts c = true ∧ Paired e p (e.step c)) ∨
      ∃ d millis, c = .revoke d millis ∧ e.accepts c = true ∧ Revoked e d millis (e.step c) := by
  cases hresult : (e.call c).1 with
  | error error => exact .inl (call_error hresult)
  | ok u =>
    have haccepts : e.accepts c = true := by
      unfold MobileVaultExport.accepts
      rw [hresult]
      rfl
    cases c with
    | pair p => exact .inr (.inl ⟨p, rfl, haccepts, paired_of_accepts haccepts⟩)
    | revoke d millis => exact .inr (.inr ⟨d, millis, rfl, haccepts, revoked_of_accepts haccepts⟩)

theorem knows_step (c : VaultCall) (h : e.knows d = true) : (e.step c).knows d = true := by
  rcases step_cases e c with hsame | ⟨p, -, -, hpaired⟩ | ⟨x, millis, -, -, hrevoked⟩
  · rwa [hsame]
  · rw [hpaired.knows, h, Bool.true_or]
  · rwa [hrevoked.knows]

theorem one_key_step (c : VaultCall) (h : ∀ d, (e.active_keys d).length ≤ 1) (d : List Char) :
    ((e.step c).active_keys d).length ≤ 1 := by
  rcases step_cases e c with hsame | ⟨p, -, -, hpaired⟩ | ⟨x, millis, -, -, hrevoked⟩
  · rw [hsame]
    exact h d
  · by_cases hd : d = p.request.device_id
    · rw [hd, hpaired.own]
      exact le_rfl
    · rw [hpaired.others d hd]
      exact h d
  · by_cases hd : d = trim x
    · rw [hd, hrevoked.gone]
      exact Nat.zero_le _
    · rw [hrevoked.others d hd]
      exact h d

theorem undisturbed_step (h : (c.names d && e.accepts c) = false) :
    (e.step c).active_keys d = e.active_keys d ∧ (e.step c).revoked d = e.revoked d := by
  rcases step_cases e c with hsame | ⟨p, rfl, haccepts, hpaired⟩ | ⟨x, millis, rfl, haccepts, hrevoked⟩
  · rw [hsame]
    exact ⟨rfl, rfl⟩
  · rw [haccepts, Bool.and_true, VaultCall.names, decide_eq_false_iff_not] at h
    exact ⟨hpaired.others d (Ne.symm h), hpaired.revoked d⟩
  · rw [haccepts, Bool.and_true, VaultCall.names, decide_eq_false_iff_not] at h
    exact ⟨hrevoked.others d (Ne.symm h), hrevoked.revoked d (Ne.symm h)⟩

/-- A device that is revoked, and has no key that counts. -/
structure ShutOut (e : MobileVaultExport) (d : List Char) : Prop where
  revoked : e.revoked d = true
  keyless : e.active_keys d = []

/-- Pairing is refused by the trimmed id, so a revoked id that is trimmed gets no key again. -/
theorem shut_out_step (c : VaultCall) (htrim : trim d = d) (h : ShutOut e d) :
    ShutOut (e.step c) d := by
  rcases step_cases e c with hsame | ⟨p, -, -, hpaired⟩ | ⟨x, millis, -, -, hrevoked⟩
  · rwa [hsame]
  · have hother : d ≠ p.request.device_id := by
      rintro rfl
      have hallowed := hpaired.allowed
      rw [htrim, h.revoked] at hallowed
      cases hallowed
    exact ⟨(hpaired.revoked d).trans h.revoked, (hpaired.others d hother).trans h.keyless⟩
  · by_cases hd : d = trim x
    · rw [hd]
      exact ⟨hrevoked.own, hrevoked.gone⟩
    · exact ⟨(hrevoked.revoked d hd).trans h.revoked, (hrevoked.others d hd).trans h.keyless⟩

theorem active_device_key_eq (hne : d ≠ []) (htrim : trim d = d) :
    e.active_device_key d = if e.revoked d then none else (e.active_keys d).head? := by
  unfold MobileVaultExport.active_device_key
  have hnamed : trim d ≠ [] := by rwa [htrim]
  simp [htrim, hne, is_device_revoked_eq hnamed]
  split
  · rfl
  · exact (List.head?_filter ..).symm

theorem ShutOut.no_key (h : ShutOut e d) (hne : d ≠ []) (htrim : trim d = d) :
    e.active_device_key d = none := by
  rw [active_device_key_eq hne htrim, if_pos h.revoked]

theorem touched_step (h : e.accepts c = true) :
    (e.step c).sync.revision = min (e.sync.revision + 1) (2 ^ 64 - 1) := by
  cases c with
  | pair p => exact (paired_of_accepts h).touched.2
  | revoke d millis => exact (revoked_of_accepts h).touched.2

theorem clock_step (c : VaultCall) : e.updated_at_millis ≤ (e.step c).updated_at_millis := by
  rcases step_cases e c with hsame | ⟨p, -, -, hpaired⟩ | ⟨x, millis, -, -, hrevoked⟩
  · rw [hsame]
  · rw [hpaired.touched.1]
    exact Nat.le_max_left _ _
  · rw [hrevoked.touched.1]
    exact Nat.le_max_left _ _

/-! ## Runs -/

def vaultOf (calls : List VaultCall) : MobileVaultExport := MobileVaultExport.empty.after calls

def undisturbed (e : MobileVaultExport) (d : List Char) (calls : List VaultCall) : Bool :=
  Runs.steps MobileVaultExport.step (fun e c => !(c.names d && e.accepts c)) e calls

structure VaultLaws (calls : List VaultCall) : Prop where
  one_key : ∀ d, ((vaultOf calls).active_keys d).length ≤ 1
  paired_last : ∀ before p since, calls = before ++ .pair p :: since →
    (vaultOf before).accepts (.pair p) = true →
    undisturbed (vaultOf (before ++ [.pair p])) p.request.device_id since = true →
    (vaultOf calls).active_device_key p.request.device_id = some p.key
  revocable : ∀ before p since millis, calls = before ++ .pair p :: since →
    (vaultOf before).accepts (.pair p) = true →
    ∃ e, (vaultOf calls).revoke_device p.request.device_id millis = (.ok (), e) ∧
      ∀ later, (e.after later).active_device_key p.request.device_id = none ∧
        (e.after later).active_keys p.request.device_id = []
  failed : ∀ c error, ((vaultOf calls).call c).1 = .error error →
    ((vaultOf calls).call c).2 = vaultOf calls
  clock : ∀ c, (vaultOf calls).updated_at_millis ≤ ((vaultOf calls).step c).updated_at_millis
  counted : ∀ c, (vaultOf calls).accepts c = true → (vaultOf calls).sync.revision < 2 ^ 64 - 1 →
    ((vaultOf calls).step c).sync.revision = (vaultOf calls).sync.revision + 1

/-- Every id that a pairing brought in comes without white space around it. -/
def PairsTrimmed (calls : List VaultCall) : Prop :=
  ∀ before p since, calls = before ++ .pair p :: since →
    (vaultOf before).accepts (.pair p) = true → trim p.request.device_id = p.request.device_id

theorem vaultOf_append (calls : List VaultCall) (c : VaultCall) :
    vaultOf (calls ++ [c]) = (vaultOf calls).step c :=
  Runs.run_append_singleton _ _ _

theorem vaultOf_split (before : List VaultCall) (c : VaultCall) (since : List VaultCall) :
    vaultOf (before ++ c :: since) = (vaultOf (before ++ [c])).after since := by
  unfold vaultOf MobileVaultExport.after Runs.run
  simp [List.foldl_append]

theorem one_key_run (calls : List VaultCall) (d : List Char) :
    ((vaultOf calls).active_keys d).length ≤ 1 :=
  Runs.keeps_always (fun e : MobileVaultExport => ∀ d, (e.active_keys d).length ≤ 1)
    (fun _ c h => one_key_step c h) (fun _ => Nat.zero_le _) calls d

theorem knows_run (h : e.knows d = true) (calls : List VaultCall) : (e.after calls).knows d = true :=
  Runs.keeps_always (fun e : MobileVaultExport => e.knows d = true) (fun _ c h => knows_step c h) h
    calls

theorem shut_out_run (htrim : trim d = d) (h : ShutOut e d) (calls : List VaultCall) :
    ShutOut (e.after calls) d :=
  Runs.keeps_always (ShutOut · d) (fun _ c h => shut_out_step c htrim h) h calls

theorem undisturbed_run {keys : List MobileDeviceVaultKey}
    (hkeys : e.active_keys d = keys ∧ e.revoked d = false) (h : undisturbed e d calls = true) :
    (e.after calls).active_keys d = keys ∧ (e.after calls).revoked d = false := by
  refine Runs.keeps (fun e : MobileVaultExport => e.active_keys d = keys ∧ e.revoked d = false)
    (fun e c hkeys hc => ?_) hkeys h
  rw [Bool.not_eq_true'] at hc
  obtain ⟨hsame, hrevoked⟩ := undisturbed_step hc
  exact ⟨hsame.trans hkeys.1, hrevoked.trans hkeys.2⟩

/-- Revoking an id that was paired, and comes trimmed, shuts the device out. -/
theorem revoke_known (hknown : e.knows d = true) (hne : d ≠ []) (htrim : trim d = d) (millis : Nat) :
    ∃ e', e.revoke_device d millis = (.ok (), e') ∧ ShutOut e' d := by
  have hok : (e.revoke_device d millis).1 = .ok () := by
    unfold MobileVaultExport.revoke_device
    rw [htrim]
    unfold MobileVaultExport.knows at hknown
    rw [if_neg hne, if_pos hknown]
  have haccepts : e.accepts (.revoke d millis) = true := by
    unfold MobileVaultExport.accepts MobileVaultExport.call
    rw [hok]
    rfl
  obtain ⟨-, -, hown, -, hgone, -, -⟩ := revoked_of_accepts haccepts
  rw [htrim] at hown hgone
  exact ⟨_, Prod.ext hok rfl, hown, hgone⟩

theorem laws_of_trimmed (h : PairsTrimmed calls) : VaultLaws calls where
  one_key := one_key_run calls
  paired_last := by
    rintro before p since rfl haccepts hsince
    have htrim := h before p since rfl haccepts
    have hpaired := paired_of_accepts haccepts
    have hne : p.request.device_id ≠ [] := htrim ▸ hpaired.named
    have hstart : (vaultOf (before ++ [.pair p])).active_keys p.request.device_id = [p.key] ∧
        (vaultOf (before ++ [.pair p])).revoked p.request.device_id = false := by
      rw [vaultOf_append]
      exact ⟨hpaired.own, (hpaired.revoked _).trans (htrim ▸ hpaired.allowed)⟩
    obtain ⟨hkeys, hrevoked⟩ := undisturbed_run hstart hsince
    rw [vaultOf_split, active_device_key_eq hne htrim, hkeys, hrevoked]
    rfl
  revocable := by
    rintro before p since millis rfl haccepts
    have htrim := h before p since rfl haccepts
    have hpaired := paired_of_accepts haccepts
    have hne : p.request.device_id ≠ [] := htrim ▸ hpaired.named
    have hknown : (vaultOf (before ++ [.pair p])).knows p.request.device_id = true := by
      rw [vaultOf_append, hpaired.knows, decide_eq_true rfl, Bool.or_true]
    obtain ⟨e, he, hshut⟩ := revoke_known (knows_run hknown since) hne htrim millis
    rw [vaultOf_split]
    refine ⟨e, he, fun later => ?_⟩
    have hlater := shut_out_run htrim hshut later
    exact ⟨hlater.no_key hne htrim, hlater.keyless⟩
  failed := fun _ _ herror => call_error herror
  clock := clock_step
  counted := by
    intro c haccepts hroom
    rw [touched_step haccepts]
    omega

/-- A vault that starts empty keeps its laws in every state of a run exactly where each id that
was paired comes trimmed. -/
theorem revocation_is_final_iff_ids_are_trimmed (calls : List VaultCall) :
    (∀ before, before <+: calls → VaultLaws before) ↔ PairsTrimmed calls := by
  constructor
  · rintro hlaws before p since rfl haccepts
    -- the lookup right after the pairing trims the id, and the key has it as it came
    have hnow := (hlaws (before ++ [.pair p]) ⟨since, by simp⟩).paired_last before p [] rfl haccepts rfl
    unfold MobileVaultExport.active_device_key at hnow
    simp only at hnow
    split at hnow
    · cases hnow
    · have hkey := List.find?_some hnow
      unfold MobileDeviceVaultKey.active_for at hkey
      rw [decide_eq_true_eq] at hkey
      exact hkey.1.symm
  · rintro htrimmed before ⟨since, rfl⟩
    refine laws_of_trimmed fun before' p since' hsplit haccepts => ?_
    exact htrimmed before' p (since' ++ since) (by rw [hsplit, List.append_assoc]; rfl) haccepts

/-- A phone whose id starts with a blank. -/
def blankPairing : Pairing :=
  ⟨⟨1, ['r'], [' ', 'p'], ['l'], ['i'], none⟩, ['v'], ['k'], 5⟩

/-- The phone is paired under an id that nothing finds again, and cannot be revoked. -/
theorem a_blank_before_the_id_hides_the_device : ¬ VaultLaws [.pair blankPairing] := by
  intro h
  obtain ⟨e, he, -⟩ := h.revocable [] blankPairing [] 6 rfl (by decide +kernel)
  have hunknown : (vaultOf [.pair blankPairing]).revoke_device [' ', 'p'] 6 =
      (.error (.UnknownDevice ['p']), vaultOf [.pair blankPairing]) := by decide +kernel
  rw [show blankPairing.request.device_id = [' ', 'p'] from rfl, hunknown] at he
  cases he

end multiplex_protocol
