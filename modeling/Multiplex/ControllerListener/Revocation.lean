-- Revocation over whole runs of the device store. A request made with what was
-- current before a revocation is never allowed again, and what the device may
-- do afterwards was given to it afterwards, as long as no pairing takes over
-- what a revoked record had.
import Multiplex.ControllerListener.Devices

open Checks FirstMatch
open multiplex_domain.controller_devices multiplex_store.controller_devices

namespace multiplex_controller_listener

open ControllerDeviceAuthority

variable {env : Surroundings}

/-! ## Where a record comes from -/

/-- Where a record of the authority comes from after an operation. -/
inductive Comes (a a' : ControllerDeviceAuthority) (operation : Operation)
    (after : PairedDeviceRecord) : Prop where
  | kept (before : PairedDeviceRecord)
      (known : before ∈ a.devices)
      (same : after.device_id = before.device_id ∧ after.capabilities = before.capabilities)
      (dead : before.status = .Revoked → after.status = .Revoked)
  | granted (eq : operation = .set_capabilities after.device_id after.capabilities)
  | paired (offer_id : PairingOfferId) (public_key : Key) (display_name : String) (now : Nat)
      (eq : operation = .persist_pairing offer_id after.device_id public_key display_name now)
      (offer : PairingOfferRecord)
      (found : a.offer? offer_id = some offer)
      (ready : offer.state = .SasReady ∨ offer.state = .HostConfirmed)
      (used : (a'.offer? offer_id).map (·.state) = some .Persisted)
      (merged : after.capabilities =
        ⟨offer.capabilities.bits ||| a.previous_capability_bits after.device_id⟩)

variable {operation : Operation} {file : ControllerDeviceDocument} {call : Call}
  {device_id : ControllerDeviceId} {calls : List Call}

theorem comes_of_mem {a a' : ControllerDeviceAuthority} {d : PairedDeviceRecord}
    (h : d ∈ a.devices) : Comes a a' operation d :=
  Comes.kept d h ⟨rfl, rfl⟩ id

theorem on_comes {a a' : ControllerDeviceAuthority} {u : Unit}
    (h : operation.on env.sha256 a = (.ok u, a')) {d : PairedDeviceRecord} (hd : d ∈ a'.devices) :
    Comes a a' operation d := by
  cases operation with
  | create_offer offer_id nonce now expires_at capabilities route_candidates =>
    obtain ⟨offer, hoffer⟩ := silent_ok h
    obtain ⟨-, -, -, -, attempts, rfl⟩ := create_offer_ok hoffer
    exact comes_of_mem hd
  | set_offer_state offer_id state =>
    obtain ⟨-, rfl⟩ := put_offer_state_ok h
    exact comes_of_mem hd
  | persist_pairing offer_id device_id public_key display_name now =>
    obtain ⟨record, hrecord⟩ := silent_ok h
    cases persist_pairing_ok hrecord with
    | again => exact comes_of_mem hd
    | anew offer found intime ready eq =>
      rcases List.mem_append.mp hd with hd | hd
      · exact comes_of_mem (List.mem_of_mem_filter hd)
      · rw [List.mem_singleton] at hd
        subst hd
        rw [eq]
        refine Comes.paired offer_id public_key display_name now rfl offer found ready ?_ rfl
        rw [offer?_with_record, found]
        rfl
  | acknowledge_pairing offer_id public_key =>
    obtain ⟨device_id, hdevice⟩ := silent_ok h
    obtain ⟨-, rfl⟩ := acknowledge_pairing_ok hdevice
    exact comes_of_mem hd
  | set_capabilities device_id capabilities =>
    rw [grant_ok h, List.mem_map] at hd
    obtain ⟨before, hbefore, rfl⟩ := hd
    split
    · rename_i hlive
      apply Comes.granted
      rw [hlive.1]
    · exact comes_of_mem hbefore
  | revoke_device device_id =>
    obtain ⟨epoch, hepoch⟩ := silent_ok h
    rw [(revoke_device_ok hepoch).2, List.mem_map] at hd
    obtain ⟨before, hbefore, rfl⟩ := hd
    refine Comes.kept before hbefore ⟨rfl, rfl⟩ ?_
    intro hdead
    unfold revokedIn
    split
    · rfl
    · exact hdead
  | begin_identity_reset =>
    obtain ⟨generation, hgeneration⟩ := silent_ok h
    rw [begin_identity_reset_ok hgeneration, List.mem_map] at hd
    obtain ⟨before, hbefore, rfl⟩ := hd
    exact Comes.kept before hbefore ⟨rfl, rfl⟩ fun _ => rfl
  | finish_identity_reset identity secret_ref =>
    rw [finish_identity_reset_ok h] at hd
    exact comes_of_mem hd

theorem on_counters {a a' : ControllerDeviceAuthority} {u : Unit}
    (h : operation.on env.sha256 a = (.ok u, a')) :
    a.revocation_epoch ≤ a'.revocation_epoch ∧ a.session_generation ≤ a'.session_generation := by
  cases operation with
  | create_offer offer_id nonce now expires_at capabilities route_candidates =>
    obtain ⟨offer, hoffer⟩ := silent_ok h
    obtain ⟨-, -, -, -, attempts, rfl⟩ := create_offer_ok hoffer
    exact ⟨le_rfl, le_rfl⟩
  | set_offer_state offer_id state =>
    obtain ⟨-, rfl⟩ := put_offer_state_ok h
    exact ⟨le_rfl, le_rfl⟩
  | persist_pairing offer_id device_id public_key display_name now =>
    obtain ⟨record, hrecord⟩ := silent_ok h
    cases persist_pairing_ok hrecord with
    | again => exact ⟨le_rfl, le_rfl⟩
    | anew => exact ⟨le_rfl, le_rfl⟩
  | acknowledge_pairing offer_id public_key =>
    obtain ⟨device_id, hdevice⟩ := silent_ok h
    obtain ⟨-, rfl⟩ := acknowledge_pairing_ok hdevice
    exact ⟨le_rfl, le_rfl⟩
  | set_capabilities device_id capabilities =>
    rw [grant_ok h]
    exact ⟨le_rfl, le_rfl⟩
  | revoke_device device_id =>
    obtain ⟨epoch, hepoch⟩ := silent_ok h
    rw [(revoke_device_ok hepoch).2]
    exact ⟨Nat.le_succ _, Nat.le_succ _⟩
  | begin_identity_reset =>
    obtain ⟨generation, hgeneration⟩ := silent_ok h
    rw [begin_identity_reset_ok hgeneration]
    exact ⟨Nat.le_succ _, Nat.le_succ _⟩
  | finish_identity_reset identity secret_ref =>
    rw [finish_identity_reset_ok h]
    exact ⟨le_rfl, le_rfl⟩

/-! ## What a run must keep -/

/-- The call takes every right of the device away: it revokes it, or begins a reset. -/
def Call.ends (device_id : ControllerDeviceId) (call : Call) : Prop :=
  call.operation = .revoke_device device_id ∨ call.operation = .begin_identity_reset

/-- The operation gives the capability to the device: it uses up an offer that has it, or sets it. -/
def Operation.Gives (a a' : ControllerDeviceAuthority) (device_id : ControllerDeviceId)
    (capability : ControllerCapability) : Operation → Prop
  | .persist_pairing offer_id paired _ _ _ =>
    paired = device_id ∧ ∃ offer ∈ a.offer? offer_id,
      (offer.state = .SasReady ∨ offer.state = .HostConfirmed) ∧
      (a'.offer? offer_id).map (·.state) = some .Persisted ∧
      offer.capabilities.contains capability = true
  | .set_capabilities granted capabilities =>
    granted = device_id ∧ capabilities.contains capability = true
  | _ => False

instance (a a' : ControllerDeviceAuthority) (device_id : ControllerDeviceId)
    (capability : ControllerCapability) : (operation : Operation) →
    Decidable (operation.Gives a a' device_id capability)
  | .persist_pairing offer_id paired _ _ _ =>
    inferInstanceAs (Decidable (paired = device_id ∧ ∃ offer ∈ a.offer? offer_id,
      (offer.state = .SasReady ∨ offer.state = .HostConfirmed) ∧
      (a'.offer? offer_id).map (·.state) = some .Persisted ∧
      offer.capabilities.contains capability = true))
  | .set_capabilities granted capabilities =>
    inferInstanceAs (Decidable (granted = device_id ∧ capabilities.contains capability = true))
  | .create_offer .. | .set_offer_state .. | .acknowledge_pairing .. | .revoke_device _
  | .begin_identity_reset | .finish_identity_reset .. => isFalse id

def Grants (env : Surroundings) (file : ControllerDeviceDocument) (call : Call)
    (device_id : ControllerDeviceId) (capability : ControllerCapability) : Prop :=
  call.succeeds env file = true ∧
    call.operation.Gives file.authority (step env file call).authority device_id capability

instance (file : ControllerDeviceDocument) (call : Call) (device_id : ControllerDeviceId)
    (capability : ControllerCapability) : Decidable (Grants env file call device_id capability) :=
  inferInstanceAs (Decidable (_ ∧ _))

/-- Some call of the run grants the capability to the device. -/
def GrantedIn (env : Surroundings) (file : ControllerDeviceDocument) :
    List Call → ControllerDeviceId → ControllerCapability → Prop
  | [], _, _ => False
  | call :: calls, device_id, capability =>
    Grants env file call device_id capability ∨
      GrantedIn env (step env file call) calls device_id capability

instance instDecidableGrantedIn (device_id : ControllerDeviceId) (capability : ControllerCapability) :
    (file : ControllerDeviceDocument) → (calls : List Call) →
      Decidable (GrantedIn env file calls device_id capability)
  | _, [] => isFalse id
  | file, call :: calls =>
    have : Decidable (GrantedIn env (step env file call) calls device_id capability) :=
      instDecidableGrantedIn device_id capability (step env file call) calls
    inferInstanceAs (Decidable (_ ∨ _))

/-- The request was built from what was current in this authority. -/
structure BuiltFrom (a : ControllerDeviceAuthority) (request : AuthorizationRequest) : Prop where
  identity_generation : request.identity_generation = a.identity_generation
  revocation_epoch : request.revocation_epoch = a.revocation_epoch
  session_generation : request.session_generation = a.session_generation

structure RevocationIsFinal (env : Surroundings) (file : ControllerDeviceDocument)
    (calls : List Call) : Prop where
  validates : ∀ before, before <+: calls →
    (run env file before).authority.validate env.sha256 = .ok ()
  counters : ∀ before later, before <+: later → later <+: calls →
    (run env file before).authority.revocation_epoch ≤
      (run env file later).authority.revocation_epoch ∧
    (run env file before).authority.session_generation ≤
      (run env file later).authority.session_generation
  unchanged : ∀ before call, before ++ [call] <+: calls →
    call.succeeds env (run env file before) = false →
    run env file (before ++ [call]) = run env file before
  stale : ∀ before call later device_id, before ++ call :: later <+: calls →
    call.ends device_id → call.succeeds env (run env file before) = true →
    ∀ request, request.device_id = device_id → BuiltFrom (run env file before).authority request →
      (run env file (before ++ call :: later)).authority.authorize request ≠ .Allow
  granted : ∀ before call later device_id, before ++ call :: later <+: calls →
    call.ends device_id → call.succeeds env (run env file before) = true →
    ∀ request, request.device_id = device_id →
      (run env file (before ++ call :: later)).authority.authorize request = .Allow →
      GrantedIn env (run env file (before ++ [call])) later device_id request.capability

/-- A pairing takes over nothing from a revoked record that its offer does not have itself. -/
def Operation.TakesNothingOver (a : ControllerDeviceAuthority) : Operation → Prop
  | .persist_pairing offer_id device_id _ _ _ =>
    ∀ offer ∈ a.offer? offer_id, offer.state = .SasReady ∨ offer.state = .HostConfirmed →
      ∀ device ∈ a.devices, device.device_id = device_id → device.status = .Revoked →
        ∀ capability, device.capabilities.contains capability = true →
          offer.capabilities.contains capability = true
  | _ => True

instance (a : ControllerDeviceAuthority) : (operation : Operation) →
    Decidable (operation.TakesNothingOver a)
  | .persist_pairing offer_id device_id _ _ _ =>
    inferInstanceAs (Decidable (∀ offer ∈ a.offer? offer_id,
      offer.state = .SasReady ∨ offer.state = .HostConfirmed →
      ∀ device ∈ a.devices, device.device_id = device_id → device.status = .Revoked →
        ∀ capability, device.capabilities.contains capability = true →
          offer.capabilities.contains capability = true))
  | .create_offer .. | .set_offer_state .. | .acknowledge_pairing .. | .set_capabilities ..
  | .revoke_device _ | .begin_identity_reset | .finish_identity_reset .. => isTrue trivial

/-- The pairing takes nothing over, and the write does not fail once the new file is in place. -/
structure Call.Fine (file : ControllerDeviceDocument) (call : Call) : Prop where
  write : call.write ≠ .failed_after_rename
  merge : call.operation.TakesNothingOver file.authority

instance (file : ControllerDeviceDocument) (call : Call) : Decidable (call.Fine file) :=
  decidable_of_iff (call.write ≠ .failed_after_rename ∧ call.operation.TakesNothingOver file.authority)
    ⟨fun h => ⟨h.1, h.2⟩, fun h => ⟨h.write, h.merge⟩⟩

def FineRun (env : Surroundings) : ControllerDeviceDocument → List Call → Prop
  | _, [] => True
  | file, call :: calls => call.Fine file ∧ FineRun env (step env file call) calls

instance instDecidableFineRun : (file : ControllerDeviceDocument) → (calls : List Call) →
    Decidable (FineRun env file calls)
  | _, [] => isTrue trivial
  | file, call :: calls =>
    have : Decidable (FineRun env (step env file call) calls) :=
      instDecidableFineRun (step env file call) calls
    inferInstanceAs (Decidable (_ ∧ _))

/-! ## One step -/

/-- A call either fails and changes nothing, or its operation succeeds and its authority is stored. -/
theorem call_cases (env : Surroundings) (file : ControllerDeviceDocument) (call : Call) :
    (call.succeeds env file = false ∧ step env file call = file) ∨
    ((call.succeeds env file = true ∨ call.write = .failed_after_rename) ∧ ∃ authority,
      call.operation.on env.sha256 file.authority = (.ok (), authority) ∧
      authority.validate env.sha256 = .ok () ∧
      step env file call = { file with revision := file.revision + 1, authority }) := by
  unfold Call.succeeds step
  have h := @answer_updated env file call
  generalize call.answer env file = answer at h ⊢
  obtain ⟨result, after⟩ := answer
  cases h with
  | refused e => exact .inl ⟨rfl, rfl⟩
  | changed u authority current operated valid result told =>
    refine .inr ⟨?_, authority, operated, valid, rfl⟩
    rcases told with ⟨rfl, -⟩ | ⟨-, hfailed⟩
    · exact .inl rfl
    · exact .inr hfailed

theorem succeeds_step (hok : call.succeeds env file = true) :
    ∃ authority, call.operation.on env.sha256 file.authority = (.ok (), authority) ∧
      step env file call = { file with revision := file.revision + 1, authority } := by
  rcases call_cases env file call with ⟨hfails, -⟩ | ⟨-, authority, hon, -, hstep⟩
  · rw [hfails] at hok
    cases hok
  · exact ⟨authority, hon, hstep⟩

/-- Every right of the device is accounted for: each of its records is revoked, or has only what
was granted. -/
def Accounted (device_id : ControllerDeviceId) (granted : ControllerCapability → Prop)
    (a : ControllerDeviceAuthority) : Prop :=
  ∀ d ∈ a.devices, d.device_id = device_id →
    d.status = .Revoked ∨ ∀ capability, d.capabilities.contains capability = true → granted capability

theorem Accounted.mono {granted granted' : ControllerCapability → Prop}
    {a : ControllerDeviceAuthority} (h : Accounted device_id granted a)
    (hle : ∀ capability, granted capability → granted' capability) :
    Accounted device_id granted' a := by
  intro d hd hid
  rcases h d hd hid with hdead | hall
  · exact .inl hdead
  · exact .inr fun capability hc => hle _ (hall _ hc)

theorem accounted_step {granted : ControllerCapability → Prop} (hfine : call.Fine file)
    (h : Accounted device_id granted file.authority) :
    Accounted device_id (fun c => granted c ∨ Grants env file call device_id c)
      (step env file call).authority := by
  rcases call_cases env file call with ⟨-, hsame⟩ | ⟨hok, authority, hon, -, hstep⟩
  · rw [hsame]
    exact h.mono fun _ => .inl
  replace hok := hok.resolve_right hfine.write
  rw [hstep]
  intro d hd hid
  cases on_comes hon hd with
  | kept before known same dead =>
    rcases h before known (same.1.symm.trans hid) with hdead | hall
    · exact .inl (dead hdead)
    · right
      intro capability hc
      rw [same.2] at hc
      exact .inl (hall _ hc)
  | granted eq =>
    right
    intro capability hc
    right
    refine ⟨hok, ?_⟩
    rw [eq]
    exact ⟨hid, hc⟩
  | paired offer_id public_key display_name now eq offer found ready used merged =>
    right
    intro capability hc
    have hgrants : offer.capabilities.contains capability = true →
        Grants env file call device_id capability := by
      intro hoffer
      refine ⟨hok, ?_⟩
      rw [eq, hstep]
      exact ⟨hid, offer, found, ready, used, hoffer⟩
    rw [merged] at hc
    rcases contains_or hc with hoffer | hprevious
    · exact .inr (hgrants hoffer)
    obtain ⟨before, hbefore, hsame, hcontains⟩ := contains_previous hprevious
    rcases h before hbefore (hsame.trans hid) with hdead | hall
    · have hmerge := hfine.merge
      rw [eq] at hmerge
      exact .inr (hgrants (hmerge offer found ready before hbefore hsame hdead capability hcontains))
    · exact .inl (hall _ hcontains)

/-! ## Whole runs -/

theorem fineRun_append {later : List Call} :
    FineRun env file (calls ++ later) ↔ FineRun env file calls ∧
      FineRun env (run env file calls) later := by
  induction calls generalizing file with
  | nil => simp [FineRun]
  | cons call calls ih =>
    simp only [List.cons_append, FineRun, ih, and_assoc]
    rfl

theorem fineRun_concat : FineRun env file (calls ++ [call]) ↔
      FineRun env file calls ∧ call.Fine (run env file calls) := by
  rw [fineRun_append]
  simp [FineRun]

theorem grantedIn_concat {capability : ControllerCapability} :
    GrantedIn env file (calls ++ [call]) device_id capability ↔
      GrantedIn env file calls device_id capability ∨
        Grants env (run env file calls) call device_id capability := by
  induction calls generalizing file with
  | nil => simp [GrantedIn]
  | cons first calls ih =>
    simp [GrantedIn, ih, or_assoc]
    rfl

theorem validates_run (hvalid : file.authority.validate env.sha256 = .ok ()) :
    (run env file calls).authority.validate env.sha256 = .ok () := by
  induction calls using List.reverseRecOn with
  | nil => exact hvalid
  | append_singleton calls call ih =>
    rw [run_concat]
    rcases call_cases env (run env file calls) call with ⟨-, hsame⟩ | ⟨-, authority, -, hafter, hstep⟩
    · rw [hsame]
      exact ih
    · rw [hstep]
      exact hafter

theorem counters_run (env : Surroundings) (file : ControllerDeviceDocument) (calls : List Call) :
    file.authority.revocation_epoch ≤ (run env file calls).authority.revocation_epoch ∧
      file.authority.session_generation ≤ (run env file calls).authority.session_generation := by
  induction calls using List.reverseRecOn with
  | nil => exact ⟨le_rfl, le_rfl⟩
  | append_singleton calls call ih =>
    obtain ⟨hepoch, hsession⟩ := ih
    rw [run_concat]
    rcases call_cases env (run env file calls) call with ⟨-, hsame⟩ | ⟨-, authority, hon, -, hstep⟩
    · rw [hsame]
      exact ⟨hepoch, hsession⟩
    · rw [hstep]
      exact ⟨hepoch.trans (on_counters hon).1, hsession.trans (on_counters hon).2⟩

theorem accounted_run (hfine : FineRun env file calls)
    (h : Accounted device_id (fun _ => False) file.authority) :
    Accounted device_id (GrantedIn env file calls device_id) (run env file calls).authority := by
  induction calls using List.reverseRecOn with
  | nil => exact h.mono fun _ => False.elim
  | append_singleton calls call ih =>
    have hbefore := ih (fineRun_concat.mp hfine).1
    rw [run_concat]
    exact (accounted_step (fineRun_concat.mp hfine).2 hbefore).mono fun _ => grantedIn_concat.mpr

/-- What ends the rights of a device moves the epoch, and leaves it nothing. -/
theorem ends_step (hends : call.ends device_id) (hok : call.succeeds env file = true) :
    (step env file call).authority.revocation_epoch = file.authority.revocation_epoch + 1 ∧
      Accounted device_id (fun _ => False) (step env file call).authority := by
  obtain ⟨authority, hon, hstep⟩ := succeeds_step hok
  rw [hstep]
  rcases hends with hends | hends
  · rw [hends] at hon
    obtain ⟨epoch, hepoch⟩ := silent_ok hon
    rw [(revoke_device_ok hepoch).2]
    refine ⟨rfl, ?_⟩
    intro d hd hid
    rw [List.mem_map] at hd
    obtain ⟨before, -, rfl⟩ := hd
    exact .inl (if_pos hid)
  · rw [hends] at hon
    obtain ⟨generation, hgeneration⟩ := silent_ok hon
    rw [begin_identity_reset_ok hgeneration]
    refine ⟨rfl, ?_⟩
    intro d hd _
    rw [List.mem_map] at hd
    obtain ⟨before, -, rfl⟩ := hd
    exact .inl rfl

theorem revocation_is_final_while_pairing_takes_nothing_over {file : ControllerDeviceDocument}
    {calls : List Call} (hvalid : file.authority.validate env.sha256 = .ok ())
    (hfine : FineRun env file calls) : RevocationIsFinal env file calls := by
  have hinitial : ∀ {before : List Call}, before <+: calls → FineRun env file before := by
    rintro before ⟨later, rfl⟩
    exact (fineRun_append.mp hfine).1
  -- After a call that ends the rights of a device, the rest of the run is a fine run of its own.
  have hsplit : ∀ {before later : List Call} {call : Call}, before ++ call :: later <+: calls →
      FineRun env (run env file (before ++ [call])) later ∧
        run env file (before ++ call :: later) = run env (run env file (before ++ [call])) later := by
    intro before later call hle
    rw [List.append_cons before call later] at hle ⊢
    exact ⟨(fineRun_append.mp (hinitial hle)).2, run_append env _ _ _⟩
  constructor
  · intro before hle
    exact validates_run hvalid
  · rintro before later ⟨between, rfl⟩ hle
    rw [run_append]
    exact counters_run env _ _
  · intro before call hle hfails
    rw [run_concat]
    rcases call_cases env (run env file before) call with ⟨-, hsame⟩ | ⟨hok, -⟩
    · exact hsame
    · rw [hfails] at hok
      exact (fineRun_concat.mp (hinitial hle)).2.write.elim (hok.resolve_left Bool.false_ne_true)
  · intro before call later device_id hle hends hok request _ hbuilt hallow
    obtain ⟨-, hrun⟩ := hsplit hle
    have hmoved := (ends_step hends hok).1
    obtain ⟨device, hallowed⟩ := authorize_allow hallow
    have hepoch := hallowed.epoch
    have hcounters := (counters_run env (run env file (before ++ [call])) later).1
    rw [hbuilt.revocation_epoch, hrun] at hepoch
    rw [run_concat, hmoved, ← run_concat, ← hepoch] at hcounters
    omega
  · intro before call later device_id hle hends hok request hid hallow
    obtain ⟨hlater, hrun⟩ := hsplit hle
    have hnothing := (ends_step hends hok).2
    rw [← run_concat] at hnothing
    obtain ⟨device, hallowed⟩ := authorize_allow hallow
    have hknown := hallowed.known
    rw [hrun] at hknown
    rcases accounted_run hlater hnothing device hknown (hallowed.device_id.trans hid) with
      hdead | hall
    · exact (hallowed.live hdead).elim
    · exact hall _ hallowed.contains

/-- The phone is revoked, and pairs again with another key over an offer. -/
def sampleRepairing (capabilities : ControllerCapabilities) : List Call :=
  [⟨4, .revoke_device 7, .written⟩,
    ⟨5, .create_offer 9 (Vector.replicate 32 5) 10 70 capabilities [], .written⟩,
    ⟨6, .set_offer_state 9 .HostConfirmed, .written⟩,
    ⟨7, .persist_pairing 9 7 (Vector.replicate 32 6) "Phone" 20, .written⟩]

theorem a_phone_pairs_again_for_what_its_offer_has :
    RevocationIsFinal sampleSurroundings (sampleFile [samplePhone]) (sampleRepairing ⟨5⟩) :=
  revocation_is_final_while_pairing_takes_nothing_over (by decide +kernel) (by decide +kernel)

theorem a_revoked_phone_regains_its_input :
    ¬ ∀ (env : Surroundings) (file : ControllerDeviceDocument) (calls : List Call),
      file.authority.validate env.sha256 = .ok () → RevocationIsFinal env file calls := by
  intro h
  have hfinal := h sampleSurroundings (sampleFile [samplePhone]) (sampleRepairing ⟨1⟩)
    (by decide +kernel)
  have hgranted := hfinal.granted [] ⟨4, .revoke_device 7, .written⟩ (sampleRepairing ⟨1⟩).tail 7
    List.prefix_rfl (Or.inl rfl) (by decide +kernel)
    ⟨7, Vector.replicate 32 6, 1, .SendInput, 2, 2, 30, 40⟩ rfl (by decide +kernel)
  exact absurd hgranted (by decide +kernel)

end multiplex_controller_listener
