-- The trust state along every run of several updaters on one file: it never
-- gets older and a call that fails leaves it, as long as each call replaces the
-- state that it has loaded. Nothing looks at the file again after the load, and
-- two updaters can take the state back.
import Multiplex.UpdateTrust.Trust

namespace multiplex_update_trust

/-! ## The file that is written -/

theorem length_number {n : Nat} (h : n < 2 ^ 64) : (JsonText.number n).length ≤ 20 :=
  JsonText.length_number_le (by simp) (h.trans (by norm_num))

theorem length_seconds_text (seconds : Int64) : (seconds_text seconds).length ≤ 21 := by
  have hlt : seconds.toInt.natAbs < 2 ^ 64 := by
    have hlow := Int64.le_toInt seconds
    have hhigh := Int64.toInt_lt seconds
    omega
  have hnumber := length_number hlt
  unfold seconds_text
  split
  · rw [List.length_cons]
    omega
  · omega

theorem length_text (state : TrustedState) : (text state).length ≤ MAX_TRUST_STATE_BYTES := by
  have hschema := length_number (n := state.schema_version.toNat) (by
    have := state.schema_version.toNat_lt
    omega)
  have hroot := length_number state.root_version.toNat_lt
  have htimestamp := length_number state.timestamp_version.toNat_lt
  have hsnapshot := length_number state.snapshot_version.toNat_lt
  have htargets := length_number state.targets_version.toNat_lt
  have hobserved := length_seconds_text state.observed_unix_seconds
  simp [text, JsonText.object, JsonText.joined, MAX_TRUST_STATE_BYTES]
  have hnames : (JsonText.string "schema_version").length = 16 ∧
      (JsonText.string "root_version").length = 14 ∧
      (JsonText.string "timestamp_version").length = 19 ∧
      (JsonText.string "snapshot_version").length = 18 ∧
      (JsonText.string "targets_version").length = 17 ∧
      (JsonText.string "observed_unix_seconds").length = 23 := by decide +kernel
  omega

theorem trusted_written {state : TrustedState} (h : state.schema_version = TRUST_STATE_SCHEMA_VERSION) :
    trusted (some (written state)) = some state := by
  have hlength : ¬MAX_TRUST_STATE_BYTES < (written state).length := Nat.not_lt.mpr (length_text state)
  simp only [trusted, inspect, if_neg hlength]
  simp [written, h]

variable {previous : Option TrustedState} {request : VerificationRequest}
  {verified : VerifiedTarget}

/-! ## What one call does -/

theorem validate_monotonic_ok {old next : TrustedState}
    (h : validate_monotonic (some old) next = .ok ()) :
    old.root_version ≤ next.root_version ∧ old.timestamp_version < next.timestamp_version ∧
      old.snapshot_version ≤ next.snapshot_version ∧ old.targets_version ≤ next.targets_version := by
  simp only [validate_monotonic] at h
  split at h
  · cases h
  rename_i hold
  split at h
  · cases h
  rename_i hnew
  simp at hold
  exact ⟨hold.1, UInt64.lt_of_le_of_ne hold.2.1 (Ne.symm hnew), hold.2.2.1, hold.2.2.2⟩

/-- The clock of a call is not behind what was observed when its state was stored. -/
theorem start_ok {instants : Instants} {stored : Option TrustFile} {cancelled readable : Bool}
    {now_seconds : Int64} {now : Int} {old : TrustedState}
    (h : start instants stored cancelled readable now_seconds = .ok (some old, now)) :
    old.observed_unix_seconds ≤ now_seconds := by
  unfold start at h
  simp only [Checks.bind_ok_iff, Checks.refuseIf_ok_iff] at h
  obtain ⟨_, -, previous, -, _, hclock, h⟩ := h
  split at h
  · cases h
  cases h
  simpa using hclock

theorem parse_target_ok {signed : Target} (h : parse_target request signed = .ok verified) :
    Answers request verified signed := by
  unfold parse_target at h
  split at h
  · cases h
  cases hmetadata : (signed.custom.lookup "termirust").bind MultiplexTargetMetadata.from_value with
  | none => simp [hmetadata] at h
  | some metadata =>
    simp only [hmetadata] at h
    split at h
    · cases h
    split at h
    · cases h
    rename_i hsame
    simp at hsame
    split at h
    · cases h
    rename_i hrange
    simp at hrange
    split at h
    · cases h
    cases h
    exact ⟨rfl, ⟨metadata, hmetadata, hsame.1, rfl⟩, hsame.2.1, hsame.2.2, hrange.1, hrange.2⟩

theorem verify_ok {instants : Instants} {now_seconds : Int64} {now : Int} {source : Source}
    {cancellation : Cancellation} {next_state : TrustedState}
    (h : verify instants request previous now_seconds now source cancellation =
      .ok (next_state, verified)) : next_state.schema_version = TRUST_STATE_SCHEMA_VERSION ∧
      next_state.observed_unix_seconds = now_seconds ∧ validate_monotonic previous next_state = .ok () ∧
      ∃ repository signed, source.load = .ok repository ∧
        (request.target, signed) ∈ repository.all_targets ∧ Answers request verified signed := by
  unfold verify at h
  simp only [Checks.bind_ok_iff] at h
  obtain ⟨_, -, files, -, _, -, _, -, _, -, repository, hrepository, _, -, _, hmonotonic, _, -, h⟩ := h
  have hload : source.load = .ok repository := by
    cases hload : source.load with
    | error e => simp [hload, Except.mapError] at hrepository
    | ok found => simpa [hload, Except.mapError] using hrepository
  cases hfind : repository.all_targets.find? fun entry => entry.1 = request.target with
  | none => simp [hfind] at h
  | some entry =>
    obtain ⟨name, signed⟩ := entry
    simp only [hfind, Checks.bind_ok_iff, Except.ok.injEq, Prod.mk.injEq] at h
    obtain ⟨found, hparse, _, -, rfl, rfl⟩ := h
    have hname := List.find?_some hfind
    rw [decide_eq_true_eq] at hname
    subst hname
    exact ⟨rfl, rfl, hmonotonic, repository, signed, hload,
      List.mem_of_find?_eq_some hfind, parse_target_ok hparse⟩

def Phase.persisted : Phase → Bool
  | .Persisted _ | .Returned (.ok _) => true
  | _ => false

/-- The target that a call has found and is about to return. -/
def Phase.target : Phase → Option VerifiedTarget
  | .Verified _ _ verified | .Persisted verified | .Returned (.ok verified) => some verified
  | _ => none

/-- What a call does in a step. -/
inductive Proceeds (call : Call) (event : Event) : Option TrustedState → Phase → Prop
  | stays : Proceeds call event none call.phase
  | refused (error : TrustErrorCode) (before : call.phase.persisted = false) :
      Proceeds call event none (.Returned (.error error))
  | loaded {previous : Option TrustedState} {now_seconds : Int64} (now : Int)
      (was : call.phase = .Called)
      (clock : ∀ old, previous = some old → old.observed_unix_seconds ≤ now_seconds) :
      Proceeds call event none (.Loaded previous now_seconds now)
  | verified {i : Nat} {source : Source} {cancellation : Cancellation} {repository : Repository}
      {signed : Target} {previous : Option TrustedState} {now_seconds : Int64} {now : Int}
      {next_state : TrustedState} {verified : VerifiedTarget}
      (is_verify : event = .verify i source cancellation)
      (was : call.phase = .Loaded previous now_seconds now)
      (schema : next_state.schema_version = TRUST_STATE_SCHEMA_VERSION)
      (observed : next_state.observed_unix_seconds = now_seconds)
      (monotonic : validate_monotonic previous next_state = .ok ())
      (load : source.load = .ok repository)
      (listed : (call.request.target, signed) ∈ repository.all_targets)
      (answers : Answers call.request verified signed) :
      Proceeds call event none (.Verified previous next_state verified)
  | persisted {i : Nat} {previous : Option TrustedState} {next_state : TrustedState}
      {verified : VerifiedTarget} (is_persist : event = .persist i none)
      (was : call.phase = .Verified previous next_state verified) :
      Proceeds call event (some next_state) (.Persisted verified)
  | returned {verified : VerifiedTarget} (was : call.phase = .Persisted verified) :
      Proceeds call event none (.Returned (.ok verified))
  | unsynced {i : Nat} {result : Except ErrorKind Unit} {error : TrustErrorCode}
      {verified : VerifiedTarget} (is_sync : event = .sync i result)
      (was : call.phase = .Persisted verified) (failed : sync_directory result = .error error) :
      Proceeds call event none (.Returned (.error error))

theorem call_proceeds (instants : Instants) (stored : Option TrustFile) (call : Call) (event : Event) :
    Proceeds call event (call.next instants stored event).1 (call.next instants stored event).2 := by
  cases event with
  | call request => exact .stays
  | load i cancelled readable now_seconds =>
    simp only [Call.next]
    split
    · rename_i hphase
      split
      · exact .refused _ (by simp [hphase, Phase.persisted])
      · rename_i hstart
        exact .loaded _ hphase fun old hold => start_ok (hold ▸ hstart)
    · exact .stays
  | verify i source cancellation =>
    simp only [Call.next]
    split
    · rename_i hphase
      split
      · exact .refused _ (by simp [hphase, Phase.persisted])
      · rename_i hverify
        obtain ⟨hschema, hobserved, hmonotonic, _, _, hload, hlisted, hanswers⟩ := verify_ok hverify
        exact .verified rfl hphase hschema hobserved hmonotonic hload hlisted hanswers
    · exact .stays
  | persist i failure =>
    simp only [Call.next]
    split
    · rename_i hphase
      split
      · exact .refused _ (by simp [hphase, Phase.persisted])
      · exact .persisted rfl hphase
    · exact .stays
  | sync i result =>
    simp only [Call.next]
    split
    · rename_i hphase
      split
      · rename_i hfailed
        exact .unsynced rfl hphase hfailed
      · exact .returned hphase
    · exact .stays

/-! ## One step among several updaters -/

section
variable {instants : Instants} {u : Updaters} {event : Event} {i : Nat} {call : Call}

/-- A step of a call changes that call, and the file if it stores a state. -/
theorem step_of_call (hi : event.call? = some i) (hcall : u.calls[i]? = some call) :
    step instants u event = ⟨((call.next instants u.stored event).1.map written).or u.stored,
        u.calls.set i ⟨call.request, (call.next instants u.stored event).2⟩⟩ := by
  cases event with
  | call request => cases hi
  | load j _ _ _ | verify j _ _ | persist j _ | sync j _ =>
    cases hi
    simp [step, Event.call?, hcall]

theorem step_of_none (instants : Instants) (hi : event.call? = some i) (hcall : u.calls[i]? = none) :
    step instants u event = u := by
  cases event with
  | call request => cases hi
  | load j _ _ _ | verify j _ _ | persist j _ | sync j _ =>
    cases hi
    simp [step, Event.call?, hcall]

theorem step_of_request (instants : Instants) (u : Updaters) (hi : event.call? = none) :
    ∃ request, step instants u event = ⟨u.stored, u.calls ++ [⟨request, .Called⟩]⟩ := by
  cases event with
  | call request => exact ⟨request, rfl⟩
  | load j _ _ _ | verify j _ _ | persist j _ | sync j _ => cases hi

variable {j : Nat} {verified : VerifiedTarget}

/-- What holds of a call after a step: it is as it was, new, or it did the step. -/
theorem call_after {after : Call} (h : (step instants u event).calls[j]? = some after) :
    u.calls[j]? = some after ∨ (u.calls[j]? = none ∧ after.phase = .Called) ∨
      ∃ before, u.calls[j]? = some before ∧ event.call? = some j ∧ after.request = before.request ∧
        after.phase = (before.next instants u.stored event).2 := by
  cases hi : event.call? with
  | none =>
    obtain ⟨request, hstep⟩ := step_of_request instants u hi
    rw [hstep, List.getElem?_append] at h
    split at h
    · exact .inl h
    · rename_i hlt
      rw [List.getElem?_singleton] at h
      split at h
      · cases h
        exact .inr (.inl ⟨List.getElem?_eq_none (Nat.not_lt.mp hlt), rfl⟩)
      · cases h
  | some i =>
    cases hcall : u.calls[i]? with
    | none =>
      rw [step_of_none instants hi hcall] at h
      exact .inl h
    | some call =>
      rw [step_of_call hi hcall] at h
      by_cases hji : j = i
      · subst hji
        rw [List.getElem?_set_self (List.getElem?_eq_some_iff.mp hcall).1] at h
        cases h
        exact .inr (.inr ⟨call, hcall, rfl, rfl, rfl⟩)
      · rw [List.getElem?_set_ne (Ne.symm hji)] at h
        exact .inl h

theorem calls_after (instants : Instants) (event : Event) (hcall : u.calls[j]? = some call) :
    (step instants u event).calls[j]? = some ⟨call.request,
      if event.call? = some j then (call.next instants u.stored event).2 else call.phase⟩ := by
  have hlt := (List.getElem?_eq_some_iff.mp hcall).1
  cases hi : event.call? with
  | none =>
    obtain ⟨request, hstep⟩ := step_of_request instants u hi
    rw [hstep, List.getElem?_append_left hlt, hcall, if_neg (by simp)]
  | some i =>
    cases hcalled : u.calls[i]? with
    | none =>
      have hne : some i ≠ some j := by
        rintro ⟨⟩
        simp [hcalled] at hcall
      rw [step_of_none instants hi hcalled, hcall, if_neg hne]
    | some other =>
      rw [step_of_call hi hcalled]
      by_cases hij : i = j
      · subst hij
        rw [hcall] at hcalled
        cases hcalled
        rw [List.getElem?_set_self hlt, if_pos rfl]
      · rw [List.getElem?_set_ne hij, hcall, if_neg (by simpa using hij)]

theorem stored_after (instants : Instants) (hi : event.call? = some i) (hcall : u.calls[i]? = some call) :
    (step instants u event).stored =
      ((call.next instants u.stored event).1.map written).or u.stored := by
  rw [step_of_call hi hcall]

theorem stored_of_request (instants : Instants) (hi : event.call? = none) :
    (step instants u event).stored = u.stored := by
  obtain ⟨request, hstep⟩ := step_of_request instants u hi
  rw [hstep]

/-! ## Every run -/

/-- A trust state was stored whose timestamp is newer than the one before. -/
def Raises (before after : Option TrustFile) : Prop :=
  ∃ new, trusted after = some new ∧
    ∀ old, trusted before = some old → old.timestamp_version < new.timestamp_version

/-- Signed metadata that this call was given lists the target as it was asked for. -/
def Vouched (events : List Event) (i : Nat) (request : VerificationRequest)
    (verified : VerifiedTarget) : Prop :=
  ∃ source cancellation repository signed, Event.verify i source cancellation ∈ events ∧
    source.load = .ok repository ∧ (request.target, signed) ∈ repository.all_targets ∧
      Answers request verified signed

/-- What is trusted is still trusted, or something that is not older. -/
def Upholds (before after : Option TrustFile) : Prop :=
  ∀ old, trusted before = some old → ∃ new, trusted after = some new ∧ NoOlder old new

theorem upholds_refl (stored : Option TrustFile) : Upholds stored stored :=
  fun old hold => ⟨old, hold, UInt64.le_refl _, UInt64.le_refl _, UInt64.le_refl _, UInt64.le_refl _,
    Int64.le_refl _⟩

theorem upholds_trans {a b c : Option TrustFile} (hab : Upholds a b) (hbc : Upholds b c) :
    Upholds a c := by
  intro old hold
  obtain ⟨mid, hmid, h⟩ := hab old hold
  obtain ⟨new, hnew, h'⟩ := hbc mid hmid
  exact ⟨new, hnew, UInt64.le_trans h.root h'.root, UInt64.le_trans h.timestamp h'.timestamp,
    UInt64.le_trans h.snapshot h'.snapshot, UInt64.le_trans h.targets h'.targets,
    Int64.le_trans h.observed h'.observed⟩

/-- What a call has checked so far of the state that it is about to store: its schema is read back,
and it is newer than the state that the call has loaded. -/
def Phase.Checked : Phase → Prop
  | .Loaded previous now_seconds _ =>
    ∀ old, previous = some old → old.observed_unix_seconds ≤ now_seconds
  | .Verified previous next_state _ => next_state.schema_version = TRUST_STATE_SCHEMA_VERSION ∧
    ∀ old, previous = some old →
      old.timestamp_version < next_state.timestamp_version ∧ NoOlder old next_state
  | _ => True

def Checked (u : Updaters) : Prop :=
  ∀ (i : Nat) (call : Call), u.calls[i]? = some call → call.phase.Checked

/-- What is kept of the calls and of the file along a run. -/
structure Kept (instants : Instants) (s : Updaters) (events : List Event) : Prop where
  quiet : ∀ j, (∀ call, (Runs.run (step instants) s events).calls[j]? = some call →
      call.phase.persisted = false) →
    Runs.Each (step instants) (fun u e => e.call? = some j → (step instants u e).stored = u.stored) s
      events
  raised : ∀ j call, (Runs.run (step instants) s events).calls[j]? = some call →
    call.phase.persisted = true →
      Runs.Sometime (step instants)
        (fun u e => e.call? = some j ∧ Raises u.stored (step instants u e).stored) s events
  checked : Checked (Runs.run (step instants) s events)
  vouched : ∀ j call verified, (Runs.run (step instants) s events).calls[j]? = some call →
    call.phase.target = some verified → Vouched events j call.request verified
  upheld : ∀ before after, events = before ++ after →
    Upholds (Runs.run (step instants) s before).stored (Runs.run (step instants) s events).stored

/-- A file that takes the old one's place is read back, and newer than what was stored. -/
theorem fits_persist {previous : Option TrustedState} {next_state : TrustedState}
    (hchecked : Checked u) (hcall : u.calls[i]? = some call)
    (hphase : call.phase = .Verified previous next_state verified)
    (hfits : fits u (.persist i none) = true) :
    trusted (some (written next_state)) = some next_state ∧ ∀ old, trusted u.stored = some old →
      old.timestamp_version < next_state.timestamp_version ∧ NoOlder old next_state := by
  have hphase_checked := hchecked i call hcall
  rw [hphase] at hphase_checked
  obtain ⟨hschema, hnewer⟩ := hphase_checked
  simp [fits, hcall, hphase] at hfits
  exact ⟨trusted_written hschema, fun old hold => hnewer old (hfits ▸ hold)⟩

theorem persisted_kept (instants : Instants) (hi : event.call? = some i)
    (hcall : u.calls[i]? = some call)
    (hfits : fits u event = true) (hbefore : call.phase.persisted = true) :
    (call.next instants u.stored event).2.persisted = true := by
  have hproceeds := call_proceeds instants u.stored call event
  generalize call.next instants u.stored event = next at hproceeds ⊢
  obtain ⟨stored, phase⟩ := next
  cases hproceeds with
  | stays => exact hbefore
  | refused error before => simp [before] at hbefore
  | loaded _ was => simp [was, Phase.persisted] at hbefore
  | verified _ was => simp [was, Phase.persisted] at hbefore
  | persisted _ was => simp [was, Phase.persisted] at hbefore
  | returned was => rfl
  | unsynced is_sync was failed =>
    subst is_sync
    cases hi
    simp [fits, hcall, was, failed, Except.isOk, Except.toBool] at hfits

/-- A call that has not stored its state after a step has stored nothing with it. -/
theorem quiet_step (hi : event.call? = some i) (hcall : u.calls[i]? = some call)
    (hafter : (call.next instants u.stored event).2.persisted = false) :
    (step instants u event).stored = u.stored := by
  have hproceeds := call_proceeds instants u.stored call event
  rw [stored_after instants hi hcall]
  generalize call.next instants u.stored event = next at hproceeds hafter ⊢
  obtain ⟨stored, phase⟩ := next
  cases hproceeds with
  | persisted is_persist was => simp [Phase.persisted] at hafter
  | stays | refused | loaded | verified | returned | unsynced => rfl

theorem upholds_step (hchecked : Checked u) (hfits : fits u event = true) :
    Upholds u.stored (step instants u event).stored := by
  cases hi : event.call? with
  | none => exact (stored_of_request instants hi).symm ▸ upholds_refl u.stored
  | some i =>
    cases hcall : u.calls[i]? with
    | none => exact (step_of_none instants hi hcall).symm ▸ upholds_refl u.stored
    | some call =>
      have hproceeds := call_proceeds instants u.stored call event
      rw [stored_after instants hi hcall]
      generalize call.next instants u.stored event = next at hproceeds ⊢
      obtain ⟨stored, phase⟩ := next
      cases hproceeds with
      | persisted is_persist was =>
        subst is_persist
        cases hi
        intro old hold
        obtain ⟨hwritten, hnewer⟩ := fits_persist hchecked hcall was hfits
        exact ⟨_, hwritten, (hnewer old hold).2⟩
      | stays | refused | loaded | verified | returned | unsynced => exact upholds_refl u.stored

/-- The checks of a call carry over to what it is about to store, whatever other calls do. -/
theorem checked_step (hchecked : Checked u) : Checked (step instants u event) := by
  intro j call hcall
  rcases call_after hcall with hsame | ⟨-, hcalled⟩ | ⟨before, hbefore, hi, -, hphase⟩
  · exact hchecked j call hsame
  · rw [hcalled]
    trivial
  · have hproceeds := call_proceeds instants u.stored before event
    rw [hphase]
    generalize before.next instants u.stored event = next at hproceeds ⊢
    obtain ⟨stored, phase⟩ := next
    cases hproceeds with
    | stays => exact hchecked j before hbefore
    | loaded _ _ clock => exact clock
    | verified _ was schema observed monotonic =>
      have hclock := hchecked j before hbefore
      rw [was] at hclock
      refine ⟨schema, fun old hold => ?_⟩
      subst hold
      obtain ⟨hroot, htimestamp, hsnapshot, htargets⟩ := validate_monotonic_ok monotonic
      exact ⟨htimestamp, hroot, UInt64.le_of_lt htimestamp, hsnapshot, htargets,
        observed ▸ hclock old rfl⟩
    | refused | persisted | returned | unsynced => trivial

variable {s : Updaters} {events : List Event}

theorem quiet_snoc (hkept : Kept instants s events)
    (hfits : fits (Runs.run (step instants) s events) event = true) (j : Nat)
    (hquiet : ∀ call, (Runs.run (step instants) s (events ++ [event])).calls[j]? = some call →
      call.phase.persisted = false) :
    Runs.Each (step instants) (fun u e => e.call? = some j → (step instants u e).stored = u.stored) s
      (events ++ [event]) := by
  rw [Runs.run_append_singleton] at hquiet
  rw [Runs.each_append_singleton]
  constructor
  · refine hkept.quiet j fun call hcall => ?_
    have hafter := hquiet _ (calls_after instants event hcall)
    by_contra hpersisted
    rw [Bool.not_eq_false] at hpersisted
    by_cases hi : event.call? = some j
    · have hstill := persisted_kept instants hi hcall hfits hpersisted
      simp [hi, hstill] at hafter
    · simp [hi, hpersisted] at hafter
  · intro hi
    cases hcall : (Runs.run (step instants) s events).calls[j]? with
    | none => rw [step_of_none instants hi hcall]
    | some call =>
      have hafter := hquiet _ (calls_after instants event hcall)
      exact quiet_step hi hcall (by simpa [hi] using hafter)

theorem raised_snoc (hkept : Kept instants s events)
    (hfits : fits (Runs.run (step instants) s events) event = true) (j : Nat) (call : Call)
    (hcall : (Runs.run (step instants) s (events ++ [event])).calls[j]? = some call)
    (hpersisted : call.phase.persisted = true) : Runs.Sometime (step instants)
      (fun u e => e.call? = some j ∧ Raises u.stored (step instants u e).stored) s
      (events ++ [event]) := by
  rw [Runs.run_append_singleton] at hcall
  rw [Runs.sometime_append_singleton]
  rcases call_after hcall with hsame | ⟨-, hcalled⟩ | ⟨before, hbefore, hi, -, hphase⟩
  · exact .inl (hkept.raised j call hsame hpersisted)
  · simp [hcalled, Phase.persisted] at hpersisted
  · have hproceeds := call_proceeds instants (Runs.run (step instants) s events).stored before event
    have hstored := stored_after instants hi hbefore
    rw [hphase] at hpersisted
    generalize before.next instants (Runs.run (step instants) s events).stored event = next
      at hproceeds hpersisted hstored
    obtain ⟨stored, phase⟩ := next
    cases hproceeds with
    | stays => exact .inl (hkept.raised j before hbefore hpersisted)
    | returned was => exact .inl (hkept.raised j before hbefore (by simp [was, Phase.persisted]))
    | persisted is_persist was =>
      subst is_persist
      cases hi
      obtain ⟨hwritten, hnewer⟩ := fits_persist hkept.checked hbefore was hfits
      exact .inr ⟨rfl, _, hstored ▸ hwritten, fun old hold => (hnewer old hold).1⟩
    | refused | loaded | verified | unsynced => simp [Phase.persisted] at hpersisted

theorem vouched_longer {request : VerificationRequest} (h : Vouched events j request verified) :
    Vouched (events ++ [event]) j request verified := by
  obtain ⟨source, cancellation, repository, signed, hmem, h⟩ := h
  exact ⟨source, cancellation, repository, signed, List.mem_append_left _ hmem, h⟩

section
variable (hkept : Kept instants s events)
include hkept

theorem vouched_snoc (j : Nat) (call : Call) (verified : VerifiedTarget)
    (hcall : (Runs.run (step instants) s (events ++ [event])).calls[j]? = some call)
    (htarget : call.phase.target = some verified) :
    Vouched (events ++ [event]) j call.request verified := by
  rw [Runs.run_append_singleton] at hcall
  rcases call_after hcall with hsame | ⟨-, hcalled⟩ | ⟨before, hbefore, hi, hrequest, hphase⟩
  · exact vouched_longer (hkept.vouched j call verified hsame htarget)
  · simp [hcalled, Phase.target] at htarget
  · have hproceeds := call_proceeds instants (Runs.run (step instants) s events).stored before event
    rw [hphase] at htarget
    rw [hrequest]
    have hearlier : before.phase.target = some verified →
        Vouched (events ++ [event]) j before.request verified :=
      fun h => vouched_longer (hkept.vouched j before verified hbefore h)
    generalize before.next instants (Runs.run (step instants) s events).stored event = next
      at hproceeds htarget
    obtain ⟨stored, phase⟩ := next
    cases hproceeds with
    | stays => exact hearlier htarget
    | returned was => exact hearlier (by simpa [was, Phase.target] using htarget)
    | persisted is_persist was => exact hearlier (by simpa [was, Phase.target] using htarget)
    | verified is_verify _ _ _ _ load listed answers =>
      subst is_verify
      cases hi
      cases htarget
      exact ⟨_, _, _, _, List.mem_append_right _ (List.mem_singleton_self _), load, listed, answers⟩
    | refused | loaded | unsynced => simp [Phase.target] at htarget

theorem upheld_snoc (hfits : fits (Runs.run (step instants) s events) event = true)
    (before after : List Event) (hevents : events ++ [event] = before ++ after) :
    Upholds (Runs.run (step instants) s before).stored
      (Runs.run (step instants) s (events ++ [event])).stored := by
  rcases List.eq_nil_or_concat after with rfl | ⟨after', last, rfl⟩
  · rw [List.append_nil] at hevents
    rw [hevents]
    exact upholds_refl _
  · rw [List.concat_eq_append, ← List.append_assoc] at hevents
    obtain ⟨hevents, -⟩ := List.append_inj' hevents rfl
    rw [Runs.run_append_singleton]
    exact upholds_trans (hkept.upheld before after' hevents) (upholds_step hkept.checked hfits)

theorem kept_snoc (hfits : fits (Runs.run (step instants) s events) event = true) :
    Kept instants s (events ++ [event]) where
  quiet := quiet_snoc hkept hfits
  raised := raised_snoc hkept hfits
  checked := by
    rw [Runs.run_append_singleton]
    exact checked_step hkept.checked
  vouched := vouched_snoc hkept
  upheld := upheld_snoc hkept hfits

end

end

/-- Along every run in which each call replaces the state that it has loaded and each directory that
was changed is synced, nothing trusted gets older, what succeeds raises the timestamp and returns
what was asked for, and what fails stores nothing. -/
theorem trust_never_rolls_back (instants : Instants) (stored : Option TrustFile) (events : List Event)
    (hfits : Runs.steps (step instants) fits ⟨stored, []⟩ events = true) :
    (∀ before after, events = before ++ after →
      Upholds (Runs.run (step instants) ⟨stored, []⟩ before).stored
        (Runs.run (step instants) ⟨stored, []⟩ events).stored) ∧
    (∀ i request verified, (Runs.run (step instants) ⟨stored, []⟩ events).calls[i]? =
        some ⟨request, .Returned (.ok verified)⟩ → Runs.Sometime (step instants)
          (fun u e => e.call? = some i ∧ Raises u.stored (step instants u e).stored) ⟨stored, []⟩ events ∧
        Vouched events i request verified) ∧
    ∀ i request error, (Runs.run (step instants) ⟨stored, []⟩ events).calls[i]? =
        some ⟨request, .Returned (.error error)⟩ →
      Runs.Each (step instants) (fun u e => e.call? = some i → (step instants u e).stored = u.stored)
        ⟨stored, []⟩ events := by
  have hkept : Kept instants ⟨stored, []⟩ events := by
    refine Runs.history ?_ (fun _ _ _ hfit hkept => kept_snoc hkept hfit) hfits
    refine ⟨fun _ _ => trivial, by simp, by simp [Checked], by simp, fun before after hevents => ?_⟩
    rw [(List.append_eq_nil_iff.mp hevents.symm).1]
    exact upholds_refl _
  refine ⟨hkept.upheld, fun i request verified hcall => ?_, fun i request error hcall => ?_⟩
  · exact ⟨hkept.raised i _ hcall rfl, hkept.vouched i _ verified hcall rfl⟩
  · refine hkept.quiet i fun call hcall' => ?_
    rw [hcall] at hcall'
    cases hcall'
    rfl

/-! ## Two updaters -/

def one_instant : Instants where
  new seconds := some (seconds.toInt * 1000000000)
  parse text := if text = "2030-01-01T00:00:00Z" then some (1893456000 * 1000000000) else none

def the_request : VerificationRequest := ⟨"stable/linux/x86_64/update", .Stable, "linux", "x86_64", 1, 1⟩

def the_target : Target where
  length := 1
  sha256 := List.replicate 32 0
  custom := [("termirust", .Object [("schema_version", .Integer 1), ("version", .Text "1.0.0"),
    ("channel", .Text "stable"), ("platform", .Text "linux"), ("arch", .Text "x86_64"),
    ("store_range", .Object [("min", .Integer 1), ("max", .Integer 2)]),
    ("protocol_range", .Object [("min", .Integer 1), ("max", .Integer 2)]),
    ("rollout", .Integer 100), ("emergency_rollback", .Boolean false)])]

/-- A file of the metadata with this role. -/
def role_file (name role : String) : Option DirEntry :=
  some ⟨some true, name, ⟨some (true, 100), some (100, some (.Object [("signed",
    .Object [("_type", .Text role), ("expires", .Text "2030-01-01T00:00:00Z")])]))⟩⟩

def metadata_of (version : UInt64) : Source where
  trusted_root := ⟨some (true, 100), some (100, none)⟩
  metadata_dir := some [role_file "timestamp.json" "timestamp", role_file "snapshot.json" "snapshot",
    role_file "targets.json" "targets"]
  directory_url := .ok ()
  staging := true
  load := .ok ⟨1, version, version, version, [("stable/linux/x86_64/update", the_target)]⟩

/-- A call loads the trust state and verifies metadata of this version. -/
def verifies (i : Nat) (now_seconds : Int64) (version : UInt64) : List Event :=
  [.load i false true now_seconds, .verify i (metadata_of version) none]

def commits (i : Nat) : List Event := [.persist i none, .sync i (.ok ())]

/-- The first call verifies the older metadata and commits after the second one. -/
def overtaken : List Event :=
  [.call the_request, .call the_request] ++ verifies 0 10 1 ++ verifies 1 11 2 ++ commits 1 ++ commits 0

/-- The second call starts when the first one has returned. -/
def in_turn : List Event :=
  [.call the_request, .call the_request] ++ (verifies 0 10 1 ++ commits 0)
    ++ (verifies 1 11 2 ++ commits 1)

theorem trust_never_rolls_back_in_turn :
    Runs.steps (step one_instant) fits ⟨none, []⟩ in_turn = true ∧
      Upholds (Runs.run (step one_instant) ⟨none, []⟩ (in_turn.take 6)).stored
        (Runs.run (step one_instant) ⟨none, []⟩ in_turn).stored := by
  have hfits : Runs.steps (step one_instant) fits ⟨none, []⟩ in_turn = true := by decide +kernel
  exact ⟨hfits, (trust_never_rolls_back one_instant none in_turn hfits).1 _ _
    (List.take_append_drop 6 in_turn).symm⟩

theorem an_overtaken_call_rolls_back :
    ¬∀ instants stored events before after, events = before ++ after →
      Upholds (Runs.run (step instants) ⟨stored, []⟩ before).stored
        (Runs.run (step instants) ⟨stored, []⟩ events).stored := by
  intro h
  have hbefore : trusted (Runs.run (step one_instant) ⟨none, []⟩ (overtaken.take 8)).stored =
      some ⟨1, 1, 2, 2, 2, 11⟩ := by decide +kernel
  have hafter : trusted (Runs.run (step one_instant) ⟨none, []⟩ overtaken).stored =
      some ⟨1, 1, 1, 1, 1, 10⟩ := by decide +kernel
  obtain ⟨new, hnew, holder⟩ := h one_instant none overtaken (overtaken.take 8) (overtaken.drop 8)
    (List.take_append_drop 8 overtaken).symm _ hbefore
  rw [hafter] at hnew
  cases hnew
  exact absurd holder.timestamp (by decide)

end multiplex_update_trust
