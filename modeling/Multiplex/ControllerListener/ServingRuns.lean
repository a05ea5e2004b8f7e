-- What a connection lets through and what it sends, over whole runs. Commands
-- and screen frames are checked one by one. What is pushed is not, so it goes
-- on after a capability is withdrawn from a peer that stays.
import Multiplex.ControllerListener.Serving

open Checks
open multiplex_domain.controller_devices
open multiplex_controller_security (ControllerFrame)
open multiplex_controller_listener.protocol

namespace multiplex_controller_listener.runtime

/-! ## What a snapshot grants -/

def record_grants (a : ControllerDeviceAuthority) (peer : AuthenticatedPeer)
    (capability : ControllerCapability) : Bool :=
  (a.devices.find? fun d => d.device_id = peer.device_id ∧ d.public_key = peer.public_key).any
    (·.capabilities.contains capability)

/-- The peer is there at its epoch and generation, and its record has the capability. -/
def Grants (a : ControllerDeviceAuthority) (peer : AuthenticatedPeer)
    (capability : ControllerCapability) : Prop :=
  require_current_peer a peer = .ok () ∧ record_grants a peer capability = true

/-- The peer stays, and its record lacks the capability. -/
def withdrawn (a : ControllerDeviceAuthority) (peer : AuthenticatedPeer)
    (capability : ControllerCapability) : Bool :=
  require_current_peer a peer = .ok () ∧ record_grants a peer capability = false

variable {a : ControllerDeviceAuthority}

theorem record_grants_of_allow {peer : AuthenticatedPeer}
    {request : ControllerDeviceAuthority.AuthorizationRequest}
    (h : allowed (a.authorize request) = .ok ()) (hdevice : request.device_id = peer.device_id)
    (hkey : request.public_key = peer.public_key) :
    record_grants a peer request.capability = true := by
  have hallow : a.authorize request = .Allow := by
    cases hdecision : a.authorize request with
    | Allow => rfl
    | Deny denial =>
      rw [hdecision] at h
      cases h
  unfold ControllerDeviceAuthority.authorize at hallow
  rw [hdevice, hkey] at hallow
  split at hallow
  · cases hallow
  split at hallow
  · cases hallow
  split at hallow
  · cases hallow
  rename_i device hfind
  unfold record_grants
  rw [hfind]
  repeat (split at hallow <;> first | cases hallow | skip)
  rename_i hcapability
  simpa using hcapability

variable {f : Inbound}

theorem grants_of_authorize_command {peer : AuthenticatedPeer}
    {command : protocol.ControllerCommandEnvelope}
    (h : authorize_command peer f command a = .ok ()) :
    Grants a peer command.command.kind.capability := by
  simp only [authorize_command, authorize, bind_ok_iff] at h
  obtain ⟨_, hpeer, context, _, _, hallow, _⟩ := h
  have hgrants := record_grants_of_allow hallow rfl rfl
  exact ⟨hpeer, hgrants⟩

theorem grants_of_authorize_screen {peer : AuthenticatedPeer} {capability : ScreenFrameCapability}
    (h : authorize_screen peer f capability a = .ok ()) : Grants a peer capability.domain := by
  simp only [authorize_screen, require_screen_capability, bind_ok_iff] at h
  obtain ⟨_, hpeer, hallow⟩ := h
  have hgrants := record_grants_of_allow hallow rfl rfl
  exact ⟨hpeer, hgrants⟩

/-! ## Traffic -/

def terminal_response : ControllerResponse → Bool
  | .Output .. | .Snapshot .. => true
  | _ => false

namespace Entry

def is_terminal : Entry → Bool
  | .response r => terminal_response r
  | _ => false

def is_screen : Entry → Bool
  | .screen _ => true
  | _ => false

def taken : Entry → Option ControllerDeviceAuthority
  | .snapshot a => some a
  | _ => none

/-- What was let through was granted in the snapshot that was taken for it. -/
def Allowed (peer : AuthenticatedPeer) : Entry → Prop
  | .executed command a => Grants a peer command.command.kind.capability
  | .handed capability _ a => Grants a peer capability.domain
  | _ => True

/-- After a snapshot without the right to it, the traffic of the terminal, or
that of the screens, is over. -/
def Stops (peer : AuthenticatedPeer) (earlier later : Entry) : Prop :=
  ∀ a, earlier.taken = some a →
    (later.is_terminal = true → Grants a peer .AttachOutput) ∧
    (later.is_screen = true → Grants a peer .ObserveScreens)

end Entry

def snapshots (c : Connection) : List ControllerDeviceAuthority := c.trace.filterMap Entry.taken

namespace Event

def snapshot : Event → Option ControllerDeviceAuthority
  | .refresh (.ok a) => some a
  | .incoming f => f.snapshot.toOption
  | _ => none

/-- The backend hands over output or a snapshot of the terminal. -/
def brings_terminal : Event → Bool
  | .incoming f => f.executed.toOption.any (·.any terminal_response)
  | .host_output response _ => response.toOption.any (·.any terminal_response)
  | _ => false

def brings_screen : Event → Bool
  | .screen_bytes .. => true
  | _ => false

end Event

/-- No snapshot so far has withdrawn from a peer that stays what comes now. -/
def covered (peer : AuthenticatedPeer) (c : Connection) (event : Event) : Bool :=
  (snapshots c ++ event.snapshot.toList).all fun a =>
    (withdrawn a peer .AttachOutput → event.brings_terminal = false) ∧
    (withdrawn a peer .ObserveScreens → event.brings_screen = false)

/-! ## One turn -/

section
variable {peer : AuthenticatedPeer} {env : Surroundings}

variable (cipher : Aead.Cipher multiplex_controller_security.transport.Derived)

theorem send_trace (peer : AuthenticatedPeer) (c : Connection) (flows : Bool) (parcel : Parcel) :
    (send cipher peer c flows parcel).1.ended = c.ended ∧
    ((send cipher peer c flows parcel).1.trace = c.trace ++ [parcel.entry] ∨
      (send cipher peer c flows parcel).1.trace = c.trace ∧
      ∃ e, (send cipher peer c flows parcel).2 = .error e) := by
  unfold send
  split
  · exact ⟨rfl, .inr ⟨rfl, _, rfl⟩⟩
  split
  · exact ⟨rfl, .inr ⟨rfl, _, rfl⟩⟩
  split
  · exact ⟨rfl, .inr ⟨rfl, _, rfl⟩⟩
  split
  · exact ⟨rfl, .inl rfl⟩
  · exact ⟨rfl, .inr ⟨rfl, _, rfl⟩⟩

theorem send_all_trace (peer : AuthenticatedPeer) (c : Connection) (taken : Nat)
    (parcels : List Parcel) : (send_all cipher peer c taken parcels).1.ended = c.ended ∧
    ∃ sent, (send_all cipher peer c taken parcels).1.trace = c.trace ++ sent ∧
      ∀ entry ∈ sent, entry ∈ parcels.map Parcel.entry := by
  induction parcels generalizing c taken with
  | nil => exact ⟨rfl, [], by simp [send_all], by simp⟩
  | cons parcel parcels ih =>
    obtain ⟨hended, htrace⟩ := send_trace cipher peer c (0 < taken) parcel
    simp only [send_all]
    cases hsend : send cipher peer c (0 < taken) parcel with
    | mk c' result =>
      rw [hsend] at hended htrace
      cases result with
      | error e =>
        refine ⟨hended, ?_⟩
        rcases htrace with htrace | ⟨htrace, -⟩
        · exact ⟨[parcel.entry], htrace, by simp⟩
        · exact ⟨[], by simpa using htrace, by simp⟩
      | ok u =>
        obtain ⟨hended', sent, htrace', hsent⟩ := ih c' (taken - 1)
        refine ⟨hended'.trans hended, ?_⟩
        rcases htrace with htrace | ⟨-, e, herror⟩
        · refine ⟨parcel.entry :: sent, by rw [htrace', htrace]; simp, ?_⟩
          intro entry hentry
          rcases List.mem_cons.mp hentry with rfl | hentry
          · simp
          · exact List.mem_cons_of_mem _ (hsent entry hentry)
        · cases herror

/-- One turn writes down what it checked, and then what it sent. -/
structure Turn (peer : AuthenticatedPeer) (event : Event) (c : Connection)
    (result : Connection × Listened Unit) (checked sent : List Entry) : Prop where
  trace : result.1.trace = c.trace ++ (checked ++ sent)
  ended : result.1.ended = c.ended
  checks : ∀ entry ∈ checked, entry.Allowed peer ∧ entry.is_terminal = false ∧
    entry.is_screen = false ∧ ∀ a, entry.taken = some a → event.snapshot = some a
  sends : ∀ entry ∈ sent, entry.Allowed peer ∧ entry.taken = none ∧
    (entry.is_terminal = true → event.brings_terminal = true) ∧
    (entry.is_screen = true → event.brings_screen = true)
  current : sent ≠ [] ∨ result.2 = .ok () → ∀ entry ∈ checked, ∀ a, entry.taken = some a →
    require_current_peer a peer = .ok ()

section
variable {event : Event} {c : Connection}

variable {c' : Connection}

theorem turn_nothing (htrace : c'.trace = c.trace) (hended : c'.ended = c.ended)
    (result : Listened Unit) : Turn peer event c (c', result) [] [] where
  trace := by simp [htrace]
  ended := hended
  checks := by simp
  sends := by simp
  current := by simp

theorem turn_snapshot {a : ControllerDeviceAuthority} (entry : List Entry)
    (htrace : c'.trace = c.trace ++ (.snapshot a :: entry)) (hended : c'.ended = c.ended)
    (hsnapshot : event.snapshot = some a)
    (hentry : ∀ e ∈ entry, e.Allowed peer ∧ e.is_terminal = false ∧ e.is_screen = false ∧ e.taken = none)
    (result : Listened Unit) (hcurrent : result = .ok () → require_current_peer a peer = .ok ()) :
    Turn peer event c (c', result) (.snapshot a :: entry) [] where
  trace := by simp [htrace]
  ended := hended
  checks := by
    intro e he
    rcases List.mem_cons.mp he with rfl | he
    · refine ⟨trivial, rfl, rfl, ?_⟩
      rintro a' htaken
      rwa [← Option.some.inj htaken]
    · obtain ⟨hallowed, hterminal, hscreen, htaken⟩ := hentry e he
      exact ⟨hallowed, hterminal, hscreen, by simp [htaken]⟩
  sends := by simp
  current := by
    intro hok e he a' htaken
    rcases List.mem_cons.mp he with rfl | he
    · obtain rfl := Option.some.inj htaken
      exact hcurrent (hok.resolve_left (by simp))
    · simp [(hentry e he).2.2.2] at htaken

/-- What goes out in parcels, after what was checked and is current. -/
theorem turn_sends {checked : List Entry} (hturn : Turn peer event c (c', .ok ()) checked [])
    (cipher : Aead.Cipher _) (taken : Nat) (parcels : List Parcel)
    (hparcels : ∀ entry ∈ parcels.map Parcel.entry, entry.Allowed peer ∧ entry.taken = none ∧
      (entry.is_terminal = true → event.brings_terminal = true) ∧
      (entry.is_screen = true → event.brings_screen = true)) :
    ∃ sent, Turn peer event c (send_all cipher peer c' taken parcels) checked sent := by
  obtain ⟨hended, sent, htrace, hsent⟩ := send_all_trace cipher peer c' taken parcels
  refine ⟨sent, ?_, hended.trans hturn.ended, hturn.checks, ?_, ?_⟩
  · rw [htrace, hturn.trace]
    simp
  · exact fun entry hentry => hparcels entry (hsent entry hentry)
  · exact fun _ => hturn.current (.inr rfl)

theorem executed_terminal {f : Inbound} {command : protocol.ControllerCommandEnvelope}
    {responses : List ControllerResponse} (h : answer env peer f command = .ok responses) :
    ∀ r ∈ responses, terminal_response r = true → (Event.incoming f).brings_terminal = true := by
  intro r hr hterminal
  unfold answer at h
  split at h
  · split at h
    · simp only [bind_ok_iff, pure_ok_iff] at h
      obtain ⟨_, -, rfl⟩ := h
      obtain rfl := List.mem_singleton.mp hr
      cases hterminal
    · obtain rfl := Except.ok.inj h
      obtain rfl := List.mem_singleton.mp hr
      cases hterminal
  · obtain rfl := Except.ok.inj h
    obtain rfl := List.mem_singleton.mp hr
    cases hterminal
  · unfold execute at h
    split at h
    · obtain rfl := Except.ok.inj h
      obtain rfl := List.mem_singleton.mp hr
      cases hterminal
    · simp [Event.brings_terminal, h, Except.toOption]
      exact ⟨r, hr, hterminal⟩

section
variable (env : Surroundings) (f : Inbound) (c' : Connection) (opened : ControllerFrame)
  (htrace : c'.trace = c.trace) (hended : c'.ended = c.ended)
include htrace hended

theorem turn_command :
    ∃ checked sent, Turn peer (.incoming f) c (serve_command env peer c' f opened) checked sent := by
  unfold serve_command
  split
  · exact ⟨[], [], turn_nothing htrace hended _⟩
  split
  · exact ⟨[], [], turn_nothing htrace hended _⟩
  rename_i command _ _ current hsnapshot
  have htaken : (Event.incoming f).snapshot = some current := by
    simp [Event.snapshot, hsnapshot, Except.toOption]
  split
  · refine ⟨_, [], turn_snapshot [] ?_ ?_ htaken (by simp) _ (by simp)⟩
    · simp [Connection.note, htrace]
    · exact hended
  rename_i hauthorize
  have hgrants := grants_of_authorize_command hauthorize
  have hchecked : ∀ result, Turn peer (.incoming f) c
      ((c'.note (.snapshot current)).note (.executed command current), result)
      [.snapshot current, .executed command current] [] := by
    intro result
    refine turn_snapshot [.executed command current] ?_ ?_ htaken ?_ _ fun _ => hgrants.1
    · simp [Connection.note, htrace]
    · exact hended
    · intro e he
      obtain rfl := List.mem_singleton.mp he
      exact ⟨hgrants, rfl, rfl, rfl⟩
  split
  · exact ⟨_, [], hchecked _⟩
  rename_i responses hanswer
  refine ⟨_, turn_sends (hchecked (.ok ())) env.cipher f.taken _ ?_⟩
  intro entry hentry
  simp only [List.mem_map] at hentry
  obtain ⟨_, ⟨r, hr, rfl⟩, rfl⟩ := hentry
  exact ⟨trivial, rfl, executed_terminal hanswer r hr, by simp [response_parcel, Entry.is_screen]⟩

theorem turn_screen :
    ∃ checked sent, Turn peer (.incoming f) c (serve_screen env peer c' f opened) checked sent := by
  unfold serve_screen
  split
  · exact ⟨[], [], turn_nothing htrace hended _⟩
  split
  · exact ⟨[], [], turn_nothing htrace hended _⟩
  rename_i capability _ _ current hsnapshot
  have htaken : (Event.incoming f).snapshot = some current := by
    simp [Event.snapshot, hsnapshot, Except.toOption]
  have halone : ∀ e, Turn peer (.incoming f) c (c'.note (.snapshot current), .error e)
      [.snapshot current] [] := by
    intro e
    refine turn_snapshot [] ?_ ?_ htaken (by simp) _ (by simp)
    · simp [Connection.note, htrace]
    · exact hended
  split
  · exact ⟨_, [], halone _⟩
  rename_i hauthorize
  have hgrants := grants_of_authorize_screen hauthorize
  split
  · refine ⟨_, [], turn_snapshot [.handed capability opened.payload current] ?_ ?_ htaken ?_ _
      fun _ => hgrants.1⟩
    · simp [Connection.note, htrace]
    · exact hended
    · intro e he
      obtain rfl := List.mem_singleton.mp he
      exact ⟨hgrants, rfl, rfl, rfl⟩
  · exact ⟨_, [], halone _⟩

end

theorem turn_frame (env : Surroundings) (f : Inbound) :
    ∃ checked sent, Turn peer (.incoming f) c (serve_frame env peer c f) checked sent := by
  unfold serve_frame
  split
  · exact ⟨[], [], turn_nothing (by rfl) (by rfl) _⟩
  split
  · exact ⟨[], [], turn_nothing (by rfl) (by rfl) _⟩
  split
  · exact turn_screen env f _ _ rfl rfl
  · exact turn_command env f _ _ rfl rfl
  · exact ⟨[], [], turn_nothing (by rfl) (by rfl) _⟩

theorem turn_refresh (snapshot : Listened ControllerDeviceAuthority) :
    ∃ checked sent, Turn peer (.refresh snapshot) c (refresh_tick peer c snapshot) checked sent := by
  unfold refresh_tick
  split
  · exact ⟨[], [], turn_nothing (by rfl) (by rfl) _⟩
  · exact ⟨_, [], turn_snapshot [] (by rfl) (by rfl) rfl (by simp) _ fun h => h⟩

theorem turn_screen_bytes (env : Surroundings) (bytes : List UInt8) (taken : Nat) :
    ∃ checked sent, Turn peer (.screen_bytes bytes taken) c (send_all env.cipher peer c taken
      ((Chunks.chunks MAX_SCREEN_PAYLOAD_BYTES bytes).map screen_parcel)) checked sent := by
  refine ⟨[], turn_sends (turn_nothing rfl rfl _) env.cipher taken _ ?_⟩
  intro entry hentry
  simp only [List.mem_map] at hentry
  obtain ⟨_, ⟨chunk, _, rfl⟩, rfl⟩ := hentry
  exact ⟨trivial, rfl, by simp [screen_parcel, Entry.is_terminal], fun _ => rfl⟩

theorem turn_host_output (env : Surroundings) (response : Listened (Option ControllerResponse))
    (taken : Nat) : ∃ checked sent, Turn peer (.host_output response taken) c
      (host_output_poll env peer c response taken) checked sent := by
  unfold host_output_poll
  split
  · exact ⟨[], [], turn_nothing rfl rfl _⟩
  · exact ⟨[], [], turn_nothing rfl rfl _⟩
  · refine ⟨[], turn_sends (turn_nothing rfl rfl _) env.cipher taken _ ?_⟩
    intro entry hentry
    obtain rfl := List.mem_singleton.mp hentry
    exact ⟨trivial, rfl, fun hterminal => hterminal, by simp [response_parcel, Entry.is_screen]⟩

end

/-! ## What the turns keep -/

/-- What holds of the trace, and what is known of the peer while the connection goes on. -/
structure Kept (peer : AuthenticatedPeer) (c : Connection) : Prop where
  allowed : ∀ entry ∈ c.trace, entry.Allowed peer
  stays : c.ended = none → ∀ a ∈ snapshots c, require_current_peer a peer = .ok ()

section
variable {event : Event} {c : Connection}

theorem turn_event (env : Surroundings) (hevent : event ≠ .cancelled) (hc : c.ended = none) :
    ∃ checked sent result, Turn peer event c result checked sent ∧
      step env peer c event = carry_on result := by
  have hgoes : c.ended.isSome = false := by simp [hc]
  rcases event with _ | snapshot | f | ⟨bytes, taken⟩ | ⟨response, taken⟩
  · exact absurd rfl hevent
  · obtain ⟨checked, sent, hturn⟩ := turn_refresh snapshot
    exact ⟨checked, sent, _, hturn, by simp [step, hgoes]⟩
  · obtain ⟨checked, sent, hturn⟩ := turn_frame env f
    exact ⟨checked, sent, _, hturn, by simp [step, hgoes]⟩
  · obtain ⟨checked, sent, hturn⟩ := turn_screen_bytes env bytes taken
    exact ⟨checked, sent, _, hturn, by simp [step, hgoes]⟩
  · obtain ⟨checked, sent, hturn⟩ := turn_host_output env response taken
    exact ⟨checked, sent, _, hturn, by simp [step, hgoes]⟩

theorem carried (result : Connection × Listened Unit) (hended : result.1.ended = none) :
    (carry_on result).trace = result.1.trace ∧
      ((carry_on result).ended = none → result.2 = .ok ()) := by
  obtain ⟨c', e | u⟩ := result
  · exact ⟨rfl, by simp [carry_on]⟩
  · exact ⟨rfl, fun _ => rfl⟩

theorem snapshots_append {c' : Connection} {new : List Entry} (h : c'.trace = c.trace ++ new) :
    snapshots c' = snapshots c ++ new.filterMap Entry.taken := by
  rw [snapshots, h, List.filterMap_append]
  rfl

theorem step_ended (hc : c.ended ≠ none) : step env peer c event = c := by
  have hended : c.ended.isSome = true := Option.isSome_iff_ne_none.mpr hc
  simp [step, hended]

theorem Kept.step (h : Kept peer c) : Kept peer (step env peer c event) := by
  by_cases hc : c.ended = none
  · by_cases hevent : event = .cancelled
    · subst hevent
      have hstep : runtime.step env peer c .cancelled = { c with ended := some (.ok ()) } := by
        simp [runtime.step, hc]
      rw [hstep]
      exact ⟨h.allowed, by simp⟩
    · obtain ⟨checked, sent, result, hturn, hstep⟩ := turn_event env hevent hc
      obtain ⟨htrace, hgoes⟩ := carried result (hturn.ended.trans hc)
      rw [hstep]
      refine ⟨?_, ?_⟩
      · intro entry hentry
        rw [htrace, hturn.trace] at hentry
        rcases List.mem_append.mp hentry with hentry | hentry
        · exact h.allowed entry hentry
        · rcases List.mem_append.mp hentry with hentry | hentry
          · exact (hturn.checks entry hentry).1
          · exact (hturn.sends entry hentry).1
      · intro hended a ha
        rw [snapshots_append (htrace.trans hturn.trace), List.filterMap_append] at ha
        rcases List.mem_append.mp ha with ha | ha
        · exact h.stays hc a ha
        · rcases List.mem_append.mp ha with ha | ha
          · obtain ⟨entry, hentry, htaken⟩ := List.mem_filterMap.mp ha
            exact hturn.current (.inr (hgoes hended)) entry hentry a htaken
          · obtain ⟨entry, hentry, htaken⟩ := List.mem_filterMap.mp ha
            rw [(hturn.sends entry hentry).2.1] at htaken
            cases htaken
  · rw [step_ended hc]
    exact h

/-- A snapshot that is current, and did not withdraw what comes now, grants it. -/
theorem stops_of_covered {earlier later : Entry} {a : ControllerDeviceAuthority}
    (hcovered : covered peer c event = true) (ha : a ∈ snapshots c ++ event.snapshot.toList)
    (hcurrent : require_current_peer a peer = .ok ()) (htaken : earlier.taken = some a)
    (hterminal : later.is_terminal = true → event.brings_terminal = true)
    (hscreen : later.is_screen = true → event.brings_screen = true) : earlier.Stops peer later := by
  intro a' htaken'
  obtain rfl := Option.some.inj (htaken.symm.trans htaken')
  have hboth := List.all_eq_true.mp hcovered a ha
  simp only [withdrawn, hcurrent, true_and, decide_eq_true_eq] at hboth
  constructor
  · intro hlater
    refine ⟨hcurrent, ?_⟩
    by_contra hrecord
    rw [Bool.not_eq_true] at hrecord
    have hnone := hboth.1 hrecord
    rw [hterminal hlater] at hnone
    cases hnone
  · intro hlater
    refine ⟨hcurrent, ?_⟩
    by_contra hrecord
    rw [Bool.not_eq_true] at hrecord
    have hnone := hboth.2 hrecord
    rw [hscreen hlater] at hnone
    cases hnone

theorem stops_of_none {earlier later : Entry} (h : earlier.taken = none) : earlier.Stops peer later := by
  intro a htaken
  rw [h] at htaken
  cases htaken

theorem stops_of_quiet {earlier later : Entry} (hterminal : later.is_terminal = false)
    (hscreen : later.is_screen = false) : earlier.Stops peer later :=
  fun _ _ => ⟨by simp [hterminal], by simp [hscreen]⟩

/-- What a turn sends is granted by every snapshot before it, where none withdrew it. -/
theorem stops_step (h : Kept peer c) (hstops : c.trace.Pairwise (Entry.Stops peer))
    (hcovered : covered peer c event = true) :
    (step env peer c event).trace.Pairwise (Entry.Stops peer) := by
  by_cases hc : c.ended = none
  · by_cases hevent : event = .cancelled
    · subst hevent
      have hstep : step env peer c .cancelled = { c with ended := some (.ok ()) } := by
        simp [step, hc]
      rw [hstep]
      exact hstops
    · obtain ⟨checked, sent, result, hturn, hstep⟩ := turn_event env hevent hc
      obtain ⟨htrace, -⟩ := carried result (hturn.ended.trans hc)
      rw [hstep, htrace, hturn.trace, List.pairwise_append, List.pairwise_append]
      have hquiet : ∀ earlier, ∀ later ∈ checked, Entry.Stops peer earlier later := by
        intro earlier later hlater
        obtain ⟨-, hterminal, hscreen, -⟩ := hturn.checks later hlater
        exact stops_of_quiet hterminal hscreen
      refine ⟨hstops, ⟨?_, ?_, ?_⟩, ?_⟩
      · exact List.pairwise_of_forall_mem_list fun earlier _ later hlater => hquiet earlier later hlater
      · apply List.pairwise_of_forall_mem_list
        intro earlier hearlier later _
        exact stops_of_none (hturn.sends earlier hearlier).2.1
      · intro earlier hearlier later hlater
        cases htaken : earlier.taken with
        | none => exact stops_of_none htaken
        | some a =>
          have hsnapshot := (hturn.checks earlier hearlier).2.2.2 a htaken
          have hcurrent := hturn.current (.inl (List.ne_nil_of_mem hlater)) earlier hearlier a htaken
          obtain ⟨-, -, hterminal, hscreen⟩ := hturn.sends later hlater
          exact stops_of_covered hcovered (List.mem_append_right _ (by simp [hsnapshot])) hcurrent htaken
            hterminal hscreen
      · intro earlier hearlier later hlater
        rcases List.mem_append.mp hlater with hlater | hlater
        · exact hquiet earlier later hlater
        · cases htaken : earlier.taken with
          | none => exact stops_of_none htaken
          | some a =>
            have ha : a ∈ snapshots c := List.mem_filterMap.mpr ⟨earlier, hearlier, htaken⟩
            obtain ⟨-, -, hterminal, hscreen⟩ := hturn.sends later hlater
            exact stops_of_covered hcovered (List.mem_append_left _ ha) (h.stays hc a ha) htaken
              hterminal hscreen
  · rw [step_ended hc]
    exact hstops

end

end

/-! ## Whole runs -/

/-- Whatever comes in whatever order, each command that is executed and each
screen frame that is handed over is granted in the snapshot taken for it. The
traffic of the terminal and of the screens stops with the right to it, where
no snapshot withdraws the right from a peer that stays before more of it comes. -/
theorem traffic_stops_where_nothing_withdrawn_comes (env : Surroundings) (peer : AuthenticatedPeer)
    (events : List Event) : (∀ entry ∈ (serve env peer events).trace, entry.Allowed peer) ∧
    (Runs.steps (step env peer) (covered peer) (start peer) events = true →
      (serve env peer events).trace.Pairwise (Entry.Stops peer)) := by
  have hstart : Kept peer (start peer) := ⟨by simp [start], by simp [start, snapshots]⟩
  constructor
  · have hkept : Kept peer (serve env peer events) :=
      Runs.keeps_always (Kept peer) (fun _ _ h => h.step) hstart events
    exact hkept.allowed
  · intro hsteps
    have hboth := Runs.keeps (fun c => Kept peer c ∧ c.trace.Pairwise (Entry.Stops peer))
      (fun _ _ h hcovered => ⟨h.1.step, stops_step h.1 h.2 hcovered⟩)
      ⟨hstart, by simp [start]⟩ hsteps
    exact hboth.2

/-- A phone that was granted everything, on a Host whose record of it says otherwise by now. -/
def sampleWatcher : AuthenticatedPeer := ⟨7, samplePhone.public_key, 1, 1, ⟨0x1ff⟩⟩

def sampleSnapshot (bits : UInt16) : ControllerDeviceAuthority :=
  (sampleFile [{ samplePhone with capabilities := ⟨bits⟩ }]).authority

def sampleEnvironment : Surroundings where
  cipher := multiplex_controller_security.transport.paddedCipher
  from_slice := ⟨fun _ => none, fun _ => none⟩
  screens := true

/-- A refresh tick, a line of the terminal, and some bytes of a screen. -/
def samplePush (bits : UInt16) : List Event :=
  [.refresh (.ok (sampleSnapshot bits)), .host_output (.ok (some (.Output 5 1 [104, 105]))) 1,
    .screen_bytes [1, 2, 3] 1]

theorem traffic_of_a_phone_that_keeps_its_rights :
    (serve sampleEnvironment sampleWatcher (samplePush 0x1ff)).trace =
      [.snapshot (sampleSnapshot 0x1ff), .response (.Output 5 1 [104, 105]), .screen [1, 2, 3]] ∧
    (serve sampleEnvironment sampleWatcher (samplePush 0x1ff)).trace.Pairwise
      (Entry.Stops sampleWatcher) :=
  ⟨by decide +kernel, (traffic_stops_where_nothing_withdrawn_comes sampleEnvironment sampleWatcher
    (samplePush 0x1ff)).2 (by decide +kernel)⟩

/-- With the list of sessions as its only right, the phone still reads the terminal and the screen. -/
theorem traffic_goes_on_after_its_right_is_withdrawn :
    (serve sampleEnvironment sampleWatcher (samplePush 1)).trace =
      [.snapshot (sampleSnapshot 1), .response (.Output 5 1 [104, 105]), .screen [1, 2, 3]] ∧
    ¬ (serve sampleEnvironment sampleWatcher (samplePush 1)).trace.Pairwise
      (Entry.Stops sampleWatcher) := by
  have htrace : (serve sampleEnvironment sampleWatcher (samplePush 1)).trace =
      [.snapshot (sampleSnapshot 1), .response (.Output 5 1 [104, 105]), .screen [1, 2, 3]] := by
    decide +kernel
  refine ⟨htrace, ?_⟩
  rw [htrace]
  intro hstops
  have hgrants := (List.rel_of_pairwise_cons hstops List.mem_cons_self (sampleSnapshot 1) rfl).1 rfl
  have hlacks : record_grants (sampleSnapshot 1) sampleWatcher .AttachOutput = false := by
    decide +kernel
  have hrecord := hgrants.2
  rw [hlacks] at hrecord
  cases hrecord

end multiplex_controller_listener.runtime
