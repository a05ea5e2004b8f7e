-- Commands and responses of a newer build. A command that this Host does not
-- know is answered where it comes under the right to list the sessions, and
-- ends the connection otherwise. A response that the device does not know is
-- not skipped.
import Multiplex.ControllerListener.ClientChannel
import Multiplex.ControllerListener.ServingRuns

open Checks JsonText
open multiplex_domain.controller_devices
open multiplex_controller_security (ControllerFrame ControllerFrameKind)
open multiplex_controller_security.transport
open multiplex_controller_listener.protocol

namespace multiplex_controller_listener.runtime

/-! ## A connection that goes on can seal and open -/

structure Sound (peer : AuthenticatedPeer) (c : Connection) : Prop where
  policy : c.transport.policy = ⟨peer.capabilities, UInt64.ofNat peer.revocation_epoch⟩
  active : c.ended = none → c.transport.failed = false

/-- A part of a turn keeps the policy, and a transport that failed with it ends the connection. -/
def Carries (c : Connection) (result : Connection × Listened Unit) : Prop :=
  result.1.transport.policy = c.transport.policy ∧
    (result.2 = .ok () → c.transport.failed = false → result.1.transport.failed = false)

section
variable {peer : AuthenticatedPeer} {c c' : Connection}

theorem carries_same (h : c'.transport = c.transport) (result : Listened Unit) :
    Carries c (c', result) := ⟨by rw [h], fun _ hactive => by rwa [h]⟩

variable {result : Connection × Listened Unit}

theorem Carries.trans (h : Carries c (c', .ok ())) (h' : Carries c' result) : Carries c result :=
  ⟨h'.1.trans h.1, fun hok hactive => h'.2 hok (h.2 rfl hactive)⟩

variable (cipher : Aead.Cipher Derived)

theorem send_carries (peer : AuthenticatedPeer) (c : Connection) (flows : Bool) (parcel : Parcel) :
    Carries c (send cipher peer c flows parcel) := by
  unfold send
  split
  · exact carries_same rfl _
  rename_i payload hpayload
  obtain ⟨hpolicy, hactive⟩ := seal_frame_keeps (t := c.transport) cipher parcel.kind parcel.capability
    (UInt64.ofNat peer.revocation_epoch) payload
  split
  · rename_i hseal
    rw [hseal] at hpolicy
    exact ⟨hpolicy, by simp⟩
  rename_i transport sealing hseal
  rw [hseal] at hpolicy hactive
  split
  · exact ⟨hpolicy, by simp⟩
  split
  · exact ⟨hpolicy, fun _ _ => hactive sealing rfl⟩
  · exact ⟨hpolicy, by simp⟩

theorem send_all_carries (peer : AuthenticatedPeer) (c : Connection) (taken : Nat)
    (parcels : List Parcel) : Carries c (send_all cipher peer c taken parcels) := by
  induction parcels generalizing c taken with
  | nil => exact carries_same rfl _
  | cons parcel parcels ih =>
    have hsend := send_carries cipher peer c (0 < taken) parcel
    unfold send_all
    split
    · rename_i hresult
      rw [hresult] at hsend
      exact ⟨hsend.1, by simp⟩
    · rename_i c' hresult
      rw [hresult] at hsend
      exact hsend.trans (ih c' (taken - 1))

section
variable (env : Surroundings) (f : Inbound)

theorem serve_command_carries (opened : ControllerFrame) :
    Carries c (serve_command env peer c f opened) := by
  unfold serve_command
  split
  · exact carries_same rfl _
  split
  · exact carries_same rfl _
  split
  · exact carries_same rfl _
  simp only
  split
  · exact carries_same rfl _
  · exact (carries_same rfl _).trans (send_all_carries env.cipher peer _ _ _)

theorem serve_screen_carries (opened : ControllerFrame) :
    Carries c (serve_screen env peer c f opened) := by
  unfold serve_screen
  split
  · exact carries_same rfl _
  split
  · exact carries_same rfl _
  split
  · exact carries_same rfl _
  split
  · exact carries_same rfl _
  · exact carries_same rfl _

theorem serve_frame_carries : Carries c (serve_frame env peer c f) := by
  unfold serve_frame
  split
  · exact carries_same rfl _
  rename_i sealed hsealed
  obtain ⟨hpolicy, hactive⟩ := open_frame_keeps (t := c.transport) f.made sealed
  split
  · rename_i hopen
    rw [hopen] at hpolicy
    exact ⟨hpolicy, by simp⟩
  rename_i transport opening hopen
  rw [hopen] at hpolicy hactive
  have hopened : Carries c ({ c with transport }, .ok ()) :=
    ⟨hpolicy, fun _ _ => hactive opening rfl⟩
  split
  · exact hopened.trans (serve_screen_carries env f _)
  · exact hopened.trans (serve_command_carries env f _)
  · exact ⟨hpolicy, by simp⟩

end

theorem Sound.carry_on (h : Sound peer c) (hcarries : Carries c result) (hended : c.ended = none) :
    Sound peer (carry_on result) := by
  obtain ⟨c', e | u⟩ := result
  · exact ⟨hcarries.1.trans h.policy, by simp [runtime.carry_on]⟩
  · exact ⟨hcarries.1.trans h.policy, fun _ => hcarries.2 rfl (h.active hended)⟩

theorem Sound.step (h : Sound peer c) (env : Surroundings) (event : Event) :
    Sound peer (step env peer c event) := by
  by_cases hc : c.ended = none
  · have hgoes : c.ended.isSome = false := by simp [hc]
    rcases event with _ | snapshot | f | ⟨bytes, taken⟩ | ⟨response, taken⟩ <;>
      simp [runtime.step, hgoes]
    · exact ⟨h.policy, by simp⟩
    · apply h.carry_on ?_ hc
      unfold refresh_tick
      split
      · exact carries_same rfl _
      · exact carries_same rfl _
    · exact h.carry_on (serve_frame_carries env f) hc
    · exact h.carry_on (send_all_carries env.cipher peer c taken _) hc
    · apply h.carry_on ?_ hc
      unfold host_output_poll
      split
      · exact carries_same rfl _
      · exact carries_same rfl _
      · exact send_all_carries env.cipher peer c taken _
  · rw [step_ended hc]
    exact h

theorem sound_serve (env : Surroundings) (peer : AuthenticatedPeer) (events : List Event) :
    Sound peer (serve env peer events) :=
  Runs.keeps_always (Sound peer) (fun _ event h => h.step env event) ⟨rfl, fun _ => rfl⟩ events

end

/-! ## A command that this Host does not know -/

/-- What the Host asks the authority about a command that it does not know. -/
def unknown_request (peer : AuthenticatedPeer) (command : protocol.ControllerCommandEnvelope)
    (now_millis : Nat) : ControllerDeviceAuthority.AuthorizationRequest :=
  { device_id := peer.device_id, public_key := peer.public_key,
    identity_generation := peer.identity_generation, capability := .ObserveSessions,
    revocation_epoch := peer.revocation_epoch, session_generation := command.session_generation,
    now_millis, deadline_millis := command.deadline_millis }

/-- The frame came under the right to list the sessions, the snapshot that is taken for it allows
the peer to list them now, and the answer can be sealed and written. -/
structure Answerable (peer : AuthenticatedPeer) (c : Connection) (f : Inbound)
    (presented : ControllerCapability) (command : protocol.ControllerCommandEnvelope) : Prop where
  presented : presented = .ObserveSessions
  snapshot : ∃ current, f.snapshot = .ok current ∧ require_current_peer current peer = .ok () ∧
    current.authorize (unknown_request peer command f.now_millis) = .Allow
  sequence : c.transport.send.nonce ≤ MAX_SEQUENCE
  stream : 0 < f.taken

def Entry.is_response : Entry → Bool
  | .response _ => true
  | _ => false

/-- One refusal goes out, and the connection goes on with the next frame. -/
structure Refused (c c' : Connection) (receive : CipherState) (command_id : CommandId) : Prop where
  goes_on : c'.ended = none
  active : c'.transport.failed = false
  policy : c'.transport.policy = c.transport.policy
  receive : c'.transport.receive = receive
  trace : ∃ checked : List Entry, (∀ entry ∈ checked, entry.is_response = false) ∧ c'.trace =
    c.trace ++ (checked ++ [.response (error_response command_id "unsupported_command")])

theorem allowed_ok_iff {decision : ControllerDeviceAuthority.AuthorizationDecision} {u : Unit} :
    allowed decision = .ok u ↔ decision = .Allow := by
  cases decision with
  | Allow => simp [allowed]
  | Deny denial => simp [allowed]

variable (command_id : CommandId)

theorem length_refusal :
    (error_response command_id "unsupported_command").text.length = 124 := by
  have hkind : (member "kind" (string "error")).length = 14 := by decide
  have hid : (string "command_id").length = 12 := by decide
  have hcode : (member "code" (string "unsupported_command")).length = 28 := by decide
  have hunknown : (member "completion_unknown" (boolean false)).length = 26 := by decide
  simp only [error_response, ControllerResponse.text, tagged, length_object, List.map_cons, List.map_nil,
    hkind, hcode, hunknown, List.sum_cons, List.sum_nil, length_member, hid, length_uuid,
    List.length_cons, List.length_nil]
  omega

theorem refusal_encodes :
    encode_response (error_response command_id "unsupported_command") control_payload_limit =
      .ok (error_response command_id "unsupported_command").text := by
  have hvalid : validate_response (error_response command_id "unsupported_command") = .ok () := by
    simp only [error_response, validate_response]
    decide
  have hfits : ¬ control_payload_limit <
      (error_response command_id "unsupported_command").text.length := by
    rw [length_refusal]
    decide
  simp [encode_response, hvalid, encode_bounded, hfits, bind, Except.bind]

section
variable {env : Surroundings} {peer : AuthenticatedPeer} {c : Connection} {f : Inbound}
  {command : protocol.ControllerCommandEnvelope}

theorem authorize_unknown (hunknown : command.command = .Unsupported)
    (current : ControllerDeviceAuthority) : authorize_command peer f command current = .ok () ↔
      require_current_peer current peer = .ok () ∧
        current.authorize (unknown_request peer command f.now_millis) = .Allow := by
  simp [authorize_command, command_context, authorize, hunknown, ControllerCommand.session_id,
    ControllerCommand.addressed, ControllerCommand.kind, BridgeCommandKind.addresses_a_session,
    BridgeCommandKind.requires_writer_lease, BridgeCommandKind.capability, allowed_ok_iff,
    unknown_request]
  intro _
  constructor
  · rintro ⟨_, hpeer⟩
    exact hpeer
  · intro hpeer
    exact ⟨(), hpeer⟩

theorem answer_unknown (hunknown : command.command = .Unsupported) :
    answer env peer f command = .ok [error_response command.command_id "unsupported_command"] := by
  simp [answer, hunknown, execute]

def refusal (command_id : CommandId) : Parcel :=
  response_parcel .ObserveSessions (error_response command_id "unsupported_command")

variable (command_id : CommandId)

theorem refusal_eq : refusal command_id =
    ⟨.Control, .ObserveSessions, .ok (error_response command_id "unsupported_command").text,
      64 * 1024, .response (error_response command_id "unsupported_command")⟩ := by
  rw [← refusal_encodes]
  rfl

theorem refusal_fits :
    Fits .Control (error_response command_id "unsupported_command").text.length := by
  rw [length_refusal]
  show 124 ≤ multiplex_controller_security.MAX_CONTROL_PAYLOAD_BYTES
  decide

theorem send_all_one (cipher : Aead.Cipher Derived) (peer : AuthenticatedPeer) (c : Connection)
    (taken : Nat) (parcel : Parcel) :
    send_all cipher peer c taken [parcel] = send cipher peer c (0 < taken) parcel := by
  simp only [send_all]
  cases send cipher peer c (0 < taken) parcel with
  | mk c' result => cases result <;> rfl

theorem send_refusal {cipher : Aead.Cipher Derived} (hcipher : ∀ key nonce ad plaintext,
      (cipher key nonce ad plaintext).length =
        plaintext.length + multiplex_controller_security.transport.AEAD_TAG_BYTES)
    (hactive : c.transport.failed = false) (flows : Bool)
    (hgranted : c.transport.policy.require .ObserveSessions (UInt64.ofNat peer.revocation_epoch) =
      .ok ()) (command_id : CommandId) :
    ((send cipher peer c flows (refusal command_id)).2 = .ok () ↔
      c.transport.send.nonce ≤ MAX_SEQUENCE ∧ flows = true) ∧
    ((send cipher peer c flows (refusal command_id)).2 = .ok () →
      (send cipher peer c flows (refusal command_id)).1.trace =
        c.trace ++ [.response (error_response command_id "unsupported_command")] ∧
      (send cipher peer c flows (refusal command_id)).1.transport.receive = c.transport.receive) := by
  rw [refusal_eq]
  simp only [send, seal_frame_active hactive]
  by_cases hsequence : c.transport.send.nonce ≤ MAX_SEQUENCE
  · rw [seal_inner_of_fits cipher hgranted (refusal_fits command_id) hsequence]
    have hframe : write_bounded_frame (sealing_of cipher c.transport.send ⟨.Control,
        .ObserveSessions, UInt64.ofNat peer.revocation_epoch, c.transport.send.nonce,
        (error_response command_id "unsupported_command").text⟩).frame (64 * 1024) = .ok () := by
      have hlength := length_sealing_of hcipher c.transport.send ⟨.Control, .ObserveSessions,
        UInt64.ofNat peer.revocation_epoch, c.transport.send.nonce,
        (error_response command_id "unsupported_command").text⟩
      rw [length_refusal] at hlength
      simp only [write_bounded_frame, bind_ok_iff, refuseIf_ok_iff]
      refine ⟨(), List.ne_nil_of_length_pos (by omega), ?_⟩
      rw [hlength]
      decide
    simp only [hframe]
    cases flows with
    | true => simp [hsequence, Connection.note]
    | false => simp
  · cases hseal : c.transport.seal_inner cipher .Control .ObserveSessions
        (UInt64.ofNat peer.revocation_epoch)
        (error_response command_id "unsupported_command").text with
    | ok sealing => exact absurd (seal_inner_ok hseal).2.2.1 hsequence
    | error error => simp [hsequence]

theorem serve_unknown {opened : ControllerFrame}
    (hdecode : decode_command env.from_slice opened.payload = .ok command)
    (hunknown : command.command = .Unsupported) :
    ((serve_command env peer c f opened).2 = .ok () → opened.capability = .ObserveSessions ∧
      ∃ current, f.snapshot = .ok current ∧ require_current_peer current peer = .ok () ∧
        current.authorize (unknown_request peer command f.now_millis) = .Allow) ∧
    ∀ current, opened.capability = .ObserveSessions → f.snapshot = .ok current →
      require_current_peer current peer = .ok () →
      current.authorize (unknown_request peer command f.now_millis) = .Allow →
      serve_command env peer c f opened =
        send env.cipher peer ((c.note (.snapshot current)).note (.executed command current))
          (0 < f.taken) (refusal command.command_id) := by
  have hkind : command.command.kind.capability = .ObserveSessions := by
    rw [hunknown]
    rfl
  have hread : read_command env opened =
      if opened.capability = .ObserveSessions then .ok command else .error unauthorized := by
    by_cases hcapability : opened.capability = .ObserveSessions
    · simp [read_command, hdecode, require_frame_capability, hkind, hcapability, refuseIf, bind,
        Except.bind, pure, Except.pure]
    · simp [read_command, hdecode, require_frame_capability, hkind, hcapability, refuseIf, bind,
        Except.bind]
  constructor
  · intro hok
    unfold serve_command at hok
    rw [hread] at hok
    by_cases hcapability : opened.capability = .ObserveSessions
    · refine ⟨hcapability, ?_⟩
      rw [if_pos hcapability] at hok
      cases hsnapshot : f.snapshot with
      | error e => simp [hsnapshot] at hok
      | ok current =>
        cases hauthorize : authorize_command peer f command current with
        | error e => simp [hsnapshot, hauthorize] at hok
        | ok u => exact ⟨current, rfl, (authorize_unknown hunknown current).mp hauthorize⟩
    · rw [if_neg hcapability] at hok
      cases hok
  · intro current hcapability hsnapshot hcurrent hallow
    have hauthorize := (authorize_unknown (f := f) hunknown current).mpr ⟨hcurrent, hallow⟩
    unfold serve_command
    rw [hread, if_pos hcapability, hsnapshot]
    simp [hauthorize, answer_unknown hunknown, hkind]
    exact send_all_one _ _ _ _ _

theorem carry_on_ok {result : Connection × Listened Unit} (h : result.2 = .ok ()) :
    carry_on result = result.1 := by
  obtain ⟨c', e | u⟩ := result
  · cases h
  · rfl

/-- A frame of a connection that goes on, with a command that the Host does not know. -/
structure Unknown (env : Surroundings) (c : Connection) (f : Inbound) (sealed : List UInt8)
    (opening : Opening) (command : protocol.ControllerCommandEnvelope) : Prop where
  goes_on : c.ended = none
  arrives : f.sealed = .ok sealed
  opens : c.transport.open_inner f.made sealed = .ok opening
  kind : opening.frame.kind = .Control
  decodes : decode_command env.from_slice opening.frame.payload = .ok command
  unknown : command.command = .Unsupported

theorem refused_iff (hcipher : ∀ key nonce ad plaintext,
      (env.cipher key nonce ad plaintext).length =
        plaintext.length + multiplex_controller_security.transport.AEAD_TAG_BYTES)
    (hsound : Sound peer c) {sealed : List UInt8} {opening : Opening}
    (h : Unknown env c f sealed opening command) :
    Refused c (step env peer c (.incoming f)) opening.receive command.command_id ↔
      Answerable peer c f opening.frame.capability command := by
  have hactive := hsound.active h.goes_on
  have hgoes : c.ended.isSome = false := by simp [h.goes_on]
  let opened : Connection := { c with transport := { c.transport with receive := opening.receive } }
  have hstep : step env peer c (.incoming f) =
      carry_on (serve_command env peer opened f opening.frame) := by
    simp [step, hgoes, serve_frame, h.arrives, open_frame_active hactive, h.opens, h.kind, opened]
  obtain ⟨honly, hserve⟩ := serve_unknown (c := opened) (f := f) h.decodes h.unknown
  have hgranted : opening.frame.capability = .ObserveSessions →
      opened.transport.policy.require .ObserveSessions (UInt64.ofNat peer.revocation_epoch) = .ok () := by
    intro hcapability
    have hrequire := open_inner_granted h.opens
    rw [hcapability] at hrequire
    show c.transport.policy.require _ _ = _
    rw [hsound.policy] at hrequire ⊢
    unfold multiplex_controller_security.AuthorizationPolicy.require at hrequire ⊢
    split at hrequire
    · cases hrequire
    · rename_i hpresented
      rw [if_neg]
      rw [not_or] at hpresented ⊢
      exact ⟨fun hne => hne rfl, hpresented.2⟩
  obtain ⟨_, _, hturn⟩ : ∃ checked sent, Turn peer (.incoming f) c
      (serve_command env peer opened f opening.frame) checked sent :=
    turn_command env f opened opening.frame rfl rfl
  have hended := hturn.ended.trans h.goes_on
  have hsend := fun current (hcapability : opening.frame.capability = .ObserveSessions) =>
    send_refusal (c := (opened.note (.snapshot current)).note (.executed command current)) hcipher
      hactive (0 < f.taken) (hgranted hcapability) command.command_id
  constructor
  · intro hrefused
    have hgoes_on := hrefused.goes_on
    rw [hstep] at hgoes_on
    have hok := (carried _ hended).2 hgoes_on
    obtain ⟨hcapability, current, hsnapshot, hcurrent, hallow⟩ := honly hok
    rw [hserve current hcapability hsnapshot hcurrent hallow] at hok
    obtain ⟨hsequence, htaken⟩ := (hsend current hcapability).1.mp hok
    exact ⟨hcapability, ⟨current, hsnapshot, hcurrent, hallow⟩, hsequence, by simpa using htaken⟩
  · intro hanswerable
    obtain ⟨current, hsnapshot, hcurrent, hallow⟩ := hanswerable.snapshot
    have hsends := hserve current hanswerable.presented hsnapshot hcurrent hallow
    obtain ⟨hiff, hsent⟩ := hsend current hanswerable.presented
    have hok := hiff.mpr ⟨hanswerable.sequence, by simpa using hanswerable.stream⟩
    obtain ⟨htrace, hreceive⟩ := hsent hok
    rw [← hsends] at hok htrace hreceive
    have hgoes_on : (step env peer c (.incoming f)).ended = none := by
      rw [hstep, carry_on_ok hok]
      exact hended
    have hsound' := hsound.step env (.incoming f)
    refine ⟨hgoes_on, hsound'.active hgoes_on, hsound'.policy.trans hsound.policy.symm, ?_,
      [.snapshot current, .executed command current], by simp [Entry.is_response], ?_⟩
    · rw [hstep, carry_on_ok hok]
      exact hreceive
    · rw [hstep, carry_on_ok hok, htrace]
      simp [Connection.note, opened]

end

/-! ## A response that the device does not know -/

open client_channel (ControllerClientChannel ControllerIncoming)

variable {from_slice : Reader} {channel : ControllerClientChannel} {frame : ControllerFrame}

theorem read_unknown (hkind : frame.kind ≠ .Screen)
    (hdecode : decode_response from_slice frame.payload
      (ControllerClientChannel.maximum_text frame.kind) = .ok .Unknown)
    (rest : List (Listened ControllerFrame)) : channel.read_next from_slice (.ok frame :: rest) =
      (channel, some (.error protocol.malformed), rest) := by
  have hopened : channel.read_opened from_slice frame = .error protocol.malformed := by
    simp [ControllerClientChannel.read_opened, hkind, hdecode,
      ControllerClientChannel.expected_response, bind, Except.bind]
  simp [ControllerClientChannel.read_next, ControllerClientChannel.read_incoming, hopened]

theorem length_read_next (from_slice : Reader) (channel : ControllerClientChannel)
    (frames : List (Listened ControllerFrame)) :
    (channel.read_next from_slice frames).2.2.length = frames.length - 1 := by
  cases frames <;> rfl

/-- So it is never skipped: the read neither gives what comes after nor leaves what comes after that. -/
theorem unknown_not_skipped (hkind : frame.kind ≠ .Screen)
    (hdecode : decode_response from_slice frame.payload
      (ControllerClientChannel.maximum_text frame.kind) = .ok .Unknown)
    (rest : List (Listened ControllerFrame)) :
    channel.read_next from_slice (.ok frame :: rest) ≠ channel.read_next from_slice rest := by
  intro heq
  rw [read_unknown hkind hdecode] at heq
  cases rest with
  | nil => simp [ControllerClientChannel.read_next] at heq
  | cons next rest =>
    have hlength := congrArg (fun read => read.2.2.length) heq
    simp [length_read_next] at hlength

/-! ## The two ends -/

/-- In any connection, a command of a newer device gets its one refusal, with the connection
carrying on, exactly where it comes under the right to list the sessions and the peer may list
them now. A response of a newer Host is never skipped. -/
theorem the_wire_grows_under_the_right_to_list (env : Surroundings)
    (hcipher : ∀ key nonce ad plaintext, (env.cipher key nonce ad plaintext).length =
        plaintext.length + multiplex_controller_security.transport.AEAD_TAG_BYTES)
    (peer : AuthenticatedPeer) (events : List Event) :
    (∀ f sealed opening command, Unknown env (serve env peer events) f sealed opening command →
      (Refused (serve env peer events) (step env peer (serve env peer events) (.incoming f))
          opening.receive command.command_id ↔
        Answerable peer (serve env peer events) f opening.frame.capability command)) ∧
    ∀ (channel : ControllerClientChannel) (frame : ControllerFrame)
      (rest : List (Listened ControllerFrame)), frame.kind ≠ .Screen →
      decode_response env.from_slice frame.payload (ControllerClientChannel.maximum_text frame.kind) =
        .ok .Unknown →
      channel.read_next env.from_slice (.ok frame :: rest) ≠ channel.read_next env.from_slice rest := by
  constructor
  · intro f sealed opening command h
    exact refused_iff hcipher (sound_serve env peer events) h
  · intro channel frame rest hkind hdecode
    exact unknown_not_skipped hkind hdecode rest

/-- The texts of a command and of a response whose kinds nobody knows here. -/
def newerCommand : List UInt8 :=
  object [member "version" (number 1), member "command_id" (uuid 9),
    member "session_generation" (number 1),
    member "deadline_millis" (number 1000), member "command" (tagged "rename_session" [])]

def newerResponse : List UInt8 := tagged "session_renamed" []

def newerEnvironment : Surroundings where
  cipher := paddedCipher
  from_slice := ⟨fun bytes => if bytes = newerCommand then some ⟨1, 9, 1, 1000, .Unsupported⟩ else none,
    fun bytes => if bytes = newerResponse then some .Unknown else none⟩
  screens := true

def newerFrame (capability : ControllerCapability) : ControllerFrame :=
  ⟨.Control, capability, 1, 0, newerCommand⟩

def newerInbound (capability : ControllerCapability) : Inbound where
  sealed := .ok (bytes_of paddedCipher .Device (newerFrame capability))
  made := [made_of paddedCipher .Device (newerFrame capability)]
  snapshot := .ok (sampleSnapshot 0x1ff)
  now_millis := 10
  received := .error unauthorized
  context := .error unauthorized
  ticket := .error unauthorized
  executed := .error unauthorized
  taken := 1

theorem a_new_command_under_the_right_to_list_is_refused :
    Refused (serve newerEnvironment sampleWatcher [])
      (step newerEnvironment sampleWatcher (serve newerEnvironment sampleWatcher [])
        (.incoming (newerInbound .ObserveSessions))) (state_at .Device 1) 9 :=
  (((the_wire_grows_under_the_right_to_list newerEnvironment
      (by simp [newerEnvironment, paddedCipher]) sampleWatcher []).1
    (newerInbound .ObserveSessions) (bytes_of paddedCipher .Device (newerFrame .ObserveSessions))
    ⟨state_at .Device 1, newerFrame .ObserveSessions⟩ ⟨1, 9, 1, 1000, .Unsupported⟩)
    ⟨rfl, rfl, by decide +kernel, rfl, by decide +kernel, rfl⟩).mpr
    ⟨rfl, ⟨sampleSnapshot 0x1ff, rfl, by decide +kernel, by decide +kernel⟩, by decide +kernel, by decide⟩

/-- Under the right to type, which the device was granted too, the same command ends the
connection. The answer of a newer Host ends the read of the device. -/
theorem a_new_command_under_another_right_ends_the_connection :
    (step newerEnvironment sampleWatcher (serve newerEnvironment sampleWatcher [])
        (.incoming (newerInbound .SendInput))).ended = some (.error unauthorized) ∧
    ¬ Refused (serve newerEnvironment sampleWatcher [])
      (step newerEnvironment sampleWatcher (serve newerEnvironment sampleWatcher [])
        (.incoming (newerInbound .SendInput))) (state_at .Device 1) 9 ∧
    decode_response newerEnvironment.from_slice newerResponse 65536 = .ok .Unknown ∧
    ∀ channel : ControllerClientChannel,
      (channel.read_next newerEnvironment.from_slice
        [.ok ⟨.Control, .ObserveSessions, 1, 0, newerResponse⟩]).2.1 =
          some (.error protocol.malformed) := by
  have hended : (step newerEnvironment sampleWatcher (serve newerEnvironment sampleWatcher [])
      (.incoming (newerInbound .SendInput))).ended = some (.error unauthorized) := by
    decide +kernel
  refine ⟨hended, ?_, by decide +kernel, ?_⟩
  · intro hrefused
    have hgoes_on := hrefused.goes_on
    rw [hended] at hgoes_on
    cases hgoes_on
  · intro channel
    rw [read_unknown (by decide) (by decide +kernel)]

end multiplex_controller_listener.runtime
