-- The screen session of one connection, around the session of one viewer: what
-- a frame may carry, the ticket that a hello spends, and the events that the
-- application hears.
import Multiplex.Domain.ControllerDevices
import Multiplex.ScreenSession.Host

open multiplex_domain.controller_devices (ControllerDeviceId)
open multiplex_screen_codec (CodecError)
open multiplex_screen_protocol multiplex_screen_input multiplex_screen_session

namespace multiplex_screen_host

/-! ## Grants and frames -/

/-- What a screen frame says that it carries. -/
inductive ScreenFrameCapability where
  | Observe
  | Pointer
  | Keyboard

inductive InputKind where
  | Pointer
  | Keyboard

/-- The input that a message would inject, if any. -/
def input_kind : Message → Option InputKind
  | .PointerMove .. | .PointerButton .. | .Scroll .. => some .Pointer
  | .Key _ | .Text .. => some .Keyboard
  | _ => none

structure ScreenGrants where
  device_id : ControllerDeviceId
  can_view : Bool
  can_control_pointer : Bool
  can_control_keyboard : Bool

def ScreenGrants.can_control (grants : ScreenGrants) : Bool :=
  grants.can_control_pointer || grants.can_control_keyboard

/-- The first eight bytes of a device's id. -/
def device_id (grants : ScreenGrants) : UInt64 := UInt64.ofNat (grants.device_id / 2 ^ 64)

/-- The grants are held only between spending the ticket and verifying the hello. -/
abbrev SpentTicket := Option Grants

def SpentTicket.verify (ticket : SpentTicket) (_proof : FixedBytes 32) : Option Grants × SpentTicket :=
  (ticket, none)

/-! ## The session -/

/-- Something that the application must act on. -/
inductive ScreenHostEvent where
  | Opened (device : UInt64)
  | Input (input : InputEvent)
  | ControlRequested
  | ControlReleased
  | Closed (reason : String)

/-- The session, as far as control and its end go through it. What was flushed is kept. -/
structure Inner where
  session : HostSession SpentTicket
  resume : ResumeStore
  grants : Option ScreenGrants
  running : Bool
  sent : List HostMessage

namespace Inner

def new (surfaces : List SurfaceInfo) (config : HostConfig) : Inner :=
  ⟨.new surfaces none config, .default, none, true, []⟩

/-- Sends everything that the session has queued. -/
def flush (inner : Inner) : Inner :=
  { inner with
    session := { inner.session with outbox := [] }
    sent := inner.sent ++ inner.session.outbox }

/-- What the application hears of an event of the session. The others stay below it. -/
def emitted : HostEvent → Option ScreenHostEvent
  | .Opened device _ => some (.Opened device)
  | .Input input => some (.Input input)
  | .ControlRequested => some .ControlRequested
  | .ControlReleased => some .ControlReleased
  | _ => none

/-- Ends the session, once. -/
def close (inner : Inner) (reason : String) : Inner × List ScreenHostEvent :=
  if inner.running then
    let (session, resume) := inner.session.close reason inner.resume
    (({ inner with running := false, session, resume } : Inner).flush, [.Closed reason])
  else (inner, [])

/-- What the frame claims covers what the message does. -/
def allowed (inner : Inner) (capability : ScreenFrameCapability) (message : Message) : Bool :=
  match capability, input_kind message with
  | .Observe, none => true
  | .Pointer, some .Pointer => inner.grants.any fun grants => grants.can_control_pointer
  | .Keyboard, some .Keyboard => inner.grants.any fun grants => grants.can_control_keyboard
  | _, _ => false

def codec_error_code : CodecError → String
  | .InvalidSize => "invalid_size"
  | .InvalidStride => "invalid_stride"
  | .BufferTooShort => "buffer_too_short"
  | .FrameSizeMismatch => "frame_size_mismatch"
  | .RectOutsideSurface => "rect_outside_surface"
  | .PayloadSizeMismatch => "payload_size_mismatch"
  | .CorruptPayload => "corrupt_payload"
  | .MalformedBatch => "malformed_batch"
  | .UnsupportedVersion => "unsupported_version"
  | .BatchTooLarge => "batch_too_large"
  | .TileOutOfRange => "tile_out_of_range"
  | .InvalidMove => "invalid_move"
  | .StaleBatch => "stale_batch"

def error_code : SessionError → String
  | .NotAuthorized => "not_authorized"
  | .ProtocolViolation => "protocol_violation"
  | .UnknownSurface => "unknown_surface"
  | .Closed => "session_closed"
  | .Codec error => codec_error_code error

def receive (inner : Inner) (message : Message) : Inner × List ScreenHostEvent :=
  let r := inner.session.receive SpentTicket.verify message inner.resume
  let inner := { inner with session := r.session, resume := r.store }
  match r.result with
  | .ok events => (inner.flush, events.filterMap emitted)
  | .error error => (({ inner with running := false } : Inner).flush, [.Closed (error_code error)])

/-- One message of the connection. A hello spends the ticket that was issued, if that is there. -/
def handle_message (inner : Inner) (capability : ScreenFrameCapability) (message : Message)
    (ticket : Option ScreenGrants) : Inner × List ScreenHostEvent :=
  if !inner.running then (inner, [])
  else if !inner.allowed capability message then inner.close "capability_mismatch"
  else
    match message, ticket with
    | .Hello _, none => (inner, [])
    | .Hello _, some grants =>
      let verifier : SpentTicket := some ⟨device_id grants, grants.can_view, grants.can_control⟩
      ({ inner with grants := some grants, session := { inner.session with verifier } } : Inner).receive
        message
    | _, _ => inner.receive message

/-- Tells the device who holds control. -/
def set_control (inner : Inner) (holder : ControlHolder) : Inner :=
  ({ inner with session := inner.session.set_control holder } : Inner).flush

end Inner

/-! ## What a session is told -/

def controls (messages : List HostMessage) : List ControlHolder :=
  messages.filterMap fun
    | .Control holder => some holder
    | _ => none

@[simp] theorem controls_append (l l' : List HostMessage) :
    controls (l ++ l') = controls l ++ controls l' := List.filterMap_append

section
variable {V : Type} {h h' : HostSession V}

/-- What has nothing to do with control leaves this alone. -/
structure Keeps (h h' : HostSession V) : Prop where
  state : h'.state = h.state
  control : h'.control = h.control
  said : controls h'.outbox = controls h.outbox

theorem Keeps.refl (h : HostSession V) : Keeps h h := ⟨rfl, rfl, rfl⟩

theorem Keeps.trans {h'' : HostSession V} (h₁ : Keeps h h') (h₂ : Keeps h' h'') : Keeps h h'' :=
  ⟨h₂.state.trans h₁.state, h₂.control.trans h₁.control, h₂.said.trans h₁.said⟩

theorem keeps_modify (h : HostSession V) (key : UInt32) (f : Subscription → Subscription) :
    Keeps h (h.modify key f) := by
  unfold HostSession.modify
  split <;> exact ⟨rfl, rfl, rfl⟩

theorem keeps_unsubscribe (h : HostSession V) (surface : UInt32) (grants : Grants)
    (store : ResumeStore) (profile : Profile) :
    Keeps h (h.unsubscribe surface grants store profile).1 ∧
      (h.unsubscribe surface grants store profile).2.2.filterMap Inner.emitted = [] := by
  unfold HostSession.unsubscribe
  simp only
  split <;> exact ⟨⟨rfl, rfl, rfl⟩, rfl⟩

/-- How a session answers a message of its viewer, as far as the application hears of it. -/
inductive Reacts (h h' : HostSession V) : List ScreenHostEvent → Prop
  | stays {events : List ScreenHostEvent} (keeps : Keeps h h')
      (input : ∀ e ∈ events, ∃ input, e = .Input input) : Reacts h h' events
  | repeats (state : h'.state = h.state) (control : h'.control = h.control)
      (said : controls h'.outbox = controls h.outbox ++ [h.control]) : Reacts h h' []
  | opens (device : UInt64) (awaited : h.state = .AwaitingHello) (is_open : h'.is_open = true)
      (control : h'.control = h.control) (said : controls h'.outbox = controls h.outbox) :
      Reacts h h' [.Opened device]
  | asks (is_open : h.is_open = true) (same : h' = h) : Reacts h h' [.ControlRequested]
  | gives (is_open : h.is_open = true) (changed : h' = h.set_control .Nobody ∧ h.control = .You ∨
      h' = h ∧ h.control ≠ .You) : Reacts h h' [.ControlReleased]

/-- A session that ends says nothing more of control. -/
structure Ends (h h' : HostSession V) : Prop where
  closed : h'.state = .Closed
  control : h'.control = h.control
  said : controls h'.outbox = controls h.outbox

theorem ends_close (h : HostSession V) (reason : String) (store : ResumeStore) :
    Ends h (h.close reason store).1 := by
  unfold HostSession.close
  split
  · exact ⟨rfl, rfl, by simp [HostSession.queue, controls]⟩
  · exact ⟨rfl, rfl, rfl⟩

/-- What came of a message: the session is closed, or it reacts. -/
def Answers (h : HostSession V) (r : Received V) : Prop :=
  match r.result with
  | .ok events => Reacts h r.session (events.filterMap Inner.emitted)
  | .error _ => Ends h r.session

theorem answers_fail (hkeeps : Keeps h h') (error : SessionError) (reason : String)
    (store : ResumeStore) : Answers h (h'.fail error reason store) := by
  unfold HostSession.fail
  split
  · have hends := ends_close h' reason store
    exact ⟨hends.closed, hends.control.trans hkeeps.control, hends.said.trans hkeeps.said⟩
  · refine ⟨rfl, hkeeps.control, ?_⟩
    rw [← hkeeps.said]
    simp [HostSession.queue, controls]

theorem answers_ok {store : ResumeStore} {events : List HostEvent}
    (hreacts : Reacts h h' (events.filterMap Inner.emitted)) : Answers h ⟨h', store, .ok events⟩ :=
  hreacts

theorem stays_quiet (hkeeps : Keeps h h') : Reacts h h' [] :=
  .stays hkeeps fun _ he => absurd he List.not_mem_nil

theorem answers_subscribe (h : HostSession V) (surface : UInt32) (profile : Profile)
    (grants : Grants) (cache_bytes : Nat) (store : ResumeStore) :
    Answers h (h.subscribe surface profile grants cache_bytes store) := by
  unfold HostSession.subscribe
  split
  · exact answers_fail (.refl h) _ _ store
  · refine answers_ok (stays_quiet ?_)
    cases profile with
    | Interactive =>
      split
      · exact ⟨rfl, rfl, by simp [HostSession.queue, controls]⟩
      · exact ⟨rfl, rfl, rfl⟩
    | Thumbnail => exact ⟨rfl, rfl, rfl⟩

theorem answers_accept (verify : V → FixedBytes 32 → Option Grants × V) (h : HostSession V)
    (hello : Hello) (store : ResumeStore) (hawaits : h.state = .AwaitingHello) :
    Answers h (h.accept verify hello store) := by
  have hkeeps : Keeps h { h with verifier := (verify h.verifier hello.ticket_proof).2 } :=
    ⟨rfl, rfl, rfl⟩
  unfold HostSession.accept
  simp only
  split
  · exact answers_fail hkeeps _ _ store
  · rename_i grants _
    split
    · exact answers_fail hkeeps _ _ store
    · refine answers_ok (.opens grants.device hawaits rfl ?_ ?_)
      · split <;> simp only [HostSession.queue, HostSession.resume_encoder]
        split
        · rfl
        · split <;> rfl
      · split <;> simp [HostSession.queue, HostSession.resume_encoder]
        · simp [controls]
        · split
          · simp [controls]
          · split <;> simp [controls]

theorem answers_open (h : HostSession V) (message : Message) (grants : Grants) (cache_bytes : Nat)
    (features : FeatureSet) (store : ResumeStore) (hopen : h.is_open = true) :
    Answers h (h.handle_open message grants cache_bytes features store) := by
  cases message with
  | Subscribe surface profile => exact answers_subscribe h surface profile grants cache_bytes store
  | Unsubscribe surface =>
    obtain ⟨hfull, hnofull⟩ := keeps_unsubscribe h surface grants store .Interactive
    simp only [HostSession.handle_open]
    generalize h.unsubscribe surface grants store .Interactive = full at *
    obtain ⟨hpreview, hnopreview⟩ := keeps_unsubscribe full.1 surface grants full.2.1 .Thumbnail
    generalize full.1.unsubscribe surface grants full.2.1 .Thumbnail = preview at *
    have hnone : (full.2.2 ++ preview.2.2).filterMap Inner.emitted = [] := by
      rw [List.filterMap_append, hnofull, hnopreview, List.append_nil]
    exact answers_ok (by rw [hnone]; exact stays_quiet (hfull.trans hpreview))
  | Viewport viewport => exact answers_ok (stays_quiet (keeps_modify h _ _))
  | Acknowledge ack => exact answers_ok (stays_quiet (keeps_modify h _ _))
  | CacheMiss surface tile hash => exact answers_ok (stays_quiet (keeps_modify h _ _))
  | AttachedPanes sessions =>
    simp only [HostSession.handle_open]
    split
    · exact answers_ok (stays_quiet ⟨rfl, rfl, rfl⟩)
    · exact answers_ok (stays_quiet (.refl h))
  | RequestControl =>
    simp only [HostSession.handle_open]
    split
    · exact answers_ok (.asks hopen rfl)
    · exact answers_ok (.repeats rfl rfl (by simp [HostSession.queue, controls]))
  | ReleaseControl =>
    refine answers_ok (.gives hopen ?_)
    by_cases hcontrol : h.control = .You
    · exact .inl ⟨if_pos hcontrol, hcontrol⟩
    · exact .inr ⟨if_neg hcontrol, hcontrol⟩
  | PointerMove _ _ _ | PointerButton _ _ _ _ _ | Scroll _ _ _ _ _ | Key _ | Text _ _ =>
    refine answers_ok (.stays (.refl h) fun e he => ?_)
    obtain ⟨event, hevent, hemitted⟩ := List.mem_filterMap.mp he
    unfold HostSession.input at hevent
    split at hevent
    · rw [Option.mem_toList, Option.map_eq_some_iff] at hevent
      obtain ⟨input, -, rfl⟩ := hevent
      exact ⟨input, (Option.some.inj hemitted).symm⟩
    · rw [List.mem_singleton] at hevent
      rw [hevent] at hemitted
      cases hemitted
  | VideoAcknowledge _ _ | VideoLost _ _ | BurstReport _ _ _ =>
    simp only [HostSession.handle_open]
    split
    · exact answers_fail (.refl h) _ _ store
    · exact answers_ok (stays_quiet (.refl h))
  | Hello _ | Welcome _ | Goodbye _ | Batch _ | MotionRegion _ _ | Control _ | PanePlacements _ _
  | VideoConfig _ | VideoFrame _ | Parity _ | BurstMark _ _ => exact answers_fail (.refl h) _ _ store

theorem answers_receive (verify : V → FixedBytes 32 → Option Grants × V) (h : HostSession V)
    (message : Message) (store : ResumeStore) : Answers h (h.receive verify message store) := by
  unfold HostSession.receive
  split
  · rename_i hclosed
    exact ⟨hclosed, rfl, rfl⟩
  · rename_i hawaits
    split
    · exact answers_accept verify h _ store hawaits
    · exact answers_fail (.refl h) _ _ store
  · rename_i grants cache_bytes features hstate
    exact answers_open h message grants cache_bytes features store (by
      unfold HostSession.is_open
      rw [hstate])

end

/-! ## What a connection's session does -/

namespace Inner

def is_open (s : Inner) : Bool := s.session.is_open

def told (s : Inner) : ControlHolder := (controls (s.sent ++ s.session.outbox)).getLastD .Nobody

end Inner

section
variable {s s' : Inner} {events : List ScreenHostEvent}

/-- What the application hears of a session, and what became of the session meanwhile. -/
inductive Does (s s' : Inner) : List ScreenHostEvent → Prop
  | stays {events : List ScreenHostEvent} (state : s'.session.state = s.session.state)
      (control : s'.session.control = s.session.control)
      (input : ∀ e ∈ events, ∃ input, e = .Input input) : Does s s' events
  | opens (device : UInt64) (awaited : s.session.state = .AwaitingHello)
      (is_open : s'.is_open = true) (control : s'.session.control = s.session.control) :
      Does s s' [.Opened device]
  | asks (is_open : s.is_open = true) (state : s'.session.state = s.session.state)
      (control : s'.session.control = s.session.control) : Does s s' [.ControlRequested]
  | gives (is_open : s.is_open = true) (state : s'.session.state = s.session.state)
      (control : s'.session.control ≠ .You) : Does s s' [.ControlReleased]
  | ends (reason : String) (closed : s'.session.state = .Closed) : Does s s' [.Closed reason]

/-- What is said of control does not depend on whether it was flushed yet. -/
theorem told_flush_eq (hsent : s'.sent = s.sent)
    (hsaid : controls s'.session.outbox = controls s.session.outbox) : s'.flush.told = s.told := by
  simp [Inner.told, Inner.flush, hsent, hsaid]

theorem told_flush_added {holder : ControlHolder} (hsent : s'.sent = s.sent)
    (hsaid : controls s'.session.outbox = controls s.session.outbox ++ [holder]) :
    s'.flush.told = holder := by
  simp [Inner.told, Inner.flush, hsent, hsaid, ← List.append_assoc]

def Told (s : Inner) : Prop := s.told = s.session.control

theorem told_of_kept (hsent : s'.sent = s.sent)
    (hsaid : controls s'.session.outbox = controls s.session.outbox)
    (hcontrol : s'.session.control = s.session.control) (h : Told s) : Told s'.flush :=
  ((told_flush_eq hsent hsaid).trans h).trans hcontrol.symm

theorem told_of_added (hsent : s'.sent = s.sent)
    (hsaid : controls s'.session.outbox = controls s.session.outbox ++ [s'.session.control]) :
    Told s'.flush :=
  told_flush_added hsent hsaid

theorem told_set_control (h : Told s) (holder : ControlHolder) :
    Told (s.set_control holder) ∧ (s.set_control holder).session.control = holder ∧
      (s.set_control holder).session.state = s.session.state := by
  unfold Inner.set_control HostSession.set_control
  split
  · refine ⟨told_of_added (s := s) rfl ?_, rfl, rfl⟩
    simp [HostSession.queue, controls]
  · rename_i hsame
    rw [ne_eq, not_not] at hsame
    exact ⟨told_of_kept (s := s) rfl rfl rfl h, hsame, rfl⟩

theorem does_close (s : Inner) (reason : String) :
    Does s (s.close reason).1 (s.close reason).2 ∧ (Told s → Told (s.close reason).1) := by
  unfold Inner.close
  split
  · have hends := ends_close s.session reason s.resume
    exact ⟨.ends reason hends.closed, told_of_kept rfl hends.said hends.control⟩
  · exact ⟨.stays rfl rfl fun _ he => absurd he List.not_mem_nil, fun h => h⟩

theorem does_receive (s : Inner) (message : Message) :
    Does s (s.receive message).1 (s.receive message).2 ∧ (Told s → Told (s.receive message).1) := by
  have hanswers := answers_receive SpentTicket.verify s.session message s.resume
  unfold Answers at hanswers
  unfold Inner.receive
  simp only
  generalize s.session.receive SpentTicket.verify message s.resume = r at hanswers ⊢
  cases hresult : r.result with
  | error error =>
    simp only [hresult] at hanswers
    exact ⟨.ends _ hanswers.closed, told_of_kept rfl hanswers.said hanswers.control⟩
  | ok events =>
    simp only [hresult] at hanswers
    simp only
    generalize events.filterMap Inner.emitted = emitted at hanswers ⊢
    cases hanswers with
    | stays keeps input =>
      exact ⟨.stays keeps.state keeps.control input, told_of_kept rfl keeps.said keeps.control⟩
    | repeats state control said =>
      refine ⟨.stays state control fun _ he => absurd he List.not_mem_nil, fun _ => ?_⟩
      exact told_of_added (s := s) rfl (by rw [said, control])
    | opens device awaited is_open control said =>
      exact ⟨.opens device awaited is_open control, told_of_kept rfl said control⟩
    | asks is_open same =>
      exact ⟨.asks is_open (by simp [Inner.flush, same]) (by simp [Inner.flush, same]),
        told_of_kept rfl (by rw [same]) (congrArg HostSession.control same)⟩
    | gives is_open changed =>
      rcases changed with ⟨hset, hyou⟩ | ⟨hsame, hother⟩
      · have hset' : r.session =
            ({ s.session with control := .Nobody } : HostSession SpentTicket).queue
              (.Control .Nobody) := by
          rw [hset, HostSession.set_control, if_pos (by simp [hyou])]
        refine ⟨.gives is_open (by simp [Inner.flush, hset', HostSession.queue])
          (by simp [Inner.flush, hset', HostSession.queue]), fun _ => told_of_added (s := s) rfl ?_⟩
        simp [hset', HostSession.queue, controls]
      · exact ⟨.gives is_open (by simp [Inner.flush, hsame]) (by simpa [Inner.flush, hsame]),
          told_of_kept rfl (by rw [hsame]) (congrArg HostSession.control hsame)⟩

theorem does_of_same {s'' : Inner} (h : Does s'' s' events)
    (hstate : s''.session.state = s.session.state)
    (hcontrol : s''.session.control = s.session.control) : Does s s' events := by
  have hopen : s''.is_open = s.is_open := by
    simp [Inner.is_open, HostSession.is_open, hstate]
  cases h with
  | stays state control input => exact .stays (state.trans hstate) (control.trans hcontrol) input
  | opens device awaited is_open control =>
    exact .opens device (hstate ▸ awaited) is_open (control.trans hcontrol)
  | asks is_open state control =>
    exact .asks (hopen ▸ is_open) (state.trans hstate) (control.trans hcontrol)
  | gives is_open state control => exact .gives (hopen ▸ is_open) (state.trans hstate) control
  | ends reason closed => exact .ends reason closed

theorem does_handle_message (s : Inner) (capability : ScreenFrameCapability) (message : Message)
    (ticket : Option ScreenGrants) :
    Does s (s.handle_message capability message ticket).1 (s.handle_message capability message ticket).2 ∧
      (Told s → Told (s.handle_message capability message ticket).1) := by
  have hstays : Does s s [] := .stays rfl rfl fun _ he => absurd he List.not_mem_nil
  unfold Inner.handle_message
  split
  · exact ⟨hstays, fun h => h⟩
  split
  · exact does_close s _
  split
  · exact ⟨hstays, fun h => h⟩
  · rename_i hello grants _
    -- the ticket is put in, which changes nothing that counts here
    have hdoes := does_receive { s with
      grants := some grants
      session := { s.session with
        verifier := some ⟨device_id grants, grants.can_view, grants.can_control⟩ } } (.Hello hello)
    exact ⟨does_of_same hdoes.1 rfl rfl, hdoes.2⟩
  · exact does_receive s message

end

end multiplex_screen_host
