-- One viewer's session on the host, as `host.rs` has it: subscriptions with
-- their encoders and what they wait for, and the answers to a viewer's messages.
import Multiplex.ScreenCodec.Encoder
import Multiplex.ScreenInput.Injector
import Multiplex.ScreenSession.Video

open multiplex_screen_codec multiplex_screen_protocol multiplex_screen_input

namespace multiplex_screen_session

/-- Surface ids are the keys of the maps of a session. -/
instance linearOrderUInt32 : LinearOrder UInt32 :=
  LinearOrder.lift' UInt32.toNat fun _ _ => UInt32.toNat_inj.mp

def THUMBNAIL_SURFACE_BIT : UInt32 := 0x80000000
def THUMBNAIL_CACHE_BYTES : Nat := 4194304
def MAX_VIEWER_CACHE_BYTES : Nat := 1073741824

/-- Every way a session refuses a message. -/
inductive SessionError
  | NotAuthorized
  | ProtocolViolation
  | UnknownSurface
  | Closed
  | Codec (error : CodecError)

/-- What a verified ticket allows. -/
structure Grants where
  device : UInt64
  can_view : Bool
  can_control : Bool

structure HostConfig where
  min_unacked_batches : Nat
  max_unacked_batches : Nat
  thumbnail_longest_side : Nat
  thumbnail_interval_ms : Nat
  refine_budget_bytes : Nat
  features : FeatureSet

/-- What the session may spend, set by the rate controller above it. -/
structure Limits where
  refine_budget_bytes : Nat
  viewport_only : Bool
  minimum_interval_ms : Nat
  lossy_detail : LossyDetail

def Limits.default : Limits := ⟨2000, false, 0, .STANDARD⟩

def HostConfig.default : HostConfig := ⟨4, 32, 320, 1000, 2000, .none⟩

/-- Something the host application must act on. -/
inductive HostEvent
  | Opened (device : UInt64) (resume : ResumeOutcome)
  | Subscribed (surface : UInt32) (profile : Profile)
  | Unsubscribed (surface : UInt32) (profile : Profile)
  | Input (input : InputEvent)
  | InputRefused
  | ControlRequested
  | ControlReleased
  | VideoAcknowledged (surface : UInt32) (tokens : List UInt32)
  | VideoLost (surface : UInt32) (sequence : UInt64)
  | BurstMeasured (burst bytes spread_micros : UInt64)

/-- A rectangle of a surface, in the fields of a message. -/
def WireRect.of (r : Rect) : WireRect :=
  ⟨UInt32.ofNat r.x, UInt32.ofNat r.y, UInt32.ofNat r.width, UInt32.ofNat r.height⟩

/-- The messages that a host queues. A batch is the codec's own here; `Message` has what is
written of it. -/
inductive HostMessage
  | Welcome (welcome : Welcome)
  | Goodbye (reason : String)
  | Batch (batch : Batch)
  | MotionRegion (surface : UInt32) (rect : Option WireRect)
  | Control (holder : ControlHolder)
  | PanePlacements (surface : UInt32) (panes : List PanePlacement)
  | VideoConfig (config : VideoConfig)
  | VideoFrame (frame : VideoFrame)
  | Parity (parity : Parity)

/-! ## Subscriptions -/

inductive Pending
  | Nothing
  | Rects (rects : List Rect)
  | Everything

def Pending.add (p : Pending) (damage : Option (List Rect)) : Pending :=
  match p, damage with
  | .Everything, _ | _, none => .Everything
  | .Nothing, some rects => .Rects rects
  | .Rects existing, some rects => .Rects (existing ++ rects)

structure Subscription where
  profile : Profile
  encoder : Encoder
  factor : Nat
  acked : Nat
  /-- The last sequence that was put on the wire. -/
  sent : Nat
  refused : Nat
  delivered : Nat
  /-- When each unacknowledged batch went out, oldest first. -/
  outstanding : List (Nat × Nat)
  rtt_ms : Option Nat
  interval_ms : Option Nat
  pending : Pending
  last_sent_ms : Option Nat
  viewport : Option Viewport
  masked : Option FrameBuffer

/-! ## The session -/

inductive State
  | AwaitingHello
  | Open (grants : Grants) (cache_bytes : Nat) (features : FeatureSet)
  | Closed

/-- Encoders kept after a viewer leaves, by device and surface. -/
structure ResumeStore where
  encoders : UInt64 × UInt32 → Option Encoder

def ResumeStore.default : ResumeStore := ⟨fun _ => none⟩

structure HostSession (V : Type) where
  verifier : V
  config : HostConfig
  surfaces : List SurfaceInfo
  generations : SortedMap UInt32 Generation
  state : State
  subscriptions : SortedMap UInt32 Subscription
  resumable : SortedMap UInt32 Encoder
  control : ControlHolder
  panes : SortedMap UInt32 (List PanePlacement)
  attached : List PaneSession
  outbox : List HostMessage
  limits : Limits

section
variable {V : Type}

def HostSession.new (surfaces : List SurfaceInfo) (verifier : V) (config : HostConfig) :
    HostSession V where
  verifier
  config
  surfaces
  generations := surfaces.foldl (fun m surface => m.insert surface.id 1) .empty
  state := .AwaitingHello
  subscriptions := .empty
  resumable := .empty
  control := .Nobody
  panes := .empty
  attached := []
  outbox := []
  limits := { Limits.default with refine_budget_bytes := config.refine_budget_bytes }

def key_for (surface : UInt32) : Profile → UInt32
  | .Interactive => surface
  | .Thumbnail => surface ||| THUMBNAIL_SURFACE_BIT

def HostSession.is_open (h : HostSession V) : Bool :=
  match h.state with
  | .Open .. => true
  | _ => false

/-- What both sides settled on. -/
def HostSession.agreed_features (h : HostSession V) : FeatureSet :=
  match h.state with
  | .Open _ _ features => features
  | _ => .none

def HostSession.queue (h : HostSession V) (message : HostMessage) : HostSession V :=
  { h with outbox := h.outbox ++ [message] }

def HostSession.map_interactive (h : HostSession V) (selected : UInt32 → Bool)
    (f : Subscription → Subscription) : HostSession V :=
  { h with
    subscriptions := h.subscriptions.map fun key s =>
      if s.profile = .Interactive ∧ selected key then f s else s }

/-- The next frame compares every tile of the interactive views that `selected` names. -/
def HostSession.recheck_interactive (h : HostSession V) (surface : Option UInt32) :
    HostSession V :=
  h.map_interactive (fun key => surface.all fun s => s == key) fun s =>
    { s with pending := s.pending.add none }

def HostSession.set_control (h : HostSession V) (holder : ControlHolder) : HostSession V :=
  if h.control ≠ holder then ({ h with control := holder } : HostSession V).queue (.Control holder)
  else h

/-! ## The motion path, seen from the session -/

def HostSession.set_motion_carried (h : HostSession V) (surface : UInt32) (carried : Bool) :
    HostSession V :=
  match h.subscriptions.get? (key_for surface .Interactive) with
  | none => h
  | some s =>
    { h with
      subscriptions := h.subscriptions.insert (key_for surface .Interactive)
        { s with encoder := s.encoder.set_motion_carried carried } }

def HostSession.motion_region (h : HostSession V) (surface : UInt32) : Option Rect :=
  (h.subscriptions.get? (key_for surface .Interactive)).bind fun s => s.encoder.motion_region

def HostSession.motion_region_bytes_per_second (h : HostSession V) (surface : UInt32) :
    Option Nat :=
  (h.subscriptions.get? (key_for surface .Interactive)).bind fun s =>
    s.encoder.motion_region_bytes_per_second

/-- A message of the motion path goes out only when the viewer agreed to it. -/
def HostSession.send_video (h : HostSession V) (message : HostMessage) (feature : UInt32) :
    HostSession V × Bool :=
  if h.agreed_features.has feature then (h.queue message, true) else (h, false)

def HostSession.send_video_config (h : HostSession V) (config : VideoConfig) :
    HostSession V × Bool :=
  h.send_video (.VideoConfig config) FeatureSet.MOTION_VIDEO

def HostSession.send_video_frame (h : HostSession V) (frame : VideoFrame) : HostSession V × Bool :=
  h.send_video (.VideoFrame frame) FeatureSet.MOTION_VIDEO

def HostSession.send_parity (h : HostSession V) (parity : Parity) : HostSession V × Bool :=
  h.send_video (.Parity parity) FeatureSet.VIDEO_PARITY

/-! ## A viewer's messages -/

/-- The sizes and ids that a subscription's encoder is made with. -/
def HostSession.encoder_for (h : HostSession V) (info : SurfaceInfo) (generation : Generation)
    (cache_bytes : Nat) : Profile → Encoder
  | .Interactive =>
    let fresh := Encoder.new info.id generation info.size (EncoderConfig.with_cache cache_bytes)
    match h.resumable.get? info.id with
    | some encoder => if encoder.size = info.size then encoder else fresh
    | none => fresh
  | .Thumbnail =>
    let factor := preview_factor info.size h.config.thumbnail_longest_side
    Encoder.new (info.id ||| THUMBNAIL_SURFACE_BIT) generation (info.size.preview factor)
      (EncoderConfig.with_cache THUMBNAIL_CACHE_BYTES)

def Subscription.start (profile : Profile) (encoder : Encoder) (factor : Nat) : Subscription where
  profile
  encoder
  factor
  acked := encoder.next_sequence - 1
  sent := encoder.next_sequence - 1
  refused := 0
  delivered := 0
  outstanding := []
  rtt_ms := none
  interval_ms := none
  pending := .Everything
  last_sent_ms := none
  viewport := none
  masked := none

/-- The subscription for a surface. An interactive one takes the encoder kept for a resume. -/
def HostSession.subscription_for (h : HostSession V) (info : SurfaceInfo) (generation : Generation)
    (profile : Profile) (cache_bytes : Nat) : Subscription × HostSession V :=
  let encoder := h.encoder_for info generation cache_bytes profile
  match profile with
  | .Interactive =>
    (.start .Interactive (encoder.set_lossy_detail h.limits.lossy_detail) 1,
      { h with resumable := h.resumable.erase info.id })
  | .Thumbnail =>
    (.start .Thumbnail encoder (preview_factor info.size h.config.thumbnail_longest_side), h)

/-- Interactive encoders are kept, so that the device can resume. -/
def ResumeStore.keep_for_resume (store : ResumeStore) (device : UInt64) (key : UInt32)
    (s : Subscription) : ResumeStore :=
  if s.profile = .Interactive then
    ⟨Function.update store.encoders (device, key) (some s.encoder)⟩
  else store

def HostSession.close (h : HostSession V) (reason : String) (store : ResumeStore) :
    HostSession V × ResumeStore :=
  match h.state with
  | .Open grants _ _ =>
    (({ h with subscriptions := .empty, state := .Closed } : HostSession V).queue (.Goodbye reason),
      h.subscriptions.entries.foldl
        (fun store e => store.keep_for_resume grants.device e.1 e.2) store)
  | _ => ({ h with state := .Closed }, store)

/-- What a message leaves: the session, the store and the answer. -/
structure Received (V : Type) where
  session : HostSession V
  store : ResumeStore
  result : Except SessionError (List HostEvent)

def HostSession.fail (h : HostSession V) (error : SessionError) (reason : String)
    (store : ResumeStore) : Received V :=
  match h.state with
  | .Open .. =>
    let r := h.close reason store
    ⟨r.1, r.2, .error error⟩
  | _ => ⟨({ h with state := .Closed } : HostSession V).queue (.Goodbye reason), store, .error error⟩

/-- The encoder that a hello asks to resume leaves the store. It is taken over when its generation
is the one asked for and the surface still has it. -/
def HostSession.resume_encoder (h : HostSession V) (device : UInt64) (request : ResumeRequest)
    (store : ResumeStore) : HostSession V × ResumeStore × ResumeOutcome :=
  let rest : ResumeStore := ⟨Function.update store.encoders (device, request.surface) none⟩
  match store.encoders (device, request.surface) with
  | none => (h, rest, .Full)
  | some encoder =>
    if encoder.generation = request.generation ∧
        h.generations.get? request.surface = some request.generation then
      let r := encoder.resume request.sequence.toNat
      ({ h with resumable := h.resumable.insert request.surface r.2 }, rest,
        if r.1 = .Partial then .Partial else .Full)
    else (h, rest, .Full)

/-- `open`: the hello of a viewer whose ticket is good opens the session. -/
def HostSession.accept (verify : V → FixedBytes 32 → Option Grants × V) (h : HostSession V)
    (hello : Hello) (store : ResumeStore) : Received V :=
  let (verified, verifier) := verify h.verifier hello.ticket_proof
  let h := { h with verifier }
  match verified with
  | none => h.fail .NotAuthorized "ticket_rejected" store
  | some grants =>
    if !grants.can_view then h.fail .NotAuthorized "view_not_allowed" store
    else
      let (h, store, resume) := match hello.resume with
        | none => (h, store, ResumeOutcome.NotRequested)
        | some request => h.resume_encoder grants.device request store
      let cache_bytes := min hello.cache_bytes.toNat MAX_VIEWER_CACHE_BYTES
      let features := h.config.features.shared hello.features
      let h := { h with state := .Open grants cache_bytes features }
      let welcome : Welcome := ⟨min hello.version PROTOCOL_VERSION, h.surfaces, resume, features⟩
      ⟨h.queue (.Welcome welcome), store, .ok [.Opened grants.device resume]⟩

def HostSession.subscribe (h : HostSession V) (surface : UInt32) (profile : Profile)
    (grants : Grants) (cache_bytes : Nat) (store : ResumeStore) : Received V :=
  match h.surfaces.find? fun info => info.id == surface with
  | none => h.fail .UnknownSurface "unknown_surface" store
  | some info =>
    let generation := (h.generations.get? surface).getD 1
    let (subscription, h) := h.subscription_for info generation profile cache_bytes
    let key := key_for surface profile
    let store := match h.subscriptions.get? key with
      | some previous => store.keep_for_resume grants.device key previous
      | none => store
    let h := { h with subscriptions := h.subscriptions.insert key subscription }
    let h := match profile, h.panes.get? surface with
      | .Interactive, some panes => h.queue (.PanePlacements surface panes)
      | _, _ => h
    ⟨h, store, .ok [.Subscribed surface profile]⟩

def HostSession.unsubscribe (h : HostSession V) (surface : UInt32) (grants : Grants)
    (store : ResumeStore) (profile : Profile) : HostSession V × ResumeStore × List HostEvent :=
  let key := key_for surface profile
  match h.subscriptions.get? key with
  | none => (h, store, [])
  | some subscription =>
    ({ h with subscriptions := h.subscriptions.erase key },
      store.keep_for_resume grants.device key subscription, [.Unsubscribed surface profile])

def HostSession.modify (h : HostSession V) (key : UInt32) (f : Subscription → Subscription) :
    HostSession V :=
  match h.subscriptions.get? key with
  | none => h
  | some s => { h with subscriptions := h.subscriptions.insert key (f s) }

/-- The viewer applied every batch up to a sequence. -/
def Subscription.acknowledge (s : Subscription) (ack : ResumeRequest) : Subscription :=
  if s.encoder.generation = ack.generation then
    { s with
      encoder := s.encoder.acknowledge ack.sequence.toNat
      acked := max s.acked (min ack.sequence.toNat s.sent) }
  else s

def InputEvent.from_message : Message → Option InputEvent
  | .PointerMove surface x y => some (.PointerMove surface x y)
  | .PointerButton surface x y button pressed => some (.PointerButton surface x y button pressed)
  | .Scroll surface x y dx dy => some (.Scroll surface x y dx dy)
  | .Key key => some (.Key key)
  | .Text surface text => some (.Text surface text)
  | _ => none

/-- Input is injected only while this viewer holds control. -/
def HostSession.input (h : HostSession V) (message : Message) (grants : Grants) : List HostEvent :=
  if grants.can_control ∧ h.control = .You then
    ((InputEvent.from_message message).map HostEvent.Input).toList
  else [.InputRefused]

def HostSession.handle_open (h : HostSession V) (message : Message) (grants : Grants)
    (cache_bytes : Nat) (features : FeatureSet) (store : ResumeStore) : Received V :=
  match message with
  | .Subscribe surface profile => h.subscribe surface profile grants cache_bytes store
  | .Unsubscribe surface =>
    let (h, store, full) := h.unsubscribe surface grants store .Interactive
    let (h, store, preview) := h.unsubscribe surface grants store .Thumbnail
    ⟨h, store, .ok (full ++ preview)⟩
  | .Viewport viewport =>
    ⟨h.modify viewport.surface fun s => { s with viewport := some viewport }, store, .ok []⟩
  | .Acknowledge ack => ⟨h.modify ack.surface fun s => s.acknowledge ack, store, .ok []⟩
  | .CacheMiss surface tile hash =>
    ⟨h.modify surface fun s => { s with encoder := s.encoder.cache_miss ⟨tile.toNat, hash⟩ }, store,
      .ok []⟩
  | .AttachedPanes sessions =>
    if sessions ≠ h.attached then
      ⟨({ h with attached := sessions } : HostSession V).recheck_interactive none, store, .ok []⟩
    else ⟨h, store, .ok []⟩
  | .RequestControl =>
    if grants.can_control then ⟨h, store, .ok [.ControlRequested]⟩
    else ⟨h.queue (.Control h.control), store, .ok [.InputRefused]⟩
  | .ReleaseControl =>
    ⟨if h.control = .You then h.set_control .Nobody else h, store, .ok [.ControlReleased]⟩
  | .PointerMove .. | .PointerButton .. | .Scroll .. | .Key _ | .Text .. =>
    ⟨h, store, .ok (h.input message grants)⟩
  | .VideoAcknowledge surface tokens =>
    if !features.has FeatureSet.LONG_TERM_REFERENCES then
      h.fail .ProtocolViolation "video_not_agreed" store
    else ⟨h, store, .ok [.VideoAcknowledged surface tokens]⟩
  | .VideoLost surface sequence =>
    if !features.has FeatureSet.LONG_TERM_REFERENCES then
      h.fail .ProtocolViolation "video_not_agreed" store
    else ⟨h, store, .ok [.VideoLost surface sequence]⟩
  | .BurstReport burst bytes spread_micros =>
    if !features.has FeatureSet.BANDWIDTH_REPORTS then
      h.fail .ProtocolViolation "reports_not_agreed" store
    else ⟨h, store, .ok [.BurstMeasured burst bytes spread_micros]⟩
  | .Hello _ | .Welcome _ | .Goodbye _ | .Batch _ | .MotionRegion .. | .Control _
  | .PanePlacements .. | .VideoConfig _ | .VideoFrame _ | .Parity _ | .BurstMark .. =>
    h.fail .ProtocolViolation "unexpected_message" store

def HostSession.receive (verify : V → FixedBytes 32 → Option Grants × V) (h : HostSession V)
    (message : Message) (store : ResumeStore) : Received V :=
  match h.state with
  | .Closed => ⟨h, store, .error .Closed⟩
  | .AwaitingHello =>
    match message with
    | .Hello hello => h.accept verify hello store
    | _ => h.fail .ProtocolViolation "hello_expected" store
  | .Open grants cache_bytes features => h.handle_open message grants cache_bytes features store

end

end multiplex_screen_session
