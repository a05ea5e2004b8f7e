-- Session messages and their bytes, as `message.rs` has them: every kind of
-- message, what `encode` writes for it and refuses to write, and what `decode`
-- reads back and checks.
import Multiplex.ScreenCodec.Wire
import Multiplex.ScreenProtocol.Message

open Bytes multiplex_screen_codec

namespace multiplex_screen_protocol

def PROTOCOL_VERSION : UInt16 := 2
def MINIMUM_PROTOCOL_VERSION : UInt16 := 1
def FEATURES_PROTOCOL_VERSION : UInt16 := 2
def MAX_SURFACES : Nat := 16
def MAX_NAME_BYTES : Nat := 128
def MAX_TEXT_BYTES : Nat := 256
def MAX_REASON_BYTES : Nat := 64
def MAX_PANES : Nat := 32
def MAX_VIDEO_TOKENS : Nat := 32

/-! ## What a message holds -/

def FeatureSet.MOTION_VIDEO : UInt32 := 1
def FeatureSet.VIDEO_PARITY : UInt32 := (1 : UInt32) <<< 1
def FeatureSet.LONG_TERM_REFERENCES : UInt32 := (1 : UInt32) <<< 2
def FeatureSet.BANDWIDTH_REPORTS : UInt32 := (1 : UInt32) <<< 3

def FeatureSet.KNOWN : UInt32 :=
  FeatureSet.MOTION_VIDEO ||| FeatureSet.VIDEO_PARITY ||| FeatureSet.LONG_TERM_REFERENCES |||
    FeatureSet.BANDWIDTH_REPORTS

/-- What a peer can do. The bits are private in the source, so a set never holds an unknown one. -/
structure FeatureSet where
  bits : UInt32
  known : bits &&& FeatureSet.KNOWN = bits
  deriving DecidableEq

def FeatureSet.none : FeatureSet := ⟨0, by decide⟩

def FeatureSet.from_bits (bits : UInt32) : FeatureSet :=
  ⟨bits &&& FeatureSet.KNOWN, by rw [UInt32.and_assoc, UInt32.and_self]⟩

def FeatureSet.has (s : FeatureSet) (feature : UInt32) : Bool := s.bits &&& feature == feature

/-- What both peers can do. -/
def FeatureSet.shared (s t : FeatureSet) : FeatureSet :=
  ⟨s.bits &&& t.bits, by rw [UInt32.and_assoc, t.known]⟩

inductive MotionCodec
  | Hevc
  deriving DecidableEq

inductive Profile
  | Interactive
  | Thumbnail
  deriving DecidableEq

inductive ResumeOutcome
  | NotRequested
  | Partial
  | Full
  deriving DecidableEq

inductive ControlHolder
  | Nobody
  | You
  | AnotherDevice
  deriving DecidableEq

inductive PointerButton
  | Primary
  | Secondary
  | Middle
  deriving DecidableEq

/-- A rectangle of `u32` fields; `rect` is the codec's rectangle. -/
structure WireRect where
  x : UInt32
  y : UInt32
  width : UInt32
  height : UInt32
  deriving DecidableEq

def WireRect.rect (r : WireRect) : Rect :=
  ⟨r.x.toNat, r.y.toNat, r.width.toNat, r.height.toNat⟩

/-- `[u8; n]`. -/
abbrev FixedBytes (n : Nat) := {bytes : List UInt8 // bytes.length = n}

abbrev PaneSession := FixedBytes 16

abbrev SessionBatch := {batch : Batch // batch.sequence < 2 ^ 64}

structure ResumeRequest where
  surface : UInt32
  generation : Generation
  sequence : UInt64
  deriving DecidableEq

structure Hello where
  version : UInt16
  ticket_proof : FixedBytes 32
  cache_bytes : UInt64
  resume : Option ResumeRequest
  features : FeatureSet
  deriving DecidableEq

structure SurfaceInfo where
  id : UInt32
  size : Size
  scale_milli : UInt16
  name : String
  deriving DecidableEq

structure Welcome where
  version : UInt16
  surfaces : List SurfaceInfo
  resume : ResumeOutcome
  features : FeatureSet
  deriving DecidableEq

structure Viewport where
  surface : UInt32
  rect : WireRect
  scale_milli : UInt16
  deriving DecidableEq

structure PanePlacement where
  session : PaneSession
  rect : WireRect
  cell_width : UInt16
  cell_height : UInt16
  deriving DecidableEq

/-- Modifier keys. Only the four low bits can be set, as `Modifiers::new` checks. -/
structure Modifiers where
  bits : UInt8
  only_known : bits &&& ~~~0x0F = 0
  deriving DecidableEq

def Modifiers.new (bits : UInt8) : Option Modifiers :=
  if h : bits &&& ~~~0x0F = 0 then some ⟨bits, h⟩ else none

structure KeyEvent where
  usage : UInt16
  modifiers : Modifiers
  pressed : Bool
  deriving DecidableEq

structure VideoConfig where
  surface : UInt32
  codec : MotionCodec
  rect : WireRect
  payload : List UInt8
  deriving DecidableEq

inductive Message
  | Hello (hello : Hello)
  | Welcome (welcome : Welcome)
  | Goodbye (reason : String)
  | Subscribe (surface : UInt32) (profile : Profile)
  | Unsubscribe (surface : UInt32)
  | Viewport (viewport : Viewport)
  | Acknowledge (ack : ResumeRequest)
  | CacheMiss (surface : UInt32) (tile : UInt32) (hash : TileHash)
  | AttachedPanes (sessions : List PaneSession)
  | Batch (batch : SessionBatch)
  | MotionRegion (surface : UInt32) (rect : Option WireRect)
  | Control (holder : ControlHolder)
  | PanePlacements (surface : UInt32) (panes : List PanePlacement)
  | RequestControl
  | ReleaseControl
  | PointerMove (surface x y : UInt32)
  | PointerButton (surface x y : UInt32) (button : PointerButton) (pressed : Bool)
  | Scroll (surface x y : UInt32) (dx dy : Int32)
  | Key (key : KeyEvent)
  | Text (surface : UInt32) (text : String)
  | VideoConfig (config : VideoConfig)
  | VideoFrame (frame : VideoFrame)
  | Parity (parity : Parity)
  | VideoAcknowledge (surface : UInt32) (tokens : List UInt32)
  | VideoLost (surface : UInt32) (sequence : UInt64)
  | BurstMark (burst bytes : UInt64)
  | BurstReport (burst bytes spread_micros : UInt64)
  deriving DecidableEq

def HELLO : UInt8 := 0x01
def WELCOME : UInt8 := 0x02
def GOODBYE : UInt8 := 0x03
def SUBSCRIBE : UInt8 := 0x10
def UNSUBSCRIBE : UInt8 := 0x11
def VIEWPORT : UInt8 := 0x12
def ACKNOWLEDGE : UInt8 := 0x13
def CACHE_MISS : UInt8 := 0x14
def ATTACHED_PANES : UInt8 := 0x15
def BATCH : UInt8 := 0x20
def MOTION_REGION : UInt8 := 0x21
def CONTROL : UInt8 := 0x22
def PANE_PLACEMENTS : UInt8 := 0x23
def VIDEO_CONFIG : UInt8 := 0x24
def PARITY : UInt8 := 0x26
def REQUEST_CONTROL : UInt8 := 0x30
def RELEASE_CONTROL : UInt8 := 0x31
def POINTER_MOVE : UInt8 := 0x32
def POINTER_BUTTON : UInt8 := 0x33
def SCROLL : UInt8 := 0x34
def KEY : UInt8 := 0x35
def TEXT : UInt8 := 0x36
def VIDEO_ACKNOWLEDGE : UInt8 := 0x37
def VIDEO_LOST : UInt8 := 0x38
def BURST_MARK : UInt8 := 0x27
def BURST_REPORT : UInt8 := 0x39

def Message.is_batch : Message → Bool
  | .Batch _ => true
  | _ => false

def Message.kind_is_batch (kind : UInt8) : Bool := kind == BATCH

/-! ## Encoding -/

def write_u16 (value : UInt16) : List UInt8 := beBytes 2 value.toNat
def write_u32 (value : UInt32) : List UInt8 := beBytes 4 value.toNat
def write_u64 (value : UInt64) : List UInt8 := beBytes 8 value.toNat
def write_bool (value : Bool) : UInt8 := if value then 1 else 0

def write_rect (r : WireRect) : List UInt8 :=
  write_u32 r.x ++ (write_u32 r.y ++ (write_u32 r.width ++ write_u32 r.height))

def write_resume (r : ResumeRequest) : List UInt8 :=
  write_u32 r.surface ++ (write_u32 r.generation ++ write_u64 r.sequence)

def string_bytes (value : String) : List UInt8 :=
  beBytes 2 value.utf8ByteSize ++ value.toByteArray.data.toList

def write_string (value : String) (limit : Nat) : Except ProtocolError (List UInt8) :=
  if value.utf8ByteSize > limit then .error .Malformed else .ok (string_bytes value)

def write_optional_resume : Option ResumeRequest → List UInt8
  | none => [0]
  | some resume => 1 :: write_resume resume

def write_optional_rect : Option WireRect → List UInt8
  | none => [0]
  | some rect => 1 :: write_rect rect

def Profile.byte : Profile → UInt8
  | .Interactive => 0
  | .Thumbnail => 1

def ResumeOutcome.byte : ResumeOutcome → UInt8
  | .NotRequested => 0
  | .Partial => 1
  | .Full => 2

def ControlHolder.byte : ControlHolder → UInt8
  | .Nobody => 0
  | .You => 1
  | .AnotherDevice => 2

def PointerButton.byte : PointerButton → UInt8
  | .Primary => 0
  | .Secondary => 1
  | .Middle => 2

def MotionCodec.byte : MotionCodec → UInt8
  | .Hevc => 0

/-- A version 1 peer has no room for a feature set. -/
def write_features (version : UInt16) (bits : UInt32) : List UInt8 :=
  if version ≥ FEATURES_PROTOCOL_VERSION then write_u32 bits else []

def Hello.head (h : Hello) : List UInt8 :=
  write_u16 h.version ++ (h.ticket_proof.val ++ (write_u64 h.cache_bytes ++
    write_optional_resume h.resume))

def write_surface (s : SurfaceInfo) : Except ProtocolError (List UInt8) := do
  let name ← write_string s.name MAX_NAME_BYTES
  return write_u32 s.id ++ (beBytes 4 s.size.width ++ (beBytes 4 s.size.height ++
    (write_u16 s.scale_milli ++ name)))

def write_pane (p : PanePlacement) : Except ProtocolError (List UInt8) :=
  if p.cell_width = 0 ∨ p.cell_height = 0 then .error .Malformed
  else .ok (p.session.val ++ (write_rect p.rect ++ (write_u16 p.cell_width ++
    write_u16 p.cell_height)))

def write_sized (payload : List UInt8) : List UInt8 := beBytes 4 payload.length ++ payload

/-- Kind byte and body, without the frame length. -/
def Message.encode : Message → Except ProtocolError (List UInt8)
  | .Hello hello =>
    .ok (HELLO :: (hello.head ++ write_features hello.version hello.features.bits))
  | .Welcome welcome => do
    if welcome.surfaces.length > MAX_SURFACES then throw .Malformed
    let surfaces ← welcome.surfaces.mapM write_surface
    return WELCOME :: (write_u16 welcome.version ++ (UInt8.ofNat welcome.surfaces.length ::
      (surfaces.flatten ++ (welcome.resume.byte ::
        write_features welcome.version welcome.features.bits))))
  | .Goodbye reason => do
    let reason ← write_string reason MAX_REASON_BYTES
    return GOODBYE :: reason
  | .Subscribe surface profile => .ok (SUBSCRIBE :: (write_u32 surface ++ [profile.byte]))
  | .Unsubscribe surface => .ok (UNSUBSCRIBE :: write_u32 surface)
  | .Viewport viewport =>
    .ok (VIEWPORT :: (write_u32 viewport.surface ++ (write_rect viewport.rect ++
      write_u16 viewport.scale_milli)))
  | .Acknowledge ack => .ok (ACKNOWLEDGE :: write_resume ack)
  | .CacheMiss surface tile hash =>
    .ok (CACHE_MISS :: (write_u32 surface ++ (write_u32 tile ++ write_u64 hash)))
  | .AttachedPanes sessions =>
    if sessions.length > MAX_PANES then .error .Malformed
    else .ok (ATTACHED_PANES :: UInt8.ofNat sessions.length :: sessions.flatMap Subtype.val)
  | .Batch batch =>
    match batch.val.encode with
    | .error _ => .error .InvalidBatch
    | .ok bytes => .ok (BATCH :: bytes)
  | .MotionRegion surface rect =>
    .ok (MOTION_REGION :: (write_u32 surface ++ write_optional_rect rect))
  | .Control holder => .ok [CONTROL, holder.byte]
  | .PanePlacements surface panes => do
    if panes.length > MAX_PANES then throw .Malformed
    let written ← panes.mapM write_pane
    return PANE_PLACEMENTS :: (write_u32 surface ++ (UInt8.ofNat panes.length :: written.flatten))
  | .RequestControl => .ok [REQUEST_CONTROL]
  | .ReleaseControl => .ok [RELEASE_CONTROL]
  | .PointerMove surface x y =>
    .ok (POINTER_MOVE :: (write_u32 surface ++ (write_u32 x ++ write_u32 y)))
  | .PointerButton surface x y button pressed =>
    .ok (POINTER_BUTTON :: (write_u32 surface ++ (write_u32 x ++ (write_u32 y ++
      [button.byte, write_bool pressed]))))
  | .Scroll surface x y dx dy =>
    .ok (SCROLL :: (write_u32 surface ++ (write_u32 x ++ (write_u32 y ++
      (write_u32 dx.toUInt32 ++ write_u32 dy.toUInt32)))))
  | .Key key =>
    .ok (KEY :: (write_u16 key.usage ++ [key.modifiers.bits, write_bool key.pressed]))
  | .Text surface text => do
    if text.utf8ByteSize = 0 then throw .Malformed
    let text ← write_string text MAX_TEXT_BYTES
    return TEXT :: (write_u32 surface ++ text)
  | .VideoConfig config =>
    if config.payload.isEmpty ∨ config.payload.length > MAX_VIDEO_FRAME_BYTES then
      .error .Malformed
    else .ok (VIDEO_CONFIG :: (write_u32 config.surface ++ (config.codec.byte ::
      (write_rect config.rect ++ write_sized config.payload))))
  | .VideoFrame frame => frame.encode
  | .Parity parity =>
    if parity.payload.isEmpty ∨ parity.payload.length > MAX_PARITY_BYTES ∨
        parity.data_shards = 0 then .error .Malformed
    else .ok (PARITY :: (write_u32 parity.surface ++ (write_u64 parity.group ++
      (parity.index :: parity.data_shards :: write_sized parity.payload))))
  | .VideoAcknowledge surface tokens =>
    if tokens.length > MAX_VIDEO_TOKENS then .error .Malformed
    else .ok (VIDEO_ACKNOWLEDGE :: (write_u32 surface ++ (UInt8.ofNat tokens.length ::
      tokens.flatMap write_u32)))
  | .VideoLost surface sequence =>
    .ok (VIDEO_LOST :: (write_u32 surface ++ write_u64 sequence))
  | .BurstMark burst bytes => .ok (BURST_MARK :: (write_u64 burst ++ write_u64 bytes))
  | .BurstReport burst bytes spread_micros =>
    .ok (BURST_REPORT :: (write_u64 burst ++ (write_u64 bytes ++ write_u64 spread_micros)))

/-! ## Decoding -/

def read_u16 : MessageReader UInt16 := do
  let value ← beInt .Malformed 2
  return UInt16.ofNat value

def read_u32 : MessageReader UInt32 := do
  let value ← reader_u32
  return UInt32.ofNat value

def read_u64 : MessageReader UInt64 := do
  let value ← reader_u64
  return UInt64.ofNat value

def read_fixed (n : Nat) : MessageReader (FixedBytes n) := do
  let bytes ← reader_take n
  if h : bytes.length = n then return ⟨bytes, h⟩ else throw .Malformed

def read_choice {α : Type} (choices : List (UInt8 × α)) : MessageReader α := do
  let byte ← reader_u8
  match choices.lookup byte with
  | some choice => return choice
  | none => throw .Malformed

def read_bool : MessageReader Bool := read_choice [(0, false), (1, true)]

def read_coordinate : MessageReader UInt32 := do
  let value ← read_u32
  guardThat .Malformed (decide (value.toNat < MAX_SURFACE_DIMENSION))
  return value

def read_size : MessageReader Size := do
  let width ← reader_u32
  let height ← reader_u32
  match Size.new width height with
  | .ok size => return size
  | .error _ => throw .Malformed

/-- The rectangle a decoded one has to lie in. -/
def surface_limit : Rect := ⟨0, 0, MAX_SURFACE_DIMENSION, MAX_SURFACE_DIMENSION⟩

def read_rect : MessageReader WireRect := do
  let x ← read_u32
  let y ← read_u32
  let width ← read_u32
  let height ← read_u32
  let rect : WireRect := ⟨x, y, width, height⟩
  guardThat .Malformed (!(rect.rect.is_empty || !surface_limit.contains_rect rect.rect))
  return rect

def read_count (limit : Nat) : MessageReader Nat := do
  let count ← reader_u8
  guardThat .Malformed (decide (count.toNat ≤ limit))
  return count.toNat

def read_resume : MessageReader ResumeRequest := do
  let surface ← read_u32
  let generation ← read_u32
  let sequence ← read_u64
  return ⟨surface, generation, sequence⟩

/-- `char::is_control`. -/
def is_control (c : Char) : Bool :=
  decide (c.toNat < 0x20) || (decide (0x7F ≤ c.toNat) && decide (c.toNat ≤ 0x9F))

/-- No control character but a line break or a tab. -/
def plain_text (text : String) : Bool :=
  !text.toList.any fun c => is_control c && c != '\n' && c != '\t'

def read_string (limit : Nat) (allow_empty : Bool) : MessageReader String := do
  let length ← beInt .Malformed 2
  guardThat .Malformed (!(decide (length > limit) || (length == 0 && !allow_empty)))
  let bytes ← reader_take length
  match String.fromUTF8? ⟨bytes.toArray⟩ with
  | none => throw .Malformed
  | some text => do
    guardThat .Malformed (plain_text text)
    return text

def read_optional_resume : MessageReader (Option ResumeRequest) := do
  let flag ← read_bool
  if flag then do
    let resume ← read_resume
    return some resume
  else return none

def read_optional_rect : MessageReader (Option WireRect) := do
  let flag ← read_bool
  if flag then do
    let rect ← read_rect
    return some rect
  else return none

def supported (version : UInt16) : Bool :=
  decide (MINIMUM_PROTOCOL_VERSION ≤ version) && decide (version ≤ PROTOCOL_VERSION)

/-- A version 1 peer says nothing about features. -/
def read_features (version : UInt16) : MessageReader FeatureSet :=
  if version ≥ FEATURES_PROTOCOL_VERSION then do
    let bits ← read_u32
    return FeatureSet.from_bits bits
  else return FeatureSet.none

def read_hello : MessageReader Hello := do
  let version ← read_u16
  guardThat .UnsupportedVersion (supported version)
  let ticket_proof ← read_fixed 32
  let cache_bytes ← read_u64
  let resume ← read_optional_resume
  let features ← read_features version
  return ⟨version, ticket_proof, cache_bytes, resume, features⟩

def read_surface : MessageReader SurfaceInfo := do
  let id ← read_u32
  let size ← read_size
  let scale_milli ← read_u16
  let name ← read_string MAX_NAME_BYTES true
  return ⟨id, size, scale_milli, name⟩

def read_welcome : MessageReader Welcome := do
  let version ← read_u16
  guardThat .UnsupportedVersion (supported version)
  let count ← read_count MAX_SURFACES
  let surfaces ← readMany read_surface count
  let resume ← read_choice [(0, ResumeOutcome.NotRequested), (1, .Partial), (2, .Full)]
  let features ← read_features version
  return ⟨version, surfaces, resume, features⟩

def read_viewport : MessageReader Viewport := do
  let surface ← read_u32
  let rect ← read_rect
  let scale_milli ← read_u16
  guardThat .Malformed (scale_milli != 0)
  return ⟨surface, rect, scale_milli⟩

def read_batch : MessageReader SessionBatch := do
  let left ← get
  let rest ← reader_take left.length
  match h : Batch.decode rest with
  | .error _ => throw .InvalidBatch
  | .ok batch => return ⟨batch, ((decode_ok_iff rest batch).mp h).1.sequence_lt⟩

def read_pane : MessageReader PanePlacement := do
  let session ← read_fixed 16
  let rect ← read_rect
  let cell_width ← read_u16
  let cell_height ← read_u16
  guardThat .Malformed (!(cell_width == 0 || cell_height == 0))
  return ⟨session, rect, cell_width, cell_height⟩

def read_key : MessageReader KeyEvent := do
  let usage ← read_u16
  let bits ← reader_u8
  match Modifiers.new bits with
  | none => throw .Malformed
  | some modifiers => do
    let pressed ← read_bool
    return ⟨usage, modifiers, pressed⟩

def read_video_config : MessageReader VideoConfig := do
  let surface ← read_u32
  let codec ← read_choice [(0, MotionCodec.Hevc)]
  let rect ← read_rect
  let payload ← sized_bytes MAX_VIDEO_FRAME_BYTES
  return ⟨surface, codec, rect, payload⟩

def read_parity : MessageReader Parity := do
  let surface ← read_u32
  let group ← read_u64
  let index ← reader_u8
  let data_shards ← reader_u8
  guardThat .Malformed (data_shards != 0)
  let payload ← sized_bytes MAX_PARITY_BYTES
  return ⟨surface, group, index, data_shards, payload⟩

def read_message_body (kind : UInt8) : MessageReader Message :=
  if kind = HELLO then do
    let hello ← read_hello
    return .Hello hello
  else if kind = WELCOME then do
    let welcome ← read_welcome
    return .Welcome welcome
  else if kind = GOODBYE then do
    let reason ← read_string MAX_REASON_BYTES false
    return .Goodbye reason
  else if kind = SUBSCRIBE then do
    let surface ← read_u32
    let profile ← read_choice [(0, Profile.Interactive), (1, .Thumbnail)]
    return .Subscribe surface profile
  else if kind = UNSUBSCRIBE then do
    let surface ← read_u32
    return .Unsubscribe surface
  else if kind = VIEWPORT then do
    let viewport ← read_viewport
    return .Viewport viewport
  else if kind = ACKNOWLEDGE then do
    let ack ← read_resume
    return .Acknowledge ack
  else if kind = CACHE_MISS then do
    let surface ← read_u32
    let tile ← read_u32
    let hash ← read_u64
    return .CacheMiss surface tile hash
  else if kind = ATTACHED_PANES then do
    let count ← read_count MAX_PANES
    let sessions ← readMany (read_fixed 16) count
    return .AttachedPanes sessions
  else if kind = BATCH then do
    let batch ← read_batch
    return .Batch batch
  else if kind = MOTION_REGION then do
    let surface ← read_u32
    let rect ← read_optional_rect
    return .MotionRegion surface rect
  else if kind = CONTROL then do
    let holder ← read_choice [(0, ControlHolder.Nobody), (1, .You), (2, .AnotherDevice)]
    return .Control holder
  else if kind = PANE_PLACEMENTS then do
    let surface ← read_u32
    let count ← read_count MAX_PANES
    let panes ← readMany read_pane count
    return .PanePlacements surface panes
  else if kind = REQUEST_CONTROL then return .RequestControl
  else if kind = RELEASE_CONTROL then return .ReleaseControl
  else if kind = POINTER_MOVE then do
    let surface ← read_u32
    let x ← read_coordinate
    let y ← read_coordinate
    return .PointerMove surface x y
  else if kind = POINTER_BUTTON then do
    let surface ← read_u32
    let x ← read_coordinate
    let y ← read_coordinate
    let button ← read_choice [(0, PointerButton.Primary), (1, .Secondary), (2, .Middle)]
    let pressed ← read_bool
    return .PointerButton surface x y button pressed
  else if kind = SCROLL then do
    let surface ← read_u32
    let x ← read_coordinate
    let y ← read_coordinate
    let dx ← read_u32
    let dy ← read_u32
    return .Scroll surface x y dx.toInt32 dy.toInt32
  else if kind = KEY then do
    let key ← read_key
    return .Key key
  else if kind = TEXT then do
    let surface ← read_u32
    let text ← read_string MAX_TEXT_BYTES false
    return .Text surface text
  else if kind = VIDEO_CONFIG then do
    let config ← read_video_config
    return .VideoConfig config
  else if kind = VIDEO_FRAME then do
    let frame ← read_video_frame
    return .VideoFrame frame
  else if kind = PARITY then do
    let parity ← read_parity
    return .Parity parity
  else if kind = VIDEO_ACKNOWLEDGE then do
    let surface ← read_u32
    let count ← read_count MAX_VIDEO_TOKENS
    let tokens ← readMany read_u32 count
    return .VideoAcknowledge surface tokens
  else if kind = VIDEO_LOST then do
    let surface ← read_u32
    let sequence ← read_u64
    return .VideoLost surface sequence
  else if kind = BURST_MARK then do
    let burst ← read_u64
    let bytes ← read_u64
    return .BurstMark burst bytes
  else if kind = BURST_REPORT then do
    let burst ← read_u64
    let bytes ← read_u64
    let spread_micros ← read_u64
    return .BurstReport burst bytes spread_micros
  else throw .Malformed

def read_message : MessageReader Message := do
  let kind ← reader_u8
  read_message_body kind

/-- Parses a kind byte and body. Trailing bytes are rejected. -/
def Message.decode (bytes : List UInt8) : Except ProtocolError Message := do
  let (message, rest) ← read_message.run bytes
  if rest.length ≠ 0 then throw .Malformed
  return message

end multiplex_screen_protocol
