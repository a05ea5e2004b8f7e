-- The viewer's side of the motion path, as `motion.rs` has it: the decoders of
-- the regions, the references they hold, and what the session tells the host
-- of them.
import Multiplex.ScreenSession.Host

open multiplex_screen_codec multiplex_screen_protocol

namespace multiplex_screen_session

structure Picture where
  width : Nat
  height : Nat
  bgra : List UInt8

/-- `HevcDecoder`, for decoders whose state is of type `δ`. Opening gives none where it is refused,
and decoding none where there is no picture. -/
structure HevcDecoder (δ : Type) where
  opens : List UInt8 → Option δ
  decode : δ → List UInt8 → Option Picture × δ

structure Decoded where
  picture : Option (WireRect × Picture)
  holding : Option (List UInt32)
  undecoded : Bool

def Decoded.default : Decoded := ⟨none, none, false⟩

/-- The references that the decoder holds stand with the newest last. -/
structure Region (δ : Type) where
  rect : WireRect
  decoder : Option δ
  held : List UInt32

/-- Decoders for the motion regions that the viewer watches. -/
structure MotionView (δ : Type) where
  regions : UInt32 → Option (Region δ)

section
variable {δ : Type}

namespace MotionView

def new : MotionView δ := ⟨fun _ => none⟩

/-- A new configuration is a new encoder, so it replaces the decoder that is there. -/
def configure (H : HevcDecoder δ) (v : MotionView δ) (config : VideoConfig) : MotionView δ :=
  ⟨Function.update v.regions config.surface (some ⟨config.rect, H.opens config.payload, []⟩)⟩

/-- A token that is new is held, and the oldest go when there are too many. -/
def hold (held : List UInt32) (token : UInt32) : List UInt32 :=
  (held ++ [token]).drop ((held ++ [token]).length - MAX_VIDEO_TOKENS)

/-- Decodes a frame into the region it belongs to. Only a frame that decoded may be acknowledged. -/
def decode (H : HevcDecoder δ) (v : MotionView δ) (frame : VideoFrame) : Decoded × MotionView δ :=
  match v.regions frame.surface with
  | none => ({ Decoded.default with undecoded := true }, v)
  | some region =>
    match region.decoder with
    | none => ({ Decoded.default with undecoded := true }, v)
    | some decoder =>
      let (picture, decoder) := H.decode decoder frame.payload
      let region := { region with decoder := some decoder }
      match picture with
      | none => (Decoded.default, ⟨Function.update v.regions frame.surface (some region)⟩)
      | some picture =>
        let holding := frame.token.bind fun token =>
          if region.held.contains token then none else some (hold region.held token)
        ({ picture := some (region.rect, picture), holding, undecoded := false },
          ⟨Function.update v.regions frame.surface
            (some { region with held := holding.getD region.held })⟩)

def clear (v : MotionView δ) (surface : UInt32) : MotionView δ :=
  ⟨Function.update v.regions surface none⟩

def clear_all (_ : MotionView δ) : MotionView δ := new

end MotionView

/-! ## The session of a viewer -/

/-- The viewer's session, as far as the motion path goes through it. -/
structure ViewerSession (δ : Type) where
  agreed : FeatureSet
  motion : MotionView δ

namespace ViewerSession

/-- Decodes a frame, and gives what the host is told that the decoder holds. -/
def draw (H : HevcDecoder δ) (v : ViewerSession δ) (frame : VideoFrame) :
    ViewerSession δ × Option (List UInt32) :=
  let r := v.motion.decode H frame
  ({ v with motion := r.2 },
    if v.agreed.has FeatureSet.LONG_TERM_REFERENCES then r.1.holding else none)

/-- A message of the host, and the acknowledgement that answers it. -/
def receive (H : HevcDecoder δ) (v : ViewerSession δ) :
    HostMessage → ViewerSession δ × Option (List UInt32)
  | .Goodbye _ => ({ v with motion := v.motion.clear_all }, none)
  | .MotionRegion surface none => ({ v with motion := v.motion.clear surface }, none)
  | .VideoConfig config =>
    if v.agreed.has FeatureSet.MOTION_VIDEO then
      ({ v with motion := v.motion.configure H config }, none)
    else (v, none)
  | .VideoFrame frame =>
    if v.agreed.has FeatureSet.MOTION_VIDEO then v.draw H frame else (v, none)
  | _ => (v, none)

end ViewerSession

end

end multiplex_screen_session
