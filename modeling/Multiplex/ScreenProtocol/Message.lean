-- The messages of the motion path, as `message.rs` has them: a video frame,
-- and a shard of parity for a group of frames. An encoded frame decodes to
-- itself, so a rebuilt message is the message that was sent.
import Multiplex.ScreenProtocol.Fec

open Bytes

namespace multiplex_screen_protocol

def MAX_VIDEO_FRAME_BYTES : Nat := 4 * 1024 * 1024
def MAX_PARITY_BYTES : Nat := MAX_VIDEO_FRAME_BYTES

def VIDEO_FRAME : UInt8 := 0x25

structure VideoFrame where
  surface : UInt32
  sequence : UInt64
  keyframe : Bool
  token : Option UInt32
  payload : List UInt8
  deriving DecidableEq

structure Parity where
  surface : UInt32
  group : UInt64
  index : UInt8
  data_shards : UInt8
  payload : Shard
  deriving DecidableEq

/-! ## Encoding -/

def write_token : Option UInt32 → List UInt8
  | none => [0]
  | some token => 1 :: beBytes 4 token.toNat

def VideoFrame.body (f : VideoFrame) : List UInt8 :=
  beBytes 4 f.surface.toNat ++ (beBytes 8 f.sequence.toNat ++ ([if f.keyframe then 1 else 0] ++
    (write_token f.token ++ (beBytes 4 f.payload.length ++ f.payload))))

/-- `Message::VideoFrame(frame).encode()`. -/
def VideoFrame.encode (f : VideoFrame) : Except ProtocolError (List UInt8) :=
  if f.payload.isEmpty ∨ f.payload.length > MAX_VIDEO_FRAME_BYTES then .error .Malformed
  else .ok (VIDEO_FRAME :: f.body)

/-! ## Decoding -/

abbrev MessageReader := Reader ProtocolError

def reader_take (count : Nat) : MessageReader (List UInt8) := takeBytes .Malformed count
def reader_u8 : MessageReader UInt8 := oneByte .Malformed
def reader_u32 : MessageReader Nat := beInt .Malformed 4
def reader_u64 : MessageReader Nat := beInt .Malformed 8

def reader_flag : MessageReader Bool := do
  let flag ← reader_u8
  if flag = 0 then return false
  else if flag = 1 then return true
  else throw .Malformed

def reader_token : MessageReader (Option UInt32) := do
  let flag ← reader_u8
  if flag = 0 then return none
  else if flag = 1 then do
    let token ← reader_u32
    return some (UInt32.ofNat token)
  else throw .Malformed

/-- A 32-bit length and that many bytes. -/
def sized_bytes (limit : Nat) : MessageReader (List UInt8) := do
  let length ← reader_u32
  guardThat .Malformed (length != 0 && decide (length ≤ limit))
  reader_take length

def read_video_frame : MessageReader VideoFrame := do
  let surface ← reader_u32
  let sequence ← reader_u64
  let keyframe ← reader_flag
  let token ← reader_token
  let payload ← sized_bytes MAX_VIDEO_FRAME_BYTES
  return ⟨UInt32.ofNat surface, UInt64.ofNat sequence, keyframe, token, payload⟩

/-- `Message::decode`, as far as it gives a video frame: the kind byte says so, the body is read and
nothing is left over. -/
def VideoFrame.decode (bytes : List UInt8) : Option VideoFrame :=
  match bytes with
  | [] => none
  | kind :: body =>
    if kind ≠ VIDEO_FRAME then none
    else
      match read_video_frame.run body with
      | .ok (frame, []) => some frame
      | _ => none

/-! ## A frame comes back -/

theorem accepts_flag (b : Bool) : Accepts reader_flag [if b then 1 else 0] b := by
  cases b <;> exact fun _ => rfl

theorem accepts_token (token : Option UInt32) : Accepts reader_token (write_token token) token := by
  cases token with
  | none => exact fun _ => rfl
  | some token =>
    have hkind : Accepts reader_u8 [1] 1 := (canonical_oneByte _).accepts 1 trivial
    have htoken := ((canonical_beInt ProtocolError.Malformed 4).accepts _ token.toNat_lt).map
      fun n => some (UInt32.ofNat n)
    rw [UInt32.ofNat_toNat] at htoken
    exact Accepts.bind hkind htoken

theorem accepts_sized_bytes {limit : Nat} {payload : List UInt8} (hpos : 0 < payload.length)
    (hle : payload.length ≤ limit) (hlt : payload.length < 256 ^ 4) :
    Accepts (sized_bytes limit) (beBytes 4 payload.length ++ payload) payload := by
  apply Accepts.bind ((canonical_beInt _ 4).accepts _ hlt)
  apply Accepts.guard
  · simp only [Bool.and_eq_true, bne_iff_ne, decide_eq_true_eq]
    omega
  · exact (canonical_takeBytes _ _).accepts payload rfl

variable {bytes : List UInt8}

theorem encode_ok {f : VideoFrame} (h : f.encode = .ok bytes) :
    0 < f.payload.length ∧ f.payload.length ≤ MAX_VIDEO_FRAME_BYTES ∧
      bytes = VIDEO_FRAME :: f.body := by
  unfold VideoFrame.encode at h
  split at h
  · cases h
  · rename_i hok
    simp at hok
    cases h
    exact ⟨List.length_pos_of_ne_nil hok.1, hok.2, rfl⟩

theorem accepts_video_frame (f : VideoFrame) (hpos : 0 < f.payload.length)
    (hle : f.payload.length ≤ MAX_VIDEO_FRAME_BYTES) : Accepts read_video_frame f.body f := by
  have hmax : MAX_VIDEO_FRAME_BYTES = 4194304 := by decide
  apply Accepts.bind ((canonical_beInt _ 4).accepts _ f.surface.toNat_lt)
  apply Accepts.bind ((canonical_beInt _ 8).accepts _ f.sequence.toNat_lt)
  apply Accepts.bind (accepts_flag f.keyframe)
  apply Accepts.bind (accepts_token f.token)
  have hpayload := (accepts_sized_bytes hpos hle (by omega)).map fun payload =>
    (⟨UInt32.ofNat f.surface.toNat, UInt64.ofNat f.sequence.toNat, f.keyframe, f.token, payload⟩ :
      VideoFrame)
  simpa using hpayload

theorem decode_encode {f : VideoFrame} (h : f.encode = .ok bytes) :
    VideoFrame.decode bytes = some f := by
  obtain ⟨hpos, hle, rfl⟩ := encode_ok h
  have hread := accepts_video_frame f hpos hle []
  rw [List.append_nil] at hread
  unfold VideoFrame.decode
  simp [hread]

theorem encode_ne_nil {f : VideoFrame} (h : f.encode = .ok bytes) : bytes ≠ [] := by
  obtain ⟨-, -, rfl⟩ := encode_ok h
  exact List.cons_ne_nil _ _

end multiplex_screen_protocol
