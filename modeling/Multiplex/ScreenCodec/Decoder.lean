-- The viewer's side of one surface, as `decoder.rs` has it. A batch is applied
-- one operation at a time; what was drawn before an error stays drawn.
import Multiplex.ScreenCodec.Cache
import Multiplex.ScreenCodec.Wire

namespace multiplex_screen_codec

structure Applied where
  sequence : Nat
  misses : List CacheMiss
  damaged : List Rect
  reset : Bool
  deriving DecidableEq

structure Decoder where
  surface : Option (SurfaceId × Generation)
  framebuffer : Option FrameBuffer
  cache : ViewerCache
  last_sequence : Nat

def Decoder.new (cache_bytes : Nat) : Decoder := ⟨none, none, ViewerCache.new cache_bytes, 0⟩

/-- What the operations of a batch change: the picture, the cache, and the report. -/
structure DrawState where
  framebuffer : FrameBuffer
  cache : ViewerCache
  misses : List CacheMiss
  damaged : List Rect

/-- The result of drawing `rect`: the area joins the damage unless the drawing failed. -/
def DrawState.drawn (d : DrawState) (rect : Rect) :
    Except CodecError FrameBuffer → DrawState × Option CodecError
  | .ok framebuffer => ({ d with framebuffer, damaged := d.damaged ++ [rect] }, none)
  | .error e => (d, some e)

def apply_cached (d : DrawState) (tile : Nat) (rect : Rect) (hash : TileHash) :
    DrawState × Option CodecError :=
  let (found, cache) := d.cache.get hash
  let d := { d with cache }
  match found with
  | some cached =>
    if cached.width = rect.width ∧ cached.height = rect.height then
      d.drawn rect (d.framebuffer.write_rect rect cached.pixels)
    else ({ d with misses := d.misses ++ [⟨tile, hash⟩] }, none)
  | none => ({ d with misses := d.misses ++ [⟨tile, hash⟩] }, none)

/-- Exact pixels are drawn and cached only when they match their hash. -/
def apply_lossless (D : Deps) (d : DrawState) (rect : Rect) (hash : TileHash)
    (payload : List UInt8) : DrawState × Option CodecError :=
  match decode_lossless D payload rect.width rect.height with
  | .error e => (d, some e)
  | .ok bgra =>
    match Size.new rect.width rect.height with
    | .error e => (d, some e)
    | .ok size =>
      if hash_rect D (Frame.ofPacked size bgra) size.bounds ≠ hash then (d, some .CorruptPayload)
      else
        match d.framebuffer.write_rect rect bgra with
        | .error e => (d, some e)
        | .ok framebuffer =>
          ({ d with
              framebuffer
              cache := d.cache.insert hash ⟨rect.width, rect.height, bgra⟩
              damaged := d.damaged ++ [rect] }, none)

def apply_op (D : Deps) (grid : TileGrid) (d : DrawState) (op : TileOp) :
    DrawState × Option CodecError :=
  match op with
  | .Solid tile color =>
    match grid.tile_rect tile with
    | none => (d, some .TileOutOfRange)
    | some rect => d.drawn rect (d.framebuffer.fill_rect rect color.pixel)
  | .Cached tile hash =>
    match grid.tile_rect tile with
    | none => (d, some .TileOutOfRange)
    | some rect => apply_cached d tile rect hash
  | .Lossless tile hash payload =>
    match grid.tile_rect tile with
    | none => (d, some .TileOutOfRange)
    | some rect => apply_lossless D d rect hash payload
  | .Lossy tile payload =>
    match grid.tile_rect tile with
    | none => (d, some .TileOutOfRange)
    | some rect =>
      match decode_lossy D payload rect.width rect.height with
      | .error e => (d, some e)
      | .ok bgra => d.drawn rect (d.framebuffer.write_rect rect bgra)
  | .Move rect dy => d.drawn rect (d.framebuffer.apply_move rect dy)

/-- The loop over the operations stops at the first error. -/
def apply_ops (D : Deps) (grid : TileGrid) : DrawState → List TileOp → DrawState × Option CodecError
  | d, [] => (d, none)
  | d, op :: ops =>
    match apply_op D grid d op with
    | (d', none) => apply_ops D grid d' ops
    | (d', some e) => (d', some e)

/-- A batch of an older generation, or one that was applied before. -/
def Decoder.is_stale (d : Decoder) (batch : Batch) : Bool :=
  match d.surface with
  | some (surface, generation) =>
    surface == batch.surface && (decide (batch.generation < generation) ||
      (batch.generation == generation && decide (batch.sequence ≤ d.last_sequence)))
  | none => false

/-- The picture that a batch is drawn on: a new one for a new surface, generation or size. -/
def Decoder.canvas (d : Decoder) (batch : Batch) : FrameBuffer × Bool :=
  match d.framebuffer with
  | some framebuffer =>
    if d.surface ≠ some (batch.surface, batch.generation) ∨ framebuffer.size ≠ batch.size then
      (FrameBuffer.new batch.size, true)
    else (framebuffer, false)
  | none => (FrameBuffer.new batch.size, true)

def Decoder.apply (D : Deps) (d : Decoder) (batch : Batch) : Decoder × Except CodecError Applied :=
  if d.is_stale batch then (d, .error .StaleBatch)
  else
    let (framebuffer, reset) := d.canvas batch
    let r := apply_ops D (TileGrid.new batch.size) ⟨framebuffer, d.cache, [], []⟩ batch.ops
    let drawn : Decoder :=
      ⟨some (batch.surface, batch.generation), some r.1.framebuffer, r.1.cache, d.last_sequence⟩
    match r.2 with
    | some e => (drawn, .error e)
    | none =>
      ({ drawn with last_sequence := batch.sequence },
        .ok ⟨batch.sequence, r.1.misses, r.1.damaged, reset⟩)

end multiplex_screen_codec
