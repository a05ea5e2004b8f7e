-- The host's side of one surface for one viewer, as `encoder.rs` has it. The
-- encoder keeps what it believes the viewer shows in each tile, and enough
-- history to take a reconnecting viewer back to a batch it applied.
import Multiplex.ScreenCodec.Cache
import Multiplex.ScreenCodec.Movement
import Multiplex.ScreenCodec.Wire

namespace multiplex_screen_codec

def MAX_RESUME_HISTORY : Nat := 4096

def REFINE_IDLE_MS : Nat := 250

def REGION_COST_WINDOW_MS : Nat := 1000

inductive Resume
  | Partial
  | Full
  deriving DecidableEq

structure EncoderConfig where
  cache_bytes : Nat
  lossy_detail : LossyDetail
  detect_scrolls : Bool
  motion : MotionConfig

/-- `EncoderConfig::default()`, with a cache of its own size. -/
def EncoderConfig.with_cache (cache_bytes : Nat) : EncoderConfig :=
  ⟨cache_bytes, .STANDARD, true, .default⟩

/-- Room for two tiles of two pixels. -/
def pairConfig : EncoderConfig := ⟨16, .STANDARD, true, .default⟩

/-- What the viewer is believed to show in one tile. -/
inductive ViewerTile
  | Unknown
  | Exact (hash : TileHash)
  | Approximate (hash : TileHash)
  deriving DecidableEq

structure Encoder where
  surface : SurfaceId
  generation : Generation
  grid : TileGrid
  config : EncoderConfig
  source : FrameBuffer
  hashes : Option TileHashes
  viewer : Nat → ViewerTile
  shadow : CacheShadow
  next_sequence : Nat
  region_bytes : Nat
  region_since_ms : Option Nat
  region_now_ms : Nat
  /-- The batch that last changed each tile. -/
  sent_at : Nat → Nat
  moves : List (Nat × Rect)
  inserted : List (Nat × TileHash)
  acked : Nat
  oldest_resumable : Nat
  motion : MotionTracker
  motion_event : Option MotionEvent
  motion_last_sent_ms : Option Nat
  motion_carried : Bool
  changed_at_ms : Nat → Nat

def Encoder.new (surface : SurfaceId) (generation : Generation) (size : Size)
    (config : EncoderConfig) : Encoder :=
  let grid := TileGrid.new size
  { surface, generation, grid, config
    source := FrameBuffer.new size
    hashes := none
    viewer := fun _ => .Unknown
    shadow := CacheShadow.new config.cache_bytes
    next_sequence := 1
    region_bytes := 0
    region_since_ms := none
    region_now_ms := 0
    sent_at := fun _ => 0
    moves := []
    inserted := []
    acked := 0
    oldest_resumable := 1
    motion := MotionTracker.new grid config.motion
    motion_event := none
    motion_last_sent_ms := none
    motion_carried := false
    changed_at_ms := fun _ => 0 }

/-- Appends to a bounded history. An entry that is dropped must have been acknowledged by a
resume. -/
def remember {α : Type} (history : List (Nat × α)) (oldest_resumable : Nat) (entry : Nat × α) :
    List (Nat × α) × Nat :=
  if (history ++ [entry]).length > MAX_RESUME_HISTORY then
    match history ++ [entry] with
    | [] => ([], oldest_resumable)
    | (dropped, _) :: rest => (rest, max oldest_resumable dropped)
  else (history ++ [entry], oldest_resumable)

def pixel_bytes (rect : Rect) : Nat := rect.width * rect.height * BYTES_PER_PIXEL

def op_payload_bytes (op : TileOp) : Nat :=
  17 + match op with
    | .Lossless _ _ payload | .Lossy _ payload => payload.length
    | .Solid .. | .Cached .. | .Move .. => 0

/-- The largest `u64`, where the measured bytes stop. -/
def U64_MAX : Nat := 18446744073709551615

def Encoder.size (e : Encoder) : Size := e.grid.size

def Encoder.motion_region (e : Encoder) : Option Rect := e.motion.region_rect

def Encoder.set_lossy_detail (e : Encoder) (detail : LossyDetail) : Encoder :=
  { e with config := { e.config with lossy_detail := detail } }

def Encoder.set_motion_carried (e : Encoder) (carried : Bool) : Encoder :=
  { e with motion_carried := carried }

/-- What the motion region has been costing the tile path, once it was measured long enough. -/
def Encoder.motion_region_bytes_per_second (e : Encoder) : Option Nat :=
  match e.region_since_ms with
  | none => none
  | some since =>
    let elapsed := e.region_now_ms - since
    if elapsed ≥ REGION_COST_WINDOW_MS then some (e.region_bytes * 1000 % 2 ^ 64 / max elapsed 1)
    else none

/-! ## Sending one tile -/

/-- Exact pixels of a tile go out: the shadow takes the hash and the history remembers it. -/
def Encoder.record_lossless (e : Encoder) (hash : TileHash) (rect : Rect) : Encoder :=
  let r := remember e.inserted e.oldest_resumable (e.next_sequence, hash)
  { e with
    shadow := e.shadow.record_sent hash (pixel_bytes rect)
    inserted := r.1
    oldest_resumable := r.2 }

/-- The operation for a tile of the given class, and what the viewer shows after it. -/
def Encoder.choose_op (D : Deps) (e : Encoder) (frame : Frame) (tile : Nat) (rect : Rect)
    (hash : TileHash) (tile_class : TileClass) : Encoder × TileOp × ViewerTile :=
  match tile_class with
  | .Solid color => (e, .Solid tile color, .Exact hash)
  | _ =>
    let (held, shadow) := e.shadow.use_if_held hash
    let e := { e with shadow }
    if held then (e, .Cached tile hash, .Exact hash)
    else
      match tile_class with
      | .Picture =>
        (e, .Lossy tile (encode_lossy D frame rect e.config.lossy_detail), .Approximate hash)
      | _ => (e.record_lossless hash rect, .Lossless tile hash (encode_lossless D frame rect),
          .Exact hash)

/-- The tile is sent: the belief, the batch number and the source copy follow. -/
def Encoder.record_op (e : Encoder) (frame : Frame) (tile : Nat) (rect : Rect) (op : TileOp)
    (state : ViewerTile) : Except CodecError Encoder := do
  let region_bytes :=
    if e.motion.contains tile then min (e.region_bytes + op_payload_bytes op) U64_MAX
    else e.region_bytes
  let source ← e.source.write_rect rect (frame.copy_rect rect)
  return { e with
    region_bytes
    viewer := Function.update e.viewer tile state
    sent_at := Function.update e.sent_at tile e.next_sequence
    source }

/-- A tile of the motion region is sent as a picture, unless it is solid. -/
def class_in (frame : Frame) (rect : Rect) (in_motion : Bool) : TileClass :=
  match classify frame rect with
  | .Solid color => .Solid color
  | c => if in_motion then .Picture else c

/-- One turn of the loop over the changed tiles. -/
def Encoder.send_tile (D : Deps) (frame : Frame) (hashes : TileHashes) (timed throttled : Bool)
    (s : Encoder × List TileOp) (tile : Nat) : Except CodecError (Encoder × List TileOp) :=
  let e := s.1
  let hash := hashes.hashes tile
  if e.viewer tile = .Exact hash then .ok s
  else
    let in_motion := timed && e.motion.contains tile
    if in_motion && throttled then
      -- sent by a later batch, at the rate of the region
      .ok ({ e with viewer := Function.update e.viewer tile .Unknown }, s.2)
    else
      let rect := e.grid.rectOf tile
      let (e, op, state) := e.choose_op D frame tile rect hash (class_in frame rect in_motion)
      do
        let e ← e.record_op frame tile rect op state
        return (e, s.2 ++ [op])

/-! ## Scrolls -/

/-- The tiles that the pixels of a tile come from when a move touches it: the tile itself too,
unless the move covers all of it. -/
def move_sources (grid : TileGrid) (found : VerticalMove) (tile : Nat) : TileSet :=
  let rect := grid.rectOf tile
  let moved_part := rect.intersect found.rect
  let source_rows : Rect := ⟨moved_part.x, (((moved_part.y : Int) + found.dy) % 2 ^ 32).toNat,
    moved_part.width, moved_part.height⟩
  let sources := grid.tiles_covering source_rows
  if moved_part ≠ rect then sources.insert tile else sources

def ViewerTile.is_exact : ViewerTile → Bool
  | .Exact _ => true
  | _ => false

/-- The belief about one tile that a move touches: exact when all the tiles it was copied from
were. -/
def moved_state (D : Deps) (grid : TileGrid) (source : FrameBuffer) (before : Nat → ViewerTile)
    (found : VerticalMove) (tile : Nat) : ViewerTile :=
  if (move_sources grid found tile).iter.all fun source => (before source).is_exact then
    .Exact (hash_rect D source (grid.rectOf tile))
  else .Unknown

/-- One turn of the loop over the tiles that a move touches. -/
def Encoder.move_tile (D : Deps) (before : Nat → ViewerTile) (found : VerticalMove)
    (s : Encoder × TileSet) (tile : Nat) : Encoder × TileSet :=
  let e := s.1
  ({ e with
      viewer := Function.update e.viewer tile (moved_state D e.grid e.source before found tile)
      sent_at := Function.update e.sent_at tile e.next_sequence }, s.2.insert tile)

def Encoder.try_move (D : Deps) (e : Encoder) (frame : Frame) (changed : TileSet) :
    Option (Encoder × TileSet × TileOp) :=
  let region := union_tiles e.grid changed.iter Rect.default
  match detect_vertical_move D e.source frame region with
  | none => none
  | some found =>
    match e.source.apply_move found.rect found.dy with
    | .error _ => none
    | .ok source =>
      let (moved, changed) := (e.grid.tiles_covering found.rect).iter.foldl
        (Encoder.move_tile D e.viewer found) ({ e with source }, changed)
      let r := remember moved.moves moved.oldest_resumable (moved.next_sequence, found.rect)
      some ({ moved with moves := r.1, oldest_resumable := r.2 }, changed, .Move found.rect found.dy)

/-! ## Motion -/

/-- The tiles that changed and are not explained by a move, with their change times noted. -/
def Encoder.still_different (e : Encoder) (hashes : TileHashes) (content_changed : TileSet) :
    TileSet :=
  content_changed.iter.foldl (fun set tile =>
    if e.viewer tile ≠ .Exact (hashes.hashes tile) then set.insert tile else set)
    (TileSet.new e.grid)

def Encoder.forget_region (e : Encoder) (rect : Rect) (changed : TileSet) : Encoder × TileSet :=
  let tiles := (e.grid.tiles_covering rect).iter
  ({ e with
      viewer := tiles.foldl (fun v tile => Function.update v tile .Unknown) e.viewer
      motion_last_sent_ms := none }, tiles.foldl TileSet.insert changed)

/-- What a change of the region does to its measured cost and to its tiles. -/
def Encoder.on_motion_event (e : Encoder) (changed : TileSet) (now : Nat) :
    Option MotionEvent → Encoder × TileSet
  | some (.Promoted _) => ({ e with region_bytes := 0, region_since_ms := some now }, changed)
  | some (.Demoted rect) =>
    ({ e with region_bytes := 0, region_since_ms := none } : Encoder).forget_region rect changed
  | none => (e, changed)

/-- Records the change times of the tiles and moves the region. -/
def Encoder.observe_motion (e : Encoder) (hashes : TileHashes) (content_changed changed : TileSet)
    (now : Nat) : Encoder × TileSet :=
  let changed_at_ms := content_changed.iter.foldl (fun c tile => Function.update c tile now)
    e.changed_at_ms
  let r := e.motion.observe (e.still_different hashes content_changed) now
  ({ e with changed_at_ms, motion := r.2, motion_event := r.1, region_now_ms := now } :
    Encoder).on_motion_event changed now r.1

/-- The region was sent less than its update interval ago. -/
def Encoder.sent_recently (e : Encoder) (now : Nat) : Bool :=
  let interval := 1000 / max e.config.motion.tile_path_max_hz 1
  match e.motion_last_sent_ms with
  | some last => decide (now - last < interval)
  | none => false

/-- Whether the tiles of the region wait for a later batch. -/
def Encoder.pace_motion (e : Encoder) (now : Nat) : Encoder × Bool :=
  if e.motion.region.isSome then
    if e.motion_carried || e.sent_recently now then (e, true)
    else ({ e with motion_last_sent_ms := some now }, false)
  else (e, false)

/-- Follows the motion region for a frame captured at `now`. -/
def Encoder.follow_motion (e : Encoder) (hashes : TileHashes) (content_changed changed : TileSet) :
    Option Nat → Encoder × TileSet × Bool
  | none => (e, changed, false)
  | some now =>
    let r := e.observe_motion hashes content_changed changed now
    let p := r.1.pace_motion now
    (p.1, r.2, p.2)

/-! ## Encoding a frame -/

def Encoder.compare (D : Deps) (e : Encoder) (frame : Frame) (damage : Option (List Rect)) :
    Except CodecError (TileHashes × TileSet) :=
  match e.hashes with
  | none => .ok (TileHashes.compute D frame, TileSet.full e.grid)
  | some hashes => hashes.update D frame (damage.map e.grid.tiles_for_damage)

/-- Tiles of which nothing is known are sent whether they changed or not. -/
def Encoder.add_unknown (e : Encoder) (changed : TileSet) : TileSet :=
  (List.range e.grid.len).foldl (fun set tile =>
    if e.viewer tile = .Unknown then set.insert tile else set) changed

/-- The move, when the frame is a scroll of the source copy. -/
def Encoder.scroll (D : Deps) (e : Encoder) (frame : Frame) (changed : TileSet) :
    Encoder × TileSet × List TileOp :=
  if e.config.detect_scrolls && decide (changed.len ≥ 4) then
    match e.try_move D frame changed with
    | some (e, changed, op) => (e, changed, [op])
    | none => (e, changed, [])
  else (e, changed, [])

def Encoder.finish (e : Encoder) (ops : List TileOp) : Batch × Encoder :=
  (⟨e.surface, e.generation, e.next_sequence, e.grid.size, ops⟩,
    { e with next_sequence := e.next_sequence + 1 })

/-- A frame of the wrong size is refused before anything changes. The other errors cannot
happen. -/
def Encoder.encode_inner (D : Deps) (e : Encoder) (frame : Frame) (damage : Option (List Rect))
    (now_ms : Option Nat) : Except CodecError (Batch × Encoder) := do
  if frame.size ≠ e.grid.size then throw .FrameSizeMismatch
  let (hashes, content_changed) ← e.compare D frame damage
  let e := { e with hashes := some hashes }
  let (e, changed, ops) := e.scroll D frame (e.add_unknown content_changed)
  let (e, changed, throttled) := ({ e with motion_event := none } : Encoder).follow_motion hashes
    content_changed changed now_ms
  let (e, ops) ← changed.iter.foldlM (Encoder.send_tile D frame hashes now_ms.isSome throttled)
    (e, ops)
  return e.finish ops

def Encoder.encode (D : Deps) (e : Encoder) (frame : Frame) (damage : Option (List Rect)) :
    Except CodecError (Batch × Encoder) :=
  e.encode_inner D frame damage none

def Encoder.encode_at (D : Deps) (e : Encoder) (frame : Frame) (damage : Option (List Rect))
    (now_ms : Nat) : Except CodecError (Batch × Encoder) :=
  e.encode_inner D frame damage (some now_ms)

/-! ## Refining -/

def readyLe (a b : Nat × Nat) : Bool := decide (a.1 < b.1) || (a.1 == b.1 && decide (a.2 ≤ b.2))

/-- The lossy tiles that have been idle long enough, the longest idle first. -/
def Encoder.ready (e : Encoder) (hashes : TileHashes) (now_ms : Nat) : List (Nat × Nat) :=
  ((List.range e.grid.len).filterMap fun tile =>
    match e.viewer tile with
    | .Approximate hash =>
      if now_ms - e.changed_at_ms tile ≥ REFINE_IDLE_MS ∧ hashes.hashes tile = hash ∧
          e.motion.contains tile = false then some (e.changed_at_ms tile, tile)
      else none
    | _ => none).insertionSort fun a b => readyLe a b

/-- One tile of a refinement: the encoder, the bytes spent and the operations so far. -/
def Encoder.refine_tile (D : Deps) (e : Encoder) (hashes : TileHashes) (tile : Nat) :
    Encoder × Nat × TileOp :=
  let hash := hashes.hashes tile
  let rect := e.grid.rectOf tile
  let (held, shadow) := e.shadow.use_if_held hash
  let e := { e with shadow }
  let (e, spent, op) :=
    if held then (e, 13, TileOp.Cached tile hash)
    else
      let payload := encode_lossless D e.source rect
      (e.record_lossless hash rect, payload.length + 17, TileOp.Lossless tile hash payload)
  ({ e with
      viewer := Function.update e.viewer tile (.Exact hash)
      sent_at := Function.update e.sent_at tile e.next_sequence }, spent, op)

/-- The loop of `refine_at` stops once the budget is spent, but never before the first tile. -/
def Encoder.refine_tiles (D : Deps) (hashes : TileHashes) (budget_bytes : Nat) :
    Encoder → Nat → List TileOp → List (Nat × Nat) → Encoder × List TileOp
  | e, _, ops, [] => (e, ops)
  | e, spent, ops, (_, tile) :: ready =>
    if spent ≥ budget_bytes ∧ ops ≠ [] then (e, ops)
    else
      let (e, cost, op) := e.refine_tile D hashes tile
      Encoder.refine_tiles D hashes budget_bytes e (spent + cost) (ops ++ [op]) ready

def Encoder.refine_at (D : Deps) (e : Encoder) (now_ms budget_bytes : Nat) :
    Option (Batch × Encoder) :=
  match e.hashes with
  | none => none
  | some hashes =>
    let ready := e.ready hashes now_ms
    if ready.isEmpty ∨ budget_bytes = 0 then none
    else
      let (e, ops) := Encoder.refine_tiles D hashes budget_bytes e 0 [] ready
      some (e.finish ops)

/-! ## Answers of the viewer -/

def Encoder.acknowledge (e : Encoder) (sequence : Nat) : Encoder :=
  let sequence := min sequence (e.next_sequence - 1)
  if sequence ≤ e.acked then e
  else
    { e with
      acked := sequence
      moves := e.moves.dropWhile fun m => decide (m.1 ≤ sequence)
      inserted := e.inserted.dropWhile fun i => decide (i.1 ≤ sequence) }

def Encoder.cache_miss (e : Encoder) (miss : CacheMiss) : Encoder :=
  { e with
    shadow := e.shadow.forget miss.hash
    viewer := Function.update e.viewer miss.tile .Unknown }

def Encoder.reset_viewer (e : Encoder) : Encoder :=
  { e with
    viewer := fun _ => .Unknown
    shadow := e.shadow.clear
    moves := []
    inserted := []
    oldest_resumable := e.next_sequence }

/-- The tiles that a batch after `acknowledged` drew or moved. -/
def Encoder.touched_after (e : Encoder) (acknowledged tile : Nat) : Bool :=
  decide (e.sent_at tile > acknowledged) ||
    (e.moves.filter fun m => decide (m.1 > acknowledged)).any fun m =>
      (e.grid.tiles_covering m.2).contains tile

/-- The tiles, moves and cache entries of later batches are treated as lost. -/
def Encoder.rollBack (e : Encoder) (acknowledged : Nat) : Encoder :=
  { e with
    viewer := fun tile => if e.touched_after acknowledged tile then .Unknown else e.viewer tile
    shadow := (e.inserted.filter fun i => decide (i.1 > acknowledged)).foldl
      (fun s i => s.forget i.2) e.shadow
    moves := []
    inserted := []
    acked := acknowledged }

def Encoder.resume (e : Encoder) (acknowledged : Nat) : Resume × Encoder :=
  let acknowledged := min acknowledged (e.next_sequence - 1)
  if acknowledged = 0 ∨ acknowledged < e.acked ∨ acknowledged < e.oldest_resumable then
    (.Full, e.reset_viewer)
  else (.Partial, e.rollBack acknowledged)

end multiplex_screen_codec
