-- The bytes of a batch, as `wire.rs` has them. The format is canonical: a
-- batch that encodes comes back from its bytes, and the only bytes accepted
-- are those that encoding gives.
import Multiplex.Lib.Bytes
import Multiplex.ScreenCodec.Tiles

open Bytes

namespace multiplex_screen_codec

def BATCH_MAGIC : List UInt8 := [0x54, 0x53, 0x42, 0x31]
def BATCH_VERSION : Nat := 1
def BATCH_HEADER_BYTES : Nat := 36
def MAX_BATCH_BYTES : Nat := 2 ^ 20
def MAX_TILE_PAYLOAD_BYTES : Nat := 16384

def KIND_SOLID : UInt8 := 1
def KIND_CACHED : UInt8 := 2
def KIND_LOSSLESS : UInt8 := 3
def KIND_LOSSY : UInt8 := 4
def KIND_MOVE : UInt8 := 5

abbrev SurfaceId := UInt32

abbrev Generation := UInt32

inductive TileOp
  | Solid (tile : Nat) (color : Color)
  | Cached (tile : Nat) (hash : TileHash)
  | Lossless (tile : Nat) (hash : TileHash) (payload : List UInt8)
  | Lossy (tile : Nat) (payload : List UInt8)
  | Move (rect : Rect) (dy : Int)
  deriving DecidableEq

/-- The operations of one surface. The sequence is a `u64` in the source. -/
structure Batch where
  surface : SurfaceId
  generation : Generation
  sequence : Nat
  size : Size
  ops : List TileOp
  deriving DecidableEq

/-! ## Checks -/

def check_tile (tile : Nat) (grid : TileGrid) : Except CodecError Unit :=
  if grid.contains tile then .ok () else .error .TileOutOfRange

def check_payload (payload : List UInt8) : Except CodecError Unit :=
  if payload.isEmpty || decide (payload.length > MAX_TILE_PAYLOAD_BYTES) then
    .error .MalformedBatch
  else .ok ()

def validate_op (op : TileOp) (grid : TileGrid) : Except CodecError Unit :=
  match op with
  | .Solid tile _ | .Cached tile _ => check_tile tile grid
  | .Lossless tile _ payload | .Lossy tile payload => do
    check_tile tile grid
    check_payload payload
  | .Move rect dy =>
    let bounds := grid.size.bounds
    let source_y : Int := rect.y + dy
    let source_bottom : Int := rect.bottom + dy
    if rect.is_empty || dy == 0 || !bounds.contains_rect rect || decide (source_y < 0) ||
        decide (source_bottom > bounds.height) then .error .InvalidMove
    else .ok ()

/-! ## Encoding -/

/-- `dy.to_be_bytes()`: the two's complement of a 32-bit offset. -/
def i32Bytes (dy : Int) : List UInt8 := beBytes 4 (dy % 2 ^ 32).toNat

def write_op : TileOp → List UInt8
  | .Solid tile color => KIND_SOLID :: (beBytes 4 tile ++ color.bytes)
  | .Cached tile hash => KIND_CACHED :: (beBytes 4 tile ++ beBytes 8 hash.toNat)
  | .Lossless tile hash payload =>
    KIND_LOSSLESS ::
      (beBytes 4 tile ++ (beBytes 8 hash.toNat ++ (beBytes 4 payload.length ++ payload)))
  | .Lossy tile payload => KIND_LOSSY :: (beBytes 4 tile ++ (beBytes 4 payload.length ++ payload))
  | .Move rect dy =>
    KIND_MOVE :: (beBytes 4 rect.x ++ (beBytes 4 rect.y ++ (beBytes 4 rect.width ++
      (beBytes 4 rect.height ++ i32Bytes dy))))

/-- The header up to the operation count. -/
def Batch.header (b : Batch) : List UInt8 :=
  BATCH_MAGIC ++ (beBytes 2 BATCH_VERSION ++ (beBytes 2 0 ++ (beBytes 4 b.surface.toNat ++
    (beBytes 4 b.generation.toNat ++ (beBytes 8 b.sequence ++ (beBytes 4 b.size.width ++
      beBytes 4 b.size.height))))))

/-- One turn of the loop of `encode`. -/
def encode_op (grid : TileGrid) (out : List UInt8) (op : TileOp) :
    Except CodecError (List UInt8) := do
  validate_op op grid
  if (out ++ write_op op).length > MAX_BATCH_BYTES then throw .BatchTooLarge
  return out ++ write_op op

def Batch.encode (b : Batch) : Except CodecError (List UInt8) :=
  let grid := TileGrid.new b.size
  if b.ops.length ≥ 2 ^ 32 then .error .BatchTooLarge
  else b.ops.foldlM (encode_op grid) (b.header ++ beBytes 4 b.ops.length)

/-! ## Decoding -/

/-- `n as i32` of a 32-bit value. -/
def asI32 (n : Nat) : Int := if n < 2 ^ 31 then n else n - 2 ^ 32

/-- Reads of the source's `Reader` fail as a malformed batch when the bytes run out. -/
abbrev WireReader := Reader CodecError

def reader_take (count : Nat) : WireReader (List UInt8) := takeBytes .MalformedBatch count
def reader_u8 : WireReader UInt8 := oneByte .MalformedBatch
def reader_u16 : WireReader Nat := beInt .MalformedBatch 2
def reader_u32 : WireReader Nat := beInt .MalformedBatch 4
def reader_u64 : WireReader Nat := beInt .MalformedBatch 8

def reader_payload : WireReader (List UInt8) := do
  let length ← reader_u32
  guardThat .MalformedBatch (length != 0 && decide (length ≤ MAX_TILE_PAYLOAD_BYTES))
  reader_take length

def reader_color : WireReader Color := do
  let color ← reader_take 3
  match color with
  | [b, g, r] => return ⟨b, g, r⟩
  | _ => throw .MalformedBatch

/-- The body of an operation of the given kind. -/
def read_body (kind : UInt8) : WireReader TileOp :=
  if kind = KIND_SOLID then do
    let tile ← reader_u32
    let color ← reader_color
    return .Solid tile color
  else if kind = KIND_CACHED then do
    let tile ← reader_u32
    let hash ← reader_u64
    return .Cached tile (UInt64.ofNat hash)
  else if kind = KIND_LOSSLESS then do
    let tile ← reader_u32
    let hash ← reader_u64
    let payload ← reader_payload
    return .Lossless tile (UInt64.ofNat hash) payload
  else if kind = KIND_LOSSY then do
    let tile ← reader_u32
    let payload ← reader_payload
    return .Lossy tile payload
  else if kind = KIND_MOVE then do
    let x ← reader_u32
    let y ← reader_u32
    let width ← reader_u32
    let height ← reader_u32
    let dy ← reader_u32
    return .Move ⟨x, y, width, height⟩ (asI32 dy)
  else throw .MalformedBatch

/-- One turn of the loop of `decode`. -/
def read_op (grid : TileGrid) : WireReader TileOp := do
  let kind ← reader_u8
  let op ← read_body kind
  match validate_op op grid with
  | .ok () => return op
  | .error e => throw e

def read_batch : WireReader Batch := do
  let magic ← reader_take 4
  guardThat .MalformedBatch (magic == BATCH_MAGIC)
  let version ← reader_u16
  guardThat .UnsupportedVersion (version == BATCH_VERSION)
  let reserved ← reader_u16
  guardThat .MalformedBatch (reserved == 0)
  let surface ← reader_u32
  let generation ← reader_u32
  let sequence ← reader_u64
  let width ← reader_u32
  let height ← reader_u32
  guardThat .MalformedBatch
    (decide (width ≤ MAX_SURFACE_DIMENSION) && decide (height ≤ MAX_SURFACE_DIMENSION))
  match Size.new width height with
  | .error _ => throw .MalformedBatch
  | .ok size => do
    let count ← reader_u32
    let remaining ← get
    -- the smallest operation is 8 bytes
    guardThat .MalformedBatch (decide (count ≤ remaining.length / 8))
    let ops ← readMany (read_op (TileGrid.new size)) count
    return ⟨UInt32.ofNat surface, UInt32.ofNat generation, sequence, size, ops⟩

def Batch.decode (bytes : List UInt8) : Except CodecError Batch :=
  if bytes.length > MAX_BATCH_BYTES then .error .BatchTooLarge
  else do
    let (batch, rest) ← read_batch.run bytes
    if rest.length ≠ 0 then throw .MalformedBatch
    return batch

/-! ## One operation -/

/-- The operation stays inside a surface of this size: its tile is a tile of the grid, and for a
move the rows written and the rows read are rows of the surface. -/
def OpInside (size : Size) : TileOp → Prop
  | .Solid tile _ | .Cached tile _ => tile < (TileGrid.new size).len
  | .Lossless tile _ payload | .Lossy tile payload =>
    tile < (TileGrid.new size).len ∧ 0 < payload.length ∧ payload.length ≤ MAX_TILE_PAYLOAD_BYTES
  | .Move rect dy =>
    0 < rect.width ∧ 0 < rect.height ∧ dy ≠ 0 ∧ rect.x + rect.width ≤ size.width ∧
      rect.y + rect.height ≤ size.height ∧ 0 ≤ (rect.y : Int) + dy ∧
      (rect.y : Int) + rect.height + dy ≤ size.height

theorem check_tile_ok_iff (tile : Nat) (grid : TileGrid) :
    check_tile tile grid = .ok () ↔ tile < grid.len := by
  simp [check_tile, TileGrid.contains]

theorem check_payload_ok_iff (tile : Nat) (grid : TileGrid) (payload : List UInt8) :
    (do check_tile tile grid; check_payload payload) = Except.ok () ↔
      tile < grid.len ∧ 0 < payload.length ∧ payload.length ≤ MAX_TILE_PAYLOAD_BYTES := by
  have hpay : check_payload payload = .ok () ↔
      0 < payload.length ∧ payload.length ≤ MAX_TILE_PAYLOAD_BYTES := by
    unfold check_payload
    cases payload with
    | nil => simp
    | cons b payload => simp
  rw [← check_tile_ok_iff, ← hpay]
  cases check_tile tile grid with
  | error e => simp [bind, Except.bind]
  | ok u => simp [bind, Except.bind]

variable (size : Size) (grid : TileGrid) (b : Batch) (ops : List TileOp) (op : TileOp)

theorem moveFits_iff_inside (rect : Rect) (dy : Int) :
    MoveFits size rect dy ↔ OpInside size (.Move rect dy) := by
  have hw := size.width_le
  have hh := size.height_le
  simp only [MAX_SURFACE_DIMENSION] at hw hh
  unfold MoveFits OpInside
  constructor
  · rintro ⟨h1, h2, h3, h4, h5⟩
    obtain ⟨-, hb, g1, g2, g3, g4⟩ := inside_bounds size rect h1 h3
    omega
  · rintro ⟨h1, h2, h3, h4, h5, h6, h7⟩
    have hb : rect.bottom = rect.y + rect.height := by
      simp only [Rect.bottom, U32_MAX]
      omega
    have hr : rect.right = rect.x + rect.width := by
      simp only [Rect.right, U32_MAX]
      omega
    refine ⟨?_, h3, ?_, h6, by rw [hb]; push_cast; omega⟩
    · simp [Rect.is_empty]
      omega
    · simp [Rect.contains_rect, hb, hr]
      simp only [Size.bounds, Rect.right, Rect.bottom, U32_MAX]
      omega

theorem validate_op_ok_iff (grid : TileGrid) :
    validate_op op grid = .ok () ↔ OpInside grid.size op := by
  cases op with
  | Solid tile color => exact check_tile_ok_iff tile _
  | Cached tile hash => exact check_tile_ok_iff tile _
  | Lossless tile hash payload => exact check_payload_ok_iff tile _ payload
  | Lossy tile payload => exact check_payload_ok_iff tile _ payload
  | Move rect dy =>
    rw [← moveFits_iff_inside]
    unfold validate_op
    simp only
    split
    · rename_i hbad
      simp
      rintro ⟨h1, h2, h3, h4, h5⟩
      have h5' : (rect.bottom : Int) + dy ≤ grid.size.bounds.height := h5
      simp [h1, h3] at hbad
      omega
    · rename_i hgood
      simp
      simp at hgood
      obtain ⟨⟨⟨⟨h1, h2⟩, h3⟩, h4⟩, h5⟩ := hgood
      simp only [Size.bounds] at h5
      exact ⟨h1, h2, h3, by omega, by omega⟩

/-- The surface is small enough for every field of its operations to fit its bytes. -/
theorem grid_len_lt : (TileGrid.new size).len < 256 ^ 4 := by
  have hw := size.width_le
  have hh := size.height_le
  simp only [MAX_SURFACE_DIMENSION] at hw hh
  have h1 : (TileGrid.new size).columns ≤ 256 := by
    simp only [TileGrid.columns, TileGrid.new, TILE_SIZE]
    omega
  have h2 : (TileGrid.new size).rows ≤ 256 := by
    simp only [TileGrid.rows, TileGrid.new, TILE_SIZE]
    omega
  calc (TileGrid.new size).len ≤ 256 * 256 := Nat.mul_le_mul h1 h2
    _ < 256 ^ 4 := by decide

theorem asI32_bytes (dy : Int) (h1 : -(2 ^ 31) ≤ dy) (h2 : dy < 2 ^ 31) :
    asI32 (dy % 2 ^ 32).toNat = dy := by
  unfold asI32
  split <;> omega

theorem bytes_asI32 (n : Nat) (h : n < 256 ^ 4) : i32Bytes (asI32 n) = beBytes 4 n := by
  have : (asI32 n % 2 ^ 32).toNat = n := by
    unfold asI32
    split <;> omega
  rw [i32Bytes, this]

theorem canonical_color : Canonical reader_color Color.bytes (fun _ => True) where
  accepts c _ := by
    intro rest
    rfl
  only bytes c rest h := by
    obtain ⟨l, middle, h1, h2⟩ := run_bind_ok h
    obtain ⟨hl, rfl⟩ := (canonical_takeBytes _ 3).only _ _ _ h1
    match l, hl with
    | [b, g, r], _ =>
      obtain ⟨rfl, rfl⟩ := pure_ok h2
      exact ⟨trivial, rfl⟩

theorem canonical_payload : Canonical reader_payload
    (fun p => beBytes 4 p.length ++ p)
    (fun p => 0 < p.length ∧ p.length ≤ MAX_TILE_PAYLOAD_BYTES) where
  accepts p hp := by
    refine ((canonical_beInt _ 4).accepts p.length ?_).bind (Accepts.guard ?_
      ((canonical_takeBytes _ p.length).accepts p rfl))
    · simp only [MAX_TILE_PAYLOAD_BYTES] at hp
      omega
    · simp only [bne_iff_ne, Bool.and_eq_true, decide_eq_true_eq]
      omega
  only bytes p rest h := by
    obtain ⟨n, m1, h1, hrest⟩ := run_bind_ok h
    obtain ⟨u, m2, h2, h3⟩ := run_bind_ok hrest
    obtain ⟨hn, rfl⟩ := beInt_only h1
    obtain ⟨hc, rfl⟩ := guardThat_ok h2
    obtain ⟨rfl, rfl⟩ := (canonical_takeBytes _ n).only _ _ _ h3
    simp only [bne_iff_ne, Bool.and_eq_true, decide_eq_true_eq] at hc
    exact ⟨⟨by omega, hc.2⟩, by simp⟩

theorem accepts_u32 (n : Nat) (h : n < 256 ^ 4) : Accepts reader_u32 (beBytes 4 n) n :=
  (canonical_beInt _ 4).accepts n h

theorem accepts_hash (hash : TileHash) : Accepts reader_u64 (beBytes 8 hash.toNat) hash.toNat :=
  (canonical_beInt _ 8).accepts _ hash.toNat_lt

theorem read_body_accepts (h : OpInside size op) :
    ∃ kind body, write_op op = kind :: body ∧ Accepts (read_body kind) body op := by
  have hlen := grid_len_lt size
  cases op with
  | Solid tile color =>
    refine ⟨_, _, rfl, ?_⟩
    exact (accepts_u32 tile (lt_trans h hlen)).bind ((canonical_color.accepts color trivial).map _)
  | Cached tile hash =>
    refine ⟨_, _, rfl, ?_⟩
    have hb := (accepts_hash hash).map fun n => TileOp.Cached tile (UInt64.ofNat n)
    rw [UInt64.ofNat_toNat] at hb
    exact (accepts_u32 tile (lt_trans h hlen)).bind hb
  | Lossless tile hash payload =>
    refine ⟨_, _, rfl, ?_⟩
    have hb := (canonical_payload.accepts payload h.2).map fun p =>
      TileOp.Lossless tile (UInt64.ofNat hash.toNat) p
    refine (accepts_u32 tile (lt_trans h.1 hlen)).bind ((accepts_hash hash).bind ?_)
    rwa [UInt64.ofNat_toNat] at hb ⊢
  | Lossy tile payload =>
    refine ⟨_, _, rfl, ?_⟩
    exact (accepts_u32 tile (lt_trans h.1 hlen)).bind ((canonical_payload.accepts payload h.2).map _)
  | Move rect dy =>
    have hw := size.width_le
    have hh := size.height_le
    simp only [MAX_SURFACE_DIMENSION] at hw hh
    obtain ⟨h1, h2, h3, h4, h5, h6, h7⟩ := h
    refine ⟨_, _, rfl, ?_⟩
    have hb := (accepts_u32 (dy % 2 ^ 32).toNat (by omega)).map fun n => TileOp.Move rect (asI32 n)
    rw [asI32_bytes dy (by omega) (by omega)] at hb
    exact (accepts_u32 rect.x (by omega)).bind ((accepts_u32 rect.y (by omega)).bind
      ((accepts_u32 rect.width (by omega)).bind ((accepts_u32 rect.height (by omega)).bind hb)))

theorem read_body_only (kind : UInt8) (bytes rest : List UInt8) (op : TileOp)
    (h : (read_body kind).run bytes = .ok (op, rest)) : kind :: bytes = write_op op ++ rest := by
  unfold read_body at h
  split at h
  · rename_i hk
    obtain ⟨tile, m1, h1, r1⟩ := run_bind_ok h
    obtain ⟨color, m2, h2, r2⟩ := run_bind_ok r1
    obtain ⟨-, rfl⟩ := beInt_only h1
    obtain ⟨-, rfl⟩ := canonical_color.only _ _ _ h2
    obtain ⟨rfl, rfl⟩ := pure_ok r2
    simp [write_op, hk]
  split at h
  · rename_i hk
    obtain ⟨tile, m1, h1, r1⟩ := run_bind_ok h
    obtain ⟨hash, m2, h2, r2⟩ := run_bind_ok r1
    obtain ⟨-, rfl⟩ := beInt_only h1
    obtain ⟨hn, rfl⟩ := beInt_only h2
    obtain ⟨rfl, rfl⟩ := pure_ok r2
    have hhash : (UInt64.ofNat hash).toNat = hash := UInt64.toNat_ofNat_of_lt' hn
    simp [write_op, hk, hhash]
  split at h
  · rename_i hk
    obtain ⟨tile, m1, h1, r1⟩ := run_bind_ok h
    obtain ⟨hash, m2, h2, r2⟩ := run_bind_ok r1
    obtain ⟨payload, m3, h3, r3⟩ := run_bind_ok r2
    obtain ⟨-, rfl⟩ := beInt_only h1
    obtain ⟨hn, rfl⟩ := beInt_only h2
    obtain ⟨-, rfl⟩ := canonical_payload.only _ _ _ h3
    obtain ⟨rfl, rfl⟩ := pure_ok r3
    have hhash : (UInt64.ofNat hash).toNat = hash := UInt64.toNat_ofNat_of_lt' hn
    simp [write_op, hk, hhash]
  split at h
  · rename_i hk
    obtain ⟨tile, m1, h1, r1⟩ := run_bind_ok h
    obtain ⟨payload, m2, h2, r2⟩ := run_bind_ok r1
    obtain ⟨-, rfl⟩ := beInt_only h1
    obtain ⟨-, rfl⟩ := canonical_payload.only _ _ _ h2
    obtain ⟨rfl, rfl⟩ := pure_ok r2
    simp [write_op, hk]
  split at h
  · rename_i hk
    obtain ⟨x, m1, h1, r1⟩ := run_bind_ok h
    obtain ⟨y, m2, h2, r2⟩ := run_bind_ok r1
    obtain ⟨width, m3, h3, r3⟩ := run_bind_ok r2
    obtain ⟨height, m4, h4, r4⟩ := run_bind_ok r3
    obtain ⟨dy, m5, h5, r5⟩ := run_bind_ok r4
    obtain ⟨-, rfl⟩ := beInt_only h1
    obtain ⟨-, rfl⟩ := beInt_only h2
    obtain ⟨-, rfl⟩ := beInt_only h3
    obtain ⟨-, rfl⟩ := beInt_only h4
    obtain ⟨hn, rfl⟩ := beInt_only h5
    obtain ⟨rfl, rfl⟩ := pure_ok r5
    simp [write_op, hk, bytes_asI32 dy hn]
  · cases h

theorem canonical_op : Canonical (read_op grid) write_op (OpInside grid.size) where
  accepts op hop := by
    obtain ⟨kind, body, hbytes, hbody⟩ := read_body_accepts grid.size op hop
    have hv := (validate_op_ok_iff op grid).mpr hop
    rw [hbytes]
    refine ((canonical_oneByte _).accepts kind trivial).bind ?_
    intro rest
    rw [StateT.run_bind, hbody]
    simp only [bind, Except.bind, hv]
    rfl
  only bytes op rest h := by
    obtain ⟨kind, m1, h1, r1⟩ := run_bind_ok h
    obtain ⟨op', m2, h2, r2⟩ := run_bind_ok r1
    obtain ⟨-, rfl⟩ := (canonical_oneByte _).only _ _ _ h1
    cases hv : validate_op op' grid with
    | error e => rw [hv] at r2; cases r2
    | ok u =>
      rw [hv] at r2
      obtain ⟨rfl, rfl⟩ := pure_ok r2
      exact ⟨(validate_op_ok_iff op grid).mp hv, read_body_only kind m1 rest op h2⟩

/-! ## The whole batch -/

def Batch.bytes (b : Batch) : List UInt8 :=
  b.header ++ (beBytes 4 b.ops.length ++ b.ops.flatMap write_op)

/-- The sequence and the count fit their bytes, and every operation stays inside the surface. -/
structure BatchOk (b : Batch) : Prop where
  sequence_lt : b.sequence < 2 ^ 64
  count_lt : b.ops.length < 2 ^ 32
  inside : ∀ op ∈ b.ops, OpInside b.size op

theorem eight_le_write_op : 8 ≤ (write_op op).length := by
  cases op with
  | Solid tile color => simp [write_op, Color.bytes]
  | Cached tile hash => simp [write_op]
  | Lossless tile hash payload => simp [write_op]; omega
  | Lossy tile payload => simp [write_op]; omega
  | Move rect dy => simp [write_op, i32Bytes]

theorem eight_mul_le : ops.length * 8 ≤ (ops.flatMap write_op).length := by
  induction ops with
  | nil => simp
  | cons op ops ih =>
    have h1 := eight_le_write_op op
    simp only [List.length_cons, List.flatMap_cons, List.length_append]
    omega

theorem encode_ops_ok_iff (start out : List UInt8) (hstart : start.length ≤ MAX_BATCH_BYTES) :
    ops.foldlM (encode_op grid) start = .ok out ↔
      (∀ op ∈ ops, OpInside grid.size op) ∧ out = start ++ ops.flatMap write_op ∧
        out.length ≤ MAX_BATCH_BYTES := by
  induction ops generalizing start with
  | nil =>
    simp [pure, Except.pure]
    constructor
    · rintro rfl
      exact ⟨rfl, hstart⟩
    · exact fun h => h.1.symm
  | cons op ops ih =>
    rw [List.foldlM_cons]
    have hv := validate_op_ok_iff op grid
    cases hval : validate_op op grid with
    | error e =>
      have hnot : ¬ OpInside grid.size op := by
        rw [← hv, hval]
        simp
      have herr : encode_op grid start op = .error e := by
        simp [encode_op, hval, bind, Except.bind]
      rw [herr]
      simp only [bind, Except.bind, reduceCtorEq, false_iff]
      exact fun h => hnot (h.1 op (by simp))
    | ok u =>
      have hop : OpInside grid.size op := hv.mp hval
      by_cases hlen : (start ++ write_op op).length ≤ MAX_BATCH_BYTES
      · have hstep : encode_op grid start op = .ok (start ++ write_op op) := by
          simp only [encode_op, hval, bind, Except.bind, gt_iff_lt]
          rw [if_neg (by omega)]
          rfl
        rw [hstep]
        simp only [bind, Except.bind]
        rw [ih _ hlen]
        simp [hop]
      · have hstep : encode_op grid start op = .error .BatchTooLarge := by
          simp only [encode_op, hval, bind, Except.bind, gt_iff_lt]
          rw [if_pos (by omega)]
          rfl
        rw [hstep]
        simp only [bind, Except.bind, reduceCtorEq, false_iff, List.flatMap_cons]
        rintro ⟨-, rfl, hle⟩
        simp at hle hlen
        omega

theorem length_header : b.header.length = 32 := by
  simp [Batch.header, BATCH_MAGIC]

/-- Encoding succeeds exactly for operations inside the surface whose bytes fit the bound. -/
theorem encode_ok_iff (out : List UInt8) :
    b.encode = .ok out ↔ b.ops.length < 2 ^ 32 ∧ (∀ op ∈ b.ops, OpInside b.size op) ∧
      out = b.bytes ∧ out.length ≤ MAX_BATCH_BYTES := by
  unfold Batch.encode
  split
  · simp
    omega
  · rw [encode_ops_ok_iff _ _ _ _ (by simp [length_header, MAX_BATCH_BYTES]), List.append_assoc]
    constructor
    · exact fun h => ⟨by omega, h⟩
    · exact fun h => h.2

theorem size_new_self : Size.new size.width size.height = .ok size := by
  unfold Size.new
  rw [dif_pos ⟨size.width_pos, size.height_pos, size.width_le, size.height_le⟩]

theorem size_new_ok {width height : Nat} {size : Size} (h : Size.new width height = .ok size) :
    size.width = width ∧ size.height = height := by
  unfold Size.new at h
  split at h
  · cases h
    exact ⟨rfl, rfl⟩
  · cases h

theorem canonical_batch : Canonical read_batch Batch.bytes BatchOk where
  accepts b hb := by
    have hw := b.size.width_le
    have hh := b.size.height_le
    have hw' : b.size.width < 256 ^ 4 := by simp only [MAX_SURFACE_DIMENSION] at hw; omega
    have hh' : b.size.height < 256 ^ 4 := by simp only [MAX_SURFACE_DIMENSION] at hh; omega
    have hops := eight_mul_le b.ops
    refine ((canonical_takeBytes _ 4).accepts BATCH_MAGIC rfl).bind (Accepts.guard rfl ?_)
    refine ((canonical_beInt _ 2).accepts BATCH_VERSION (by decide)).bind (Accepts.guard rfl ?_)
    refine ((canonical_beInt _ 2).accepts 0 (by decide)).bind (Accepts.guard rfl ?_)
    refine (accepts_u32 b.surface.toNat b.surface.toNat_lt).bind ?_
    refine (accepts_u32 b.generation.toNat b.generation.toNat_lt).bind ?_
    refine ((canonical_beInt _ 8).accepts b.sequence hb.sequence_lt).bind ?_
    refine (accepts_u32 b.size.width hw').bind ?_
    refine (accepts_u32 b.size.height hh').bind (Accepts.guard ?_ ?_)
    · simpa using ⟨hw, hh⟩
    rw [size_new_self]
    refine (accepts_u32 b.ops.length hb.count_lt).bind (Accepts.guardLeft ?_ ?_)
    · simp only [List.length_append, decide_eq_true_eq]
      omega
    have hmany := (canonical_readMany (canonical_op (TileGrid.new b.size)) b.ops.length).accepts
      b.ops ⟨rfl, hb.inside⟩
    have hlast := hmany.map fun ops =>
      (⟨UInt32.ofNat b.surface.toNat, UInt32.ofNat b.generation.toNat, b.sequence, b.size, ops⟩ :
        Batch)
    simpa using hlast
  only bytes b rest h := by
    obtain ⟨magic, m1, h1, r1⟩ := run_bind_ok h
    obtain ⟨u1, m2, h2, r2⟩ := run_bind_ok r1
    obtain ⟨version, m3, h3, r3⟩ := run_bind_ok r2
    obtain ⟨u2, m4, h4, r4⟩ := run_bind_ok r3
    obtain ⟨reserved, m5, h5, r5⟩ := run_bind_ok r4
    obtain ⟨u3, m6, h6, r6⟩ := run_bind_ok r5
    obtain ⟨surface, m7, h7, r7⟩ := run_bind_ok r6
    obtain ⟨generation, m8, h8, r8⟩ := run_bind_ok r7
    obtain ⟨sequence, m9, h9, r9⟩ := run_bind_ok r8
    obtain ⟨width, m10, h10, r10⟩ := run_bind_ok r9
    obtain ⟨height, m11, h11, r11⟩ := run_bind_ok r10
    obtain ⟨u4, m12, h12, r12⟩ := run_bind_ok r11
    cases hsize : Size.new width height with
    | error e => rw [hsize] at r12; cases r12
    | ok size =>
      rw [hsize] at r12
      obtain ⟨count, m13, h13, r13⟩ := run_bind_ok r12
      obtain ⟨left, m14, h14, r14⟩ := run_bind_ok r13
      obtain ⟨u5, m15, h15, r15⟩ := run_bind_ok r14
      obtain ⟨ops, m16, h16, r16⟩ := run_bind_ok r15
      obtain ⟨-, rfl⟩ := (canonical_takeBytes _ 4).only _ _ _ h1
      obtain ⟨hmagic, rfl⟩ := guardThat_ok h2
      obtain ⟨-, rfl⟩ := (canonical_beInt _ 2).only _ _ _ h3
      obtain ⟨hversion, rfl⟩ := guardThat_ok h4
      obtain ⟨-, rfl⟩ := (canonical_beInt _ 2).only _ _ _ h5
      obtain ⟨hreserved, rfl⟩ := guardThat_ok h6
      obtain ⟨hsurface, rfl⟩ := beInt_only h7
      obtain ⟨hgeneration, rfl⟩ := beInt_only h8
      obtain ⟨hsequence, rfl⟩ := beInt_only h9
      obtain ⟨-, rfl⟩ := beInt_only h10
      obtain ⟨-, rfl⟩ := beInt_only h11
      obtain ⟨-, rfl⟩ := guardThat_ok h12
      obtain ⟨hcount, rfl⟩ := beInt_only h13
      cases h14
      obtain ⟨-, rfl⟩ := guardThat_ok h15
      obtain ⟨⟨hlen, hinside⟩, rfl⟩ := (canonical_readMany (canonical_op _) count).only _ _ _ h16
      obtain ⟨rfl, rfl⟩ := pure_ok r16
      obtain ⟨rfl, rfl⟩ := size_new_ok hsize
      simp at hmagic hversion hreserved
      subst hmagic hversion hreserved hlen
      refine ⟨⟨hsequence, hcount, hinside⟩, ?_⟩
      have hs : (UInt32.ofNat surface).toNat = surface := UInt32.toNat_ofNat_of_lt' hsurface
      have hg : (UInt32.ofNat generation).toNat = generation :=
        UInt32.toNat_ofNat_of_lt' hgeneration
      simp [Batch.bytes, Batch.header, hs, hg]

theorem decode_ok_iff (bytes : List UInt8) (b : Batch) :
    Batch.decode bytes = .ok b ↔ BatchOk b ∧ bytes = b.bytes ∧ bytes.length ≤ MAX_BATCH_BYTES := by
  unfold Batch.decode
  split
  · simp
    omega
  · constructor
    · intro h
      cases hr : read_batch.run bytes with
      | error e => rw [hr] at h; cases h
      | ok r =>
        obtain ⟨b', rest⟩ := r
        rw [hr] at h
        obtain ⟨hok, hbytes⟩ := canonical_batch.only _ _ _ hr
        cases rest with
        | nil =>
          cases h
          exact ⟨hok, by rw [hbytes, List.append_nil], by omega⟩
        | cons a rest => cases h
    · rintro ⟨hok, rfl, -⟩
      have hrun := canonical_batch.accepts b hok []
      rw [List.append_nil] at hrun
      rw [hrun]
      rfl

/-- The batch format is canonical: decoding undoes encoding, encoding undoes decoding, and what
is accepted is what encoding gives, with every operation inside the surface. -/
theorem batch_format_is_canonical :
    (∀ (b : Batch) (bytes : List UInt8), b.sequence < 2 ^ 64 → b.encode = .ok bytes →
      Batch.decode bytes = .ok b) ∧
    (∀ (bytes : List UInt8) (b : Batch), Batch.decode bytes = .ok b →
      b.encode = .ok bytes ∧ b.sequence < 2 ^ 64 ∧ ∀ op ∈ b.ops, OpInside b.size op) ∧
    ∀ bytes : List UInt8, (∃ b, Batch.decode bytes = .ok b) ↔
      ∃ b : Batch, b.sequence < 2 ^ 64 ∧ b.encode = .ok bytes := by
  have hto : ∀ (b : Batch) (bytes : List UInt8), b.sequence < 2 ^ 64 → b.encode = .ok bytes →
      Batch.decode bytes = .ok b := by
    intro b bytes hseq h
    obtain ⟨h1, h2, h3, h4⟩ := (encode_ok_iff b bytes).mp h
    exact (decode_ok_iff bytes b).mpr ⟨⟨hseq, h1, h2⟩, h3, h4⟩
  have hfrom : ∀ (bytes : List UInt8) (b : Batch), Batch.decode bytes = .ok b →
      b.encode = .ok bytes ∧ b.sequence < 2 ^ 64 ∧ ∀ op ∈ b.ops, OpInside b.size op := by
    intro bytes b h
    obtain ⟨⟨h1, h2, h3⟩, h4, h5⟩ := (decode_ok_iff bytes b).mp h
    exact ⟨(encode_ok_iff b bytes).mpr ⟨h2, h3, h4, h5⟩, h1, h3⟩
  refine ⟨hto, hfrom, fun bytes => ⟨?_, ?_⟩⟩
  · rintro ⟨b, h⟩
    exact ⟨b, (hfrom bytes b h).2.1, (hfrom bytes b h).1⟩
  · rintro ⟨b, hseq, h⟩
    exact ⟨b, hto b bytes hseq h⟩

/-- A batch with a fill and a move on a surface of two rows. -/
def sampleBatch : Batch :=
  ⟨7, 1, 3, ⟨1, 2, Nat.one_pos, Nat.two_pos, pairSize.height_le, pairSize.width_le⟩,
    [.Solid 0 ⟨1, 2, 3⟩, .Move ⟨0, 0, 1, 1⟩ 1]⟩

theorem sample_batch_comes_back : sampleBatch.encode = .ok sampleBatch.bytes ∧
      Batch.decode sampleBatch.bytes = .ok sampleBatch :=
  ⟨rfl, batch_format_is_canonical.1 sampleBatch _ (by decide) rfl⟩

end multiplex_screen_codec
