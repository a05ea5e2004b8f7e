-- How large the batches of an encoder get. All the tiles of a frame go into one
-- batch, so it fits the wire exactly when the bytes of these tiles come to no more
-- than the bound, and the pixels of none of them are too many.
import Multiplex.Lib.Runs
import Multiplex.ScreenCodec.Belief

namespace multiplex_screen_codec

/-! ## What tiles come to -/

/-- The bytes of the operation that a tile is sent as, and those of the pixels in it. -/
structure TileCost where
  bytes : Nat
  payload : Option Nat

/-- A tile of one colour takes a fill, a tile that the viewer holds a reference, and any other its
deflated pixels. -/
def tile_cost (D : Deps) (frame : Frame) (rect : Rect) (hash : TileHash) (detail : LossyDetail)
    (shadow : CacheShadow) (tile_class : TileClass) : TileCost × CacheShadow :=
  match tile_class with
  | .Solid _ => (⟨8, none⟩, shadow)
  | _ =>
    let (held, shadow) := shadow.use_if_held hash
    if held then (⟨13, none⟩, shadow)
    else
      match tile_class with
      | .Picture =>
        let length := (encode_lossy D frame rect detail).length
        (⟨9 + length, some length⟩, shadow)
      | _ =>
        let length := (encode_lossless D frame rect).length
        (⟨17 + length, some length⟩, shadow.record_sent hash (pixel_bytes rect))

/-- The costs of the tiles that are sent, of some that may have changed. -/
def frame_costs (D : Deps) (e : Encoder) (frame : Frame) (hashes : TileHashes)
    (timed throttled : Bool) : CacheShadow → List Nat → List TileCost
  | _, [] => []
  | shadow, tile :: tiles =>
    let in_motion := timed && e.motion.contains tile
    if e.viewer tile = .Exact (hashes.hashes tile) ∨ (in_motion && throttled) = true then
      frame_costs D e frame hashes timed throttled shadow tiles
    else
      let (cost, shadow) := tile_cost D frame (e.grid.rectOf tile) (hashes.hashes tile)
        e.config.lossy_detail shadow (class_in frame (e.grid.rectOf tile) in_motion)
      cost :: frame_costs D e frame hashes timed throttled shadow tiles

/-- The costs of the tiles that are refined, until those before have used up the budget. -/
def refine_costs (D : Deps) (e : Encoder) (hashes : TileHashes) (budget_bytes : Nat) :
    CacheShadow → Nat → List (Nat × Nat) → List TileCost
  | _, _, [] => []
  | shadow, spent, (_, tile) :: ready =>
    if spent ≥ budget_bytes ∧ 0 < spent then []
    else
      let (cost, shadow) := tile_cost D e.source (e.grid.rectOf tile) (hashes.hashes tile)
        e.config.lossy_detail shadow .Text
      cost :: refine_costs D e hashes budget_bytes shadow (spent + cost.bytes) ready

/-- The costs fit a batch that has some bytes already, and no payload is empty or too long. -/
def CostsFit (before : Nat) (costs : List TileCost) : Prop :=
  before + (costs.map TileCost.bytes).sum ≤ MAX_BATCH_BYTES ∧
    ∀ c ∈ costs, ∀ n, c.payload = some n → 0 < n ∧ n ≤ MAX_TILE_PAYLOAD_BYTES

/-! ## What operations come to -/

def TileOp.payload : TileOp → Option (List UInt8)
  | .Lossless _ _ payload | .Lossy _ payload => some payload
  | .Solid .. | .Cached .. | .Move .. => none

def TileOp.cost (op : TileOp) : TileCost := ⟨(write_op op).length, op.payload.map List.length⟩

/-- The tile is one of the grid, or the move stays inside the surface. -/
def OpPlaced (size : Size) : TileOp → Prop
  | .Solid tile _ | .Cached tile _ | .Lossless tile _ _ | .Lossy tile _ =>
    tile < (TileGrid.new size).len
  | .Move rect dy => MoveFits size rect dy

theorem opInside_iff {size : Size} {op : TileOp} (h : OpPlaced size op) :
    OpInside size op ↔ ∀ n, op.cost.payload = some n → 0 < n ∧ n ≤ MAX_TILE_PAYLOAD_BYTES := by
  cases op with
  | Solid tile color => simpa [OpPlaced, OpInside, TileOp.cost, TileOp.payload] using h
  | Cached tile hash => simpa [OpPlaced, OpInside, TileOp.cost, TileOp.payload] using h
  | Lossless tile hash payload =>
    have htile : tile < (TileGrid.new size).len := h
    simp [OpInside, TileOp.cost, TileOp.payload, htile]
  | Lossy tile payload =>
    have htile : tile < (TileGrid.new size).len := h
    simp [OpInside, TileOp.cost, TileOp.payload, htile]
  | Move rect dy => simpa [OpPlaced, TileOp.cost, TileOp.payload, ← moveFits_iff_inside] using h

theorem batch_encodes_iff {b : Batch} (h : ∀ op ∈ b.ops, OpPlaced b.size op) :
    (∃ bytes, b.encode = .ok bytes) ↔ CostsFit BATCH_HEADER_BYTES (b.ops.map TileOp.cost) := by
  have hlength : b.bytes.length =
      BATCH_HEADER_BYTES + ((b.ops.map TileOp.cost).map TileCost.bytes).sum := by
    simp [Batch.bytes, length_header, BATCH_HEADER_BYTES, List.length_flatMap, TileOp.cost,
      Function.comp_def, ← Nat.add_assoc]
  have hinside : (∀ op ∈ b.ops, OpInside b.size op) ↔ ∀ c ∈ b.ops.map TileOp.cost, ∀ n,
      c.payload = some n → 0 < n ∧ n ≤ MAX_TILE_PAYLOAD_BYTES := by
    rw [List.forall_mem_map]
    exact forall₂_congr fun op hop => opInside_iff (h op hop)
  simp only [encode_ok_iff, CostsFit, ← hlength, ← hinside]
  constructor
  · rintro ⟨bytes, -, hops, rfl, hle⟩
    exact ⟨hle, hops⟩
  · rintro ⟨hle, hops⟩
    refine ⟨b.bytes, ?_, hops, rfl, hle⟩
    have height := eight_mul_le b.ops
    simp only [Batch.bytes, List.length_append, MAX_BATCH_BYTES] at hle
    omega

/-- A choice of the encoder is for its tile, costs what the tile comes to, and changes what is held
of the cache only. -/
theorem choose_op_cost (D : Deps) (e : Encoder) (frame : Frame) (tile : Nat) (rect : Rect)
    (hash : TileHash) (tile_class : TileClass) :
    let r := e.choose_op D frame tile rect hash tile_class
    let t := tile_cost D frame rect hash e.config.lossy_detail e.shadow tile_class
    r.2.1.cost = t.1 ∧ r.1.shadow = t.2 ∧
      (∀ size : Size, tile < (TileGrid.new size).len → OpPlaced size r.2.1) ∧
      r.1.grid = e.grid ∧ r.1.config = e.config ∧ r.1.motion = e.motion ∧ r.1.viewer = e.viewer ∧
      r.1.hashes = e.hashes ∧ r.1.source = e.source := by
  unfold Encoder.choose_op tile_cost
  cases tile_class with
  | Solid color => simp [TileOp.cost, TileOp.payload, write_op, OpPlaced]
  | Text =>
    simp only
    split
    · simp [TileOp.cost, TileOp.payload, write_op, OpPlaced]
    · simp [TileOp.cost, TileOp.payload, write_op, OpPlaced, Encoder.record_lossless]
      omega
  | Picture =>
    simp only
    split
    · simp [TileOp.cost, TileOp.payload, write_op, OpPlaced]
    · simp [TileOp.cost, TileOp.payload, write_op, OpPlaced]
      omega

/-! ## The loop over the tiles -/

/-- What the choices of the loop depend on, the cache apart, and what it leaves alone. -/
structure SameChoices (e₀ e : Encoder) : Prop where
  grid : e.grid = e₀.grid
  config : e.config = e₀.config
  motion : e.motion = e₀.motion
  hashes : e.hashes = e₀.hashes
  source_size : e.source.size = e₀.source.size

theorem SameChoices.refl (e : Encoder) : SameChoices e e := ⟨rfl, rfl, rfl, rfl, rfl⟩

theorem write_rect_size {f f' : FrameBuffer} {rect : Rect} {bgra : List Pixel}
    (h : f.write_rect rect bgra = .ok f') : f'.size = f.size := by
  unfold FrameBuffer.write_rect at h
  split at h
  · cases h
  · split at h
    · cases h
    · cases h
      rfl

section
variable {D : Deps} {frame : Frame} {hashes : TileHashes} {timed throttled : Bool} {e₀ : Encoder}

variable {r : Encoder × List TileOp} {tile : Nat} {shadow : CacheShadow}

variable (tiles : List Nat)

theorem frame_costs_passed (h : e₀.viewer tile = .Exact (hashes.hashes tile) ∨
      (timed && e₀.motion.contains tile && throttled) = true) :
    frame_costs D e₀ frame hashes timed throttled shadow (tile :: tiles) =
      frame_costs D e₀ frame hashes timed throttled shadow tiles :=
  if_pos h

theorem frame_costs_sent (tiles : List Nat) (h : ¬(e₀.viewer tile = .Exact (hashes.hashes tile) ∨
      (timed && e₀.motion.contains tile && throttled) = true)) :
    let r := tile_cost D frame (e₀.grid.rectOf tile) (hashes.hashes tile) e₀.config.lossy_detail
      shadow (class_in frame (e₀.grid.rectOf tile) (timed && e₀.motion.contains tile))
    frame_costs D e₀ frame hashes timed throttled shadow (tile :: tiles) =
      r.1 :: frame_costs D e₀ frame hashes timed throttled r.2 tiles :=
  if_neg h

theorem send_tile_cost {e : Encoder} {ops : List TileOp} (hsame : SameChoices e₀ e)
    (hviewer : e.viewer tile = e₀.viewer tile)
    (h : Encoder.send_tile D frame hashes timed throttled (e, ops) tile = .ok r)
    (tiles : List Nat) : SameChoices e₀ r.1 ∧ (∀ t, t ≠ tile → r.1.viewer t = e.viewer t) ∧
      ∃ new, r.2 = ops ++ new ∧ (tile < e₀.grid.len → ∀ op ∈ new, OpPlaced e₀.grid.size op) ∧
        frame_costs D e₀ frame hashes timed throttled e.shadow (tile :: tiles) =
          new.map TileOp.cost ++
            frame_costs D e₀ frame hashes timed throttled r.1.shadow tiles := by
  unfold Encoder.send_tile at h
  simp only [hviewer] at h
  split at h
  · rename_i hexact
    cases h
    exact ⟨hsame, fun _ _ => rfl, [], by simp, by simp, frame_costs_passed tiles (.inl hexact)⟩
  · rename_i hexact
    split at h
    · cases h
      refine ⟨⟨hsame.grid, hsame.config, hsame.motion, hsame.hashes, hsame.source_size⟩,
        fun t ht => by simp [ht], [], by simp, by simp, ?_⟩
      exact frame_costs_passed tiles (.inr (by rwa [← hsame.motion]))
    · rw [frame_costs_sent tiles (not_or.mpr ⟨hexact, by rwa [← hsame.motion]⟩), ← hsame.grid,
        ← hsame.config, ← hsame.motion]
      obtain ⟨hcost, hshadow, hplaced, hgrid, hconfig, hmotion, hviewer', hhashes, hsource⟩ :=
        choose_op_cost D e frame tile (e.grid.rectOf tile) (hashes.hashes tile)
          (class_in frame (e.grid.rectOf tile) (timed && e.motion.contains tile))
      generalize e.choose_op D frame tile (e.grid.rectOf tile) (hashes.hashes tile)
        (class_in frame (e.grid.rectOf tile) (timed && e.motion.contains tile)) = choice at *
      obtain ⟨e1, op, state⟩ := choice
      simp only [Encoder.record_op, bind, Except.bind] at h
      split at h
      · cases h
      · rename_i hrecord
        split at hrecord
        · cases hrecord
        · rename_i hwrite
          cases hrecord
          cases h
          simp only at *
          refine ⟨⟨hgrid.trans hsame.grid, hconfig.trans hsame.config, hmotion.trans hsame.motion,
            hhashes.trans hsame.hashes, ?_⟩, fun t ht => by simp [ht, hviewer'], [op], rfl,
            fun hlt => ?_, by simp [hcost, hshadow]⟩
          · rw [write_rect_size hwrite, hsource, hsame.source_size]
          · simpa using hplaced e.grid.size hlt

theorem send_tiles_cost {e : Encoder} {ops : List TileOp} (hsame : SameChoices e₀ e)
    (hnodup : tiles.Nodup) (htiles : ∀ t ∈ tiles, t < e₀.grid.len ∧ e.viewer t = e₀.viewer t)
    (h : tiles.foldlM (Encoder.send_tile D frame hashes timed throttled) (e, ops) = .ok r) :
    SameChoices e₀ r.1 ∧ ∃ new, r.2 = ops ++ new ∧ (∀ op ∈ new, OpPlaced e₀.grid.size op) ∧
      new.map TileOp.cost = frame_costs D e₀ frame hashes timed throttled e.shadow tiles := by
  induction tiles generalizing e ops with
  | nil =>
    cases h
    exact ⟨hsame, [], by simp [frame_costs]⟩
  | cons tile tiles ih =>
    rw [List.foldlM_cons] at h
    cases hstep : Encoder.send_tile D frame hashes timed throttled (e, ops) tile with
    | error error =>
      rw [hstep] at h
      cases h
    | ok r' =>
      rw [hstep] at h
      obtain ⟨hlt, hviewer⟩ := htiles tile (by simp)
      obtain ⟨hsame', hkept, new, hops, hplaced, hcosts⟩ :=
        send_tile_cost hsame hviewer hstep tiles
      rw [List.nodup_cons] at hnodup
      obtain ⟨hlast, more, hmore, hrest, hsum⟩ := ih hsame' hnodup.2 (fun t ht => by
        obtain ⟨hin, hbefore⟩ := htiles t (by simp [ht])
        refine ⟨hin, (hkept t ?_).trans hbefore⟩
        rintro rfl
        exact hnodup.1 ht) h
      refine ⟨hlast, new ++ more, by rw [hmore, hops, List.append_assoc], ?_, ?_⟩
      · intro op hop
        rcases List.mem_append.mp hop with hop | hop
        · exact hplaced hlt op hop
        · exact hrest op hop
      · rw [hcosts, List.map_append, hsum]

theorem refine_tile_cost {e : Encoder} (hsame : SameChoices e₀ e) (hsource : e.source = e₀.source)
    (tile : Nat) :
    let r := e.refine_tile D hashes tile
    let t := tile_cost D e₀.source (e₀.grid.rectOf tile) (hashes.hashes tile) e₀.config.lossy_detail
      e.shadow .Text
    r.2.2.cost = t.1 ∧ r.2.1 = t.1.bytes ∧ 0 < r.2.1 ∧ r.1.shadow = t.2 ∧ SameChoices e₀ r.1 ∧
      r.1.source = e₀.source ∧
      (tile < e₀.grid.len → OpPlaced e₀.grid.size r.2.2) := by
  simp only [← hsame.grid]
  unfold Encoder.refine_tile tile_cost
  simp only [hsource]
  split
  · refine ⟨by simp [TileOp.cost, TileOp.payload, write_op], rfl, by simp, rfl, ?_, rfl, id⟩
    exact ⟨hsame.grid, hsame.config, hsame.motion, hsame.hashes, by simp⟩
  · refine ⟨?_, Nat.add_comm _ _, by simp, rfl, ?_, rfl, id⟩
    · simp [TileOp.cost, TileOp.payload, write_op]
      omega
    · exact ⟨hsame.grid, hsame.config, hsame.motion, hsame.hashes, by simp [Encoder.record_lossless]⟩

theorem refine_tiles_cost (budget_bytes : Nat) (ready : List (Nat × Nat)) {e : Encoder}
    {spent : Nat} {ops : List TileOp} (hsame : SameChoices e₀ e) (hsource : e.source = e₀.source)
    (hready : ∀ p ∈ ready, p.2 < e₀.grid.len) (hspent : ops ≠ [] ↔ 0 < spent) :
    let r := Encoder.refine_tiles D hashes budget_bytes e spent ops ready
    SameChoices e₀ r.1 ∧ ∃ new, r.2 = ops ++ new ∧ (∀ op ∈ new, OpPlaced e₀.grid.size op) ∧
      new.map TileOp.cost = refine_costs D e₀ hashes budget_bytes e.shadow spent ready := by
  induction ready generalizing e spent ops with
  | nil => exact ⟨hsame, [], by simp [Encoder.refine_tiles, refine_costs]⟩
  | cons p ready ih =>
    obtain ⟨stamp, tile⟩ := p
    unfold Encoder.refine_tiles refine_costs
    simp only [hspent]
    by_cases hover : spent ≥ budget_bytes ∧ 0 < spent
    · simp only [hover, and_self, if_true]
      exact ⟨hsame, [], by simp⟩
    · rw [if_neg hover, if_neg hover]
      obtain ⟨hcost, hbytes, hpos, hshadow, hsame', hsource', hplaced⟩ :=
        @refine_tile_cost D hashes e₀ e hsame hsource tile
      generalize e.refine_tile D hashes tile = sent at *
      obtain ⟨e', cost, op⟩ := sent
      simp only at *
      obtain ⟨hlast, more, hmore, hrest, hsum⟩ := @ih e' (spent + cost) (ops ++ [op])
        hsame' hsource' (fun q hq => hready q (by simp [hq])) (by simp; omega)
      refine ⟨hlast, op :: more, by simp [hmore], ?_, ?_⟩
      · simp
        exact ⟨hplaced (hready (stamp, tile) (by simp)), hrest⟩
      · rw [List.map_cons, hsum, hcost, hshadow, hbytes]

end

/-! ## What an encoder keeps -/

/-- The source copy and the hashes are of the surface. -/
structure Encoder.Sized (e : Encoder) : Prop where
  source : e.source.size = e.grid.size
  hashes : ∀ H, e.hashes = some H → H.grid = e.grid

theorem SameChoices.sized {e₀ e : Encoder} (h : SameChoices e₀ e) (hsized : e₀.Sized) : e.Sized :=
  ⟨by rw [h.source_size, h.grid, hsized.source], by rw [h.hashes, h.grid]; exact hsized.hashes⟩

variable {damage : Option (List Rect)}

theorem compare_grids {D : Deps} {e : Encoder} {frame : Frame} {hashes : TileHashes}
    {changed : TileSet} (hsized : e.Sized) (hsize : frame.size = e.grid.size)
    (h : e.compare D frame damage = .ok (hashes, changed)) :
    hashes.grid = e.grid ∧ changed.grid = e.grid := by
  unfold Encoder.compare at h
  cases hbefore : e.hashes with
  | none =>
    simp only [hbefore] at h
    cases h
    refine ⟨?_, TileSet.full_grid e.grid⟩
    simp [TileHashes.compute, TileGrid.new, hsize]
  | some before =>
    simp only [hbefore] at h
    have hgrid := hsized.hashes before hbefore
    obtain ⟨H, content, hupdate, hH, hcontent, -⟩ := update_spec D before frame
      (damage.map e.grid.tiles_for_damage) (by rw [hsize, hgrid]) (by
        intro set hset
        obtain ⟨rects, -, rfl⟩ := Option.map_eq_some_iff.mp hset
        rw [e.grid.tiles_for_damage_grid, hgrid])
    rw [hupdate] at h
    cases h
    exact ⟨hH.trans hgrid, hcontent.trans hgrid⟩

/-- What is known of an encoding before its loop over the tiles. -/
structure Prepared where
  encoder : Encoder
  hashes : TileHashes
  changed : TileSet
  moves : List TileOp
  throttled : Bool

/-- The part of `encode_inner` before the loop: the hashes are compared, a scroll is looked for and
the motion region is followed. -/
def Encoder.prepare (D : Deps) (e : Encoder) (frame : Frame) (damage : Option (List Rect))
    (now_ms : Option Nat) : Except CodecError Prepared := do
  if frame.size ≠ e.grid.size then throw .FrameSizeMismatch
  let (hashes, content_changed) ← e.compare D frame damage
  let e := { e with hashes := some hashes }
  let (e, changed, moves) := e.scroll D frame (e.add_unknown content_changed)
  let (encoder, changed, throttled) := ({ e with motion_event := none } : Encoder).follow_motion hashes
    content_changed changed now_ms
  return { encoder, hashes, changed, moves, throttled }

theorem encode_inner_eq (D : Deps) (e : Encoder) (frame : Frame) (damage : Option (List Rect))
    (now_ms : Option Nat) : e.encode_inner D frame damage now_ms = (do
      let p ← e.prepare D frame damage now_ms
      let (e, ops) ← p.changed.iter.foldlM
        (Encoder.send_tile D frame p.hashes now_ms.isSome p.throttled) (p.encoder, p.moves)
      return e.finish ops) := by
  unfold Encoder.encode_inner Encoder.prepare
  split
  · simp [throw, throwThe, MonadExceptOf.throw, bind, Except.bind]
  · cases e.compare D frame damage <;> simp [bind, Except.bind, pure, Except.pure]

/-- Before the loop the encoder is still of the surface, and there is one move at most. -/
structure Prepared.Of (p : Prepared) (e : Encoder) : Prop where
  grid : p.encoder.grid = e.grid
  changed_grid : p.changed.grid = e.grid
  sized : p.encoder.Sized
  moves : p.moves = [] ∨ ∃ found : VerticalMove, p.moves = [.Move found.rect found.dy] ∧
    MoveFits e.grid.size found.rect found.dy

theorem prepare_spec {D : Deps} {e : Encoder} {frame : Frame} {now_ms : Option Nat} {p : Prepared}
    (hsized : e.Sized) (h : e.prepare D frame damage now_ms = .ok p) : p.Of e := by
  unfold Encoder.prepare at h
  split at h
  · simp [throw, throwThe, MonadExceptOf.throw, bind, Except.bind] at h
  rename_i hsize
  rw [not_not] at hsize
  cases hcompare : e.compare D frame damage with
  | error error => simp [hcompare, bind, Except.bind] at h
  | ok r =>
    obtain ⟨hashes, content⟩ := r
    obtain ⟨hhashes, hcontent⟩ := compare_grids hsized hsize hcompare
    simp [hcompare, bind, Except.bind, pure, Except.pure] at h
    subst h
    obtain ⟨hadded, -⟩ :=
      contains_add_unknown ({ e with hashes := some hashes } : Encoder) content hcontent
    rcases scroll_cases D ({ e with hashes := some hashes } : Encoder) frame _ hadded with hno |
        ⟨scrolled, changed, found, hscroll, -, hmoved, hchanged, -⟩
    · rw [hno]
      have hfollowed := follow_motion_followed
        ({ e with hashes := some hashes, motion_event := none } : Encoder) hashes content
        (({ e with hashes := some hashes } : Encoder).add_unknown content) now_ms
      refine ⟨hfollowed.setup.grid, hfollowed.grid.trans hadded, ⟨?_, ?_⟩, .inl rfl⟩
      · rw [hfollowed.source, hfollowed.setup.grid]
        exact hsized.source
      · intro H hH
        rw [hfollowed.hashes] at hH
        cases hH
        exact hhashes.trans hfollowed.setup.grid.symm
    · rw [hscroll]
      have hfollowed := follow_motion_followed ({ scrolled with motion_event := none } : Encoder) hashes
        content changed now_ms
      have hgrid : scrolled.grid = e.grid := hmoved.setup.grid
      refine ⟨hfollowed.setup.grid.trans hgrid, hfollowed.grid.trans hchanged, ⟨?_, ?_⟩,
        .inr ⟨found, rfl, ?_⟩⟩
      · rw [hfollowed.source, hfollowed.setup.grid]
        rw [(apply_move_spec _ _ _ _ hmoved.moved).1, hgrid]
        exact hsized.source
      · intro H hH
        rw [hfollowed.hashes] at hH
        simp [hmoved.hashes] at hH
        subst hH
        exact hhashes.trans (hfollowed.setup.grid.trans hgrid).symm
      · have hfits := (apply_move_ok_iff _ _ _).mp ⟨_, hmoved.moved⟩
        simpa [hsized.source] using hfits

/-! ## Calls of an encoder -/

/-- What is asked of an encoder over its life. -/
inductive EncoderCall
  | encode (frame : Frame) (damage : Option (List Rect)) (now_ms : Option Nat)
  | refine_at (now_ms budget_bytes : Nat)
  | acknowledge (sequence : Nat)
  | resume (acknowledged : Nat)
  | cache_miss (miss : CacheMiss)
  | reset_viewer
  | set_lossy_detail (detail : LossyDetail)
  | set_motion_carried (carried : Bool)

def Encoder.produced (D : Deps) (e : Encoder) : EncoderCall → Option (Batch × Encoder)
  | .encode frame damage now_ms => (e.encode_inner D frame damage now_ms).toOption
  | .refine_at now_ms budget_bytes => e.refine_at D now_ms budget_bytes
  | _ => none

def Encoder.called (D : Deps) (e : Encoder) : EncoderCall → Encoder
  | .acknowledge sequence => e.acknowledge sequence
  | .resume acknowledged => (e.resume acknowledged).2
  | .cache_miss miss => e.cache_miss miss
  | .reset_viewer => e.reset_viewer
  | .set_lossy_detail detail => e.set_lossy_detail detail
  | .set_motion_carried carried => e.set_motion_carried carried
  | call => ((e.produced D call).map Prod.snd).getD e

/-- The batch of the call, if there is one, can be written. -/
def Encoder.FitsWire (D : Deps) (e : Encoder) (call : EncoderCall) : Prop :=
  ∀ p, e.produced D call = some p → ∃ bytes, p.1.encode = .ok bytes

/-- A move takes its kind, its rectangle and its distance. -/
def MOVE_BYTES : Nat := 21

/-- All the tiles that a call has to send fit one batch. -/
def Encoder.TilesFit (D : Deps) (e : Encoder) : EncoderCall → Prop
  | .encode frame damage now_ms => ∀ p, e.prepare D frame damage now_ms = .ok p →
      CostsFit (BATCH_HEADER_BYTES + MOVE_BYTES * p.moves.length)
        (frame_costs D p.encoder frame p.hashes now_ms.isSome p.throttled p.encoder.shadow
          p.changed.iter)
  | .refine_at now_ms budget_bytes => ∀ hashes, e.hashes = some hashes → 0 < budget_bytes →
      CostsFit BATCH_HEADER_BYTES
        (refine_costs D e hashes budget_bytes e.shadow 0 (e.ready hashes now_ms))
  | _ => True

section
variable {D : Deps} {e : Encoder}

theorem encode_inner_costs {frame : Frame} {damage : Option (List Rect)} {now_ms : Option Nat}
    {p : Prepared} (hsized : e.Sized) (h : e.prepare D frame damage now_ms = .ok p) :
    ∃ b e', e.encode_inner D frame damage now_ms = .ok (b, e') ∧ e'.Sized ∧
      b.size = e.grid.size ∧ (∀ op ∈ b.ops, OpPlaced b.size op) ∧
      b.ops.map TileOp.cost = List.replicate p.moves.length ⟨MOVE_BYTES, none⟩ ++
        frame_costs D p.encoder frame p.hashes now_ms.isSome p.throttled p.encoder.shadow
          p.changed.iter := by
  have hof := prepare_spec hsized h
  have hiter : ∀ t ∈ p.changed.iter, t < p.encoder.grid.len := by
    intro t ht
    have hlt := TileSet.lt_of_contains ((TileSet.mem_iter p.changed t).mp ht)
    rwa [hof.changed_grid, ← hof.grid] at hlt
  obtain ⟨e', new, hloop, -⟩ := @send_tiles_run D frame p.hashes now_ms.isSome p.throttled
    p.changed.iter p.encoder p.moves hiter hof.sized.source
  obtain ⟨hsame, new', hops, hplaced, hcosts⟩ := send_tiles_cost p.changed.iter
    (SameChoices.refl p.encoder) p.changed.iter_nodup (fun t ht => ⟨hiter t ht, rfl⟩) hloop
  simp at hops
  subst hops
  have hsized' := hsame.sized hof.sized
  have hgrid : e'.grid.size = e.grid.size := by rw [hsame.grid, hof.grid]
  refine ⟨(e'.finish (p.moves ++ new)).1, (e'.finish (p.moves ++ new)).2, ?_,
    ⟨hsized'.source, hsized'.hashes⟩, hgrid, ?_, ?_⟩
  · rw [encode_inner_eq, h]
    simp only [bind, Except.bind, hloop, pure, Except.pure]
  · intro op hop
    rcases List.mem_append.mp hop with hop | hop
    · rcases hof.moves with hnone | ⟨found, hone, hfits⟩
      · simp [hnone] at hop
      · rw [hone, List.mem_singleton] at hop
        subst hop
        change MoveFits e'.grid.size found.rect found.dy
        rwa [hgrid]
    · have hop' := hplaced op hop
      rwa [hof.grid, ← hgrid] at hop'
  · simp [Encoder.finish, hcosts]
    rcases hof.moves with hnone | ⟨found, hone, -⟩
    · simp [hnone]
    · simp [hone, TileOp.cost, TileOp.payload, write_op, i32Bytes, MOVE_BYTES]

theorem refine_at_costs {now_ms budget_bytes : Nat} {b : Batch} {e' : Encoder} (hsized : e.Sized)
    (h : e.refine_at D now_ms budget_bytes = some (b, e')) :
    e'.Sized ∧ 0 < budget_bytes ∧ ∃ hashes, e.hashes = some hashes ∧
      (∀ op ∈ b.ops, OpPlaced b.size op) ∧ b.ops.map TileOp.cost =
        refine_costs D e hashes budget_bytes e.shadow 0 (e.ready hashes now_ms) := by
  unfold Encoder.refine_at at h
  cases hhashes : e.hashes with
  | none => simp [hhashes] at h
  | some hashes =>
    simp only [hhashes] at h
    split at h
    · cases h
    · obtain ⟨hsame, new, hops, hplaced, hcosts⟩ := @refine_tiles_cost D hashes e budget_bytes
        (e.ready hashes now_ms) e 0 [] (SameChoices.refl e) rfl (fun p hp => (mem_ready hp).1)
        (by simp)
      obtain ⟨rfl, rfl⟩ := h
      have hsized' := hsame.sized hsized
      refine ⟨⟨hsized'.source, hsized'.hashes⟩, by omega, hashes, rfl, ?_, ?_⟩
      · simpa [hops, hsame.grid] using hplaced
      · simpa [hops] using hcosts

theorem called_sized (hsized : e.Sized) (call : EncoderCall) : (e.called D call).Sized := by
  obtain ⟨hsource, hhashes⟩ := hsized
  cases call with
  | encode frame damage now_ms =>
    cases hprepare : e.prepare D frame damage now_ms with
    | error error =>
      have herror : e.encode_inner D frame damage now_ms = .error error := by
        simp [encode_inner_eq, hprepare, bind, Except.bind]
      simpa [Encoder.called, Encoder.produced, herror, Except.toOption]
        using Encoder.Sized.mk hsource hhashes
    | ok p =>
      obtain ⟨b, e', hencode, hsized', -⟩ := encode_inner_costs ⟨hsource, hhashes⟩ hprepare
      simpa [Encoder.called, Encoder.produced, hencode, Except.toOption] using hsized'
  | refine_at now_ms budget_bytes =>
    cases hrefine : e.refine_at D now_ms budget_bytes with
    | none => simpa [Encoder.called, Encoder.produced, hrefine] using Encoder.Sized.mk hsource hhashes
    | some r =>
      simpa [Encoder.called, Encoder.produced, hrefine] using
        (refine_at_costs ⟨hsource, hhashes⟩ hrefine).1
  | acknowledge sequence =>
    simp only [Encoder.called, Encoder.acknowledge]
    split <;> exact ⟨hsource, hhashes⟩
  | resume acknowledged =>
    simp only [Encoder.called, Encoder.resume]
    split <;> exact ⟨hsource, hhashes⟩
  | cache_miss miss => exact ⟨hsource, hhashes⟩
  | reset_viewer => exact ⟨hsource, hhashes⟩
  | set_lossy_detail detail => exact ⟨hsource, hhashes⟩
  | set_motion_carried carried => exact ⟨hsource, hhashes⟩

theorem costsFit_moves (before count : Nat) (costs : List TileCost) :
    CostsFit before (List.replicate count ⟨MOVE_BYTES, none⟩ ++ costs) ↔
      CostsFit (before + MOVE_BYTES * count) costs := by
  simp [CostsFit, List.mem_append, List.mem_replicate, or_imp, forall_and, Nat.mul_comm count,
    Nat.add_assoc]

/-- What a call returns can be written exactly when all its tiles fit one batch. -/
theorem fitsWire_iff (hsized : e.Sized) (call : EncoderCall) :
    e.FitsWire D call ↔ e.TilesFit D call := by
  cases call with
  | encode frame damage now_ms =>
    simp only [Encoder.FitsWire, Encoder.TilesFit, Encoder.produced]
    cases hprepare : e.prepare D frame damage now_ms with
    | error error =>
      have herror : e.encode_inner D frame damage now_ms = .error error := by
        simp [encode_inner_eq, hprepare, bind, Except.bind]
      simp [herror, Except.toOption]
    | ok p =>
      obtain ⟨b, e', hencode, -, -, hplaced, hcosts⟩ := encode_inner_costs hsized hprepare
      have hiff := batch_encodes_iff hplaced
      rw [hcosts, costsFit_moves] at hiff
      simpa [hencode, Except.toOption] using hiff
  | refine_at now_ms budget_bytes =>
    simp only [Encoder.FitsWire, Encoder.TilesFit, Encoder.produced]
    cases hrefine : e.refine_at D now_ms budget_bytes with
    | none =>
      unfold Encoder.refine_at at hrefine
      simp
      intro hashes hhashes hbudget
      have hready : e.ready hashes now_ms = [] := by
        simpa [hhashes, Nat.pos_iff_ne_zero.mp hbudget] using hrefine
      simp [hready, refine_costs, CostsFit, BATCH_HEADER_BYTES, MAX_BATCH_BYTES]
    | some r =>
      obtain ⟨-, hbudget, hashes, hhashes, hplaced, hcosts⟩ := refine_at_costs hsized hrefine
      have hiff := batch_encodes_iff hplaced
      rw [hcosts] at hiff
      simpa [hhashes, hbudget] using hiff
  | _ => simp [Encoder.FitsWire, Encoder.TilesFit, Encoder.produced]

end

/-- The batches that an encoder produces do not all fit the wire, since nothing splits what a frame
comes to. Over every life of an encoder, the batch of a call fits exactly when all the tiles that
the call has to send fit one. -/
theorem batches_fit_iff (D : Deps) (surface : SurfaceId) (generation : Generation) (size : Size)
    (config : EncoderConfig) (calls : List EncoderCall) (call : EncoderCall) :
    let e := Runs.run (Encoder.called D) (Encoder.new surface generation size config) calls
    e.FitsWire D call ↔ e.TilesFit D call := by
  apply fitsWire_iff
  exact Runs.keeps_always Encoder.Sized (fun _ call hsized => called_sized hsized call)
    ⟨rfl, by simp [Encoder.new]⟩ calls

/-! ## A frame of two colours -/

theorem few_colors_are_text {f : Frame} {rect : Rect} {colors : List Color} {p q : Pixel}
    (hfew : colors.length ≤ MAX_PALETTE_COLORS) (hcolors : ∀ x y, (f.pixel x y).color ∈ colors)
    (hp : p ∈ f.copy_rect rect) (hq : q ∈ f.copy_rect rect) (hne : p.color ≠ q.color) :
    classify f rect = .Text := by
  have hpixel : ∀ (s : ClassifyState) (r : Pixel), r.color ∈ colors →
      s.palette.Nodup ∧ s.palette ⊆ colors →
      (classify_pixel s r).palette.Nodup ∧ (classify_pixel s r).palette ⊆ colors := by
    intro s r hr hs
    rw [(classify_pixel_palette s r).2]
    split
    · rename_i hnew
      refine ⟨?_, by simpa [hs.2] using hr⟩
      rw [List.nodup_append]
      refine ⟨hs.1, List.nodup_singleton _, fun a ha b hb => ?_⟩
      rw [List.mem_singleton] at hb
      rintro rfl
      exact hnew.2.2 (hb ▸ ha)
    · exact hs
  have hrow : ∀ (row : List Pixel) (s : ClassifyState), (∀ r ∈ row, r.color ∈ colors) →
      s.palette.Nodup ∧ s.palette ⊆ colors →
      (row.foldl classify_pixel s).palette.Nodup ∧ (row.foldl classify_pixel s).palette ⊆ colors := by
    intro row
    induction row with
    | nil => exact fun s _ hs => hs
    | cons r row ih =>
      intro s hmem hs
      exact ih _ (fun r hr => hmem r (by simp [hr])) (hpixel s r (hmem r (by simp)) hs)
  have hrows : ∀ (rows : List Nat) (s : ClassifyState), s.palette.Nodup ∧ s.palette ⊆ colors →
      (rows.foldl (classify_row f rect) s).palette.Nodup ∧
        (rows.foldl (classify_row f rect) s).palette ⊆ colors := by
    intro rows
    induction rows with
    | nil => exact fun s hs => hs
    | cons y rows ih =>
      intro s hs
      refine ih _ (hrow _ _ (fun r hr => ?_) hs)
      simp [Frame.row_span] at hr
      obtain ⟨x, -, rfl⟩ := hr
      exact hcolors _ _
  have hpalette := hrows (List.range' rect.y rect.height) ⟨[], none, 0, 0, none⟩ (by simp)
  have hsolid := fun c => solid_is_one_color f rect c
  unfold classify at hsolid ⊢
  simp only at hsolid ⊢
  have hlength := (hpalette.1.subperm hpalette.2).length_le
  split
  · rename_i c hone
    have hc := hsolid c (by simp [hone])
    exact absurd ((hc p hp).trans (hc q hq).symm) hne
  · rw [if_pos (by omega)]

/-- Text that the viewer does not hold takes more than sixteen bytes a tile. -/
theorem text_costs (D : Deps) (e : Encoder) (frame : Frame) (hashes : TileHashes) (throttled : Bool)
    {shadow : CacheShadow} (hshadow : shadow = CacheShadow.new 0) (tiles : List Nat)
    (h : ∀ t ∈ tiles, e.viewer t = .Unknown ∧ classify frame (e.grid.rectOf t) = .Text ∧
      0 < pixel_bytes (e.grid.rectOf t)) : 17 * tiles.length ≤
      ((frame_costs D e frame hashes false throttled shadow tiles).map TileCost.bytes).sum := by
  subst hshadow
  induction tiles with
  | nil => simp
  | cons tile tiles ih =>
    obtain ⟨hviewer, htext, hpixels⟩ := h tile (by simp)
    have hrest := ih fun t ht => h t (by simp [ht])
    rw [frame_costs_sent tiles (by simp [hviewer])]
    have hcost : tile_cost D frame (e.grid.rectOf tile) (hashes.hashes tile) e.config.lossy_detail
        (CacheShadow.new 0) .Text = (⟨17 + (encode_lossless D frame (e.grid.rectOf tile)).length,
          some (encode_lossless D frame (e.grid.rectOf tile)).length⟩, CacheShadow.new 0) := by
      simp [tile_cost, CacheShadow.use_if_held, CacheShadow.new, CacheIndex.new, CacheIndex.touch,
        CacheShadow.record_sent, CacheIndex.insert, hpixels]
    simp [class_in, htext, hcost]
    omega

/-- With no cache and no scrolls, a first frame that is text all over does not fit once its tiles
are too many. -/
theorem too_much_text_does_not_fit (D : Deps) (surface : SurfaceId) (generation : Generation)
    {frame : Frame} {config : EncoderConfig} (hscrolls : config.detect_scrolls = false)
    (hcache : config.cache_bytes = 0) (htext : ∀ t < (TileGrid.new frame.size).len,
      classify frame ((TileGrid.new frame.size).rectOf t) = .Text)
    (hmany : MAX_BATCH_BYTES < BATCH_HEADER_BYTES + 17 * (TileGrid.new frame.size).len) :
    ¬(Encoder.new surface generation frame.size config).FitsWire D (.encode frame none none) := by
  rw [fitsWire_iff ⟨rfl, by simp [Encoder.new]⟩]
  generalize he : Encoder.new surface generation frame.size config = e
  have hgrid : e.grid = TileGrid.new frame.size := by rw [← he]; rfl
  have hviewer : ∀ t, e.viewer t = .Unknown := by rw [← he]; exact fun _ => rfl
  have hshadow : e.shadow = CacheShadow.new 0 := by rw [← he, ← hcache]; rfl
  let hashes := TileHashes.compute D frame
  let changed := ({ e with hashes := some hashes } : Encoder).add_unknown (TileSet.full e.grid)
  have hprepare : e.prepare D frame none none =
      .ok ⟨{ e with hashes := some hashes, motion_event := none }, hashes, changed, [], false⟩ := by
    have hhashes : e.hashes = none := by rw [← he]; rfl
    have hconfig : e.config.detect_scrolls = false := by rw [← he]; exact hscrolls
    have hsize : frame.size = e.grid.size := by rw [hgrid]; rfl
    simp [Encoder.prepare, hsize, Encoder.compare, hhashes, Encoder.scroll, hconfig,
      Encoder.follow_motion, bind, Except.bind, pure, Except.pure, hashes, changed]
  obtain ⟨hchanged, hcontains⟩ := contains_add_unknown
    ({ e with hashes := some hashes } : Encoder) _ (TileSet.full_grid e.grid)
  have hiter : changed.iter = List.range e.grid.len := by
    rw [TileSet.iter, hchanged, List.filter_eq_self]
    intro t ht
    rw [List.mem_range] at ht
    have hmem : changed.contains t = true := (hcontains t).mpr (.inr ⟨ht, hviewer t⟩)
    simp [TileSet.contains] at hmem
    exact hmem.2
  intro hfit
  have hle := (hfit _ hprepare).1
  have hcosts := text_costs D { e with hashes := some hashes, motion_event := none } frame hashes
    false hshadow changed.iter (fun t ht => by
      rw [hiter, List.mem_range, hgrid] at ht
      refine ⟨hviewer t, by simpa [hgrid] using htext t ht, ?_⟩
      obtain ⟨hwide, -, htall, -⟩ := (TileGrid.new frame.size).rectOf_inside t ht
      simp [hgrid, pixel_bytes, BYTES_PER_PIXEL, hwide, htall])
  rw [hiter, List.length_range] at hcosts
  simp [hiter] at hle
  rw [← hgrid] at hmany
  omega

def largestSize : Size := ⟨16384, 16384, by decide, by decide, by decide, by decide⟩

def black : Pixel := ⟨0, 0, 0, 255⟩

def white : Pixel := ⟨255, 255, 255, 255⟩

/-- Columns of two colours in turn. -/
def stripes : Frame := ⟨largestSize, fun x _ => if x % 2 = 0 then black else white⟩

/-- A viewer that keeps nothing, on a surface that is not looked at for scrolls. -/
def bareConfig : EncoderConfig := ⟨0, .STANDARD, false, .default⟩

theorem stripes_are_text {t : Nat} (ht : t < (TileGrid.new largestSize).len) :
    classify stripes ((TileGrid.new largestSize).rectOf t) = .Text := by
  have hcolumns : (TileGrid.new largestSize).columns = 256 := by decide
  obtain ⟨-, -, htall, -⟩ := (TileGrid.new largestSize).rectOf_inside t ht
  have hpixel : ∀ dx, dx < 64 → stripes.pixel (t % 256 * 64 + dx) (t / 256 * 64) ∈
      stripes.copy_rect ((TileGrid.new largestSize).rectOf t) := by
    intro dx hdx
    simp [Frame.copy_rect, Frame.row_span]
    refine ⟨t / 256 * 64, ?_, dx, ?_, ?_⟩
    · simp only [TileGrid.rectOf, hcolumns, TILE_SIZE] at htall ⊢
      omega
    · simp only [TileGrid.rectOf, hcolumns, TILE_SIZE]
      simp only [TileGrid.new, largestSize]
      omega
    · simp only [TileGrid.rectOf, hcolumns, TILE_SIZE]
  have hblack : stripes.pixel (t % 256 * 64 + 0) (t / 256 * 64) = black := if_pos (by omega)
  have hwhite : stripes.pixel (t % 256 * 64 + 1) (t / 256 * 64) = white := if_neg (by omega)
  apply @few_colors_are_text _ _ [black.color, white.color] black white
  · decide
  · intro x y
    by_cases h : x % 2 = 0 <;> simp [stripes, h]
  · rw [← hblack]
    exact hpixel 0 (by decide)
  · rw [← hwhite]
    exact hpixel 1 (by decide)
  · decide

/-- The first frame of a large surface comes to more than a batch holds, so the batch that shows all
of it cannot be written. -/
theorem stripes_do_not_fit : shortDeps.InflateUndoesDeflate ∧
      ¬(Encoder.new 1 1 largestSize bareConfig).FitsWire shortDeps (.encode stripes none none) := by
  refine ⟨shortDeps_inflate, ?_⟩
  apply @too_much_text_does_not_fit shortDeps 1 1 stripes bareConfig rfl rfl
  · exact fun t ht => stripes_are_text ht
  · decide

end multiplex_screen_codec
