-- The encoder and the decoder in step. Whatever a batch draws, the viewer
-- shows afterwards what the encoder believes, tile by tile, except where a
-- cached tile was missing. With equal caches nothing is ever missing.
import Multiplex.ScreenCodec.Belief
import Multiplex.ScreenCodec.Decoder

namespace multiplex_screen_codec

/-! ## What the viewer shows -/

/-- The last lossy payload sent for each tile, after more operations. -/
def lastLossy (L : Nat → Option (List UInt8)) (ops : List TileOp) : Nat → Option (List UInt8) :=
  ops.foldl (fun L op =>
    match op with
    | .Lossy t p => Function.update L t (some p)
    | _ => L) L

/-- The picture shows what the encoder believes of every tile outside `X`: the pixels of the source
copy, or the decoded form of the last lossy payload. -/
structure Shows (D : Deps) (e : Encoder) (fb : FrameBuffer) (L : Nat → Option (List UInt8))
    (X : Nat → Prop) : Prop where
  size : fb.size = e.grid.size
  exact : ∀ t < e.grid.len, ¬ X t → ∀ h, e.viewer t = .Exact h →
    fb.SameOn e.source (e.grid.rectOf t)
  approx : ∀ t < e.grid.len, ¬ X t → ∀ h, e.viewer t = .Approximate h → ∃ p px, L t = some p ∧
    decode_lossy D p (e.grid.rectOf t).width (e.grid.rectOf t).height = .ok px ∧
    fb.copy_rect (e.grid.rectOf t) = px

theorem Shows.mono {D : Deps} {e : Encoder} {fb : FrameBuffer} {L : Nat → Option (List UInt8)}
    {X Y : Nat → Prop} (h : Shows D e fb L X) (hXY : ∀ t, X t → Y t) : Shows D e fb L Y :=
  ⟨h.size, fun t ht hx => h.exact t ht (fun hc => hx (hXY t hc)),
    fun t ht hx => h.approx t ht (fun hc => hx (hXY t hc))⟩

/-- The tile, its source pixels, its payload and the belief about it are as they were. -/
structure TileCarried (e e' : Encoder) (fb fb' : FrameBuffer) (L L' : Nat → Option (List UInt8))
    (t : Nat) : Prop where
  source : e'.source.SameOn e.source (e.grid.rectOf t)
  picture : fb'.SameOn fb (e.grid.rectOf t)
  payload : L' t = L t
  viewer : e'.viewer t = e.viewer t

theorem shows_step {D : Deps} {e e' : Encoder} {fb fb' : FrameBuffer}
    {L L' : Nat → Option (List UInt8)} {X X' : Nat → Prop} (h : Shows D e fb L X)
    (hg : e'.grid = e.grid) (hsize : fb'.size = fb.size)
    (hstep : ∀ t < e.grid.len, ¬ X' t → e'.viewer t = .Unknown ∨
      (¬ X t ∧ TileCarried e e' fb fb' L L' t) ∨
      (∃ k, e'.viewer t = .Exact k ∧ fb'.SameOn e'.source (e.grid.rectOf t)) ∨
      (∃ k p px, e'.viewer t = .Approximate k ∧ L' t = some p ∧
        decode_lossy D p (e.grid.rectOf t).width (e.grid.rectOf t).height = .ok px ∧
        fb'.copy_rect (e.grid.rectOf t) = px)) : Shows D e' fb' L' X' := by
  refine ⟨by rw [hsize, hg]; exact h.size, ?_, ?_⟩
  · intro t ht hx k hk
    rw [hg] at ht ⊢
    rcases hstep t ht hx with hv | ⟨hold, hc⟩ | ⟨k', -, hs⟩ | ⟨k', p, px, hv, -⟩
    · rw [hv] at hk
      cases hk
    · rw [hc.viewer] at hk
      exact (hc.picture.trans (h.exact t ht hold k hk)).trans hc.source.symm
    · exact hs
    · rw [hv] at hk
      cases hk
  · intro t ht hx k hk
    rw [hg] at ht ⊢
    obtain ⟨hr, hb⟩ := e.grid.rectOf_right t ht
    rcases hstep t ht hx with hv | ⟨hold, hc⟩ | ⟨k', hv, -⟩ | ⟨k', p, px, -, h1, h2, h3⟩
    · rw [hv] at hk
      cases hk
    · rw [hc.viewer] at hk
      obtain ⟨p, px, h1, h2, h3⟩ := h.approx t ht hold k hk
      exact ⟨p, px, by rw [hc.payload, h1], h2,
        by rw [(copy_rect_eq_iff fb' fb _ hr hb).mpr hc.picture, h3]⟩
    · rw [hv] at hk
      cases hk
    · exact ⟨p, px, h1, h2, h3⟩

theorem Shows.forget {D : Deps} {e e' : Encoder} {fb : FrameBuffer}
    {L : Nat → Option (List UInt8)} {X : Nat → Prop} (h : Shows D e fb L X)
    (hg : e'.grid = e.grid) (hs : e'.source = e.source)
    (hv : ∀ t < e.grid.len, e'.viewer t = e.viewer t ∨ e'.viewer t = .Unknown) :
    Shows D e' fb L X := by
  refine shows_step h hg rfl ?_
  intro t ht hx
  rcases hv t ht with hv | hv
  · exact .inr (.inl ⟨hx, by rw [hs]; exact fun _ _ _ => rfl, fun _ _ _ => rfl, rfl, hv⟩)
  · exact .inl hv

/-! ## Drawing one tile -/

/-- The viewer after the operation of a sent tile: the tile is drawn, or it is missed. -/
structure DrawnTile (D : Deps) (tiles : Set TileImage) (f : Frame) (grid : TileGrid) (t : Nat)
    (hash : TileHash) (op : TileOp) (state : ViewerTile) (d d' : DrawState) : Prop where
  size : d'.framebuffer.size = d.framebuffer.size
  sound : CacheSound D tiles d'.cache
  others : ∀ x y, ¬ (grid.rectOf t).Covers x y → d'.framebuffer.pixel x y = d.framebuffer.pixel x y
  drawn : (d'.misses = d.misses ∧
      ((state = .Exact hash ∧ d'.framebuffer.SameOn f (grid.rectOf t)) ∨
        ∃ p px, op = .Lossy t p ∧ state = .Approximate hash ∧
          decode_lossy D p (grid.rectOf t).width (grid.rectOf t).height = .ok px ∧
          d'.framebuffer.copy_rect (grid.rectOf t) = px)) ∨
    (d'.misses = d.misses ++ [⟨t, hash⟩] ∧ op = .Cached t hash ∧ d'.framebuffer = d.framebuffer)

section

variable {D : Deps} {tiles : Set TileImage} {f : Frame} {e e1 : Encoder} {t : Nat}
  {hash : TileHash} {d : DrawState}

theorem tile_rect_some {grid : TileGrid} (ht : t < grid.len) :
    grid.tile_rect t = some (grid.rectOf t) := by
  simp [TileGrid.tile_rect, TileGrid.contains, ht]

theorem draw_solid (hash : TileHash) (c : Color) (hf : f.FullAlpha) (ht : t < e.grid.len)
    (hc : classify f (e.grid.rectOf t) = .Solid c) (hfb : d.framebuffer.size = e.grid.size)
    (hs : CacheSound D tiles d.cache) :
    ∃ d', apply_op D e.grid d (.Solid t c) = (d', none) ∧ d'.cache = d.cache ∧
      d'.misses = d.misses ∧ DrawnTile D tiles f e.grid t hash (.Solid t c) (.Exact hash) d d' := by
  obtain ⟨fb', hw, h1, h2⟩ := fill_rect_spec d.framebuffer (e.grid.rectOf t) c.pixel
    (e.grid.rectOf_not_empty t ht) (by rw [hfb]; exact e.grid.rectOf_in_bounds t ht)
  obtain ⟨hr, hb⟩ := e.grid.rectOf_right t ht
  refine ⟨{ d with framebuffer := fb', damaged := d.damaged ++ [e.grid.rectOf t] }, ?_, rfl, rfl, h1,
    hs, ?_, .inl ⟨rfl, .inl ⟨rfl, ?_⟩⟩⟩
  · simp [apply_op, tile_rect_some ht, hw, DrawState.drawn]
  · intro x y hn
    rw [h2, if_neg hn]
  · apply solid_pixels f fb' _ c hf hr hb hc
    intro x y hcov
    rw [h2, if_pos hcov]

theorem write_tile (fb : FrameBuffer) (grid : TileGrid) (ht : t < grid.len)
    (hfb : fb.size = grid.size) (px : List Pixel)
    (hpx : px.length = (grid.rectOf t).width * (grid.rectOf t).height) :
    ∃ fb', fb.write_rect (grid.rectOf t) px = .ok fb' ∧ fb'.size = fb.size ∧
      fb'.copy_rect (grid.rectOf t) = px ∧
      ∀ x y, ¬ (grid.rectOf t).Covers x y → fb'.pixel x y = fb.pixel x y :=
  write_rect_spec fb (grid.rectOf t) px (grid.rectOf_not_empty t ht)
    (by rw [hfb]; exact grid.rectOf_in_bounds t ht) hpx

theorem draw_cached (hcol : NoCollision D tiles) (ht : t < e.grid.len)
    (hhash : hash = hash_rect D f (e.grid.rectOf t)) (himg : f.image (e.grid.rectOf t) ∈ tiles)
    (hfb : d.framebuffer.size = e.grid.size) (hs : CacheSound D tiles d.cache) :
    ∃ d', apply_op D e.grid d (.Cached t hash) = (d', none) ∧
      d'.cache.index = (d.cache.index.touch hash).2 ∧
      ((d.cache.index.touch hash).1 = true → d'.misses = d.misses) ∧
      DrawnTile D tiles f e.grid t hash (.Cached t hash) (.Exact hash) d d' := by
  obtain ⟨g1, g2, g3, g4⟩ := get_spec D tiles d.cache hash hs
  obtain ⟨hr, hb⟩ := e.grid.rectOf_right t ht
  cases htouch : (d.cache.index.touch hash).1 with
  | true =>
    obtain ⟨tile, htile, hget, hth⟩ := g3 htouch
    -- the same hash, so the same tile
    have hsame : tile = f.image (e.grid.rectOf t) := by
      apply hcol tile htile _ himg
      rw [hth, hhash]
      rfl
    have hpx : tile.pixels = f.copy_rect (e.grid.rectOf t) := by rw [hsame]; rfl
    obtain ⟨fb', hw, h1, h2, h3⟩ := write_tile d.framebuffer e.grid ht hfb tile.pixels
      (by rw [hpx, length_copy_rect])
    refine ⟨{ d with
        framebuffer := fb'
        cache := (d.cache.get hash).2
        damaged := d.damaged ++ [e.grid.rectOf t] }, ?_, g2, fun _ => rfl, h1, g1, h3,
        .inl ⟨rfl, .inl ⟨rfl, ?_⟩⟩⟩
    · have hdim : tile.width = (e.grid.rectOf t).width ∧ tile.height = (e.grid.rectOf t).height := by
        rw [hsame]
        exact ⟨rfl, rfl⟩
      simp [apply_op, tile_rect_some ht, apply_cached, hget, hdim, hw, DrawState.drawn]
    · exact (copy_rect_eq_iff fb' f _ hr hb).mp (by rw [h2, hpx])
  | false =>
    have hget := g4 htouch
    refine ⟨{ d with cache := (d.cache.get hash).2, misses := d.misses ++ [⟨t, hash⟩] }, ?_, g2,
      by simp, rfl, g1, fun _ _ _ => rfl, .inr ⟨rfl, rfl, rfl⟩⟩
    simp [apply_op, tile_rect_some ht, apply_cached, hget]

theorem draw_lossless (hD : D.InflateUndoesDeflate) (hf : f.FullAlpha) (ht : t < e.grid.len)
    (hhash : hash = hash_rect D f (e.grid.rectOf t)) (himg : f.image (e.grid.rectOf t) ∈ tiles)
    (hfb : d.framebuffer.size = e.grid.size) (hs : CacheSound D tiles d.cache) :
    ∃ d', apply_op D e.grid d (.Lossless t hash (encode_lossless D f (e.grid.rectOf t))) =
        (d', none) ∧
      d'.cache.index = (d.cache.index.insert hash (pixel_bytes (e.grid.rectOf t))).2 ∧
      d'.misses = d.misses ∧ DrawnTile D tiles f e.grid t hash
        (.Lossless t hash (encode_lossless D f (e.grid.rectOf t))) (.Exact hash) d d' := by
  obtain ⟨hw0, hw1, hh0, hh1, hx, hy⟩ := e.grid.rectOf_inside t ht
  obtain ⟨hr, hb⟩ := e.grid.rectOf_right t ht
  have hdec := decode_encode_lossless D hD f (e.grid.rectOf t) hf hw0 hw1 hh0 hh1
  obtain ⟨fb', hw, h1, h2, h3⟩ := write_tile d.framebuffer e.grid ht hfb
    (f.copy_rect (e.grid.rectOf t)) (length_copy_rect _ _)
  have hmax := e.grid.size.width_le
  have hmaxh := e.grid.size.height_le
  have hsize : Size.new (e.grid.rectOf t).width (e.grid.rectOf t).height =
      .ok ⟨(e.grid.rectOf t).width, (e.grid.rectOf t).height, hw0, hh0, by omega, by omega⟩ := by
    unfold Size.new
    rw [dif_pos ⟨hw0, hh0, by omega, by omega⟩]
  have hmatch : hash_rect D (Frame.ofPacked ⟨(e.grid.rectOf t).width, (e.grid.rectOf t).height, hw0,
      hh0, by omega, by omega⟩ (f.copy_rect (e.grid.rectOf t)))
      (Size.bounds ⟨(e.grid.rectOf t).width, (e.grid.rectOf t).height, hw0, hh0, by omega,
        by omega⟩) = hash := by
    rw [hhash]
    simp only [hash_rect, Frame.image]
    rw [copy_rect_ofPacked _ _ (length_copy_rect _ _)]
    rfl
  have hins := viewer_insert_spec D tiles d.cache (f.image (e.grid.rectOf t)) hs himg
  have hh : hashImage D (f.image (e.grid.rectOf t)) = hash := by rw [hhash]; rfl
  rw [hh] at hins
  refine ⟨{ d with
      framebuffer := fb'
      cache := d.cache.insert hash (f.image (e.grid.rectOf t))
      damaged := d.damaged ++ [e.grid.rectOf t] }, ?_, ?_, rfl, h1, hins.1, h3,
      .inl ⟨rfl, .inl ⟨rfl, ?_⟩⟩⟩
  · simp [apply_op, tile_rect_some ht, apply_lossless, hdec, hsize, hmatch, hw]
    rfl
  · rw [hins.2]
    simp only [Frame.image, length_copy_rect, pixel_bytes]
  · exact (copy_rect_eq_iff fb' f _ hr hb).mp h2

theorem draw_lossy (hash : TileHash) (hD : D.InflateUndoesDeflate) (detail : LossyDetail)
    (ht : t < e.grid.len)
    (hfb : d.framebuffer.size = e.grid.size) (hs : CacheSound D tiles d.cache) :
    ∃ d', apply_op D e.grid d (.Lossy t (encode_lossy D f (e.grid.rectOf t) detail)) = (d', none) ∧
      d'.cache = d.cache ∧ d'.misses = d.misses ∧
      DrawnTile D tiles f e.grid t hash (.Lossy t (encode_lossy D f (e.grid.rectOf t) detail))
        (.Approximate hash) d d' := by
  obtain ⟨hw0, hw1, hh0, hh1, -, -⟩ := e.grid.rectOf_inside t ht
  have hdec := decode_encode_lossy D hD f (e.grid.rectOf t) detail hw0 hw1 hh0 hh1
  obtain ⟨fb', hw, h1, h2, h3⟩ := write_tile d.framebuffer e.grid ht hfb _
    (length_spreadBlocks ((blockRows f (e.grid.rectOf t) (8 - detail.bits)).flatten.map
      (restoreCode (8 - detail.bits))) (e.grid.rectOf t).width (e.grid.rectOf t).height)
  refine ⟨{ d with framebuffer := fb', damaged := d.damaged ++ [e.grid.rectOf t] }, ?_, rfl, rfl, h1,
    hs, h3, .inl ⟨rfl, .inr ⟨_, _, rfl, rfl, hdec, h2⟩⟩⟩
  simp only [apply_op, tile_rect_some ht, hdec, hw, DrawState.drawn]

/-- The operation of a sent tile never fails. With equal caches nothing is missed, and the caches
stay equal. -/
theorem draw_sending {op : TileOp} {state : ViewerTile} (hD : D.InflateUndoesDeflate)
    (hcol : NoCollision D tiles) (hf : f.FullAlpha) (ht : t < e.grid.len)
    (hhash : hash = hash_rect D f (e.grid.rectOf t)) (himg : f.image (e.grid.rectOf t) ∈ tiles)
    (hsend : Sending D f e t hash e1 op state) (hfb : d.framebuffer.size = e.grid.size)
    (hs : CacheSound D tiles d.cache) :
    ∃ d', apply_op D e.grid d op = (d', none) ∧ DrawnTile D tiles f e.grid t hash op state d d' ∧
      (e.shadow.index = d.cache.index → e1.shadow.index = d'.cache.index ∧ d'.misses = d.misses) := by
  cases hsend with
  | solid c hc =>
    obtain ⟨d', h1, h2, h3, h4⟩ := draw_solid hash c hf ht hc hfb hs
    exact ⟨d', h1, h4, fun h => ⟨by rw [h2]; exact h, h3⟩⟩
  | cached hh =>
    obtain ⟨d', h1, h2, h3, h4⟩ := draw_cached hcol ht hhash himg hfb hs
    refine ⟨d', h1, h4, fun h => ?_⟩
    rw [h] at hh
    exact ⟨by rw [h2, h], h3 hh⟩
  | lossless hh =>
    obtain ⟨d', h1, h2, h3, h4⟩ := draw_lossless hD hf ht hhash himg hfb hs
    refine ⟨d', h1, h4, fun h => ⟨?_, h3⟩⟩
    rw [h2, ← h]
    rfl
  | lossy hh =>
    obtain ⟨d', h1, h2, h3, h4⟩ := draw_lossy hash hD e.config.lossy_detail ht hfb hs
    exact ⟨d', h1, h4, fun h => ⟨by rw [h2]; exact h, h3⟩⟩

end

/-! ## Drawing a batch -/

def Missed (misses : List CacheMiss) (t : Nat) : Prop := ∃ m ∈ misses, m.tile = t

/-- The viewer in the middle of a batch: it shows what the encoder believes outside `X` and the
tiles missed so far. -/
structure Drawing (D : Deps) (tiles : Set TileImage) (e : Encoder) (d : DrawState)
    (L : Nat → Option (List UInt8)) (X : Nat → Prop) : Prop where
  shows : Shows D e d.framebuffer L (fun t => X t ∨ Missed d.misses t)
  sound : CacheSound D tiles d.cache

/-- Batch `n` drew the tile, or its pixels and its number are as they were. -/
def PixelsKept (n : Nat) (e e' : Encoder) (fb fb' : FrameBuffer) (t : Nat) : Prop :=
  e'.sent_at t = n ∨ (e'.sent_at t = e.sent_at t ∧ fb'.SameOn fb (e.grid.rectOf t))

theorem PixelsKept.refl (n : Nat) (e : Encoder) (fb : FrameBuffer) (t : Nat) :
    PixelsKept n e e fb fb t := .inr ⟨rfl, fun _ _ _ => rfl⟩

theorem PixelsKept.trans {n t : Nat} {a b c : Encoder} {fa fb fc : FrameBuffer}
    (hg : b.grid = a.grid) (h1 : PixelsKept n a b fa fb t) (h2 : PixelsKept n b c fb fc t) :
    PixelsKept n a c fa fc t := by
  rcases h2 with h2 | ⟨h2, hp2⟩
  · exact .inl h2
  rcases h1 with h1 | ⟨h1, hp1⟩
  · exact .inl (h2.trans h1)
  · rw [hg] at hp2
    exact .inr ⟨h2.trans h1, hp2.trans hp1⟩

/-- The misses grew by tiles that batch `n` tried to draw. -/
def NewMisses (n : Nat) (grid : TileGrid) (e : Encoder) (d d' : DrawState) : Prop :=
  ∃ more, d'.misses = d.misses ++ more ∧ ∀ m ∈ more, m.tile < grid.len ∧ e.sent_at m.tile = n

section
variable (L : Nat → Option (List UInt8))

theorem lastLossy_cons (op : TileOp) (ops : List TileOp) :
    lastLossy L (op :: ops) = lastLossy (lastLossy L [op]) ops := rfl

theorem lastLossy_append (a b : List TileOp) :
    lastLossy L (a ++ b) = lastLossy (lastLossy L a) b := by
  simp [lastLossy]

theorem lastLossy_other (ops : List TileOp) (t : Nat) (h : ∀ p, TileOp.Lossy t p ∉ ops) :
    lastLossy L ops t = L t := by
  induction ops generalizing L with
  | nil => rfl
  | cons op ops ih =>
    rw [lastLossy_cons, ih _ fun p hp => h p (by simp [hp])]
    cases op with
    | Lossy u p =>
      have hne : t ≠ u := by
        rintro rfl
        exact h p (by simp)
      simp [lastLossy, hne]
    | _ => rfl

end

section

variable {D : Deps} {tiles : Set TileImage} {f : Frame} {H : TileHashes}

variable {L : Nat → Option (List UInt8)} {X : Nat → Prop} {ops : List TileOp} {last : Option Frame}
  {fb : FrameBuffer}

theorem drawing_sent {e e1 e2 : Encoder} {t : Nat} {op : TileOp} {state : ViewerTile}
    {d : DrawState} (hD : D.InflateUndoesDeflate) (hcol : NoCollision D tiles) (hf : f.FullAlpha)
    (ht : t < e.grid.len) (hH : H.hashes t = hash_rect D f (e.grid.rectOf t))
    (himg : f.image (e.grid.rectOf t) ∈ tiles) (hs : Sending D f e t (H.hashes t) e1 op state)
    (hsent : TileSent f e1 t state e2) (hd : Drawing D tiles e d L X) :
    ∃ d', apply_op D e.grid d op = (d', none) ∧ Drawing D tiles e2 d' (lastLossy L [op]) X ∧
      (∀ u < e.grid.len, PixelsKept e.next_sequence e e2 d.framebuffer d'.framebuffer u) ∧
      NewMisses e.next_sequence e.grid e2 d d' ∧ (e.shadow.index = d.cache.index →
        e2.shadow.index = d'.cache.index ∧ d'.misses = d.misses) := by
  obtain ⟨d', hop, hdrawn, hlock⟩ := draw_sending hD hcol hf ht hH himg hs hd.shows.size hd.sound
  obtain ⟨hsetup, hsrc, hview, hsent_at, -⟩ := hs.rest
  have hg1 : e1.grid = e.grid := hsetup.grid
  have hg2 : e2.grid = e.grid := hsent.setup.grid.trans hg1
  obtain ⟨hr, hb⟩ := e.grid.rectOf_right t ht
  have hmore : NewMisses e.next_sequence e.grid e2 d d' := by
    rcases hdrawn.drawn with ⟨hm, -⟩ | ⟨hm, -⟩
    · exact ⟨[], by rw [hm, List.append_nil], by simp⟩
    · refine ⟨_, hm, ?_⟩
      intro m hmem
      rw [List.mem_singleton] at hmem
      subst hmem
      exact ⟨ht, by rw [hsent.sent_at]; simp [hsetup.next_sequence]⟩
  have hmissed : ∀ u, Missed d.misses u → Missed d'.misses u := by
    rintro u ⟨m, hm, rfl⟩
    obtain ⟨more, hmore, -⟩ := hmore
    exact ⟨m, by rw [hmore]; simp [hm], rfl⟩
  have hsrct : e2.source.SameOn f (e.grid.rectOf t) := by
    have := hsent.source_tile
    rw [hg1] at this
    exact (copy_rect_eq_iff _ _ _ hr hb).mp this
  have hrest : ∀ x y, ¬ (e.grid.rectOf t).Covers x y →
      e2.source.pixel x y = e.source.pixel x y := by
    intro x y hc
    have := hsent.source_rest x y (by rw [hg1]; exact hc)
    rwa [hsrc] at this
  refine ⟨d', hop, ⟨?_, hdrawn.sound⟩, ?_, hmore, ?_⟩
  · apply shows_step hd.shows hg2 hdrawn.size
    intro u hu hx
    rw [not_or] at hx
    by_cases hut : u = t
    · subst hut
      right; right
      have hv : e2.viewer u = state := by rw [hsent.viewer]; simp
      rcases hdrawn.drawn with ⟨-, ⟨rfl, hsame⟩ | ⟨p, px, rfl, rfl, hdec, hpx⟩⟩ | ⟨hm, -⟩
      · exact .inl ⟨_, hv, hsame.trans hsrct.symm⟩
      · exact .inr ⟨_, p, px, hv, by simp [lastLossy], hdec, hpx⟩
      · exact absurd ⟨⟨u, H.hashes u⟩, by rw [hm]; simp, rfl⟩ hx.2
    · right; left
      refine ⟨fun h => ?_, ⟨sameOn_other ht hu hut hrest, sameOn_other ht hu hut hdrawn.others, ?_,
        ?_⟩⟩
      · rcases h with h | h
        · exact hx.1 h
        · exact hx.2 (hmissed u h)
      · apply lastLossy_other
        intro p hp
        rw [List.mem_singleton] at hp
        cases hs <;> cases hp
        exact hut rfl
      · rw [hsent.viewer, hview]
        simp [hut]
  · intro u hu
    by_cases hut : u = t
    · subst hut
      exact .inl (by rw [hsent.sent_at]; simp [hsetup.next_sequence])
    · exact .inr ⟨by rw [hsent.sent_at, hsent_at]; simp [hut],
        sameOn_other ht hu hut hdrawn.others⟩
  · intro h
    rw [hsent.shadow]
    exact hlock h

theorem drawing_run {e e' : Encoder} {l : List Nat} (h : SendRun D f H e l ops e')
    (hD : D.InflateUndoesDeflate) (hcol : NoCollision D tiles) (hf : f.FullAlpha)
    (hl : ∀ t ∈ l, t < e.grid.len ∧
      H.hashes t = hash_rect D f (e.grid.rectOf t) ∧ f.image (e.grid.rectOf t) ∈ tiles)
    (d : DrawState) (L : Nat → Option (List UInt8)) (hd : Drawing D tiles e d L X) :
    ∃ d', apply_ops D e.grid d ops = (d', none) ∧ Drawing D tiles e' d' (lastLossy L ops) X ∧
      (∀ u < e.grid.len, PixelsKept e.next_sequence e e' d.framebuffer d'.framebuffer u) ∧
      NewMisses e.next_sequence e.grid e' d d' ∧ (e.shadow.index = d.cache.index →
        e'.shadow.index = d'.cache.index ∧ d'.misses = d.misses) := by
  induction h generalizing d L with
  | nil e =>
    exact ⟨d, rfl, hd, fun u _ => PixelsKept.refl _ e _ u, ⟨[], by simp, by simp⟩,
      fun h => ⟨h, rfl⟩⟩
  | skip hv _ ih => exact ih (fun u hu => hl u (by simp [hu])) d L hd
  | @wait e e' t l ops _ ih =>
    refine ih (fun u hu => hl u (by simp [hu])) d L ⟨hd.shows.forget rfl rfl ?_, hd.sound⟩
    intro u _
    by_cases hut : u = t
    · simp [hut]
    · simp [hut]
  | @send e e1 e2 e' t l op ops state hs hsent _ ih =>
    obtain ⟨ht, hH, himg⟩ := hl t (by simp)
    obtain ⟨d1, hop, hd1, hk1, ⟨m1, hm1, hat1⟩, hlock1⟩ := drawing_sent hD hcol hf ht hH himg hs hsent hd
    obtain ⟨hsetup, -⟩ := sent_setup hs hsent
    have hg := hsetup.grid
    obtain ⟨d2, hops, hd2, hk2, ⟨m2, hm2, hat2⟩, hlock2⟩ := ih
      (fun u hu => by rw [hg]; exact hl u (by simp [hu])) d1 _ hd1
    rw [hg] at hops hk2
    rw [hsetup.next_sequence] at hk2 hat2
    rw [hg] at hat2
    refine ⟨d2, ?_, hd2, fun u hu => (hk1 u hu).trans hg (hk2 u hu),
      ⟨m1 ++ m2, by rw [hm2, hm1, List.append_assoc], ?_⟩, ?_⟩
    · simp only [apply_ops, hop]
      exact hops
    · intro m hm
      rcases List.mem_append.mp hm with hm | hm
      · obtain ⟨hlt, hn⟩ := hat1 m hm
        rcases hk2 m.tile hlt with h2 | ⟨h2, -⟩
        · exact ⟨hlt, h2⟩
        · exact ⟨hlt, h2.trans hn⟩
      · exact hat2 m hm
    · intro h
      obtain ⟨g1, g2⟩ := hlock1 h
      obtain ⟨g3, g4⟩ := hlock2 g1
      exact ⟨g3, g4.trans g2⟩

theorem contains_move_sources (grid : TileGrid) (found : VerticalMove) (t u : Nat)
    (hfit : MoveFits grid.size found.rect found.dy) (ht : t < grid.len) (hu : u < grid.len)
    (h : ∃ x y, (grid.rectOf t).Covers x y ∧
      ((found.rect.Covers x y ∧ (grid.rectOf u).Covers x ((y : Int) + found.dy).toNat) ∨
        (¬ found.rect.Covers x y ∧ u = t))) : u ∈ (move_sources grid found t).iter := by
  obtain ⟨x, y, hcov, hcase⟩ := h
  obtain ⟨hne, hdy, hin, hsrc, hbot⟩ := hfit
  have hh := grid.size.height_le
  simp only [MAX_SURFACE_DIMENSION] at hh
  rw [TileSet.mem_iter]
  unfold move_sources
  simp only
  rcases hcase with ⟨hmove, hsrcu⟩ | ⟨hnot, rfl⟩
  · -- a pixel of the moved part: its source row lies in the source rows
    have hpart : ((grid.rectOf t).intersect found.rect).Covers x y :=
      (covers_intersect _ _ x y).mpr ⟨hcov, hmove⟩
    have hpy : ∀ x' y', ((grid.rectOf t).intersect found.rect).Covers x' y' →
        found.rect.Covers x' y' := fun x' y' h' => ((covers_intersect _ _ x' y').mp h').2
    generalize hp : (grid.rectOf t).intersect found.rect = part at *
    have htop : found.rect.Covers part.x part.y := by
      apply hpy
      simp only [Rect.Covers] at hpart ⊢
      omega
    have hmem : (grid.tiles_covering ⟨part.x, (((part.y : Int) + found.dy) % 2 ^ 32).toNat,
        part.width, part.height⟩).contains u = true := by
      rw [grid.contains_tiles_covering]
      refine ⟨hu, x, ((y : Int) + found.dy).toNat, hsrcu, ?_⟩
      simp only [Rect.Covers, Rect.right, Rect.bottom, U32_MAX] at hpart htop hmove hbot ⊢
      omega
    split
    · rw [TileSet.contains_insert, hmem]
      rfl
    · exact hmem
  · -- a pixel outside the moved part: the move does not cover all of the tile
    have hpart : (grid.rectOf u).intersect found.rect ≠ grid.rectOf u := by
      intro heq
      have hcc : ((grid.rectOf u).intersect found.rect).Covers x y := by rw [heq]; exact hcov
      exact hnot ((covers_intersect _ _ x y).mp hcc).2
    rw [if_pos hpart, TileSet.contains_insert, grid.tiles_covering_grid]
    simp [TileGrid.contains, hu]

def CopiesNone (grid : TileGrid) (found : VerticalMove) (X : Nat → Prop) : Prop :=
  ∀ t, (grid.tiles_covering found.rect).contains t = true →
    ∀ u ∈ (move_sources grid found t).iter, ¬ X u

/-- A move, on both sides: a tile believed exact afterwards was copied from exact tiles. -/
theorem drawing_move {e s : Encoder} {found : VerticalMove} {d : DrawState}
    (h : Scrolled D found e s) (hsize : e.source.size = e.grid.size)
    (hX : CopiesNone e.grid found X) (hm : d.misses = []) (hd : Drawing D tiles e d L X) :
    ∃ d', apply_op D e.grid d (.Move found.rect found.dy) = (d', none) ∧
      Drawing D tiles s d' L X ∧ d'.misses = [] ∧ d'.cache = d.cache ∧
      ∀ u < e.grid.len, PixelsKept e.next_sequence e s d.framebuffer d'.framebuffer u := by
  have hfit : MoveFits e.grid.size found.rect found.dy := by
    rw [← hsize]
    exact (apply_move_ok_iff e.source found.rect found.dy).mp ⟨_, h.moved⟩
  obtain ⟨fb', hmove⟩ := (apply_move_ok_iff d.framebuffer found.rect found.dy).mpr
    (by rw [hd.shows.size]; exact hfit)
  obtain ⟨hfs, hpix⟩ := apply_move_spec d.framebuffer fb' found.rect found.dy hmove
  have hsrcpix := scrolled_source D found e s h
  have hkept : ∀ u < e.grid.len, ¬ (e.grid.tiles_covering found.rect).contains u = true →
      fb'.SameOn d.framebuffer (e.grid.rectOf u) := by
    intro u hu hc x y hxy
    rw [hpix, if_neg]
    intro hf
    exact hc ((e.grid.contains_tiles_covering found.rect u).mpr ⟨hu, x, y, hxy, hf⟩)
  have hnox : ∀ t, ¬ X t → ¬ (X t ∨ Missed d.misses t) := by
    rintro t hx (hx' | ⟨m, hmem, -⟩)
    · exact hx hx'
    · rw [hm] at hmem
      cases hmem
  have hexact : ∀ u < e.grid.len, ¬ X u → (e.viewer u).is_exact = true →
      d.framebuffer.SameOn e.source (e.grid.rectOf u) := by
    intro u hu hx hex
    cases hv : e.viewer u with
    | Unknown => rw [hv] at hex; cases hex
    | Approximate k => rw [hv] at hex; cases hex
    | Exact k => exact hd.shows.exact u hu (hnox u hx) k hv
  refine ⟨{ d with framebuffer := fb', damaged := d.damaged ++ [found.rect] }, ?_, ⟨?_, hd.sound⟩, hm,
    rfl, ?_⟩
  · simp [apply_op, hmove, DrawState.drawn]
  · refine shows_step hd.shows h.setup.grid hfs ?_
    intro t ht hxt
    by_cases hc : (e.grid.tiles_covering found.rect).contains t = true
    · have hview : s.viewer t = moved_state D e.grid s.source e.viewer found t := by
        rw [h.viewer, if_pos hc]
      unfold moved_state at hview
      split at hview
      · rename_i hall
        rw [List.all_eq_true] at hall
        refine .inr (.inr (.inl ⟨_, hview, ?_⟩))
        intro x y hxy
        rw [hpix, hsrcpix]
        by_cases hf : found.rect.Covers x y
        · rw [if_pos hf, if_pos hf]
          -- the tile that the pixel comes from
          obtain ⟨hne, hdy, hin, hsrc, hbot⟩ := hfit
          have hx : x < e.grid.size.width := ((e.grid.covers_rectOf t ht x y).mp hxy).1
          have hy : ((y : Int) + found.dy).toNat < e.grid.size.height := by
            simp only [Rect.Covers] at hf
            omega
          have hu := e.grid.tileAt_lt x _ hx hy
          have hcu := (e.grid.covers_rectOf _ hu x _).mpr ⟨hx, hy, rfl⟩
          have hmem := contains_move_sources e.grid found t _ ⟨hne, hdy, hin, hsrc, hbot⟩ ht hu
            ⟨x, y, hxy, .inl ⟨hf, hcu⟩⟩
          exact hexact _ hu (hX t hc _ hmem) (hall _ hmem) x _ hcu
        · rw [if_neg hf, if_neg hf]
          have hmem := contains_move_sources e.grid found t t hfit ht ht
            ⟨x, y, hxy, .inr ⟨hf, rfl⟩⟩
          exact hexact t ht (hX t hc _ hmem) (hall _ hmem) x y hxy
      · exact .inl hview
    · exact .inr (.inl ⟨hnox t (fun hx => hxt (.inl hx)), scrolled_kept D found e s h t ht hc,
        hkept t ht hc, rfl,
        by rw [h.viewer, if_neg hc]⟩)
  · intro u hu
    by_cases hc : (e.grid.tiles_covering found.rect).contains u = true
    · exact .inl (by rw [h.sent_at, if_pos hc])
    · exact .inr ⟨by rw [h.sent_at, if_neg hc], hkept u hu hc⟩

theorem apply_ops_append (grid : TileGrid) (d d' : DrawState) (a b : List TileOp)
    (h : apply_ops D grid d a = (d', none)) :
    apply_ops D grid d (a ++ b) = apply_ops D grid d' b := by
  induction a generalizing d with
  | nil =>
    cases h
    rfl
  | cons op a ih =>
    simp [apply_ops] at h ⊢
    cases hop : apply_op D grid d op with
    | mk d1 err =>
      rw [hop] at h
      cases err with
      | none => exact ih d1 h
      | some err => cases h

/-- What a delivered batch leaves behind on both sides. `ops` are its operations, `d'` the viewer
after them, and `r` the encoder before it counts the batch. -/
structure Delivered (D : Deps) (tiles : Set TileImage) (e r : Encoder) (fb : FrameBuffer)
    (cache : ViewerCache) (L : Nat → Option (List UInt8)) (X : Nat → Prop) (ops : List TileOp)
    (d' : DrawState) : Prop where
  applied : apply_ops D e.grid ⟨fb, cache, [], []⟩ ops = (d', none)
  shows : Shows D r d'.framebuffer (lastLossy L ops) (fun t => X t ∨ Missed d'.misses t)
  sound : CacheSound D tiles d'.cache
  kept : ∀ u < e.grid.len, PixelsKept e.next_sequence e r fb d'.framebuffer u
  missed : ∀ m ∈ d'.misses, m.tile < e.grid.len ∧ r.sent_at m.tile = e.next_sequence
  lockstep : e.shadow.index = cache.index → r.shadow.index = d'.cache.index ∧ d'.misses = []

theorem encode_delivered {e s m r : Encoder} {now_ms : Option Nat} {moveOps sentOps : List TileOp}
    (hD : D.InflateUndoesDeflate) (hcol : NoCollision D tiles)
    (hst : Stages D tiles e f now_ms H s m r moveOps sentOps) (hok : EncoderOk D tiles e last)
    (hf : f.FullAlpha) (himg : ∀ t < e.grid.len, f.image (e.grid.rectOf t) ∈ tiles)
    {cache : ViewerCache}
    (hX : ∀ rect dy, TileOp.Move rect dy ∈ moveOps → CopiesNone e.grid ⟨rect, dy⟩ X)
    (hs : Shows D e fb L X) (hc : CacheSound D tiles cache) :
    ∃ d', Delivered D tiles e r fb cache L X (moveOps ++ sentOps) d' := by
  obtain ⟨hadvS, hadvM, -⟩ := stages_setup hst
  have h0 : Drawing D tiles { e with hashes := some H } ⟨fb, cache, [], []⟩ L X :=
    ⟨(hs.mono fun _ => Or.inl).forget rfl rfl fun _ _ => .inl rfl, hc⟩
  -- the move, if there is one
  have hmove : ∃ d1, apply_ops D e.grid ⟨fb, cache, [], []⟩ moveOps = (d1, none) ∧
      Drawing D tiles s d1 L X ∧ d1.misses = [] ∧ d1.cache = cache ∧ lastLossy L moveOps = L ∧
      s.shadow = e.shadow ∧
      ∀ u < e.grid.len, PixelsKept e.next_sequence e s fb d1.framebuffer u := by
    rcases hst.scroll with ⟨rfl, rfl⟩ | ⟨found, hon, hsc, rfl⟩
    · exact ⟨_, rfl, h0, rfl, rfl, rfl, rfl, fun u _ => PixelsKept.refl _ e _ u⟩
    · obtain ⟨d1, h1, h2, h3, h4, h5⟩ := drawing_move hsc hok.source_size
        (hX _ _ (by simp)) rfl h0
      refine ⟨d1, ?_, h2, h3, h4, rfl, hsc.shadow, h5⟩
      have h1' : apply_op D e.grid ⟨fb, cache, [], []⟩ (.Move found.rect found.dy) = (d1, none) := h1
      simp only [apply_ops, h1']
  obtain ⟨d1, happ1, hd1, hm1, hc1, hL, hsh, hk1⟩ := hmove
  -- the motion region only forgets tiles
  obtain ⟨c, c', hfol⟩ := hst.motion
  have hgM : m.grid = e.grid := hadvM.setup.grid.trans hadvS.setup.grid
  have hdM : Drawing D tiles m d1 L X :=
    ⟨hd1.shows.forget hfol.setup.grid hfol.source fun t _ => hfol.viewer t, hd1.sound⟩
  have hkM : ∀ u < e.grid.len, PixelsKept e.next_sequence e m fb d1.framebuffer u := by
    intro u hu
    rcases hk1 u hu with h | ⟨h, hp⟩
    · exact .inl (by rw [hfol.sent_at]; exact h)
    · exact .inr ⟨by rw [hfol.sent_at]; exact h, hp⟩
  -- the loop
  obtain ⟨changed, hcg, hrun, -, -⟩ := hst.done
  obtain ⟨d2, happ2, hd2, hk2, ⟨more, hmore, hat⟩, hlock⟩ := drawing_run hrun hD hcol hf
    (fun t ht => by
      have hlt := TileSet.lt_of_contains ((TileSet.mem_iter changed t).mp ht)
      rw [hcg] at hlt
      rw [hgM]
      exact ⟨hlt, hst.hashes t hlt, himg t hlt⟩) d1 L hdM
  rw [hgM] at happ2 hk2 hat
  rw [hadvM.setup.next_sequence, hadvS.setup.next_sequence] at hk2 hat
  refine ⟨d2, ?_, ?_, hd2.sound, fun u hu => (hkM u hu).trans hgM (hk2 u hu), ?_, ?_⟩
  · rw [apply_ops_append _ _ _ _ _ happ1, happ2]
  · rw [lastLossy_append, hL]
    exact hd2.shows
  · rw [hm1, List.nil_append] at hmore
    rw [hmore]
    exact hat
  · intro h
    obtain ⟨g1, g2⟩ := hlock (by rw [hfol.shadow, hsh, hc1]; exact h)
    exact ⟨g1, by rw [g2, hm1]⟩

theorem refine_delivered {e r : Encoder} {seen : List Nat} (hD : D.InflateUndoesDeflate)
    (hcol : NoCollision D tiles) (hok : EncoderOk D tiles e last)
    (hrun : SendRun D e.source H e seen ops r)
    (hseen : ∀ t ∈ seen, t < e.grid.len ∧ H.hashes t = hash_rect D e.source (e.grid.rectOf t) ∧
      e.source.image (e.grid.rectOf t) ∈ tiles) {cache : ViewerCache} (hs : Shows D e fb L X)
    (hc : CacheSound D tiles cache) : ∃ d', Delivered D tiles e r fb cache L X ops d' := by
  have hd : Drawing D tiles e ⟨fb, cache, [], []⟩ L X := ⟨hs.mono fun _ => .inl, hc⟩
  obtain ⟨d', h1, h2, h3, ⟨more, hmore, hat⟩, h5⟩ := drawing_run hrun hD hcol hok.source_full hseen
    _ L hd
  exact ⟨d', h1, h2.shows, h2.sound, h3, by rw [hmore]; exact hat, h5⟩

/-- A batch of the encoder: how the encoder goes on, and that the batch can be delivered over any
picture that shows what is believed. -/
structure Produced (D : Deps) (tiles : Set TileImage) (e r : Encoder) (last : Option Frame)
    (ops : List TileOp) : Prop where
  advance : Advance e.next_sequence e r
  lossy : LossySent e.next_sequence r ops
  ok : EncoderOk D tiles r last
  delivered : ∀ fb cache L X,
    (∀ rect dy, TileOp.Move rect dy ∈ ops → CopiesNone e.grid ⟨rect, dy⟩ X) → Shows D e fb L X →
    CacheSound D tiles cache → ∃ d', Delivered D tiles e r fb cache L X ops d'

theorem sendRun_no_move {e e' : Encoder} {l : List Nat} (h : SendRun D f H e l ops e') (rect : Rect)
    (dy : Int) : TileOp.Move rect dy ∉ ops := by
  induction h with
  | nil e => simp
  | skip _ _ ih => exact ih
  | wait _ ih => exact ih
  | send hs _ _ ih =>
    intro hm
    rcases List.mem_cons.mp hm with hm | hm
    · cases hs <;> cases hm
    · exact ih hm

theorem encode_produced {e : Encoder} (damage : Option (List Rect)) (now_ms : Option Nat)
    (hD : D.InflateUndoesDeflate) (hcol : NoCollision D tiles) (hok : EncoderOk D tiles e last)
    (hsize : f.size = e.grid.size) (hf : f.FullAlpha) (hdam : DamageCovers last damage f)
    (hin : e.hashedTiles D f damage ⊆ tiles) :
    ∃ r ops, e.encode_inner D f damage now_ms = .ok (r.finish ops) ∧
      Produced D tiles e r (some f) ops ∧
      ∀ rect dy, TileOp.Move rect dy ∈ ops → TileOp.Move rect dy ∈ e.scrollOps D f damage := by
  obtain ⟨H, sc, m, r, moveOps, sentOps, hst, henc, hmoves⟩ := encode_stages e last f damage now_ms
    hok hsize hf hdam hin
  have himg : ∀ t < e.grid.len, f.image (e.grid.rectOf t) ∈ tiles :=
    fun t ht => hin ⟨t, ht, .inl rfl⟩
  refine ⟨r, _, henc, ⟨stages_advance hst, hst.lossy, stages_encoderOk hst hok hsize hf himg,
    fun fb cache L X hX hs hc => encode_delivered hD hcol hst hok hf himg
      (fun rect dy hm => hX rect dy (List.mem_append_left _ hm)) hs hc⟩, ?_⟩
  intro rect dy hm
  obtain ⟨changed, -, hrun, -, -⟩ := hst.done
  rcases List.mem_append.mp hm with hm | hm
  · rw [← hmoves]
    exact hm
  · exact absurd hm (sendRun_no_move hrun rect dy)

theorem refine_produced {e : Encoder} {now_ms budget_bytes : Nat} {p : Batch × Encoder}
    (hD : D.InflateUndoesDeflate) (hcol : NoCollision D tiles) (hok : EncoderOk D tiles e last)
    (h : e.refine_at D now_ms budget_bytes = some p) :
    ∃ r ops, p = r.finish ops ∧ Produced D tiles e r last ops ∧
      ∀ rect dy, TileOp.Move rect dy ∉ ops := by
  obtain ⟨H, r, ops, seen, -, hrun, hseen, -, hdone, hlossy, heq, hokr⟩ := refine_spec hok h
  exact ⟨r, ops, heq, ⟨hdone.advance, fun t _ p hp => absurd hp (hlossy t p), hokr,
    fun fb cache L X _ hs hc => refine_delivered hD hcol hok hrun hseen hs hc⟩,
    sendRun_no_move hrun⟩

/-! ## Applying a batch -/

/-- The decoder can take the next batch of the encoder, and would draw it on `fb`. -/
structure Follows (d : Decoder) (e : Encoder) (fb : FrameBuffer) : Prop where
  sequence : d.last_sequence < e.next_sequence
  canvas : (d.surface = none ∧ d.framebuffer = none ∧ fb = FrameBuffer.new e.grid.size) ∨
    (d.surface = some (e.surface, e.generation) ∧ d.framebuffer = some fb)

theorem apply_delivered {e r : Encoder} {d : Decoder} {d' : DrawState} (hset : SameSetup e r)
    (hfol : Follows d e fb) (hfb : fb.size = e.grid.size)
    (hdel : Delivered D tiles e r fb d.cache L X ops d') : ∃ dec reset, d.apply D (r.finish ops).1 =
        (dec, .ok ⟨e.next_sequence, d'.misses, d'.damaged, reset⟩) ∧
      dec.surface = some (e.surface, e.generation) ∧ dec.framebuffer = some d'.framebuffer ∧
      dec.cache = d'.cache ∧ dec.last_sequence = e.next_sequence := by
  have hbatch : (r.finish ops).1 = ⟨e.surface, e.generation, e.next_sequence, e.grid.size, ops⟩ := by
    simp [Encoder.finish, hset.surface, hset.generation, hset.next_sequence, hset.grid]
  have hstale : d.is_stale ⟨e.surface, e.generation, e.next_sequence, e.grid.size, ops⟩ = false := by
    have hseq := hfol.sequence
    rcases hfol.canvas with ⟨hs, -⟩ | ⟨hs, -⟩
    · simp [Decoder.is_stale, hs]
    · simp [Decoder.is_stale, hs]
      omega
  have hcanvas : ∃ reset,
      d.canvas ⟨e.surface, e.generation, e.next_sequence, e.grid.size, ops⟩ = (fb, reset) := by
    rcases hfol.canvas with ⟨-, hf, hnew⟩ | ⟨hs, hf⟩
    · exact ⟨true, by simp [Decoder.canvas, hf, hnew]⟩
    · exact ⟨false, by simp [Decoder.canvas, hs, hf, hfb]⟩
  obtain ⟨reset, hcanvas⟩ := hcanvas
  have happ : apply_ops D (TileGrid.new e.grid.size) ⟨fb, d.cache, [], []⟩ ops = (d', none) :=
    hdel.applied
  rw [hbatch]
  simp only [Decoder.apply, hstale, hcanvas, happ, Bool.false_eq_true, if_false]
  exact ⟨_, reset, rfl, rfl, rfl, rfl, rfl⟩

end

/-! ## Runs in lockstep -/

/-- The calls on the encoder. Every batch it gives is applied at once. -/
inductive LinkEvent
  | Encode (frame : Frame) (damage : Option (List Rect))
  | EncodeAt (frame : Frame) (damage : Option (List Rect)) (now_ms : Nat)
  | RefineAt (now_ms budget_bytes : Nat)
  | SetLossyDetail (detail : LossyDetail)
  | Acknowledge (sequence : Nat)

/-- Both sides, the last encoded frame, the last lossy payload of each tile, and what every
application gave. -/
structure Link where
  encoder : Encoder
  decoder : Decoder
  last : Option Frame
  lossy : Nat → Option (List UInt8)
  results : List (Except CodecError Applied)

def Link.start (surface : SurfaceId) (generation : Generation) (size : Size)
    (config : EncoderConfig) : Link :=
  ⟨Encoder.new surface generation size config, Decoder.new config.cache_bytes, none, fun _ => none,
    []⟩

def Link.deliver (D : Deps) (s : Link) (batch : Batch) (encoder : Encoder) : Link :=
  let r := s.decoder.apply D batch
  { s with
    encoder
    decoder := r.1
    lossy := lastLossy s.lossy batch.ops
    results := s.results ++ [r.2] }

def Link.encoded (D : Deps) (s : Link) (frame : Frame) :
    Except CodecError (Batch × Encoder) → Link
  | .ok (batch, encoder) => { s.deliver D batch encoder with last := some frame }
  | .error e => { s with results := s.results ++ [.error e] }

def Link.step (D : Deps) (s : Link) : LinkEvent → Link
  | .Encode frame damage => s.encoded D frame (s.encoder.encode D frame damage)
  | .EncodeAt frame damage now_ms => s.encoded D frame (s.encoder.encode_at D frame damage now_ms)
  | .RefineAt now_ms budget_bytes =>
    match s.encoder.refine_at D now_ms budget_bytes with
    | some (batch, encoder) => s.deliver D batch encoder
    | none => s
  | .SetLossyDetail detail => { s with encoder := s.encoder.set_lossy_detail detail }
  | .Acknowledge sequence => { s with encoder := s.encoder.acknowledge sequence }

def Link.run (D : Deps) (s : Link) (events : List LinkEvent) : Link := events.foldl (Link.step D) s

def LinkEvent.frame? : LinkEvent → Option (Frame × Option (List Rect))
  | .Encode frame damage | .EncodeAt frame damage _ => some (frame, damage)
  | _ => none

def Link.FramesOk (D : Deps) : Link → List LinkEvent → Prop
  | _, [] => True
  | s, event :: events =>
    (∀ frame damage, event.frame? = some (frame, damage) → s.encoder.FrameOk s.last frame damage) ∧
      Link.FramesOk D (s.step D event) events

/-- The tiles that are hashed along a run. -/
def Link.tiles (D : Deps) : Link → List LinkEvent → Set TileImage
  | _, [] => ∅
  | s, event :: events =>
    { i | ∃ frame damage, event.frame? = some (frame, damage) ∧
      i ∈ s.encoder.hashedTiles D frame damage } ∪ Link.tiles D (s.step D event) events

/-- Both sides agree on everything. -/
structure InStep (D : Deps) (tiles : Set TileImage) (s : Link) : Prop where
  encoder : EncoderOk D tiles s.encoder s.last
  sound : CacheSound D tiles s.decoder.cache
  caches : s.encoder.shadow.index = s.decoder.cache.index
  picture : ∃ fb, Follows s.decoder s.encoder fb ∧ Shows D s.encoder fb s.lossy (fun _ => False)
  drawn : ∀ f, s.last = some f → s.decoder.framebuffer.isSome
  results : ∀ r ∈ s.results, ∃ a : Applied, r = .ok a ∧ a.misses = []

section

variable {D : Deps} {tiles : Set TileImage}

theorem inStep_start (surface : SurfaceId) (generation : Generation) (size : Size)
    (config : EncoderConfig) : InStep D tiles (Link.start surface generation size config) := by
  refine ⟨encoderOk_new D tiles surface generation size config, cacheSound_new D tiles _, rfl,
    ⟨FrameBuffer.new size, ⟨by simp [Link.start, Decoder.new, Encoder.new],
      .inl ⟨rfl, rfl, rfl⟩⟩, ⟨rfl, ?_, ?_⟩⟩, by simp [Link.start], by simp [Link.start]⟩
  · intro t _ _ h hh
    cases hh
  · intro t _ _ h hh
    cases hh

theorem inStep_deliver {s : Link} {r : Encoder} {ops : List TileOp} {last : Option Frame}
    (h : InStep D tiles s) (hp : Produced D tiles s.encoder r last ops) :
    InStep D tiles { s.deliver D (r.finish ops).1 (r.finish ops).2 with last := last } := by
  obtain ⟨fb, hfol, hshows⟩ := h.picture
  obtain ⟨d', hd⟩ := hp.delivered fb s.decoder.cache s.lossy _
    (fun _ _ _ _ _ _ _ => id) hshows h.sound
  have hset := hp.advance.setup
  obtain ⟨dec, reset, happ, h1, h2, h3, h4⟩ := apply_delivered hset hfol hshows.size hd
  obtain ⟨hcaches, hmiss⟩ := hd.lockstep h.caches
  simp only [Link.deliver, happ]
  refine ⟨encoderOk_finish hp.ok ops, by simp only [h3]; exact hd.sound, ?_, ?_, ?_, ?_⟩
  · simp only [h3]
    exact hcaches
  · refine ⟨d'.framebuffer, ⟨?_, .inr ⟨?_, h2⟩⟩, ?_⟩
    · simp only [h4, Encoder.finish, hset.next_sequence]
      omega
    · rw [h1]
      simp [Encoder.finish, hset.surface, hset.generation]
    · have hs := hd.shows.mono (Y := fun _ => False) (by
        rintro t (hx | ⟨m, hm, -⟩)
        · exact hx
        · rw [hmiss] at hm
          cases hm)
      exact hs.forget rfl rfl fun _ _ => .inl rfl
  · simp [h2]
  · intro x hx
    rcases List.mem_append.mp hx with hx | hx
    · exact h.results x hx
    · rw [List.mem_singleton] at hx
      exact ⟨_, hx, hmiss⟩

theorem inStep_encoded (hD : D.InflateUndoesDeflate) (hcol : NoCollision D tiles) {s : Link}
    (h : InStep D tiles s) (frame : Frame) (damage : Option (List Rect)) (now_ms : Option Nat)
    (hf : s.encoder.FrameOk s.last frame damage) (hin : s.encoder.hashedTiles D frame damage ⊆ tiles) :
    InStep D tiles (s.encoded D frame (s.encoder.encode_inner D frame damage now_ms)) := by
  obtain ⟨hsize, hfull, hdam⟩ := hf
  obtain ⟨r, ops, henc, hp, -⟩ := encode_produced damage now_ms hD hcol h.encoder hsize hfull hdam
    hin
  rw [henc]
  exact inStep_deliver h hp

theorem inStep_step (hD : D.InflateUndoesDeflate) (hcol : NoCollision D tiles) {s : Link}
    (h : InStep D tiles s) (event : LinkEvent)
    (hf : ∀ frame damage, event.frame? = some (frame, damage) → s.encoder.FrameOk s.last frame damage)
    (hin : ∀ frame damage, event.frame? = some (frame, damage) →
      s.encoder.hashedTiles D frame damage ⊆ tiles) : InStep D tiles (s.step D event) := by
  obtain ⟨fb, hfol, hshows⟩ := h.picture
  cases event with
  | Encode frame damage =>
    exact inStep_encoded hD hcol h frame damage none (hf _ _ rfl) (hin _ _ rfl)
  | EncodeAt frame damage now_ms =>
    exact inStep_encoded hD hcol h frame damage (some now_ms) (hf _ _ rfl) (hin _ _ rfl)
  | RefineAt now_ms budget_bytes =>
    simp only [Link.step]
    cases hr : s.encoder.refine_at D now_ms budget_bytes with
    | none => exact h
    | some p =>
      obtain ⟨r, ops, rfl, hp, -⟩ := refine_produced hD hcol h.encoder hr
      exact inStep_deliver h hp
  | SetLossyDetail detail =>
    exact ⟨encoderOk_set_lossy_detail h.encoder detail, h.sound, h.caches,
      ⟨fb, ⟨hfol.sequence, hfol.canvas⟩, hshows.forget rfl rfl fun _ _ => .inl rfl⟩, h.drawn,
      h.results⟩
  | Acknowledge sequence =>
    obtain ⟨hset, h2, h3, h4, -⟩ := acknowledge_rest s.encoder sequence
    refine ⟨encoderOk_acknowledge h.encoder sequence, h.sound, ?_, ⟨fb, ⟨?_, ?_⟩, ?_⟩, h.drawn,
      h.results⟩
    · simp only [Link.step, h4]
      exact h.caches
    · simp only [Link.step, hset.next_sequence]
      exact hfol.sequence
    · simp only [Link.step, hset.grid, hset.surface, hset.generation]
      exact hfol.canvas
    · exact hshows.forget hset.grid h2 fun t _ => .inl (by simp only [Link.step, h3])

theorem inStep_run (hD : D.InflateUndoesDeflate) (hcol : NoCollision D tiles)
    (events : List LinkEvent) (s : Link) (h : InStep D tiles s) (hf : s.FramesOk D events)
    (hin : s.tiles D events ⊆ tiles) : InStep D tiles (s.run D events) := by
  induction events generalizing s with
  | nil => exact h
  | cons event events ih =>
    refine ih (s.step D event) (inStep_step hD hcol h event hf.1 ?_) hf.2
      (fun i hi => hin (.inr hi))
    intro frame damage hframe i hi
    exact hin (.inl ⟨frame, damage, hframe, hi⟩)

end

/-- Lockstep: no application fails or misses, and after every batch an exact tile shows the last
encoded frame, and an approximate one the last lossy payload sent for it. -/
theorem encoder_and_decoder_stay_in_lockstep (D : Deps) (hD : D.InflateUndoesDeflate)
    (surface : SurfaceId) (generation : Generation) (size : Size) (config : EncoderConfig)
    (events : List LinkEvent) (hf : (Link.start surface generation size config).FramesOk D events)
    (hcol : NoCollision D ((Link.start surface generation size config).tiles D events)) :
    let s := (Link.start surface generation size config).run D events
    (∀ r ∈ s.results, ∃ a : Applied, r = .ok a ∧ a.misses = []) ∧
      ∀ f, s.last = some f → ∃ fb, s.decoder.framebuffer = some fb ∧
        ∀ t < s.encoder.grid.len,
          (∀ h, s.encoder.viewer t = .Exact h → fb.SameOn f (s.encoder.grid.rectOf t)) ∧
          ∀ h, s.encoder.viewer t = .Approximate h →
            h = hash_rect D f (s.encoder.grid.rectOf t) ∧
            ∃ p px, s.lossy t = some p ∧
              decode_lossy D p (s.encoder.grid.rectOf t).width (s.encoder.grid.rectOf t).height =
                .ok px ∧
              fb.copy_rect (s.encoder.grid.rectOf t) = px := by
  intro s
  have h : InStep D _ s := inStep_run hD hcol events _
    (inStep_start surface generation size config) hf (fun _ => id)
  refine ⟨h.results, ?_⟩
  intro f hlast
  obtain ⟨fb, hfol, hshows⟩ := h.picture
  have hfb : s.decoder.framebuffer = some fb := by
    rcases hfol.canvas with ⟨-, hnone, -⟩ | ⟨-, hsome⟩
    · have := h.drawn f hlast
      rw [hnone] at this
      cases this
    · exact hsome
  have hok := h.encoder
  rw [hlast] at hok
  refine ⟨fb, hfb, fun t ht => ⟨fun k hk => ?_, fun k hk => ?_⟩⟩
  · exact (hshows.exact t ht id k hk).trans (encoderOk_tile hok hcol ht (Or.inl hk)).2
  · exact ⟨(encoderOk_tile hok hcol ht (Or.inr hk)).1, hshows.approx t ht id k hk⟩

theorem hashedTiles_among {D : Deps} {e : Encoder} {f : Frame} {damage : Option (List Rect)}
    {i : TileImage} {images : List TileImage} (hi : i ∈ e.hashedTiles D f damage)
    (hall : ∀ t < e.grid.len, f.image (e.grid.rectOf t) ∈ images ∧
      (e.scrolledSource D f damage).image (e.grid.rectOf t) ∈ images) : i ∈ images := by
  obtain ⟨t, ht, rfl | rfl⟩ := hi
  · exact (hall t ht).1
  · exact (hall t ht).2

/-- A tile is sent, replaced, and drawn again from the cache. -/
theorem a_tile_comes_back_from_the_cache :
    let events := [LinkEvent.Encode (pairFrame 10 200) none, .Encode (pairFrame 20 210) (some
      [⟨0, 0, 2, 1⟩]), .Acknowledge 2, .EncodeAt (pairFrame 10 200) none 40]
    let s := (Link.start 1 1 pairSize pairConfig).run shortDeps events
    (∃ h, s.encoder.viewer 0 = .Exact h) ∧
      (∀ r ∈ s.results, ∃ a : Applied, r = .ok a ∧ a.misses = []) ∧
      ∃ fb, s.decoder.framebuffer = some fb ∧
        fb.SameOn (pairFrame 10 200) (s.encoder.grid.rectOf 0) := by
  intro events s
  have himages : ∀ i ∈ (Link.start 1 1 pairSize pairConfig).tiles shortDeps events,
      i ∈ pairImages := by
    rintro i (⟨f, d, hev, hi⟩ | ⟨f, d, hev, hi⟩ | ⟨f, d, hev, -⟩ | ⟨f, d, hev, hi⟩ | hi)
    · cases hev
      exact hashedTiles_among hi (by decide)
    · cases hev
      exact hashedTiles_among hi (by decide)
    · cases hev
    · cases hev
      exact hashedTiles_among hi (by decide)
    · exact absurd hi (Set.notMem_empty i)
  have hdam : DamageCovers (some (pairFrame 10 200)) (some [⟨0, 0, 2, 1⟩]) (pairFrame 20 210) := by
    intro rects hr g _ x y hx hy _
    cases hr
    exact ⟨_, List.mem_singleton_self _, by simp, hx, by simp, hy⟩
  have hf : (Link.start 1 1 pairSize pairConfig).FramesOk shortDeps events := by
    refine ⟨?_, ?_, ?_, ?_, trivial⟩
    · intro f d hev
      cases hev
      exact ⟨rfl, pairFrame_fullAlpha 10 200, fun _ h => by cases h⟩
    · intro f d hev
      cases hev
      exact ⟨rfl, pairFrame_fullAlpha 20 210, hdam⟩
    · intro f d hev
      cases hev
    · intro f d hev
      cases hev
      exact ⟨rfl, pairFrame_fullAlpha 10 200, fun _ h => by cases h⟩
  obtain ⟨h1, h2⟩ := encoder_and_decoder_stay_in_lockstep shortDeps shortDeps_inflate 1 1 pairSize
    pairConfig events hf (pairImages_distinct.mono himages)
  obtain ⟨fb, hfb, hall⟩ := h2 (pairFrame 10 200) rfl
  have hexact : s.encoder.viewer 0 = .Exact 15110963122624877651 := by decide
  exact ⟨⟨_, hexact⟩, h1, fb, hfb, (hall 0 (by decide)).1 _ hexact⟩

end multiplex_screen_codec
