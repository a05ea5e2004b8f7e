-- What one step of the encoder does to its belief. Every tile is either drawn
-- by the batch and stamped with its number, or is left as it was; the belief
-- always names the pixels of the source copy, and after a frame those of the
-- frame.
import Multiplex.ScreenCodec.Encoder

namespace multiplex_screen_codec

/-! ## One step from outside -/

/-- The fields that no step of an encoding changes. -/
structure SameSetup (e e' : Encoder) : Prop where
  surface : e'.surface = e.surface
  generation : e'.generation = e.generation
  grid : e'.grid = e.grid
  config : e'.config = e.config
  next_sequence : e'.next_sequence = e.next_sequence
  acked : e'.acked = e.acked
  carried : e'.motion_carried = e.motion_carried

/-- Batch `n` drew the tile, or the tile is as it was, or nothing is believed of it any more. -/
def KeptOrSent (n : Nat) (e e' : Encoder) (t : Nat) : Prop :=
  e'.sent_at t = n ∨
    (e'.sent_at t = e.sent_at t ∧ e'.source.SameOn e.source (e.grid.rectOf t) ∧
      (e'.viewer t = e.viewer t ∨ e'.viewer t = .Unknown))

/-- The shadow gains only hashes that the history of batch `n` names, and the history loses only
entries that a resume must have acknowledged. -/
structure ShadowLogged (n : Nat) (e e' : Encoder) : Prop where
  oldest : e.oldest_resumable ≤ e'.oldest_resumable
  kept : ∀ s h, (s, h) ∈ e.inserted → (s, h) ∈ e'.inserted ∨ s ≤ e'.oldest_resumable
  gained : ∀ h ∈ e'.shadow.index.hashes, h ∈ e.shadow.index.hashes ∨ (n, h) ∈ e'.inserted ∨
    n ≤ e'.oldest_resumable
  nodup : e.shadow.index.hashes.Nodup → e'.shadow.index.hashes.Nodup

structure Advance (n : Nat) (e e' : Encoder) : Prop where
  setup : SameSetup e e'
  tiles : ∀ t < e.grid.len, KeptOrSent n e e' t
  logged : ShadowLogged n e e'
  source_size : e'.source.size = e.source.size
  source_full : e.source.FullAlpha → e'.source.FullAlpha
  motion_grid : e'.motion.grid = e.motion.grid

theorem SameSetup.refl (e : Encoder) : SameSetup e e := ⟨rfl, rfl, rfl, rfl, rfl, rfl, rfl⟩

variable {a b c : Encoder}

theorem SameSetup.trans (h1 : SameSetup a b) (h2 : SameSetup b c) :
    SameSetup a c :=
  ⟨h2.surface.trans h1.surface, h2.generation.trans h1.generation, h2.grid.trans h1.grid,
    h2.config.trans h1.config, h2.next_sequence.trans h1.next_sequence, h2.acked.trans h1.acked,
    h2.carried.trans h1.carried⟩

theorem ShadowLogged.refl (n : Nat) (e : Encoder) : ShadowLogged n e e :=
  ⟨le_rfl, fun _ _ h => .inl h, fun _ h => .inl h, id⟩

theorem shadowLogged_of_same (n : Nat) {e e' : Encoder} (h1 : e'.shadow = e.shadow)
    (h2 : e'.inserted = e.inserted) (h3 : e'.oldest_resumable = e.oldest_resumable) :
    ShadowLogged n e e' := by
  refine ⟨le_of_eq h3.symm, ?_, ?_, ?_⟩
  · intro s h hm
    rw [h2]
    exact .inl hm
  · intro h hm
    rw [h1] at hm
    exact .inl hm
  · rw [h1]
    exact id

variable {n t : Nat} {hash : TileHash} {op : TileOp}

theorem ShadowLogged.trans (h1 : ShadowLogged n a b) (h2 : ShadowLogged n b c) :
    ShadowLogged n a c := by
  have hold := h2.oldest
  refine ⟨le_trans h1.oldest hold, ?_, ?_, fun h => h2.nodup (h1.nodup h)⟩
  · intro s h hm
    rcases h1.kept s h hm with hm | hs
    · exact h2.kept s h hm
    · exact .inr (le_trans hs hold)
  · intro h hm
    rcases h2.gained h hm with hm | hm
    · rcases h1.gained h hm with hm | hm | hn
      · exact .inl hm
      · rcases h2.kept n h hm with hm | hn
        · exact .inr (.inl hm)
        · exact .inr (.inr hn)
      · exact .inr (.inr (le_trans hn hold))
    · exact .inr hm

theorem Advance.refl (n : Nat) (e : Encoder) : Advance n e e :=
  ⟨SameSetup.refl e, fun _ _ => .inr ⟨rfl, fun _ _ _ => rfl, .inl rfl⟩, ShadowLogged.refl n e,
    rfl, id, rfl⟩

theorem KeptOrSent.trans (hg : b.grid = a.grid) (h1 : KeptOrSent n a b t)
    (h2 : KeptOrSent n b c t) : KeptOrSent n a c t := by
  rcases h2 with h2 | ⟨hs2, hp2, hv2⟩
  · exact .inl h2
  rcases h1 with h1 | ⟨hs1, hp1, hv1⟩
  · exact .inl (hs2.trans h1)
  · rw [hg] at hp2
    refine .inr ⟨hs2.trans hs1, hp2.trans hp1, ?_⟩
    rcases hv2 with hv2 | hv2
    · rw [hv2]
      exact hv1
    · exact .inr hv2

theorem Advance.trans (h1 : Advance n a b) (h2 : Advance n b c) :
    Advance n a c := by
  have hg := h1.setup.grid
  refine ⟨h1.setup.trans h2.setup, ?_, h1.logged.trans h2.logged,
    h2.source_size.trans h1.source_size, fun h => h2.source_full (h1.source_full h),
    h2.motion_grid.trans h1.motion_grid⟩
  intro t ht
  exact KeptOrSent.trans hg (h1.tiles t ht) (h2.tiles t (by rw [hg]; exact ht))

/-! ## What the belief says -/

/-- The belief names this hash, for exact or for approximate pixels. -/
def ViewerTile.Holds (v : ViewerTile) (h : TileHash) : Prop := v = .Exact h ∨ v = .Approximate h

theorem not_holds_unknown (h : TileHash) : ¬ ViewerTile.Unknown.Holds h := by
  simp [ViewerTile.Holds]

/-- What is believed of the tile names the pixels of the source copy. -/
def TileOk (D : Deps) (tiles : Set TileImage) (e : Encoder) (t : Nat) : Prop :=
  ∀ h, (e.viewer t).Holds h →
    hash_rect D e.source (e.grid.rectOf t) = h ∧ e.source.image (e.grid.rectOf t) ∈ tiles

theorem image_eq_iff (f g : Frame) (grid : TileGrid) (t : Nat) (ht : t < grid.len) :
    f.image (grid.rectOf t) = g.image (grid.rectOf t) ↔ f.SameOn g (grid.rectOf t) := by
  obtain ⟨hr, hb⟩ := grid.rectOf_right t ht
  rw [← copy_rect_eq_iff f g _ hr hb]
  simp [Frame.image]

theorem tileOk_of_same (D : Deps) (tiles : Set TileImage) {e e' : Encoder} (ht : t < e.grid.len)
    (hg : e'.grid = e.grid) (hs : e'.source.SameOn e.source (e.grid.rectOf t))
    (hv : e'.viewer t = e.viewer t ∨ e'.viewer t = .Unknown) (h : TileOk D tiles e t) :
    TileOk D tiles e' t := by
  intro k hk
  rcases hv with hv | hv
  · rw [hv] at hk
    have himg := (image_eq_iff e'.source e.source e.grid t ht).mpr hs
    rw [hg, hash_rect, himg]
    exact h k hk
  · rw [hv] at hk
    exact absurd hk (not_holds_unknown k)

/-! ## One tile of the loop -/

theorem touch_false {c : CacheIndex} {h : TileHash} (hf : (c.touch h).1 = false) :
    (c.touch h).2 = c := by
  unfold CacheIndex.touch at hf ⊢
  split
  · rfl
  · rename_i e he
    rw [he] at hf
    simp at hf

/-- The four ways a tile with the hash `hash` is sent. -/
inductive Sending (D : Deps) (f : Frame) (e : Encoder) (t : Nat) (hash : TileHash) :
    Encoder → TileOp → ViewerTile → Prop
  | solid (c : Color) (hc : classify f (e.grid.rectOf t) = .Solid c) :
      Sending D f e t hash e (.Solid t c) (.Exact hash)
  | cached (hh : (e.shadow.index.touch hash).1 = true) :
      Sending D f e t hash { e with shadow := ⟨(e.shadow.index.touch hash).2⟩ } (.Cached t hash)
        (.Exact hash)
  | lossless (hh : (e.shadow.index.touch hash).1 = false) :
      Sending D f e t hash (e.record_lossless hash (e.grid.rectOf t))
        (.Lossless t hash (encode_lossless D f (e.grid.rectOf t))) (.Exact hash)
  | lossy (hh : (e.shadow.index.touch hash).1 = false) :
      Sending D f e t hash e
        (.Lossy t (encode_lossy D f (e.grid.rectOf t) e.config.lossy_detail)) (.Approximate hash)

variable {f : Frame}

theorem class_in_solid {rect : Rect} {in_motion : Bool} {color : Color}
    (h : class_in f rect in_motion = .Solid color) : classify f rect = .Solid color := by
  unfold class_in at h
  split at h
  · rename_i heq
    rw [heq, h]
  · rename_i hne
    split at h
    · cases h
    · exact absurd h (hne color)

theorem choose_op_sending (D : Deps) (f : Frame) (e : Encoder) (t : Nat) (hash : TileHash)
    (c : TileClass) (hc : ∀ color, c = .Solid color → classify f (e.grid.rectOf t) = .Solid color) :
    ∃ e1 op state, e.choose_op D f t (e.grid.rectOf t) hash c = (e1, op, state) ∧
      Sending D f e t hash e1 op state := by
  cases c with
  | Solid color => exact ⟨_, _, _, rfl, .solid color (hc color rfl)⟩
  | Text =>
    cases hheld : (e.shadow.index.touch hash).1 with
    | true =>
      refine ⟨_, _, _, ?_, .cached hheld⟩
      simp [Encoder.choose_op, CacheShadow.use_if_held, hheld]
    | false =>
      refine ⟨_, _, _, ?_, .lossless hheld⟩
      simp [Encoder.choose_op, CacheShadow.use_if_held, hheld, touch_false hheld]
  | Picture =>
    cases hheld : (e.shadow.index.touch hash).1 with
    | true =>
      refine ⟨_, _, _, ?_, .cached hheld⟩
      simp [Encoder.choose_op, CacheShadow.use_if_held, hheld]
    | false =>
      refine ⟨_, _, _, ?_, .lossy hheld⟩
      simp [Encoder.choose_op, CacheShadow.use_if_held, hheld, touch_false hheld]

structure TileSent (f : Frame) (e1 : Encoder) (t : Nat) (state : ViewerTile) (e' : Encoder) :
    Prop where
  viewer : e'.viewer = Function.update e1.viewer t state
  sent_at : e'.sent_at = Function.update e1.sent_at t e1.next_sequence
  source_size : e'.source.size = e1.source.size
  source_tile : e'.source.copy_rect (e1.grid.rectOf t) = f.copy_rect (e1.grid.rectOf t)
  source_rest : ∀ x y, ¬ (e1.grid.rectOf t).Covers x y → e'.source.pixel x y = e1.source.pixel x y
  setup : SameSetup e1 e'
  shadow : e'.shadow = e1.shadow
  inserted : e'.inserted = e1.inserted
  moves : e'.moves = e1.moves
  oldest : e'.oldest_resumable = e1.oldest_resumable
  motion : e'.motion = e1.motion
  hashes : e'.hashes = e1.hashes

theorem record_op_ok (f : Frame) (e1 : Encoder) (t : Nat) (op : TileOp) (state : ViewerTile)
    (ht : t < e1.grid.len) (hsize : e1.source.size = e1.grid.size) :
    ∃ e', e1.record_op f t (e1.grid.rectOf t) op state = .ok e' ∧ TileSent f e1 t state e' := by
  obtain ⟨src, hw, h1, h2, h3⟩ := write_rect_spec e1.source (e1.grid.rectOf t)
    (f.copy_rect (e1.grid.rectOf t)) (e1.grid.rectOf_not_empty t ht)
    (by rw [hsize]; exact e1.grid.rectOf_in_bounds t ht) (length_copy_rect _ _)
  unfold Encoder.record_op
  rw [hw]
  exact ⟨_, rfl, rfl, rfl, h1, h2, h3, ⟨rfl, rfl, rfl, rfl, rfl, rfl, rfl⟩, rfl, rfl, rfl, rfl, rfl,
    rfl⟩

theorem send_tile_cases (D : Deps) (f : Frame) (H : TileHashes) (timed throttled : Bool)
    (e : Encoder) (ops : List TileOp) (t : Nat) (ht : t < e.grid.len)
    (hsize : e.source.size = e.grid.size) :
    ∃ r, Encoder.send_tile D f H timed throttled (e, ops) t = .ok r ∧
      ((e.viewer t = .Exact (H.hashes t) ∧ r = (e, ops)) ∨
        (throttled = true ∧ timed = true ∧ e.motion.contains t = true ∧
          r = ({ e with viewer := Function.update e.viewer t .Unknown }, ops)) ∨
        ∃ e1 op state, Sending D f e t (H.hashes t) e1 op state ∧ TileSent f e1 t state r.1 ∧
          r.2 = ops ++ [op]) := by
  unfold Encoder.send_tile
  simp only
  split
  · rename_i hskip
    exact ⟨_, rfl, .inl ⟨hskip, rfl⟩⟩
  split
  · rename_i hmotion
    simp at hmotion
    exact ⟨_, rfl, .inr (.inl ⟨hmotion.2, hmotion.1.1, hmotion.1.2, rfl⟩)⟩
  · obtain ⟨e1, op, state, hchoose, hsend⟩ := choose_op_sending D f e t (H.hashes t)
      (class_in f (e.grid.rectOf t) (timed && e.motion.contains t)) (fun _ h => class_in_solid h)
    have hgrid : e1.grid = e.grid ∧ e1.source = e.source := by
      cases hsend <;> exact ⟨rfl, rfl⟩
    obtain ⟨e', hrec, hsent⟩ := record_op_ok f e1 t op state (by rw [hgrid.1]; exact ht)
      (by rw [hgrid.1, hgrid.2]; exact hsize)
    rw [hgrid.1] at hrec
    rw [hchoose]
    simp only [hrec]
    exact ⟨(e', ops ++ [op]), rfl, .inr (.inr ⟨e1, op, state, hsend, hsent, rfl⟩)⟩

/-- A bounded history keeps an entry, or a resume must have acknowledged it. -/
theorem remember_spec {α : Type} (history : List (Nat × α)) (oldest : Nat) (entry : Nat × α) :
    oldest ≤ (remember history oldest entry).2 ∧
      ∀ x ∈ history ++ [entry], x ∈ (remember history oldest entry).1 ∨
        x.1 ≤ (remember history oldest entry).2 := by
  unfold remember
  split
  · cases hl : history ++ [entry] with
    | nil => simp
    | cons d rest =>
      refine ⟨le_max_left _ _, ?_⟩
      intro x hx
      rcases List.mem_cons.mp hx with rfl | hx
      · exact .inr (le_max_right _ _)
      · exact .inl hx
  · exact ⟨le_rfl, fun x hx => .inl hx⟩

theorem shadowLogged_lossless (e : Encoder) (hash : TileHash) (rect : Rect)
    (hn : e.shadow.index.hashes.Nodup) :
    ShadowLogged e.next_sequence e (e.record_lossless hash rect) := by
  obtain ⟨h1, h2, -, -⟩ := insert_spec e.shadow.index hash (pixel_bytes rect) hn
  obtain ⟨g1, g2⟩ := remember_spec e.inserted e.oldest_resumable (e.next_sequence, hash)
  refine ⟨g1, fun s h hm => g2 (s, h) (by simp [hm]), ?_, fun _ => h1⟩
  intro k hk
  rcases h2 k hk with ⟨rfl, -⟩ | ⟨hold, -⟩
  · exact .inr (g2 (e.next_sequence, k) (by simp))
  · exact .inl hold

theorem shadowLogged_touch (n : Nat) (e : Encoder) (hash : TileHash)
    (hn : e.shadow.index.hashes.Nodup) :
    ShadowLogged n e { e with shadow := ⟨(e.shadow.index.touch hash).2⟩ } := by
  obtain ⟨-, h2, h3, -⟩ := touch_spec e.shadow.index hash hn
  exact ⟨le_rfl, fun _ _ hm => .inl hm, fun k hk => .inl ((h3 k).mp hk), fun _ => h2⟩

theorem Sending.logged {D : Deps} {e e1 : Encoder} {state : ViewerTile}
    (h : Sending D f e t hash e1 op state) (hn : e.shadow.index.hashes.Nodup) :
    ShadowLogged e.next_sequence e e1 := by
  cases h with
  | solid c hc => exact ShadowLogged.refl _ _
  | cached hh => exact shadowLogged_touch _ e hash hn
  | lossless hh => exact shadowLogged_lossless e hash _ hn
  | lossy hh => exact ShadowLogged.refl _ _

theorem Sending.rest {D : Deps} {e e1 : Encoder} {state : ViewerTile}
    (h : Sending D f e t hash e1 op state) :
    SameSetup e e1 ∧ e1.source = e.source ∧ e1.viewer = e.viewer ∧ e1.sent_at = e.sent_at ∧
      e1.motion = e.motion ∧ e1.hashes = e.hashes ∧ e1.moves = e.moves ∧ state.Holds hash := by
  cases h
  · exact ⟨SameSetup.refl e, rfl, rfl, rfl, rfl, rfl, rfl, .inl rfl⟩
  · exact ⟨⟨rfl, rfl, rfl, rfl, rfl, rfl, rfl⟩, rfl, rfl, rfl, rfl, rfl, rfl, .inl rfl⟩
  · exact ⟨⟨rfl, rfl, rfl, rfl, rfl, rfl, rfl⟩, rfl, rfl, rfl, rfl, rfl, rfl, .inl rfl⟩
  · exact ⟨SameSetup.refl e, rfl, rfl, rfl, rfl, rfl, rfl, .inr rfl⟩

theorem sameOn_other {f g : Frame} {grid : TileGrid} {u : Nat} (ht : t < grid.len)
    (hu : u < grid.len) (hne : u ≠ t)
    (h : ∀ x y, ¬ (grid.rectOf t).Covers x y → f.pixel x y = g.pixel x y) :
    f.SameOn g (grid.rectOf u) := by
  intro x y hc
  apply h
  intro hc'
  exact hne (grid.rectOf_disjoint hu ht hc hc')

/-- What the loop over the changed tiles has done once it has gone through the tiles of `seen`. -/
structure LoopDone (D : Deps) (tiles : Set TileImage) (H : TileHashes) (e e' : Encoder)
    (seen : List Nat) : Prop where
  advance : Advance e.next_sequence e e'
  ok : ∀ t < e.grid.len, TileOk D tiles e' t
  named : ∀ t ∈ seen, ∀ h, (e'.viewer t).Holds h → h = H.hashes t
  others : ∀ t, t ∉ seen → e'.viewer t = e.viewer t
  hashes : e'.hashes = e.hashes
  motion : e'.motion = e.motion
  moves : e'.moves = e.moves
  nodup : e'.shadow.index.hashes.Nodup

theorem loopDone_nil (D : Deps) (tiles : Set TileImage) (H : TileHashes) (e : Encoder)
    (hok : ∀ t < e.grid.len, TileOk D tiles e t) (hn : e.shadow.index.hashes.Nodup) :
    LoopDone D tiles H e e [] :=
  ⟨Advance.refl _ e, hok, by simp, fun _ _ => rfl, rfl, rfl, rfl, hn⟩

section

variable {D : Deps} {tiles : Set TileImage} {f : Frame} {H : TileHashes}

variable {state : ViewerTile}

variable {t : Nat} {op : TileOp}

theorem loopDone_sent {e e1 e' : Encoder} (hf : f.FullAlpha) (ht : t < e.grid.len)
    (hH : H.hashes t = hash_rect D f (e.grid.rectOf t)) (himg : f.image (e.grid.rectOf t) ∈ tiles)
    (hok : ∀ u < e.grid.len, TileOk D tiles e u) (hn : e.shadow.index.hashes.Nodup)
    (hs : Sending D f e t (H.hashes t) e1 op state) (h : TileSent f e1 t state e') :
    LoopDone D tiles H e e' [t] := by
  obtain ⟨hsetup, hsrc, hview, hsent, hmot, hhash, hmoves, hholds⟩ := hs.rest
  have hg : e1.grid = e.grid := hsetup.grid
  have hlog := hs.logged hn
  have hrest : ∀ x y, ¬ (e.grid.rectOf t).Covers x y → e'.source.pixel x y = e.source.pixel x y := by
    intro x y hc
    have := h.source_rest x y (by rw [hg]; exact hc)
    rwa [hsrc] at this
  obtain ⟨hr, hb⟩ := e.grid.rectOf_right t ht
  have htile : e'.source.SameOn f (e.grid.rectOf t) := by
    have := h.source_tile
    rw [hg] at this
    exact (copy_rect_eq_iff _ _ _ hr hb).mp this
  have hgrid' : e'.grid = e.grid := h.setup.grid.trans hg
  have hview' : ∀ u, e'.viewer u = if u = t then state else e.viewer u := by
    intro u
    rw [h.viewer, hview]
    by_cases hu : u = t
    · simp [hu]
    · simp [hu]
  refine ⟨⟨hsetup.trans h.setup, ?_, ?_, by rw [h.source_size, hsrc], ?_, ?_⟩, ?_, ?_, ?_, ?_, ?_,
    ?_, ?_⟩
  · intro u hu
    by_cases hut : u = t
    · subst hut
      exact .inl (by rw [h.sent_at]; simp [hsetup.next_sequence])
    · refine .inr ⟨by rw [h.sent_at, hsent]; simp [hut], sameOn_other ht hu hut hrest, .inl ?_⟩
      rw [hview', if_neg hut]
  · exact ⟨by rw [h.oldest]; exact hlog.oldest, by rw [h.inserted, h.oldest]; exact hlog.kept,
      by rw [h.shadow, h.inserted, h.oldest]; exact hlog.gained, by rw [h.shadow]; exact hlog.nodup⟩
  · intro hfull x y
    by_cases hc : (e.grid.rectOf t).Covers x y
    · rw [htile x y hc]
      exact hf x y
    · rw [hrest x y hc]
      exact hfull x y
  · rw [h.motion, hmot]
  · intro u hu
    by_cases hut : u = t
    · subst hut
      intro k hk
      rw [hview', if_pos rfl] at hk
      have hkh : k = H.hashes u := by
        rcases hholds with rfl | rfl <;> rcases hk with hk | hk <;> cases hk <;> rfl
      have himg' := (image_eq_iff e'.source f e.grid u ht).mpr htile
      rw [hgrid', hash_rect, himg', hkh, hH]
      exact ⟨rfl, himg⟩
    · exact tileOk_of_same D tiles hu hgrid' (sameOn_other ht hu hut hrest)
        (.inl (by rw [hview', if_neg hut])) (hok u hu)
  · intro u hu k hk
    rw [List.mem_singleton] at hu
    subst hu
    rw [hview', if_pos rfl] at hk
    rcases hholds with rfl | rfl <;> rcases hk with hk | hk <;> cases hk <;> rfl
  · intro u hu
    rw [hview', if_neg (by simpa using hu)]
  · rw [h.hashes, hhash]
  · rw [h.motion, hmot]
  · rw [h.moves, hmoves]
  · rw [h.shadow]
    exact hlog.nodup hn

theorem loopDone_trans {seen more : List Nat}
    (h1 : LoopDone D tiles H a b seen) (h2 : LoopDone D tiles H b c more) :
    LoopDone D tiles H a c (seen ++ more) := by
  have hn := h1.advance.setup.next_sequence
  have hg := h1.advance.setup.grid
  have hadv := h2.advance
  rw [hn] at hadv
  refine ⟨h1.advance.trans hadv, fun t ht => h2.ok t (by rw [hg]; exact ht), ?_, ?_,
    h2.hashes.trans h1.hashes, h2.motion.trans h1.motion, h2.moves.trans h1.moves, h2.nodup⟩
  · intro t ht h hh
    by_cases hm : t ∈ more
    · exact h2.named t hm h hh
    · rw [h2.others t hm] at hh
      rcases List.mem_append.mp ht with ht | ht
      · exact h1.named t ht h hh
      · exact absurd ht hm
  · intro t ht
    rw [List.mem_append, not_or] at ht
    rw [h2.others t ht.2, h1.others t ht.1]

theorem loopDone_unknown {e : Encoder} (hok : ∀ u < e.grid.len, TileOk D tiles e u)
    (hn : e.shadow.index.hashes.Nodup) :
    LoopDone D tiles H e { e with viewer := Function.update e.viewer t .Unknown } [t] := by
  have hview : ∀ u, Function.update e.viewer t .Unknown u = e.viewer u ∨
      Function.update e.viewer t .Unknown u = .Unknown := by
    intro u
    by_cases hu : u = t
    · simp [hu]
    · simp [hu]
  refine ⟨⟨⟨rfl, rfl, rfl, rfl, rfl, rfl, rfl⟩, ?_, shadowLogged_of_same _ rfl rfl rfl, rfl, id,
    rfl⟩, ?_, ?_, ?_, rfl, rfl, rfl, hn⟩
  · exact fun u _ => .inr ⟨rfl, fun _ _ _ => rfl, hview u⟩
  · exact fun u hu => tileOk_of_same D tiles hu rfl (fun _ _ _ => rfl) (hview u) (hok u hu)
  · intro u hu h hh
    rw [List.mem_singleton] at hu
    subst hu
    simp at hh
    exact absurd hh (not_holds_unknown h)
  · intro u hu
    simp only [List.mem_singleton] at hu
    simp [hu]

/-- Every lossy operation is for a tile that batch `n` drew. -/
def LossySent (n : Nat) (e : Encoder) (ops : List TileOp) : Prop :=
  ∀ t < e.grid.len, ∀ p, TileOp.Lossy t p ∈ ops → e.sent_at t = n

theorem Advance.sent_at_eq {n : Nat} {e e' : Encoder} (h : Advance n e e') (ht : t < e.grid.len)
    (hs : e.sent_at t = n) : e'.sent_at t = n := by
  rcases h.tiles t ht with h | ⟨h, -⟩
  · exact h
  · exact h.trans hs

theorem lossySent_sending {e e1 e' : Encoder} (hs : Sending D f e t (H.hashes t) e1 op state)
    (h : TileSent f e1 t state e') : LossySent e.next_sequence e' [op] := by
  intro u _ p hm
  rw [List.mem_singleton] at hm
  cases hs <;> cases hm
  rw [h.sent_at]
  simp

/-- The whole loop as the tiles it goes through and the operations it sends. -/
inductive SendRun (D : Deps) (f : Frame) (H : TileHashes) :
    Encoder → List Nat → List TileOp → Encoder → Prop
  | nil (e : Encoder) : SendRun D f H e [] [] e
  | skip {e e' : Encoder} {t : Nat} {l : List Nat} {ops : List TileOp}
      (hv : e.viewer t = .Exact (H.hashes t)) (h : SendRun D f H e l ops e') :
      SendRun D f H e (t :: l) ops e'
  | wait {e e' : Encoder} {t : Nat} {l : List Nat} {ops : List TileOp}
      (h : SendRun D f H { e with viewer := Function.update e.viewer t .Unknown } l ops e') :
      SendRun D f H e (t :: l) ops e'
  | send {e e1 e2 e' : Encoder} {t : Nat} {l : List Nat} {op : TileOp} {ops : List TileOp}
      {state : ViewerTile} (hs : Sending D f e t (H.hashes t) e1 op state)
      (ht : TileSent f e1 t state e2) (h : SendRun D f H e2 l ops e') :
      SendRun D f H e (t :: l) (op :: ops) e'

theorem sent_setup {e e1 e' : Encoder} (hs : Sending D f e t (H.hashes t) e1 op state)
    (h : TileSent f e1 t state e') : SameSetup e e' ∧ e'.source.size = e.source.size := by
  obtain ⟨hsetup, hsrc, -⟩ := hs.rest
  exact ⟨hsetup.trans h.setup, by rw [h.source_size, hsrc]⟩

theorem send_tiles_run (timed throttled : Bool) (l : List Nat) (e : Encoder) (ops : List TileOp)
    (hl : ∀ t ∈ l, t < e.grid.len) (hsize : e.source.size = e.grid.size) :
    ∃ e' new, l.foldlM (Encoder.send_tile D f H timed throttled) (e, ops) = .ok (e', ops ++ new) ∧
      SendRun D f H e l new e' := by
  induction l generalizing e ops with
  | nil => exact ⟨e, [], by simp [pure, Except.pure], .nil e⟩
  | cons t l ih =>
    obtain ⟨r, hr, hcases⟩ := send_tile_cases D f H timed throttled e ops t (hl t (by simp)) hsize
    rw [List.foldlM_cons, hr]
    simp only [bind, Except.bind]
    rcases hcases with ⟨hskip, rfl⟩ | ⟨-, -, -, rfl⟩ | ⟨e1, op, state, hsend, hsent, hops⟩
    · obtain ⟨e', new, h1, h2⟩ := ih e ops (fun u hu => hl u (by simp [hu])) hsize
      exact ⟨e', new, h1, .skip hskip h2⟩
    · obtain ⟨e', new, h1, h2⟩ := ih { e with viewer := Function.update e.viewer t .Unknown } ops
        (fun u hu => hl u (by simp [hu])) hsize
      exact ⟨e', new, h1, .wait h2⟩
    · obtain ⟨e2, ops2⟩ := r
      subst hops
      obtain ⟨hset, hsz⟩ := sent_setup hsend hsent
      obtain ⟨e', new, h1, h2⟩ := ih e2 (ops ++ [op])
        (fun u hu => by rw [hset.grid]; exact hl u (by simp [hu]))
        (by rw [hsz, hset.grid]; exact hsize)
      refine ⟨e', op :: new, ?_, .send hsend hsent h2⟩
      rw [h1, List.append_assoc]
      rfl

theorem sendRun_done {e e' : Encoder} {l : List Nat} {ops : List TileOp}
    (h : SendRun D f H e l ops e') (hf : f.FullAlpha)
    (hl : ∀ t ∈ l, t < e.grid.len ∧ H.hashes t = hash_rect D f (e.grid.rectOf t) ∧
      f.image (e.grid.rectOf t) ∈ tiles)
    (hok : ∀ u < e.grid.len, TileOk D tiles e u) (hn : e.shadow.index.hashes.Nodup) :
    LoopDone D tiles H e e' l ∧ LossySent e.next_sequence e' ops := by
  induction h with
  | nil e => exact ⟨loopDone_nil D tiles H e hok hn, by simp [LossySent]⟩
  | @skip e e' t l ops hv _ ih =>
    have hd : LoopDone D tiles H e e [t] := by
      refine ⟨Advance.refl _ e, hok, ?_, fun _ _ => rfl, rfl, rfl, rfl, hn⟩
      intro u hu h hh
      rw [List.mem_singleton] at hu
      subst hu
      rw [hv] at hh
      rcases hh with hh | hh <;> cases hh
      rfl
    obtain ⟨h1, h2⟩ := ih (fun u hu => hl u (by simp [hu])) hok hn
    exact ⟨loopDone_trans hd h1, h2⟩
  | @wait e e' t l ops _ ih =>
    have hd : LoopDone D tiles H e { e with viewer := Function.update e.viewer t .Unknown } [t] :=
      loopDone_unknown hok hn
    obtain ⟨h1, h2⟩ := ih (fun u hu => hl u (by simp [hu])) hd.ok hn
    exact ⟨loopDone_trans hd h1, h2⟩
  | @send e e1 e2 e' t l op ops state hs hsent _ ih =>
    obtain ⟨ht, hH, himg⟩ := hl t (by simp)
    have hd := loopDone_sent hf ht hH himg hok hn hs hsent
    have hg := hd.advance.setup.grid
    have hnum := hd.advance.setup.next_sequence
    obtain ⟨h1, h2⟩ := ih (fun u hu => by rw [hg]; exact hl u (by simp [hu]))
      (fun u hu => hd.ok u (by rw [hg] at hu; exact hu)) hd.nodup
    refine ⟨loopDone_trans hd h1, ?_⟩
    intro u hu p hm
    have hadv := h1.advance
    rw [hnum] at hadv h2
    rcases List.mem_cons.mp hm with hm | hm
    · have hu2 : u < e2.grid.len := by rw [hadv.setup.grid] at hu; exact hu
      exact hadv.sent_at_eq hu2 (lossySent_sending hs hsent u hu2 p (by simp [hm]))
    · exact h2 u hu p hm

end

/-! ## A scroll -/

/-- The encoder after a move: the tiles the move covers carry its number. -/
structure Scrolled (D : Deps) (found : VerticalMove) (e e' : Encoder) : Prop where
  moved : e.source.apply_move found.rect found.dy = .ok e'.source
  viewer : ∀ t, e'.viewer t = if (e.grid.tiles_covering found.rect).contains t then
    moved_state D e.grid e'.source e.viewer found t else e.viewer t
  sent_at : ∀ t, e'.sent_at t = if (e.grid.tiles_covering found.rect).contains t then
    e.next_sequence else e.sent_at t
  setup : SameSetup e e'
  shadow : e'.shadow = e.shadow
  inserted : e'.inserted = e.inserted
  oldest : e.oldest_resumable ≤ e'.oldest_resumable
  motion : e'.motion = e.motion
  hashes : e'.hashes = e.hashes

theorem foldl_move_tile (D : Deps) (before : Nat → ViewerTile) (found : VerticalMove)
    (l : List Nat) (e : Encoder) (changed : TileSet) :
    ∃ viewer sent_at changed', l.foldl (Encoder.move_tile D before found) (e, changed) =
        ({ e with viewer, sent_at }, changed') ∧
      (∀ t, viewer t = if t ∈ l then moved_state D e.grid e.source before found t
        else e.viewer t) ∧
      (∀ t, sent_at t = if t ∈ l then e.next_sequence else e.sent_at t) ∧
      changed' = l.foldl TileSet.insert changed := by
  induction l generalizing e changed with
  | nil => exact ⟨e.viewer, e.sent_at, changed, rfl, by simp, by simp, rfl⟩
  | cons a l ih =>
    obtain ⟨v, s, c, h1, h2, h3, h4⟩ := ih
      { e with
        viewer := Function.update e.viewer a (moved_state D e.grid e.source before found a)
        sent_at := Function.update e.sent_at a e.next_sequence } (changed.insert a)
    refine ⟨v, s, c, h1, ?_, ?_, h4⟩
    · intro t
      rw [h2 t]
      by_cases hl : t ∈ l
      · simp [hl]
      · by_cases hta : t = a
        · subst hta
          simp [hl]
        · simp [hl, hta]
    · intro t
      rw [h3 t]
      by_cases hl : t ∈ l
      · simp [hl]
      · by_cases hta : t = a
        · subst hta
          simp [hl]
        · simp [hl, hta]

theorem try_move_scrolled (D : Deps) (e e' : Encoder) (f : Frame) (changed changed' : TileSet)
    (op : TileOp) (h : e.try_move D f changed = some (e', changed', op))
    (hg : changed.grid = e.grid) :
    ∃ found, Scrolled D found e e' ∧ op = .Move found.rect found.dy ∧ changed'.grid = e.grid ∧
      ∀ t, changed'.contains t = true ↔ changed.contains t = true ∨
        (e.grid.tiles_covering found.rect).contains t = true := by
  unfold Encoder.try_move at h
  simp only at h
  split at h
  · cases h
  rename_i found hfound
  split at h
  · cases h
  rename_i source hmove
  obtain ⟨v, s, c, h1, h2, h3, h4⟩ := foldl_move_tile D e.viewer found
    (e.grid.tiles_covering found.rect).iter { e with source } changed
  rw [h1] at h
  cases h
  obtain ⟨g1, -⟩ := remember_spec e.moves e.oldest_resumable (e.next_sequence, found.rect)
  have hgrid := e.grid.tiles_covering_grid found.rect
  refine ⟨found, ⟨hmove, ?_, ?_, ⟨rfl, rfl, rfl, rfl, rfl, rfl, rfl⟩, rfl, rfl, g1, rfl, rfl⟩, rfl,
    ?_, ?_⟩
  · intro t
    simp only [h2 t, TileSet.mem_iter]
  · intro t
    simp only [h3 t, TileSet.mem_iter]
  · rw [h4, (TileSet.foldl_insert changed _ 0).1, hg]
  · intro t
    rw [h4, (TileSet.foldl_insert changed _ t).2, TileSet.mem_iter, hg]
    constructor
    · rintro (h | ⟨h, -⟩)
      · exact .inl h
      · exact .inr h
    · rintro (h | h)
      · exact .inl h
      · have hlt := TileSet.lt_of_contains h
        rw [hgrid] at hlt
        exact .inr ⟨h, hlt⟩

section
variable (D : Deps) (found : VerticalMove) (e e' : Encoder) (h : Scrolled D found e e')
include h

theorem scrolled_source (x y : Nat) : e'.source.pixel x y = if found.rect.Covers x y then
      e.source.pixel x ((y : Int) + found.dy).toNat else e.source.pixel x y :=
  (apply_move_spec e.source e'.source found.rect found.dy h.moved).2 x y

theorem scrolled_kept (t : Nat) (ht : t < e.grid.len)
    (hc : ¬ (e.grid.tiles_covering found.rect).contains t = true) :
    e'.source.SameOn e.source (e.grid.rectOf t) := by
  intro x y hxy
  rw [scrolled_source D found e e' h, if_neg]
  intro hf
  exact hc ((e.grid.contains_tiles_covering found.rect t).mpr ⟨ht, x, y, hxy, hf⟩)

theorem scrolled_advance : Advance e.next_sequence e e' := by
  refine ⟨h.setup, ?_, ?_, (apply_move_spec _ _ _ _ h.moved).1, ?_, by rw [h.motion]⟩
  · intro t ht
    by_cases hc : (e.grid.tiles_covering found.rect).contains t = true
    · exact .inl (by rw [h.sent_at, if_pos hc])
    · refine .inr ⟨by rw [h.sent_at, if_neg hc], scrolled_kept D found e e' h t ht hc, .inl ?_⟩
      rw [h.viewer, if_neg hc]
  · refine ⟨h.oldest, ?_, ?_, ?_⟩
    · rw [h.inserted]
      exact fun _ _ hm => .inl hm
    · rw [h.shadow]
      exact fun _ hm => .inl hm
    · rw [h.shadow]
      exact id
  · intro hf x y
    rw [scrolled_source D found e e' h]
    split
    · exact hf _ _
    · exact hf _ _

end

theorem moved_state_holds {D : Deps} {grid : TileGrid} {source : FrameBuffer}
    {before : Nat → ViewerTile} {found : VerticalMove} {t : Nat} {h : TileHash}
    (hh : (moved_state D grid source before found t).Holds h) :
    hash_rect D source (grid.rectOf t) = h := by
  unfold moved_state at hh
  split at hh
  · rcases hh with hh | hh
    · cases hh
      rfl
    · cases hh
  · exact absurd hh (not_holds_unknown h)

theorem scrolled_tileOk (D : Deps) (tiles : Set TileImage) (found : VerticalMove) (e e' : Encoder)
    (h : Scrolled D found e e') (t : Nat) (ht : t < e.grid.len)
    (himg : e'.source.image (e.grid.rectOf t) ∈ tiles) (hok : TileOk D tiles e t) :
    TileOk D tiles e' t := by
  have hg := h.setup.grid
  by_cases hc : (e.grid.tiles_covering found.rect).contains t = true
  · intro k hk
    rw [h.viewer, if_pos hc] at hk
    rw [hg]
    exact ⟨moved_state_holds hk, himg⟩
  · exact tileOk_of_same D tiles ht hg (scrolled_kept D found e e' h t ht hc)
      (.inl (by rw [h.viewer, if_neg hc])) hok

theorem scroll_cases (D : Deps) (e : Encoder) (f : Frame) (changed : TileSet)
    (hg : changed.grid = e.grid) : (e.scroll D f changed = (e, changed, [])) ∨
      ∃ e' changed' found, e.scroll D f changed = (e', changed', [.Move found.rect found.dy]) ∧
        e.config.detect_scrolls = true ∧ Scrolled D found e e' ∧ changed'.grid = e.grid ∧
        ∀ t, changed'.contains t = true ↔ changed.contains t = true ∨
          (e.grid.tiles_covering found.rect).contains t = true := by
  unfold Encoder.scroll
  split
  · rename_i hon
    simp at hon
    cases hm : e.try_move D f changed with
    | none => exact .inl rfl
    | some r =>
      obtain ⟨e', changed', op⟩ := r
      obtain ⟨found, h1, rfl, h2, h3⟩ := try_move_scrolled D e e' f changed changed' op hm hg
      exact .inr ⟨e', changed', found, rfl, hon.1, h1, h2, h3⟩
  · exact .inl rfl

/-! ## Motion -/

/-- Following the motion region only forgets tiles, and has them sent. -/
structure MotionFollowed (e e' : Encoder) (changed changed' : TileSet) : Prop where
  setup : SameSetup e e'
  source : e'.source = e.source
  sent_at : e'.sent_at = e.sent_at
  viewer : ∀ t, e'.viewer t = e.viewer t ∨ e'.viewer t = .Unknown
  shadow : e'.shadow = e.shadow
  inserted : e'.inserted = e.inserted
  oldest : e'.oldest_resumable = e.oldest_resumable
  moves : e'.moves = e.moves
  hashes : e'.hashes = e.hashes
  motion_grid : e'.motion.grid = e.motion.grid
  grid : changed'.grid = changed.grid
  more : ∀ t, changed.contains t = true → changed'.contains t = true

theorem MotionFollowed.refl (e : Encoder) (changed : TileSet) :
    MotionFollowed e e changed changed :=
  ⟨SameSetup.refl e, rfl, rfl, fun _ => .inl rfl, rfl, rfl, rfl, rfl, rfl, rfl, rfl, fun _ => id⟩

theorem MotionFollowed.trans {p q r : TileSet} (h1 : MotionFollowed a b p q)
    (h2 : MotionFollowed b c q r) : MotionFollowed a c p r := by
  refine ⟨h1.setup.trans h2.setup, h2.source.trans h1.source, h2.sent_at.trans h1.sent_at, ?_,
    h2.shadow.trans h1.shadow, h2.inserted.trans h1.inserted, h2.oldest.trans h1.oldest,
    h2.moves.trans h1.moves, h2.hashes.trans h1.hashes, h2.motion_grid.trans h1.motion_grid,
    h2.grid.trans h1.grid, fun t ht => h2.more t (h1.more t ht)⟩
  intro t
  rcases h2.viewer t with hv | hv
  · rw [hv]
    exact h1.viewer t
  · exact .inr hv

theorem foldl_update_unknown (l : List Nat) (v : Nat → ViewerTile) (t : Nat) :
    l.foldl (fun v tile => Function.update v tile .Unknown) v t =
      if t ∈ l then .Unknown else v t := by
  induction l generalizing v with
  | nil => simp
  | cons a l ih =>
    rw [List.foldl_cons, ih]
    by_cases hl : t ∈ l
    · simp [hl]
    · by_cases hta : t = a
      · simp [hta]
      · simp [hl, hta]

theorem forget_region_followed (e : Encoder) (rect : Rect) (changed : TileSet) :
    MotionFollowed e (e.forget_region rect changed).1 changed (e.forget_region rect changed).2 := by
  unfold Encoder.forget_region
  have hins := TileSet.foldl_insert changed (e.grid.tiles_covering rect).iter
  refine ⟨⟨rfl, rfl, rfl, rfl, rfl, rfl, rfl⟩, rfl, rfl, ?_, rfl, rfl, rfl, rfl, rfl, rfl,
    (hins 0).1, fun t ht => (hins t).2.mpr (.inl ht)⟩
  intro t
  simp only [foldl_update_unknown]
  split
  · exact .inr rfl
  · exact .inl rfl

theorem on_motion_event_followed (e : Encoder) (changed : TileSet) (now : Nat)
    (event : Option MotionEvent) : MotionFollowed e (e.on_motion_event changed now event).1 changed
      (e.on_motion_event changed now event).2 := by
  cases event with
  | none => exact MotionFollowed.refl e changed
  | some event =>
    cases event with
    | Promoted rect =>
      exact ⟨⟨rfl, rfl, rfl, rfl, rfl, rfl, rfl⟩, rfl, rfl, fun _ => .inl rfl, rfl, rfl, rfl, rfl,
        rfl, rfl, rfl, fun _ => id⟩
    | Demoted rect =>
      have h := forget_region_followed { e with region_bytes := 0, region_since_ms := none } rect
        changed
      exact ⟨⟨rfl, rfl, rfl, rfl, rfl, rfl, rfl⟩, rfl, rfl, h.viewer, rfl, rfl, rfl, rfl, rfl, rfl,
        h.grid, h.more⟩

theorem follow_motion_followed (e : Encoder) (H : TileHashes) (content changed : TileSet)
    (now_ms : Option Nat) : MotionFollowed e (e.follow_motion H content changed now_ms).1 changed
      (e.follow_motion H content changed now_ms).2.1 := by
  cases now_ms with
  | none => exact MotionFollowed.refl e changed
  | some now =>
    have hobs : MotionFollowed e (e.observe_motion H content changed now).1 changed
        (e.observe_motion H content changed now).2 := by
      have h := on_motion_event_followed { e with
        changed_at_ms := content.iter.foldl (fun c tile => Function.update c tile now)
          e.changed_at_ms
        motion := (e.motion.observe (e.still_different H content) now).2
        motion_event := (e.motion.observe (e.still_different H content) now).1
        region_now_ms := now } changed now (e.motion.observe (e.still_different H content) now).1
      exact ⟨⟨h.setup.1, h.setup.2, h.setup.3, h.setup.4, h.setup.5, h.setup.6, h.setup.7⟩,
        h.source, h.sent_at, h.viewer, h.shadow, h.inserted, h.oldest, h.moves, h.hashes,
        h.motion_grid.trans (observe_grid _ _ _), h.grid, h.more⟩
    have hpace : ∀ e : Encoder, ∀ c, MotionFollowed e (e.pace_motion now).1 c c := by
      intro e c
      unfold Encoder.pace_motion
      split
      · split
        · exact MotionFollowed.refl e c
        · exact ⟨⟨rfl, rfl, rfl, rfl, rfl, rfl, rfl⟩, rfl, rfl, fun _ => .inl rfl, rfl, rfl, rfl,
            rfl, rfl, rfl, rfl, fun _ => id⟩
      · exact MotionFollowed.refl e c
    exact hobs.trans (hpace _ _)

theorem MotionFollowed.advance {e e' : Encoder} {changed changed' : TileSet}
    (h : MotionFollowed e e' changed changed') : Advance e.next_sequence e e' :=
  ⟨h.setup, fun t _ => .inr ⟨by rw [h.sent_at], by rw [h.source]; exact fun _ _ _ => rfl,
    h.viewer t⟩, shadowLogged_of_same _ h.shadow h.inserted h.oldest, by rw [h.source],
    by rw [h.source]; exact id, h.motion_grid⟩

/-! ## Encoding a frame -/

/-- The damage names every pixel that differs from the last encoded frame. -/
def DamageCovers (last : Option Frame) (damage : Option (List Rect)) (f : Frame) : Prop :=
  ∀ rects, damage = some rects → ∀ g, last = some g → ∀ x y, x < f.size.width → y < f.size.height →
    g.pixel x y ≠ f.pixel x y → ∃ r ∈ rects, r.Covers x y

/-- A frame has the size of the surface and full alpha, and its damage names every pixel that
differs from the frame before. -/
def Encoder.FrameOk (e : Encoder) (last : Option Frame) (frame : Frame)
    (damage : Option (List Rect)) : Prop :=
  frame.size = e.grid.size ∧ frame.FullAlpha ∧ DamageCovers last damage frame

/-- The encoder keeps its belief in step with the frames it was shown. `last` is the last of
them. -/
structure EncoderOk (D : Deps) (tiles : Set TileImage) (e : Encoder) (last : Option Frame) :
    Prop where
  source_size : e.source.size = e.grid.size
  source_full : e.source.FullAlpha
  motion_grid : e.motion.grid = e.grid
  nodup : e.shadow.index.hashes.Nodup
  ok : ∀ t < e.grid.len, TileOk D tiles e t
  fresh : e.hashes = none → ∀ t < e.grid.len, e.viewer t = .Unknown
  last_size : ∀ f, last = some f → f.size = e.grid.size
  last_full : ∀ f, last = some f → f.FullAlpha
  known : ∀ H, e.hashes = some H → H.grid = e.grid ∧ ∃ f, last = some f ∧
    ∀ t < e.grid.len, H.hashes t = hash_rect D f (e.grid.rectOf t) ∧
      f.image (e.grid.rectOf t) ∈ tiles ∧ ∀ h, (e.viewer t).Holds h → h = H.hashes t

theorem encoderOk_new (D : Deps) (tiles : Set TileImage) (surface : SurfaceId)
    (generation : Generation) (size : Size) (config : EncoderConfig) :
    EncoderOk D tiles (Encoder.new surface generation size config) none := by
  refine ⟨rfl, fun _ _ => rfl, rfl, List.nodup_nil, ?_, fun _ _ _ => rfl, by simp, by simp,
    by simp [Encoder.new]⟩
  intro t _ h hh
  exact absurd hh (not_holds_unknown h)

/-- The source copy after the scroll step of an encoding: the picture that its move gives. -/
def Encoder.scrolledSource (D : Deps) (e : Encoder) (f : Frame) (damage : Option (List Rect)) :
    FrameBuffer :=
  match e.compare D f damage with
  | .ok (H, content) =>
    (({ e with hashes := some H } : Encoder).scroll D f
      (({ e with hashes := some H } : Encoder).add_unknown content)).1.source
  | .error _ => e.source

/-- The move that an encoding of the frame sends first, if it finds one. -/
def Encoder.scrollOps (D : Deps) (e : Encoder) (f : Frame) (damage : Option (List Rect)) :
    List TileOp :=
  match e.compare D f damage with
  | .ok (H, content) =>
    (({ e with hashes := some H } : Encoder).scroll D f
      (({ e with hashes := some H } : Encoder).add_unknown content)).2.2
  | .error _ => []

/-- The tiles that an encoding hashes: those of the frame, and those of the source copy after its
move. -/
def Encoder.hashedTiles (D : Deps) (e : Encoder) (f : Frame) (damage : Option (List Rect)) :
    Set TileImage :=
  { i | ∃ t < e.grid.len, i = f.image (e.grid.rectOf t) ∨
    i = (e.scrolledSource D f damage).image (e.grid.rectOf t) }

theorem contains_add_unknown (e : Encoder) (changed : TileSet) (hg : changed.grid = e.grid) :
    (e.add_unknown changed).grid = e.grid ∧ ∀ t, (e.add_unknown changed).contains t = true ↔
        changed.contains t = true ∨ (t < e.grid.len ∧ e.viewer t = .Unknown) := by
  have key : ∀ (l : List Nat) (s : TileSet), s.grid = e.grid → (∀ t ∈ l, t < e.grid.len) →
      let r := l.foldl (fun set tile =>
        if e.viewer tile = .Unknown then set.insert tile else set) s
      r.grid = e.grid ∧ ∀ t, r.contains t = true ↔
        s.contains t = true ∨ (t ∈ l ∧ e.viewer t = .Unknown) := by
    intro l
    induction l with
    | nil => intro s hs _; simp [hs]
    | cons a l ih =>
      intro s hs hl
      simp only [List.foldl_cons]
      by_cases ha : e.viewer a = .Unknown
      · rw [if_pos ha]
        obtain ⟨h1, h2⟩ := ih (s.insert a) (by simp [hs]) fun t ht => hl t (by simp [ht])
        refine ⟨h1, fun t => ?_⟩
        have hin : s.grid.contains a = true := by
          rw [hs]
          simpa [TileGrid.contains] using hl a (by simp)
        rw [h2 t, TileSet.contains_insert, hin]
        simp
        constructor
        · rintro ((h | rfl) | h)
          · exact .inl h
          · exact .inr ⟨.inl rfl, ha⟩
          · exact .inr ⟨.inr h.1, h.2⟩
        · rintro (h | ⟨rfl | h, h'⟩)
          · exact .inl (.inl h)
          · exact .inl (.inr rfl)
          · exact .inr ⟨h, h'⟩
      · rw [if_neg ha]
        obtain ⟨h1, h2⟩ := ih s hs fun t ht => hl t (by simp [ht])
        refine ⟨h1, fun t => ?_⟩
        rw [h2 t]
        simp
        constructor
        · rintro (h | ⟨h, h'⟩)
          · exact .inl h
          · exact .inr ⟨.inr h, h'⟩
        · rintro (h | ⟨rfl | h, h'⟩)
          · exact .inl h
          · exact absurd h' ha
          · exact .inr ⟨h, h'⟩
  obtain ⟨h1, h2⟩ := key (List.range e.grid.len) changed hg (by simp)
  exact ⟨h1, fun t => by rw [Encoder.add_unknown, h2 t]; simp⟩

/-- The comparison with the last frame: the hashes are those of the frame, and a tile that is not
reported as changed has the hash it had. -/
theorem compare_spec (D : Deps) (tiles : Set TileImage) (e : Encoder) (last : Option Frame)
    (f : Frame) (damage : Option (List Rect)) (hok : EncoderOk D tiles e last)
    (hsize : f.size = e.grid.size) (hdam : DamageCovers last damage f) :
    ∃ H content, e.compare D f damage = .ok (H, content) ∧ H.grid = e.grid ∧
      content.grid = e.grid ∧ (∀ t < e.grid.len, H.hashes t = hash_rect D f (e.grid.rectOf t)) ∧
      ∀ t < e.grid.len, content.contains t = false →
        ∀ h, (e.viewer t).Holds h → h = H.hashes t := by
  cases hh : e.hashes with
  | none =>
    refine ⟨TileHashes.compute D f, TileSet.full e.grid, by simp [Encoder.compare, hh], ?_,
      TileSet.full_grid e.grid, ?_, ?_⟩
    · simp [TileHashes.compute, TileGrid.new, hsize]
    · simp [TileHashes.compute, TileGrid.new, hsize]
    · intro t ht hc
      rw [(TileSet.contains_full e.grid t).mpr ht] at hc
      cases hc
  | some H0 =>
    obtain ⟨hg0, g, hlast, hknown⟩ := hok.known H0 hh
    obtain ⟨H, content, h1, h2, h3, h4, h5, h6⟩ := update_spec D H0 f
      (damage.map e.grid.tiles_for_damage) (by rw [hsize, hg0]) (by
        intro s hs
        cases damage with
        | none => cases hs
        | some rects =>
          cases hs
          rw [e.grid.tiles_for_damage_grid, hg0])
    rw [hg0] at h2 h3 h4 h6
    refine ⟨H, content, by simp [Encoder.compare, hh, h1], h2, h3, ?_, ?_⟩
    · intro t ht
      by_cases hc : isCandidate e.grid (damage.map e.grid.tiles_for_damage) t
      · exact h4 t hc
      · -- the tile has no damage, so it shows the pixels of the last frame
        rw [h5 t (by rw [hg0]; exact hc), (hknown t ht).1]
        have hsame : g.SameOn f (e.grid.rectOf t) := by
          intro x y hxy
          by_contra hne
          apply hc
          refine ⟨ht, fun s hs => ?_⟩
          cases damage with
          | none => cases hs
          | some rects =>
            cases hs
            obtain ⟨hx, hy, -⟩ := (e.grid.covers_rectOf t ht x y).mp hxy
            obtain ⟨r, hr, hcov⟩ := hdam rects rfl g hlast x y (by rw [hsize]; exact hx)
              (by rw [hsize]; exact hy) hne
            exact (e.grid.contains_tiles_for_damage rects t).mpr ⟨ht, r, hr, x, y, hxy, hcov⟩
        rw [hash_rect, hash_rect, (image_eq_iff g f e.grid t ht).mpr hsame]
    · intro t ht hc h hv
      rw [(hknown t ht).2.2 h hv]
      by_cases hcand : isCandidate e.grid (damage.map e.grid.tiles_for_damage) t
      · have hnot : ¬ content.contains t = true := by simp [hc]
        rw [h6 t] at hnot
        simp [hcand] at hnot
        rw [hnot, h4 t hcand]
      · rw [h5 t (by rw [hg0]; exact hcand)]

/-- The stages of an encoding: the hashes are compared, a scroll is applied (`s`), the motion
region is followed (`m`), and the changed tiles are sent (`r`). -/
structure Stages (D : Deps) (tiles : Set TileImage) (e : Encoder) (f : Frame)
    (now_ms : Option Nat) (H : TileHashes) (s m r : Encoder) (moveOps sentOps : List TileOp) :
    Prop where
  grid : H.grid = e.grid
  hashes : ∀ t < e.grid.len, H.hashes t = hash_rect D f (e.grid.rectOf t)
  scroll : (s = { e with hashes := some H } ∧ moveOps = []) ∨
    ∃ found, e.config.detect_scrolls = true ∧ Scrolled D found { e with hashes := some H } s ∧
      moveOps = [.Move found.rect found.dy]
  motion : ∃ c c', MotionFollowed s m c c'
  ok : ∀ t < e.grid.len, TileOk D tiles m t
  done : ∃ changed : TileSet, changed.grid = e.grid ∧ SendRun D f H m changed.iter sentOps r ∧
    LoopDone D tiles H m r changed.iter ∧
    ∀ t < e.grid.len, changed.contains t = false → ∀ h, (m.viewer t).Holds h → h = H.hashes t
  lossy : LossySent e.next_sequence r (moveOps ++ sentOps)

section

variable {D : Deps} {tiles : Set TileImage}

theorem encode_stages (e : Encoder) (last : Option Frame) (f : Frame)
    (damage : Option (List Rect)) (now_ms : Option Nat) (hok : EncoderOk D tiles e last)
    (hsize : f.size = e.grid.size) (hf : f.FullAlpha) (hdam : DamageCovers last damage f)
    (hin : e.hashedTiles D f damage ⊆ tiles) :
    ∃ H s m r moveOps sentOps, Stages D tiles e f now_ms H s m r moveOps sentOps ∧
      e.encode_inner D f damage now_ms = .ok (r.finish (moveOps ++ sentOps)) ∧
      moveOps = e.scrollOps D f damage := by
  obtain ⟨H, content, hcmp, hHg, hcg, hH, hunch⟩ := compare_spec D tiles e last f damage hok hsize
    hdam
  generalize he0 : ({ e with hashes := some H } : Encoder) = e0
  have hg0 : e0.grid = e.grid := by rw [← he0]
  have hok0 : ∀ t < e.grid.len, TileOk D tiles e0 t := by
    rw [← he0]
    exact hok.ok
  obtain ⟨hag, hadd⟩ := contains_add_unknown e0 content (by rw [hcg, hg0])
  have himg : ∀ t < e.grid.len, f.image (e.grid.rectOf t) ∈ tiles :=
    fun t ht => hin ⟨t, ht, .inl rfl⟩
  -- the scroll
  have hscroll : ∃ s changed moveOps, e0.scroll D f (e0.add_unknown content) = (s, changed, moveOps) ∧
      ((s = e0 ∧ moveOps = []) ∨ ∃ found, e.config.detect_scrolls = true ∧ Scrolled D found e0 s ∧
        moveOps = [.Move found.rect found.dy]) ∧ changed.grid = e.grid ∧
      (∀ t < e.grid.len, changed.contains t = false → content.contains t = false ∧
        s.viewer t = e.viewer t) ∧
      (∀ t < e.grid.len, TileOk D tiles s t) ∧ SameSetup e s ∧
      (∀ t p, TileOp.Lossy t p ∉ moveOps) ∧ s.motion = e.motion ∧
      s.source.size = e.source.size ∧ s.shadow.index.hashes.Nodup := by
    rcases scroll_cases D e0 f (e0.add_unknown content) hag with hno |
        ⟨s, changed, found, hsc, hon, hscrolled, hgc, hmem⟩
    · refine ⟨e0, _, _, hno, .inl ⟨rfl, rfl⟩, by rw [hag, hg0], ?_, hok0, ?_, by simp, ?_, ?_, ?_⟩
      · intro t ht hc
        have hnot := mt (hadd t).mpr (by simp [hc])
        rw [not_or] at hnot
        exact ⟨by simpa using hnot.1, by rw [← he0]⟩
      · rw [← he0]
        exact ⟨rfl, rfl, rfl, rfl, rfl, rfl, rfl⟩
      · rw [← he0]
      · rw [← he0]
      · rw [← he0]
        exact hok.nodup
    · have hsrc : e.scrolledSource D f damage = s.source := by
        simp only [Encoder.scrolledSource, hcmp, he0, hsc]
      have hadv := scrolled_advance D found e0 s hscrolled
      refine ⟨s, changed, _, hsc, .inr ⟨found, by rw [← he0] at hon; exact hon, hscrolled, rfl⟩,
        by rw [hgc, hg0], ?_, ?_, ?_, by simp, ?_, ?_, ?_⟩
      · intro t ht hc
        have hnot := mt (hmem t).mpr (by simp [hc])
        rw [not_or, hadd t, not_or] at hnot
        refine ⟨by simpa using hnot.1.1, ?_⟩
        rw [hscrolled.viewer t, if_neg hnot.2, ← he0]
      · intro t ht
        refine scrolled_tileOk D tiles found e0 s hscrolled t (by rw [hg0]; exact ht) ?_ (hok0 t ht)
        rw [hg0, ← hsrc]
        exact hin ⟨t, ht, .inr rfl⟩
      · refine SameSetup.trans ?_ hadv.setup
        rw [← he0]
        exact ⟨rfl, rfl, rfl, rfl, rfl, rfl, rfl⟩
      · rw [hscrolled.motion, ← he0]
      · rw [hadv.source_size, ← he0]
      · rw [hscrolled.shadow, ← he0]
        exact hok.nodup
  obtain ⟨s, changedS, moveOps, hsc, hsgood, hsg, hsun, hsok, hsset, hslossy, hsmot, hssize, hsnod⟩ :=
    hscroll
  -- the motion region
  have hnone : MotionFollowed s { s with motion_event := none } changedS changedS :=
    ⟨⟨rfl, rfl, rfl, rfl, rfl, rfl, rfl⟩, rfl, rfl, fun _ => .inl rfl, rfl, rfl, rfl, rfl, rfl, rfl,
      rfl, fun _ => id⟩
  have hfol := hnone.trans (follow_motion_followed { s with motion_event := none } H content changedS
    now_ms)
  generalize hmdef : ({ s with motion_event := none } : Encoder).follow_motion H content changedS
    now_ms = followed at hfol
  obtain ⟨m, changedM, throttled⟩ := followed
  have hmg : m.grid = e.grid := hfol.setup.grid.trans hsset.grid
  have hmok : ∀ t < e.grid.len, TileOk D tiles m t := by
    intro t ht
    refine tileOk_of_same D tiles (by rw [hsset.grid]; exact ht) hfol.setup.grid ?_ (hfol.viewer t)
      (hsok t ht)
    rw [hfol.source]
    exact fun _ _ _ => rfl
  have hcM : changedM.grid = e.grid := hfol.grid.trans hsg
  -- the loop
  have hiter : ∀ t ∈ changedM.iter, t < m.grid.len := by
    intro t ht
    have := TileSet.lt_of_contains ((TileSet.mem_iter changedM t).mp ht)
    rwa [hcM, ← hmg] at this
  obtain ⟨r, sentOps, hloop, hrun⟩ := @send_tiles_run D f H now_ms.isSome throttled changedM.iter m
    moveOps hiter (by rw [hfol.source, hmg, hssize]; exact hok.source_size)
  obtain ⟨hdone, hlossy⟩ := sendRun_done hrun hf
    (fun t ht => by
      have hlt := hiter t ht
      rw [hmg] at hlt ⊢
      exact ⟨hlt, hH t hlt, himg t hlt⟩)
    (fun t ht => hmok t (by rw [hmg] at ht; exact ht))
    (by rw [hfol.shadow]; exact hsnod)
  refine ⟨H, s, m, r, moveOps, sentOps, ⟨hHg, hH, ?_, ⟨_, _, hfol⟩, hmok,
    ⟨changedM, hcM, hrun, hdone, ?_⟩, ?_⟩, ?_, ?_⟩
  · rw [he0]
    exact hsgood
  · intro t ht hc h hv
    have hcS : changedS.contains t = false := by
      cases hcs : changedS.contains t with
      | false => rfl
      | true => rw [hfol.more t hcs] at hc; cases hc
    obtain ⟨hcont, hview⟩ := hsun t ht hcS
    rcases hfol.viewer t with hvm | hvm
    · rw [hvm, hview] at hv
      exact hunch t ht hcont h hv
    · rw [hvm] at hv
      exact absurd hv (not_holds_unknown h)
  · intro t ht p hm
    rcases List.mem_append.mp hm with hm | hm
    · exact absurd hm (hslossy t p)
    · have := hlossy t ht p hm
      rw [this, hfol.setup.next_sequence, hsset.next_sequence]
  · unfold Encoder.encode_inner
    rw [if_neg (by simp [hsize])]
    simp only [hcmp, he0, hsc, hmdef, hloop, bind, Except.bind, pure, Except.pure]
  · simp only [Encoder.scrollOps, hcmp, he0, hsc]

variable {e : Encoder} {now_ms : Option Nat} {last : Option Frame}

variable {s m r : Encoder}

theorem stages_setup {H : TileHashes} {moveOps sentOps : List TileOp}
    (h : Stages D tiles e f now_ms H s m r moveOps sentOps) :
    Advance e.next_sequence e s ∧ Advance e.next_sequence s m ∧ Advance e.next_sequence m r := by
  have h0 : Advance e.next_sequence e { e with hashes := some H } :=
    ⟨⟨rfl, rfl, rfl, rfl, rfl, rfl, rfl⟩, fun t _ => .inr ⟨rfl, fun _ _ _ => rfl, .inl rfl⟩,
      shadowLogged_of_same _ rfl rfl rfl, rfl, id, rfl⟩
  have hs : Advance e.next_sequence e s := by
    rcases h.scroll with ⟨rfl, -⟩ | ⟨found, -, hsc, -⟩
    · exact h0
    · exact h0.trans (scrolled_advance D found _ s hsc)
  obtain ⟨c, c', hfol⟩ := h.motion
  have hm := hfol.advance
  obtain ⟨changed, -, -, hdone, -⟩ := h.done
  have hr := hdone.advance
  rw [hs.setup.next_sequence] at hm
  rw [hfol.setup.next_sequence, hs.setup.next_sequence] at hr
  exact ⟨hs, hm, hr⟩

theorem stages_advance {H : TileHashes}
    {moveOps sentOps : List TileOp} (h : Stages D tiles e f now_ms H s m r moveOps sentOps) :
    Advance e.next_sequence e r := by
  obtain ⟨h1, h2, h3⟩ := stages_setup h
  exact (h1.trans h2).trans h3

theorem stages_encoderOk {H : TileHashes}
    {moveOps sentOps : List TileOp} (h : Stages D tiles e f now_ms H s m r moveOps sentOps)
    (hok : EncoderOk D tiles e last) (hsize : f.size = e.grid.size) (hf : f.FullAlpha)
    (himg : ∀ t < e.grid.len, f.image (e.grid.rectOf t) ∈ tiles) :
    EncoderOk D tiles r (some f) := by
  obtain ⟨hs, hm, -⟩ := stages_setup h
  have hadv := stages_advance h
  have hg := hadv.setup.grid
  obtain ⟨changed, -, -, hdone, hun⟩ := h.done
  have hmg : m.grid = e.grid := hm.setup.grid.trans hs.setup.grid
  have hhash : r.hashes = some H := by
    obtain ⟨c, c', hfol⟩ := h.motion
    rw [hdone.hashes, hfol.hashes]
    rcases h.scroll with ⟨rfl, -⟩ | ⟨found, -, hsc, -⟩
    · rfl
    · rw [hsc.hashes]
  refine ⟨by rw [hadv.source_size, hg]; exact hok.source_size, hadv.source_full hok.source_full,
    by rw [hadv.motion_grid, hg]; exact hok.motion_grid, hadv.logged.nodup hok.nodup, ?_, ?_, ?_, ?_,
    ?_⟩
  · intro t ht
    rw [hg] at ht
    exact hdone.ok t (by rw [hmg]; exact ht)
  · intro hnone
    rw [hhash] at hnone
    cases hnone
  · intro g hg'
    cases hg'
    rw [hg, hsize]
  · intro g hg'
    cases hg'
    exact hf
  · intro H' hH'
    rw [hhash] at hH'
    cases hH'
    refine ⟨by rw [h.grid, hg], f, rfl, ?_⟩
    intro t ht
    rw [hg] at ht ⊢
    refine ⟨h.hashes t ht, himg t ht, ?_⟩
    intro k hk
    by_cases hc : changed.contains t = true
    · exact hdone.named t ((TileSet.mem_iter changed t).mpr hc) k hk
    · rw [hdone.others t (by rw [TileSet.mem_iter]; exact hc)] at hk
      exact hun t ht (by simpa using hc) k hk

/-- With no collision the belief about a tile names the tile of the last frame, and the source copy
holds its pixels. -/
theorem encoderOk_tile (h : EncoderOk D tiles e (some f)) (hcol : NoCollision D tiles)
    {t : Nat} (ht : t < e.grid.len) {k : TileHash} (hk : (e.viewer t).Holds k) :
    k = hash_rect D f (e.grid.rectOf t) ∧ e.source.SameOn f (e.grid.rectOf t) := by
  obtain ⟨h1, h2⟩ := h.ok t ht k hk
  cases hh : e.hashes with
  | none =>
    rw [h.fresh hh t ht] at hk
    exact absurd hk (not_holds_unknown k)
  | some H =>
    obtain ⟨-, g, hg, hknown⟩ := h.known H hh
    cases hg
    obtain ⟨k1, k2, k3⟩ := hknown t ht
    have hkf : k = hash_rect D f (e.grid.rectOf t) := (k3 k hk).trans k1
    refine ⟨hkf, (image_eq_iff _ _ _ t ht).mp (hcol _ h2 _ k2 ?_)⟩
    change hash_rect D e.source (e.grid.rectOf t) = hash_rect D f (e.grid.rectOf t)
    rw [h1, hkf]

theorem encoderOk_finish (h : EncoderOk D tiles e last) (ops : List TileOp) :
    EncoderOk D tiles (e.finish ops).2 last :=
  ⟨h.source_size, h.source_full, h.motion_grid, h.nodup, h.ok, h.fresh, h.last_size, h.last_full,
    h.known⟩

variable {e' : Encoder}

theorem encoderOk_forget (h : EncoderOk D tiles e last) (hg : e'.grid = e.grid)
    (hs : e'.source = e.source) (hh : e'.hashes = e.hashes) (hm : e'.motion = e.motion)
    (hn : e'.shadow.index.hashes.Nodup)
    (hv : ∀ t, e'.viewer t = e.viewer t ∨ e'.viewer t = .Unknown) : EncoderOk D tiles e' last := by
  have holds : ∀ t k, (e'.viewer t).Holds k → (e.viewer t).Holds k := by
    intro t k hk
    rcases hv t with hv | hv
    · rwa [hv] at hk
    · rw [hv] at hk
      exact absurd hk (not_holds_unknown k)
  refine ⟨by rw [hs, hg]; exact h.source_size, by rw [hs]; exact h.source_full,
    by rw [hm, hg]; exact h.motion_grid, hn, ?_, ?_, by rw [hg]; exact h.last_size, h.last_full, ?_⟩
  · intro t ht k hk
    rw [hg] at ht
    rw [hs, hg]
    exact h.ok t ht k (holds t k hk)
  · intro hnone t ht
    rw [hg] at ht
    rw [hh] at hnone
    rcases hv t with hv | hv
    · rw [hv, h.fresh hnone t ht]
    · exact hv
  · intro H hH
    rw [hh] at hH
    obtain ⟨h1, f, h2, h3⟩ := h.known H hH
    rw [hg]
    exact ⟨h1, f, h2, fun t ht => ⟨(h3 t ht).1, (h3 t ht).2.1, fun k hk =>
      (h3 t ht).2.2 k (holds t k hk)⟩⟩

theorem acknowledge_rest (e : Encoder) (sequence : Nat) :
    SameSetup { e with acked := (e.acknowledge sequence).acked } (e.acknowledge sequence) ∧
      (e.acknowledge sequence).source = e.source ∧ (e.acknowledge sequence).viewer = e.viewer ∧
      (e.acknowledge sequence).shadow = e.shadow ∧ (e.acknowledge sequence).hashes = e.hashes ∧
      (e.acknowledge sequence).motion = e.motion ∧
      (e.acknowledge sequence).sent_at = e.sent_at := by
  unfold Encoder.acknowledge
  simp only
  split <;> exact ⟨⟨rfl, rfl, rfl, rfl, rfl, rfl, rfl⟩, rfl, rfl, rfl, rfl, rfl, rfl⟩

theorem encoderOk_acknowledge (h : EncoderOk D tiles e last) (sequence : Nat) :
    EncoderOk D tiles (e.acknowledge sequence) last := by
  obtain ⟨hset, h1, h2, h3, h4, h5, -⟩ := acknowledge_rest e sequence
  exact encoderOk_forget h hset.grid h1 h4 h5 (by rw [h3]; exact h.nodup)
    fun t => .inl (by rw [h2])

theorem encoderOk_set_lossy_detail (h : EncoderOk D tiles e last) (detail : LossyDetail) :
    EncoderOk D tiles (e.set_lossy_detail detail) last :=
  encoderOk_forget h rfl rfl rfl rfl h.nodup fun _ => .inl rfl

/-! ## Refining -/

theorem refine_tile_sent (e : Encoder) (H : TileHashes) (t : Nat) :
    ∃ e1 op cost e', e.refine_tile D H t = (e', cost, op) ∧
      Sending D e.source e t (H.hashes t) e1 op (.Exact (H.hashes t)) ∧
      TileSent e.source e1 t (.Exact (H.hashes t)) e' ∧ e'.source = e.source := by
  have hsent : ∀ e1 : Encoder, e1.source = e.source → e1.grid = e.grid →
      TileSent e.source e1 t (.Exact (H.hashes t)) { e1 with
        viewer := Function.update e1.viewer t (.Exact (H.hashes t))
        sent_at := Function.update e1.sent_at t e1.next_sequence } := by
    intro e1 hsrc hg
    exact ⟨rfl, rfl, rfl, by simp only [hsrc], fun _ _ _ => rfl, ⟨rfl, rfl, rfl, rfl, rfl, rfl, rfl⟩,
      rfl, rfl, rfl, rfl, rfl, rfl⟩
  cases hheld : (e.shadow.index.touch (H.hashes t)).1 with
  | true =>
    refine ⟨_, _, 13, _, ?_, .cached hheld, hsent _ rfl rfl, rfl⟩
    simp [Encoder.refine_tile, CacheShadow.use_if_held, hheld]
  | false =>
    refine ⟨_, _, (encode_lossless D e.source (e.grid.rectOf t)).length + 17, _, ?_,
      .lossless hheld, hsent _ rfl rfl, rfl⟩
    simp [Encoder.refine_tile, CacheShadow.use_if_held, hheld, touch_false hheld]

theorem mem_ready {H : TileHashes} {now_ms : Nat} {p : Nat × Nat} (h : p ∈ e.ready H now_ms) :
    p.2 < e.grid.len ∧ e.viewer p.2 = .Approximate (H.hashes p.2) := by
  unfold Encoder.ready at h
  rw [List.mem_insertionSort, List.mem_filterMap] at h
  obtain ⟨t, ht, hp⟩ := h
  split at hp
  · rename_i hash hv
    split at hp
    · rename_i hcond
      cases hp
      exact ⟨by simpa using ht, by rw [hv, hcond.2.1]⟩
    · cases hp
  · cases hp

/-- The loop of a refinement sends tiles of the source copy, and leaves the copy as it is. -/
theorem refine_tiles_run (H : TileHashes) (budget : Nat) (src : FrameBuffer)
    (ready : List (Nat × Nat)) (e : Encoder) (spent : Nat) (ops : List TileOp)
    (hsrc : e.source = src) :
    ∃ e' new seen, Encoder.refine_tiles D H budget e spent ops ready = (e', ops ++ new) ∧
      SendRun D src H e seen new e' ∧ e'.source = src ∧ (∀ t ∈ seen, t ∈ ready.map Prod.snd) ∧
      ∀ t p, TileOp.Lossy t p ∉ new := by
  induction ready generalizing e spent ops with
  | nil => exact ⟨e, [], [], by simp [Encoder.refine_tiles], .nil e, hsrc, by simp, by simp⟩
  | cons p ready ih =>
    obtain ⟨stamp, t⟩ := p
    unfold Encoder.refine_tiles
    split
    · exact ⟨e, [], [], by simp, .nil e, hsrc, by simp, by simp⟩
    obtain ⟨e1, op, cost, e2, heq, hsend, hsent, hsame⟩ := @refine_tile_sent D e H t
    rw [hsrc] at hsend hsent hsame
    obtain ⟨e3, new, seen, h3, hrun, hsrc3, hseen, hl3⟩ := ih e2 (spent + cost) (ops ++ [op]) hsame
    refine ⟨e3, op :: new, t :: seen, ?_, .send hsend hsent hrun, hsrc3, ?_, ?_⟩
    · rw [heq]
      simp only
      rw [h3, List.append_assoc]
      rfl
    · intro u hu
      rcases List.mem_cons.mp hu with rfl | hu
      · simp
      · have := hseen u hu
        simp only [List.map_cons, List.mem_cons]
        exact .inr this
    · intro u q hm
      rcases List.mem_cons.mp hm with hm | hm
      · subst hm
        cases hsend
      · exact hl3 u q hm

theorem refine_spec (hok : EncoderOk D tiles e last) {now_ms budget : Nat} {batch : Batch}
    (h : e.refine_at D now_ms budget = some (batch, e')) :
    ∃ H r ops seen, e.hashes = some H ∧ SendRun D e.source H e seen ops r ∧
      (∀ t ∈ seen, t < e.grid.len ∧ H.hashes t = hash_rect D e.source (e.grid.rectOf t) ∧
        e.source.image (e.grid.rectOf t) ∈ tiles) ∧
      r.source = e.source ∧ LoopDone D tiles H e r seen ∧
      (∀ t p, TileOp.Lossy t p ∉ ops) ∧ (batch, e') = r.finish ops ∧ EncoderOk D tiles r last := by
  unfold Encoder.refine_at at h
  split at h
  · cases h
  rename_i H hH
  simp only at h
  split at h
  · cases h
  obtain ⟨r, ops, seen, hrun, hsend, hsrc, hseen, hlossy⟩ := @refine_tiles_run D H budget e.source
    (e.ready H now_ms) e 0 [] rfl
  rw [hrun, List.nil_append] at h
  simp at h
  have hready : ∀ t ∈ seen, t < e.grid.len ∧
      H.hashes t = hash_rect D e.source (e.grid.rectOf t) ∧
      e.source.image (e.grid.rectOf t) ∈ tiles := by
    intro t ht
    obtain ⟨p, hp, rfl⟩ := List.mem_map.mp (hseen t ht)
    obtain ⟨hlt, hv⟩ := mem_ready hp
    obtain ⟨h1, h2⟩ := hok.ok p.2 hlt (H.hashes p.2) (by rw [hv]; exact .inr rfl)
    exact ⟨hlt, h1.symm, h2⟩
  obtain ⟨hdone, -⟩ := sendRun_done hsend hok.source_full hready hok.ok hok.nodup
  refine ⟨H, r, ops, seen, hH, hsend, hready, hsrc, hdone, hlossy, h.symm, ?_⟩
  have hadv := hdone.advance
  have hg := hadv.setup.grid
  refine ⟨by rw [hsrc, hg]; exact hok.source_size, by rw [hsrc]; exact hok.source_full,
    by rw [hadv.motion_grid, hg]; exact hok.motion_grid, hdone.nodup,
    fun t ht => hdone.ok t (by rw [hg] at ht; exact ht), ?_, by rw [hg]; exact hok.last_size,
    hok.last_full, ?_⟩
  · intro hnone
    rw [hdone.hashes, hH] at hnone
    cases hnone
  · intro H' hH'
    rw [hdone.hashes, hH] at hH'
    cases hH'
    obtain ⟨hgrid, f, hlast, hknown⟩ := hok.known H hH
    refine ⟨by rw [hg]; exact hgrid, f, hlast, ?_⟩
    intro t ht
    rw [hg] at ht ⊢
    obtain ⟨k1, k2, k3⟩ := hknown t ht
    refine ⟨k1, k2, ?_⟩
    intro k hk
    by_cases hs : t ∈ seen
    · exact hdone.named t hs k hk
    · rw [hdone.others t hs] at hk
      exact k3 k hk

end

end multiplex_screen_codec
