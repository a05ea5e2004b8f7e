-- Frames and framebuffers, as `frame.rs` has them: writes of a packed
-- rectangle, fills, and moves of rows. Each operation has one law that gives
-- every pixel after it.
import Multiplex.ScreenCodec.Geometry

namespace multiplex_screen_codec

/-- One BGRA pixel. -/
structure Pixel where
  b : UInt8
  g : UInt8
  r : UInt8
  a : UInt8
  deriving DecidableEq

def BYTES_PER_PIXEL : Nat := 4

def Pixel.bytes (p : Pixel) : List UInt8 := [p.b, p.g, p.r, p.a]

/-- Pixels of one surface. Stride padding is never read, so a frame is its size and the pixel
at each column and row. -/
structure Frame where
  size : Size
  pixel : Nat → Nat → Pixel

/-- An owned frame. `as_frame` is the identity. -/
abbrev FrameBuffer := Frame

def FrameBuffer.new (size : Size) : FrameBuffer := ⟨size, fun _ _ => ⟨0, 0, 0, 0xFF⟩⟩

def Frame.row_span (f : Frame) (y : Nat) (rect : Rect) : List Pixel :=
  (List.range rect.width).map fun i => f.pixel (rect.x + i) y

/-- `copy_rect_into`: the rows of `rect`, packed. -/
def Frame.copy_rect (f : Frame) (rect : Rect) : List Pixel :=
  (List.range' rect.y rect.height).flatMap fun y => f.row_span y rect

def FrameBuffer.write_rect (f : FrameBuffer) (rect : Rect) (bgra : List Pixel) :
    Except CodecError FrameBuffer :=
  if rect.is_empty || !f.size.bounds.contains_rect rect then .error .RectOutsideSurface
  else if bgra.length ≠ rect.width * rect.height then .error .PayloadSizeMismatch
  else .ok
    { f with
      pixel := fun x y =>
        if rect.Covers x y then bgra.getD ((y - rect.y) * rect.width + (x - rect.x)) (f.pixel x y)
        else f.pixel x y }

def FrameBuffer.fill_rect (f : FrameBuffer) (rect : Rect) (bgra : Pixel) :
    Except CodecError FrameBuffer :=
  if rect.is_empty || !f.size.bounds.contains_rect rect then .error .RectOutsideSurface
  else .ok { f with pixel := fun x y => if rect.Covers x y then bgra else f.pixel x y }

/-- One turn of the loop of `apply_move`: row `y` of the span takes the pixels of row `y + dy`. -/
def copy_row (left span : Nat) (dy : Int) (px : Nat → Nat → Pixel) (y : Nat) : Nat → Nat → Pixel :=
  fun x' y' => if y' = y ∧ left ≤ x' ∧ x' < left + span then px x' ((y : Int) + dy).toNat else px x' y'

def FrameBuffer.apply_move (f : FrameBuffer) (rect : Rect) (dy : Int) :
    Except CodecError FrameBuffer :=
  let bounds := f.size.bounds
  let source_top : Int := rect.y + dy
  let source_bottom : Int := rect.bottom + dy
  if rect.is_empty || dy == 0 || !bounds.contains_rect rect || decide (source_top < 0) ||
      decide (source_bottom > bounds.height) then .error .InvalidMove
  else
    let rows := List.range' rect.y (rect.bottom - rect.y)
    -- rows go down the screen for a positive offset and up for a negative one, so that no row
    -- is read after it was written
    let order := if dy > 0 then rows else rows.reverse
    .ok { f with pixel := order.foldl (copy_row rect.x rect.width dy) f.pixel }

/-! ## The pixels of a rectangle -/

/-- Two frames have the same pixels in a rectangle. -/
def Frame.SameOn (f g : Frame) (r : Rect) : Prop := ∀ x y, r.Covers x y → f.pixel x y = g.pixel x y

theorem Frame.SameOn.symm {f g : Frame} {r : Rect} (h : f.SameOn g r) : g.SameOn f r :=
  fun x y hc => (h x y hc).symm

theorem Frame.SameOn.trans {f g k : Frame} {r : Rect} (h1 : f.SameOn g r) (h2 : g.SameOn k r) :
    f.SameOn k r :=
  fun x y hc => (h1 x y hc).trans (h2 x y hc)

theorem flatMap_inj_of_length {α β : Type} (l : List α) (f g : α → List β)
    (hlen : ∀ a ∈ l, (f a).length = (g a).length) (h : l.flatMap f = l.flatMap g) :
    ∀ a ∈ l, f a = g a := by
  induction l with
  | nil => simp
  | cons a l ih =>
    obtain ⟨h1, h2⟩ := List.append_inj h (hlen a (by simp))
    intro b hb
    rcases List.mem_cons.mp hb with rfl | hb
    · exact h1
    · exact ih (fun c hc => hlen c (by simp [hc])) h2 b hb

/-- Two frames have the same packed pixels of a rectangle exactly when they agree on it. -/
theorem copy_rect_eq_iff (f g : Frame) (r : Rect) (hr : r.right = r.x + r.width)
    (hb : r.bottom = r.y + r.height) : f.copy_rect r = g.copy_rect r ↔ f.SameOn g r := by
  constructor
  · intro h x y ⟨h1, h2, h3, h4⟩
    have hrow := flatMap_inj_of_length _ _ _ (by simp [Frame.row_span]) h y
      (by rw [List.mem_range'_1]; omega)
    unfold Frame.row_span at hrow
    have hx := congrArg (fun l => l[x - r.x]?) hrow
    have hlt : x - r.x < r.width := by omega
    simpa [List.getElem?_map, List.getElem?_range hlt, show r.x + (x - r.x) = x by omega] using hx
  · intro h
    apply List.flatMap_congr
    intro y hy
    rw [List.mem_range'_1] at hy
    apply List.map_congr_left
    intro i hi
    rw [List.mem_range] at hi
    exact h _ _ ⟨by omega, by omega, by omega, by omega⟩

theorem length_copy_rect (f : Frame) (r : Rect) : (f.copy_rect r).length = r.width * r.height := by
  simp [Frame.copy_rect, Frame.row_span, List.length_flatMap, Nat.mul_comm]

theorem rows_of_packed {α : Type} (w h : Nat) (l : List α) (d : Nat → Nat → α)
    (hl : l.length = w * h) :
    ((List.range h).flatMap fun j => (List.range w).map fun i => l.getD (j * w + i) (d j i)) = l := by
  induction h generalizing l d with
  | zero =>
    have : l = [] := by rw [← List.length_eq_zero_iff]; simpa using hl
    simp [this]
  | succ h ih =>
    have hlen : (l.drop w).length = w * h := by
      rw [List.length_drop, hl, Nat.mul_succ]; omega
    have hrest := ih (l.drop w) (fun j i => d (j + 1) i) hlen
    rw [List.range_succ_eq_map, List.flatMap_cons, List.flatMap_map]
    have hhead : ((List.range w).map fun i => l.getD (0 * w + i) (d 0 i)) = l.take w := by
      have hw : w ≤ l.length := by rw [hl, Nat.mul_succ]; omega
      apply List.ext_getElem?
      intro k
      by_cases hk : k < w
      · have hkl : k < l.length := by omega
        simp [hk, hkl]
      · rw [List.getElem?_eq_none (by simp; omega), List.getElem?_eq_none (by simp; omega)]
    have htail : ((List.range h).flatMap fun j =>
        (List.range w).map fun i => l.getD (Nat.succ j * w + i) (d (Nat.succ j) i)) = l.drop w := by
      rw [← hrest]
      apply List.flatMap_congr
      intro j _
      apply List.map_congr_left
      intro i _
      simp
      rw [show w + (j * w + i) = Nat.succ j * w + i by rw [Nat.succ_mul]; omega]
    rw [hhead, htail, List.take_append_drop]

/-- A frame made of packed pixels: the tile that the viewer hashes before it draws it. -/
def Frame.ofPacked (size : Size) (bgra : List Pixel) : Frame :=
  ⟨size, fun x y => bgra.getD (y * size.width + x) ⟨0, 0, 0, 0⟩⟩

theorem copy_rect_ofPacked (size : Size) (bgra : List Pixel)
    (h : bgra.length = size.width * size.height) :
    (Frame.ofPacked size bgra).copy_rect size.bounds = bgra := by
  have hrow := rows_of_packed size.width size.height bgra (fun _ _ => ⟨0, 0, 0, 0⟩) h
  simpa [Frame.copy_rect, Frame.row_span, Frame.ofPacked, Size.bounds, List.range_eq_range'] using hrow

/-! ## Writes and fills -/

theorem write_rect_spec (f : FrameBuffer) (rect : Rect) (bgra : List Pixel)
    (hne : rect.is_empty = false) (hin : f.size.bounds.contains_rect rect = true)
    (hlen : bgra.length = rect.width * rect.height) :
    ∃ f', f.write_rect rect bgra = .ok f' ∧ f'.size = f.size ∧ f'.copy_rect rect = bgra ∧
      ∀ x y, ¬ rect.Covers x y → f'.pixel x y = f.pixel x y := by
  obtain ⟨hr, hb, -⟩ := inside_bounds f.size rect hne hin
  unfold FrameBuffer.write_rect
  simp only [hne, hin, Bool.not_true, Bool.or_false, Bool.false_eq_true, if_false, hlen, ne_eq,
    not_true_eq_false]
  refine ⟨_, rfl, rfl, ?_, fun x y hc => if_neg hc⟩
  have hrow := rows_of_packed rect.width rect.height bgra
    (fun j i => f.pixel (rect.x + i) (rect.y + j)) hlen
  refine Eq.trans ?_ hrow
  simp only [Frame.copy_rect, Frame.row_span]
  rw [List.range'_eq_map_range, List.flatMap_map]
  apply List.flatMap_congr
  intro j hj
  apply List.map_congr_left
  intro i hi
  rw [List.mem_range] at hj hi
  have hc : rect.Covers (rect.x + i) (rect.y + j) := by
    simp only [Rect.Covers]; omega
  rw [if_pos hc]
  simp

theorem fill_rect_spec (f : FrameBuffer) (rect : Rect) (p : Pixel)
    (hne : rect.is_empty = false) (hin : f.size.bounds.contains_rect rect = true) :
    ∃ f', f.fill_rect rect p = .ok f' ∧ f'.size = f.size ∧
      ∀ x y, f'.pixel x y = if rect.Covers x y then p else f.pixel x y := by
  unfold FrameBuffer.fill_rect
  simp only [hne, hin, Bool.not_true, Bool.or_false, Bool.false_eq_true, if_false]
  exact ⟨_, rfl, rfl, fun _ _ => rfl⟩

/-! ## Moves -/

/-- The row copies do not disturb each other when no row is read after it was written. -/
theorem foldl_copy_row (left span : Nat) (dy : Int) (rows : List Nat) (px : Nat → Nat → Pixel)
    (hsep : rows.Pairwise fun a b : Nat => ((b : Int) + dy).toNat ≠ a) (x y : Nat) :
    rows.foldl (copy_row left span dy) px x y =
      if y ∈ rows ∧ left ≤ x ∧ x < left + span then px x ((y : Int) + dy).toNat else px x y := by
  induction rows generalizing px with
  | nil => simp
  | cons a rows ih =>
    rw [List.pairwise_cons] at hsep
    rw [List.foldl_cons, ih _ hsep.2]
    by_cases hy : y ∈ rows ∧ left ≤ x ∧ x < left + span
    · rw [if_pos hy, if_pos ⟨List.mem_cons_of_mem _ hy.1, hy.2⟩]
      unfold copy_row
      rw [if_neg (fun h => hsep.1 y hy.1 h.1)]
    · rw [if_neg hy]
      unfold copy_row
      by_cases hya : y = a ∧ left ≤ x ∧ x < left + span
      · obtain ⟨rfl, hx⟩ := hya
        rw [if_pos ⟨rfl, hx⟩, if_pos ⟨List.mem_cons_self, hx⟩]
      · rw [if_neg hya, if_neg]
        rintro ⟨hmem, hx⟩
        rcases List.mem_cons.mp hmem with h | h
        · exact hya ⟨h, hx⟩
        · exact hy ⟨h, hx⟩

/-- What a move must satisfy for `apply_move` to accept it on a surface of this size. -/
def MoveFits (size : Size) (rect : Rect) (dy : Int) : Prop :=
  rect.is_empty = false ∧ dy ≠ 0 ∧ size.bounds.contains_rect rect = true ∧
    0 ≤ (rect.y : Int) + dy ∧ (rect.bottom : Int) + dy ≤ size.height

theorem apply_move_ok_iff (f : FrameBuffer) (rect : Rect) (dy : Int) :
    (∃ f', f.apply_move rect dy = .ok f') ↔ MoveFits f.size rect dy := by
  unfold FrameBuffer.apply_move MoveFits
  simp only
  split
  · rename_i h
    simp only [reduceCtorEq, exists_false, false_iff]
    rintro ⟨h1, h2, h3, h4, h5⟩
    have h5' : (rect.bottom : Int) + dy ≤ f.size.bounds.height := h5
    simp [h1, h3] at h
    omega
  · rename_i h
    simp at h
    have h5 : (rect.bottom : Int) + dy ≤ f.size.height := by
      have := h.2
      simp only [Size.bounds] at this
      omega
    exact ⟨fun _ => ⟨h.1.1.1.1, h.1.1.1.2, h.1.1.2, by omega, h5⟩, fun _ => ⟨_, rfl⟩⟩

/-- Every pixel after a move: the rows of the rectangle hold the rows `dy` away as they were
before the call, also where source and destination overlap. -/
theorem apply_move_spec (f f' : FrameBuffer) (rect : Rect) (dy : Int)
    (h : f.apply_move rect dy = .ok f') : f'.size = f.size ∧ ∀ x y, f'.pixel x y =
      if rect.Covers x y then f.pixel x ((y : Int) + dy).toNat else f.pixel x y := by
  obtain ⟨hne, hdy, hin, hsrc, -⟩ := (apply_move_ok_iff f rect dy).mp ⟨f', h⟩
  obtain ⟨hr, hb, -⟩ := inside_bounds f.size rect hne hin
  unfold FrameBuffer.apply_move at h
  simp only at h
  split at h
  · cases h
  cases h
  refine ⟨rfl, fun x y => ?_⟩
  have hrows : ∀ l : List Nat, (∀ z, z ∈ l ↔ z ∈ List.range' rect.y (rect.bottom - rect.y)) →
      (l.Pairwise fun a b : Nat => ((b : Int) + dy).toNat ≠ a) →
      l.foldl (copy_row rect.x rect.width dy) f.pixel x y =
        if rect.Covers x y then f.pixel x ((y : Int) + dy).toNat else f.pixel x y := by
    intro l hmem hsep
    rw [foldl_copy_row _ _ _ _ _ hsep]
    have hiff : (y ∈ l ∧ rect.x ≤ x ∧ x < rect.x + rect.width) ↔ rect.Covers x y := by
      rw [hmem, List.mem_range'_1]
      simp only [Rect.Covers, hr]
      omega
    simp only [hiff]
  split
  · apply hrows _ (fun _ => Iff.rfl)
    apply List.Pairwise.imp_of_mem _ List.pairwise_lt_range'
    omega
  · apply hrows _ (fun _ => List.mem_reverse)
    rw [List.pairwise_reverse]
    apply List.Pairwise.imp_of_mem _ List.pairwise_lt_range'
    omega

/-! ## Previews, as `scale.rs` has them -/

def div_ceil (a b : Nat) : Nat := (a + b - 1) / b

theorem div_ceil_pos {a b : Nat} (ha : 0 < a) (hb : 0 < b) : 0 < div_ceil a b := by
  exact Nat.div_pos (by omega) hb

theorem div_ceil_le {a b : Nat} (hb : 0 < b) : div_ceil a b ≤ a := by
  unfold div_ceil
  rcases Nat.eq_zero_or_pos a with rfl | ha
  · rw [Nat.div_eq_of_lt (by omega)]
  · apply Nat.div_le_of_le_mul
    obtain ⟨c, rfl⟩ : ∃ c, b = c + 1 := ⟨b - 1, by omega⟩
    have hc : c ≤ c * a := Nat.le_mul_of_pos_right c ha
    rw [Nat.add_mul]
    omega

/-- The size of a preview: one pixel for each block, so never larger than its surface. -/
def Size.preview (s : Size) (factor : Nat) : Size where
  width := div_ceil s.width (max factor 1)
  height := div_ceil s.height (max factor 1)
  width_pos := div_ceil_pos s.width_pos (by omega)
  height_pos := div_ceil_pos s.height_pos (by omega)
  width_le := (div_ceil_le (by omega)).trans s.width_le
  height_le := (div_ceil_le (by omega)).trans s.height_le

def preview_factor (size : Size) (longest : Nat) : Nat :=
  max (div_ceil (max size.width size.height) (max longest 1)) 1

end multiplex_screen_codec
