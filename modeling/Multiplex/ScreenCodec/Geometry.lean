-- Sizes, rectangles and the grid of 64×64 tiles, as `geometry.rs` has them.
-- A tile set is the grid with one bit for each tile; the laws say which tiles
-- a rectangle touches and which pixels a tile holds.
import Mathlib.Tactic

namespace multiplex_screen_codec

/-- Every way the codec refuses its input, as in `error.rs`. -/
inductive CodecError
  | InvalidSize
  | InvalidStride
  | BufferTooShort
  | FrameSizeMismatch
  | RectOutsideSurface
  | PayloadSizeMismatch
  | CorruptPayload
  | MalformedBatch
  | UnsupportedVersion
  | BatchTooLarge
  | TileOutOfRange
  | InvalidMove
  | StaleBatch
  deriving DecidableEq

def TILE_SIZE : Nat := 64

def MAX_SURFACE_DIMENSION : Nat := 16384

/-- The largest `u32`. Rectangle sums stop here, as `saturating_add` does. -/
def U32_MAX : Nat := 4294967295

/-! ## Sizes and rectangles -/

/-- The size of a surface. No other value than one `Size::new` accepts can be built. -/
structure Size where
  width : Nat
  height : Nat
  width_pos : 0 < width
  height_pos : 0 < height
  width_le : width ≤ MAX_SURFACE_DIMENSION
  height_le : height ≤ MAX_SURFACE_DIMENSION
  deriving DecidableEq

def Size.new (width height : Nat) : Except CodecError Size :=
  if h : 0 < width ∧ 0 < height ∧ width ≤ MAX_SURFACE_DIMENSION ∧ height ≤ MAX_SURFACE_DIMENSION then
    .ok ⟨width, height, h.1, h.2.1, h.2.2.1, h.2.2.2⟩
  else .error .InvalidSize

structure Rect where
  x : Nat
  y : Nat
  width : Nat
  height : Nat
  deriving DecidableEq

/-- `Rect::default()`: the empty rectangle at the origin. -/
def Rect.default : Rect := ⟨0, 0, 0, 0⟩

def Rect.right (r : Rect) : Nat := min (r.x + r.width) U32_MAX

def Rect.bottom (r : Rect) : Nat := min (r.y + r.height) U32_MAX

def Rect.is_empty (r : Rect) : Bool := r.width == 0 || r.height == 0

def Rect.intersect (a b : Rect) : Rect :=
  let x := max a.x b.x
  let y := max a.y b.y
  let right := min a.right b.right
  let bottom := min a.bottom b.bottom
  if right ≤ x ∨ bottom ≤ y then Rect.default else ⟨x, y, right - x, bottom - y⟩

def Rect.union (a b : Rect) : Rect :=
  if a.is_empty then b
  else if b.is_empty then a
  else
    let x := min a.x b.x
    let y := min a.y b.y
    ⟨x, y, max a.right b.right - x, max a.bottom b.bottom - y⟩

def Rect.contains_rect (a b : Rect) : Bool :=
  b.is_empty || (decide (a.x ≤ b.x) && decide (a.y ≤ b.y) && decide (b.right ≤ a.right) &&
    decide (b.bottom ≤ a.bottom))

def Size.bounds (s : Size) : Rect := ⟨0, 0, s.width, s.height⟩

def Rect.clamp_to (r : Rect) (s : Size) : Rect := r.intersect s.bounds

/-- The pixel at column `x` and row `y` lies inside the rectangle. -/
def Rect.Covers (r : Rect) (x y : Nat) : Prop :=
  r.x ≤ x ∧ x < r.right ∧ r.y ≤ y ∧ y < r.bottom

instance (r : Rect) (x y : Nat) : Decidable (r.Covers x y) :=
  inferInstanceAs (Decidable (_ ∧ _ ∧ _ ∧ _))

/-- The intersection covers exactly the pixels that both rectangles cover. -/
theorem covers_intersect (a b : Rect) (x y : Nat) :
    (a.intersect b).Covers x y ↔ a.Covers x y ∧ b.Covers x y := by
  have ha : a.right ≤ U32_MAX ∧ a.bottom ≤ U32_MAX := by
    unfold Rect.right Rect.bottom; omega
  unfold Rect.intersect
  simp only
  split
  · simp only [Rect.Covers, Rect.default, Rect.right, Rect.bottom] at *
    omega
  · have hr : (⟨max a.x b.x, max a.y b.y, min a.right b.right - max a.x b.x,
        min a.bottom b.bottom - max a.y b.y⟩ : Rect).right = min a.right b.right := by
      simp only [Rect.right] at *; omega
    have hbot : (⟨max a.x b.x, max a.y b.y, min a.right b.right - max a.x b.x,
        min a.bottom b.bottom - max a.y b.y⟩ : Rect).bottom = min a.bottom b.bottom := by
      simp only [Rect.bottom] at *; omega
    simp only [Rect.Covers, hr, hbot]
    omega

theorem not_covers_of_empty (r : Rect) (h : r.is_empty = true) (x y : Nat) : ¬ r.Covers x y := by
  simp [Rect.is_empty] at h
  simp only [Rect.Covers, Rect.right, Rect.bottom]
  omega

theorem inside_bounds (s : Size) (r : Rect) (hne : r.is_empty = false)
    (h : s.bounds.contains_rect r = true) :
    r.right = r.x + r.width ∧ r.bottom = r.y + r.height ∧ 0 < r.width ∧ 0 < r.height ∧
      r.x + r.width ≤ s.width ∧ r.y + r.height ≤ s.height := by
  have hw := s.width_le
  have hh := s.height_le
  simp [Rect.contains_rect, hne] at h
  simp [Rect.is_empty] at hne
  simp only [Size.bounds, Rect.right, Rect.bottom, U32_MAX, MAX_SURFACE_DIMENSION] at *
  omega

theorem covers_bounds (s : Size) (x y : Nat) :
    s.bounds.Covers x y ↔ x < s.width ∧ y < s.height := by
  have hw := s.width_le
  have hh := s.height_le
  simp only [Rect.Covers, Size.bounds, Rect.right, Rect.bottom, U32_MAX,
    MAX_SURFACE_DIMENSION] at *
  omega

/-! ## The grid -/

/-- The tile layout of one surface. The source keeps the column and row counts beside the
size; both follow from it. -/
structure TileGrid where
  size : Size
  deriving DecidableEq

def TileGrid.new (size : Size) : TileGrid := ⟨size⟩

def TileGrid.columns (g : TileGrid) : Nat := (g.size.width + (TILE_SIZE - 1)) / TILE_SIZE

def TileGrid.rows (g : TileGrid) : Nat := (g.size.height + (TILE_SIZE - 1)) / TILE_SIZE

def TileGrid.len (g : TileGrid) : Nat := g.columns * g.rows

def TileGrid.contains (g : TileGrid) (tile : Nat) : Bool := tile < g.len

def TileGrid.index (g : TileGrid) (column row : Nat) : Option Nat :=
  if column ≥ g.columns ∨ row ≥ g.rows then none else some (row * g.columns + column)

def TileGrid.position (g : TileGrid) (tile : Nat) : Option (Nat × Nat) :=
  if g.contains tile then some (tile % g.columns, tile / g.columns) else none

/-- The pixels of a tile of the grid, cut at the right and bottom edges. -/
def TileGrid.rectOf (g : TileGrid) (tile : Nat) : Rect :=
  let x := tile % g.columns * TILE_SIZE
  let y := tile / g.columns * TILE_SIZE
  ⟨x, y, min TILE_SIZE (g.size.width - x), min TILE_SIZE (g.size.height - y)⟩

def TileGrid.tile_rect (g : TileGrid) (tile : Nat) : Option Rect :=
  if g.contains tile then some (g.rectOf tile) else none

def TileGrid.tileAt (g : TileGrid) (x y : Nat) : Nat := y / TILE_SIZE * g.columns + x / TILE_SIZE

section
variable (g : TileGrid) (x y t : Nat)

theorem TileGrid.columns_pos : 0 < g.columns := by
  have := g.size.width_pos
  simp only [TileGrid.columns, TILE_SIZE]
  omega

section
variable (h : t < g.len)
include h

theorem TileGrid.position_lt : t % g.columns < g.columns ∧ t / g.columns < g.rows :=
  ⟨Nat.mod_lt _ g.columns_pos, Nat.div_lt_of_lt_mul h⟩

/-- A tile is at most 64×64, not empty, and inside the surface. -/
theorem TileGrid.rectOf_inside : 0 < (g.rectOf t).width ∧ (g.rectOf t).width ≤ 64 ∧
      0 < (g.rectOf t).height ∧ (g.rectOf t).height ≤ 64 ∧
      (g.rectOf t).x + (g.rectOf t).width ≤ g.size.width ∧
      (g.rectOf t).y + (g.rectOf t).height ≤ g.size.height := by
  obtain ⟨hc, hr⟩ := g.position_lt t h
  simp only [TileGrid.rectOf, TILE_SIZE]
  generalize t % g.columns = c at *
  generalize t / g.columns = r at *
  simp only [TileGrid.columns, TileGrid.rows, TILE_SIZE] at hc hr
  omega

theorem TileGrid.rectOf_right :
    (g.rectOf t).right = (g.rectOf t).x + (g.rectOf t).width ∧
      (g.rectOf t).bottom = (g.rectOf t).y + (g.rectOf t).height := by
  obtain ⟨-, -, -, -, h5, h6⟩ := g.rectOf_inside t h
  have hw := g.size.width_le
  have hh := g.size.height_le
  simp only [Rect.right, Rect.bottom, U32_MAX, MAX_SURFACE_DIMENSION] at *
  omega

theorem TileGrid.rectOf_not_empty : (g.rectOf t).is_empty = false := by
  obtain ⟨h1, -, h3, -⟩ := g.rectOf_inside t h
  simp [Rect.is_empty]
  omega

theorem TileGrid.rectOf_in_bounds : g.size.bounds.contains_rect (g.rectOf t) = true := by
  obtain ⟨-, -, -, -, h5, h6⟩ := g.rectOf_inside t h
  obtain ⟨hr, hb⟩ := g.rectOf_right t h
  simp [Rect.contains_rect, hr, hb]
  simp only [Size.bounds, Rect.right, Rect.bottom, U32_MAX] at *
  omega

end

theorem TileGrid.tileAt_lt (hx : x < g.size.width) (hy : y < g.size.height) :
    g.tileAt x y < g.len := by
  have hc : x / 64 < g.columns := by simp only [TileGrid.columns, TILE_SIZE]; omega
  have hr : y / 64 < g.rows := by simp only [TileGrid.rows, TILE_SIZE]; omega
  calc y / 64 * g.columns + x / 64 < y / 64 * g.columns + g.columns := by omega
    _ = (y / 64 + 1) * g.columns := by ring
    _ ≤ g.rows * g.columns := Nat.mul_le_mul_right _ hr
    _ = g.columns * g.rows := Nat.mul_comm _ _

theorem TileGrid.tileAt_position (hx : x < g.size.width) :
    g.tileAt x y % g.columns = x / 64 ∧ g.tileAt x y / g.columns = y / 64 := by
  have hc : x / 64 < g.columns := by simp only [TileGrid.columns, TILE_SIZE]; omega
  simp only [TileGrid.tileAt, TILE_SIZE]
  constructor
  · rw [Nat.add_comm, Nat.add_mul_mod_self_right, Nat.mod_eq_of_lt hc]
  · rw [Nat.add_comm, Nat.add_mul_div_right _ _ g.columns_pos, Nat.div_eq_of_lt hc, Nat.zero_add]

/-- The tiles part the surface: a tile covers exactly the pixels of the surface that it holds. -/
theorem TileGrid.covers_rectOf (h : t < g.len) (x y : Nat) :
    (g.rectOf t).Covers x y ↔ x < g.size.width ∧ y < g.size.height ∧ g.tileAt x y = t := by
  obtain ⟨hr, hb⟩ := g.rectOf_right t h
  have hin := g.rectOf_inside t h
  have hdm := Nat.div_add_mod t g.columns
  simp only [Rect.Covers, hr, hb]
  constructor
  · rintro ⟨h1, h2, h3, h4⟩
    refine ⟨by omega, by omega, ?_⟩
    simp only [TileGrid.rectOf, TILE_SIZE] at h1 h2 h3 h4
    have hx : x / 64 = t % g.columns := by omega
    have hy : y / 64 = t / g.columns := by omega
    simp only [TileGrid.tileAt, TILE_SIZE, hx, hy]
    rw [Nat.mul_comm]
    exact hdm
  · rintro ⟨hx, hy, rfl⟩
    obtain ⟨h1, h2⟩ := g.tileAt_position x y hx
    simp only [TileGrid.rectOf, TILE_SIZE, h1, h2]
    omega

theorem TileGrid.rectOf_disjoint {s t x y : Nat} (hs : s < g.len) (ht : t < g.len)
    (h1 : (g.rectOf s).Covers x y) (h2 : (g.rectOf t).Covers x y) : s = t := by
  rw [g.covers_rectOf s hs] at h1
  rw [g.covers_rectOf t ht] at h2
  exact h1.2.2.symm.trans h2.2.2

end

/-! ## Tile sets -/

/-- A set of tiles of one grid: one bit for each tile, and the count that the source keeps
beside the bits. -/
structure TileSet where
  grid : TileGrid
  bits : Nat → Bool
  count : Nat

def TileSet.new (grid : TileGrid) : TileSet := ⟨grid, fun _ => false, 0⟩

def TileSet.contains (s : TileSet) (tile : Nat) : Bool := s.grid.contains tile && s.bits tile

def TileSet.insert (s : TileSet) (tile : Nat) : TileSet :=
  if s.grid.contains tile && !s.bits tile then
    { s with bits := Function.update s.bits tile true, count := s.count + 1 }
  else s

def TileSet.iter (s : TileSet) : List Nat := (List.range s.grid.len).filter s.bits

def TileSet.len (s : TileSet) : Nat := s.count

/-- The tiles of the columns and rows that a rectangle of the surface spans. -/
def TileGrid.span (g : TileGrid) (r : Rect) : List Nat :=
  let first_column := r.x / TILE_SIZE
  let last_column := (r.right - 1) / TILE_SIZE
  let first_row := r.y / TILE_SIZE
  let last_row := (r.bottom - 1) / TILE_SIZE
  (List.range' first_row (last_row + 1 - first_row)).flatMap fun row =>
    (List.range' first_column (last_column + 1 - first_column)).filterMap fun column =>
      g.index column row

def TileSet.insert_rect (s : TileSet) (rect : Rect) : TileSet :=
  let r := rect.clamp_to s.grid.size
  if r.is_empty then s else (s.grid.span r).foldl TileSet.insert s

def TileGrid.tiles_covering (g : TileGrid) (rect : Rect) : TileSet := (TileSet.new g).insert_rect rect

def TileGrid.tiles_for_damage (g : TileGrid) (damage : List Rect) : TileSet :=
  damage.foldl TileSet.insert_rect (TileSet.new g)

def TileSet.full (g : TileGrid) : TileSet := (TileSet.new g).insert_rect g.size.bounds

variable (g : TileGrid) (s : TileSet) (x : Nat) (r : Rect) (damage : List Rect) (rect : Rect)
  (y t : Nat)

theorem TileSet.mem_iter : t ∈ s.iter ↔ s.contains t = true := by
  simp [TileSet.iter, TileSet.contains, TileGrid.contains]

theorem TileSet.iter_nodup : s.iter.Nodup :=
  List.nodup_range.filter _

@[simp] theorem TileSet.insert_grid : (s.insert t).grid = s.grid := by
  unfold TileSet.insert
  split <;> rfl

@[simp] theorem TileSet.contains_insert (u : Nat) :
    (s.insert t).contains u = (s.contains u || (decide (u = t) && s.grid.contains t)) := by
  unfold TileSet.insert TileSet.contains
  by_cases hu : u = t
  · subst hu
    cases hg : s.grid.contains u <;> cases hb : s.bits u <;> simp [hg, hb]
  · split <;> simp [hu]

@[simp] theorem TileSet.contains_new : (TileSet.new g).contains t = false := by
  simp [TileSet.new, TileSet.contains]

theorem TileSet.lt_of_contains {s : TileSet} {t : Nat} (h : s.contains t = true) :
    t < s.grid.len := by
  simp [TileSet.contains, TileGrid.contains] at h
  exact h.1

theorem TileSet.foldl_insert (l : List Nat) (u : Nat) : (l.foldl TileSet.insert s).grid = s.grid ∧
      ((l.foldl TileSet.insert s).contains u = true ↔
        s.contains u = true ∨ (u ∈ l ∧ u < s.grid.len)) := by
  induction l generalizing s with
  | nil => simp
  | cons a l ih =>
    obtain ⟨h1, h2⟩ := ih (s.insert a)
    refine ⟨by simpa using h1, ?_⟩
    rw [List.foldl_cons, h2]
    simp [TileGrid.contains]
    constructor
    · rintro ((h | ⟨rfl, h⟩) | ⟨h, h'⟩)
      · exact .inl h
      · exact .inr ⟨.inl rfl, h⟩
      · exact .inr ⟨.inr h, h'⟩
    · rintro (h | ⟨rfl | h, h'⟩)
      · exact .inl (.inl h)
      · exact .inl (.inr ⟨rfl, h'⟩)
      · exact .inr ⟨h, h'⟩

/-- The span of a rectangle inside the surface holds a tile exactly when the tile and the
rectangle share a pixel. -/
theorem TileGrid.mem_span
    (hin : r.x < r.right ∧ r.right ≤ g.size.width ∧ r.y < r.bottom ∧ r.bottom ≤ g.size.height)
    (t : Nat) : t ∈ g.span r ↔ t < g.len ∧ ∃ x y, (g.rectOf t).Covers x y ∧ r.Covers x y := by
  simp only [TileGrid.span, List.mem_flatMap, List.mem_filterMap, List.mem_range'_1, TILE_SIZE,
    TileGrid.index]
  constructor
  · rintro ⟨row, hrow, column, hcol, hidx⟩
    split at hidx
    · cases hidx
    simp at hidx
    -- a pixel of the shared area: the later of the two left edges and of the two top edges
    have hx : max r.x (column * 64) < g.size.width := by omega
    have hy : max r.y (row * 64) < g.size.height := by omega
    have hat : g.tileAt (max r.x (column * 64)) (max r.y (row * 64)) = t := by
      have e1 : max r.x (column * 64) / 64 = column := by omega
      have e2 : max r.y (row * 64) / 64 = row := by omega
      simp only [TileGrid.tileAt, TILE_SIZE, e1, e2]
      exact hidx
    have hlt : t < g.len := hat ▸ g.tileAt_lt _ _ hx hy
    refine ⟨hlt, _, _, (g.covers_rectOf t hlt _ _).mpr ⟨hx, hy, hat⟩, ?_⟩
    simp only [Rect.Covers]
    omega
  · rintro ⟨hlt, x, y, hc, hr⟩
    obtain ⟨hx, hy, hat⟩ := (g.covers_rectOf t hlt x y).mp hc
    simp only [Rect.Covers] at hr
    have hcol : x / 64 < g.columns := by simp only [TileGrid.columns, TILE_SIZE]; omega
    have hrow : y / 64 < g.rows := by simp only [TileGrid.rows, TILE_SIZE]; omega
    refine ⟨y / 64, by omega, x / 64, by omega, ?_⟩
    rw [if_neg (by omega)]
    simpa [TileGrid.tileAt, TILE_SIZE] using hat

theorem TileSet.insert_rect_spec : (s.insert_rect rect).grid = s.grid ∧
      ((s.insert_rect rect).contains t = true ↔ s.contains t = true ∨
        (t < s.grid.len ∧ ∃ x y, (s.grid.rectOf t).Covers x y ∧ rect.Covers x y)) := by
  have hclamp : ∀ x y, (rect.clamp_to s.grid.size).Covers x y ↔
      rect.Covers x y ∧ x < s.grid.size.width ∧ y < s.grid.size.height := by
    intro x y
    rw [Rect.clamp_to, covers_intersect, covers_bounds]
  have hpix : ∀ x y, t < s.grid.len → (s.grid.rectOf t).Covers x y →
      (rect.Covers x y ↔ (rect.clamp_to s.grid.size).Covers x y) := by
    intro x y hlt hc
    rw [s.grid.covers_rectOf t hlt] at hc
    rw [hclamp]
    tauto
  unfold TileSet.insert_rect
  simp only
  split
  · rename_i hempty
    refine ⟨rfl, ?_⟩
    constructor
    · exact .inl
    · rintro (h | ⟨hlt, x, y, hc, hr⟩)
      · exact h
      · exact absurd ((hpix x y hlt hc).mp hr) (not_covers_of_empty _ hempty x y)
  · rename_i hne
    have hin : (rect.clamp_to s.grid.size).x < (rect.clamp_to s.grid.size).right ∧
        (rect.clamp_to s.grid.size).right ≤ s.grid.size.width ∧
        (rect.clamp_to s.grid.size).y < (rect.clamp_to s.grid.size).bottom ∧
        (rect.clamp_to s.grid.size).bottom ≤ s.grid.size.height := by
      have hw := s.grid.size.width_le
      simp only [Rect.clamp_to, Rect.intersect] at hne ⊢
      split at hne
      · simp [Rect.default, Rect.is_empty] at hne
      · rename_i hov
        rw [if_neg hov]
        simp only [Size.bounds, Rect.right, Rect.bottom, U32_MAX, MAX_SURFACE_DIMENSION] at *
        omega
    obtain ⟨h1, h2⟩ := TileSet.foldl_insert s (s.grid.span (rect.clamp_to s.grid.size)) t
    refine ⟨h1, ?_⟩
    rw [h2, s.grid.mem_span _ hin]
    constructor
    · rintro (h | ⟨⟨hlt, x, y, hc, hr⟩, -⟩)
      · exact .inl h
      · exact .inr ⟨hlt, x, y, hc, (hpix x y hlt hc).mpr hr⟩
    · rintro (h | ⟨hlt, x, y, hc, hr⟩)
      · exact .inl h
      · exact .inr ⟨⟨hlt, x, y, hc, (hpix x y hlt hc).mp hr⟩, hlt⟩

theorem TileGrid.contains_tiles_covering : (g.tiles_covering rect).contains t = true ↔
      t < g.len ∧ ∃ x y, (g.rectOf t).Covers x y ∧ rect.Covers x y := by
  have h := (TileSet.insert_rect_spec (TileSet.new g) rect t).2
  simp at h
  exact h

theorem TileGrid.tiles_covering_grid : (g.tiles_covering rect).grid = g :=
  (TileSet.insert_rect_spec (TileSet.new g) rect 0).1

theorem TileSet.contains_full : (TileSet.full g).contains t = true ↔ t < g.len := by
  have h := g.contains_tiles_covering g.size.bounds t
  unfold TileGrid.tiles_covering at h
  unfold TileSet.full
  rw [h]
  constructor
  · exact fun h => h.1
  · intro hlt
    refine ⟨hlt, (g.rectOf t).x, (g.rectOf t).y, ?_, ?_⟩
    · obtain ⟨h1, -, h3, -⟩ := g.rectOf_inside t hlt
      obtain ⟨hr, hb⟩ := g.rectOf_right t hlt
      simp only [Rect.Covers, hr, hb]
      omega
    · rw [covers_bounds]
      have := g.rectOf_inside t hlt
      omega

theorem TileSet.full_grid : (TileSet.full g).grid = g :=
  (TileSet.insert_rect_spec (TileSet.new g) g.size.bounds 0).1

theorem TileSet.foldl_insert_rect (l : List Rect) (t : Nat) :
    (l.foldl TileSet.insert_rect s).grid = s.grid ∧
      ((l.foldl TileSet.insert_rect s).contains t = true ↔ s.contains t = true ∨
        (t < s.grid.len ∧ ∃ r ∈ l, ∃ x y, (s.grid.rectOf t).Covers x y ∧ r.Covers x y)) := by
  induction l generalizing s with
  | nil => simp
  | cons a l ih =>
    obtain ⟨hg, hs⟩ := TileSet.insert_rect_spec s a t
    obtain ⟨h1, h2⟩ := ih (s.insert_rect a)
    refine ⟨by rw [List.foldl_cons, h1, hg], ?_⟩
    rw [List.foldl_cons, h2, hs, hg]
    simp [or_assoc, ← and_or_left]

/-- Damage marks exactly the tiles that share a pixel with one of its rectangles. -/
theorem TileGrid.contains_tiles_for_damage : (g.tiles_for_damage damage).contains t = true ↔
      t < g.len ∧ ∃ r ∈ damage, ∃ x y, (g.rectOf t).Covers x y ∧ r.Covers x y := by
  have h := (TileSet.foldl_insert_rect (TileSet.new g) damage t).2
  simp at h
  exact h

theorem TileGrid.tiles_for_damage_grid : (g.tiles_for_damage damage).grid = g :=
  (TileSet.foldl_insert_rect (TileSet.new g) damage 0).1

end multiplex_screen_codec
