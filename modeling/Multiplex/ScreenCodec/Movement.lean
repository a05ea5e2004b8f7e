-- What moves on the screen: vertical scrolls, as `scroll.rs` finds them, and
-- the motion region, as `motion.rs` tracks it. A scroll that is found always
-- fits the surface, so the framebuffer never refuses it.
import Multiplex.ScreenCodec.Hash

namespace multiplex_screen_codec

/-! ## Scrolls -/

def MAX_SCROLL_PIXELS : Nat := 384
def MAX_WINDOW_REPEATS : Nat := 3
def WINDOW_ROWS : Nat := 8
def MIN_MOVE_ROWS : Nat := TILE_SIZE

structure VerticalMove where
  rect : Rect
  dy : Int
  deriving DecidableEq

def row_hashes (D : Deps) (f : Frame) (region : Rect) : List UInt64 :=
  (List.range' region.y (region.bottom - region.y)).map fun y =>
    D.xxh3_64 ((f.row_span y region).flatMap Pixel.bytes)

def to_le_bytes (hash : UInt64) : List UInt8 :=
  (List.range 8).map fun i => UInt8.ofNat (hash.toNat / 256 ^ i)

def window_hashes (D : Deps) (rows : List UInt64) : List UInt64 :=
  (List.range (rows.length + 1 - WINDOW_ROWS)).map fun i =>
    D.xxh3_64 (((rows.drop i).take WINDOW_ROWS).flatMap to_le_bytes)

/-- `positions.get(hash)`: the windows of the old frame with this hash, from the top. -/
def positions (windows : List UInt64) (hash : UInt64) : List Nat :=
  (List.range windows.length).filter fun row => windows[row]? = some hash

/-- `*votes.entry(dy).or_default() += 1`. -/
def add_vote : List (Int × Nat) → Int → List (Int × Nat)
  | [], dy => [(dy, 1)]
  | (d, n) :: rest, dy => if d = dy then (d, n + 1) :: rest else (d, n) :: add_vote rest dy

/-- The votes and the count of changed rows after one row of the new frame. -/
def vote_row (old_rows new_rows old_windows : List UInt64) (s : List (Int × Nat) × Nat)
    (entry : UInt64 × Nat) : List (Int × Nat) × Nat :=
  let row := entry.2
  if old_rows[row]? = new_rows[row]? then s
  else
    let candidates := positions old_windows entry.1
    if candidates.length > MAX_WINDOW_REPEATS then (s.1, s.2 + 1)
    else
      (candidates.foldl (fun votes (old_row : Nat) =>
        let dy : Int := (old_row : Int) - (row : Int)
        if dy ≠ 0 ∧ dy.natAbs ≤ MAX_SCROLL_PIXELS then add_vote votes dy else votes) s.1, s.2 + 1)

/-- The keys of `max_by_key`: the count, and then the shorter distance. -/
def voteLe (a b : Int × Nat) : Bool :=
  decide (a.2 < b.2) || (a.2 == b.2 && decide (b.1.natAbs ≤ a.1.natAbs))

/-- `max_by_key`: of equal maxima the last one. -/
def best_vote (votes : List (Int × Nat)) : Option (Int × Nat) :=
  votes.foldl (fun best v =>
    match best with
    | none => some v
    | some b => if voteLe b v then some v else some b) none

/-- Row `row` of the new region is row `row + dy` of the old one. -/
def explained (old_rows new_rows : List UInt64) (height : Nat) (dy : Int) (row : Nat) : Bool :=
  let source : Int := row + dy
  decide (row < height) && decide (0 ≤ source) && decide (source < height) &&
    decide (new_rows[row]? = old_rows[source.toNat]?)

/-- One turn of the search for the longest run of explained rows. -/
def extend_best (ok : Nat → Bool) (s : (Nat × Nat) × Option Nat) (row : Nat) :
    (Nat × Nat) × Option Nat :=
  match ok row, s.2 with
  | true, none => (s.1, some row)
  | false, some start => (if row - start > s.1.2 - s.1.1 then (start, row) else s.1, none)
  | _, _ => s

def detect_vertical_move (D : Deps) (previous next : Frame) (region : Rect) :
    Option VerticalMove :=
  if previous.size ≠ next.size then none
  else
    let region := region.clamp_to next.size
    if region.width < TILE_SIZE ∨ region.height < MIN_MOVE_ROWS * 2 then none
    else
      let old_rows := row_hashes D previous region
      let new_rows := row_hashes D next region
      let old_windows := window_hashes D old_rows
      let counted := (window_hashes D new_rows).zipIdx.foldl
        (vote_row old_rows new_rows old_windows) ([], 0)
      match best_vote (D.votes_order counted.1) with
      | none => none
      | some (dy, best) =>
        if best < 8 ∨ best * 4 < counted.2 then none
        else
          let best_run := ((List.range (region.height + 1)).foldl
            (extend_best (explained old_rows new_rows region.height dy)) ((0, 0), none)).1
          let rows := best_run.2 - best_run.1
          if rows < MIN_MOVE_ROWS then none
          else some ⟨⟨region.x, region.y + best_run.1, region.width, rows⟩, dy⟩

/-- After the rows below `n`: the best run and the open run hold explained rows only. -/
def RunsOk (ok : Nat → Bool) (n : Nat) (s : (Nat × Nat) × Option Nat) : Prop :=
  s.1.2 ≤ n ∧ (∀ row, s.1.1 ≤ row → row < s.1.2 → ok row = true) ∧
    ∀ start, s.2 = some start → start < n ∧ ∀ row, start ≤ row → row < n → ok row = true

theorem runsOk_step (ok : Nat → Bool) (n : Nat) (s : (Nat × Nat) × Option Nat)
    (h : RunsOk ok n s) : RunsOk ok (n + 1) (extend_best ok s n) := by
  obtain ⟨best, start⟩ := s
  obtain ⟨h1, h2, h3⟩ := h
  unfold extend_best
  cases hok : ok n with
  | true =>
    cases start with
    | none =>
      refine ⟨by simpa using Nat.le_succ_of_le h1, h2, ?_⟩
      intro start hs
      simp at hs
      refine ⟨by omega, fun row hr1 hr2 => ?_⟩
      rw [show row = n by omega, hok]
    | some start =>
      obtain ⟨g1, g2⟩ := h3 start rfl
      refine ⟨by simpa using Nat.le_succ_of_le h1, h2, ?_⟩
      intro start' hs
      simp at hs
      subst hs
      refine ⟨by omega, fun row hr1 hr2 => ?_⟩
      by_cases hrow : row = n
      · rw [hrow, hok]
      · exact g2 row hr1 (by omega)
  | false =>
    cases start with
    | none => exact ⟨by simpa using Nat.le_succ_of_le h1, h2, by simp⟩
    | some start =>
      obtain ⟨g1, g2⟩ := h3 start rfl
      simp only
      split
      · exact ⟨by simp, g2, by simp⟩
      · exact ⟨by simpa using Nat.le_succ_of_le h1, h2, by simp⟩

theorem runsOk_range (ok : Nat → Bool) (n : Nat) :
    RunsOk ok n ((List.range n).foldl (extend_best ok) ((0, 0), none)) := by
  induction n with
  | zero => exact ⟨by simp, by simp, by simp⟩
  | succ n ih =>
    rw [List.range_succ, List.foldl_append]
    exact runsOk_step ok n _ ih

theorem add_vote_mem (votes : List (Int × Nat)) (dy : Int) (v : Int × Nat)
    (h : v ∈ add_vote votes dy) : v.1 = dy ∨ ∃ w ∈ votes, w.1 = v.1 := by
  induction votes with
  | nil =>
    simp only [add_vote, List.mem_singleton] at h
    exact .inl (by rw [h])
  | cons w votes ih =>
    unfold add_vote at h
    split at h
    · rename_i hd
      rcases List.mem_cons.mp h with rfl | h
      · exact .inl hd
      · exact .inr ⟨v, by simp [h], rfl⟩
    · rcases List.mem_cons.mp h with rfl | h
      · exact .inr ⟨_, by simp, rfl⟩
      · rcases ih h with h | ⟨u, hu, he⟩
        · exact .inl h
        · exact .inr ⟨u, by simp [hu], he⟩

/-- An offset that can be voted for. -/
def InReach (dy : Int) : Prop := dy ≠ 0 ∧ dy.natAbs ≤ MAX_SCROLL_PIXELS

theorem vote_row_in_reach (old_rows new_rows old_windows : List UInt64)
    (s : List (Int × Nat) × Nat) (entry : UInt64 × Nat) (h : ∀ v ∈ s.1, InReach v.1) :
    ∀ v ∈ (vote_row old_rows new_rows old_windows s entry).1, InReach v.1 := by
  unfold vote_row
  simp only
  split
  · exact h
  · split
    · exact h
    · generalize positions old_windows entry.1 = candidates
      generalize s.1 = votes at h ⊢
      induction candidates generalizing votes with
      | nil => simpa using h
      | cons c candidates ih =>
        rw [List.foldl_cons]
        apply ih
        intro v hv
        split at hv
        · rename_i hdy
          rcases add_vote_mem _ _ _ hv with hv | ⟨w, hw, he⟩
          · rw [hv]
            exact hdy
          · rw [← he]
            exact h w hw
        · exact h v hv

theorem votes_in_reach (old_rows new_rows old_windows : List UInt64) (l : List (UInt64 × Nat))
    (s : List (Int × Nat) × Nat) (h : ∀ v ∈ s.1, InReach v.1) :
    ∀ v ∈ (l.foldl (vote_row old_rows new_rows old_windows) s).1, InReach v.1 := by
  induction l generalizing s with
  | nil => exact h
  | cons e l ih => exact ih _ (vote_row_in_reach _ _ _ s e h)

theorem best_vote_mem (votes : List (Int × Nat)) (v : Int × Nat) (h : best_vote votes = some v) :
    v ∈ votes := by
  have key : ∀ (votes : List (Int × Nat)) (best : Option (Int × Nat)),
      votes.foldl (fun best v =>
        match best with
        | none => some v
        | some b => if voteLe b v then some v else some b) best = some v →
      best = some v ∨ v ∈ votes := by
    intro votes
    induction votes with
    | nil => intro best h; exact .inl h
    | cons w votes ih =>
      intro best h
      rcases ih _ h with h | h
      · cases best with
        | none =>
          simp at h
          exact .inr (by simp [h])
        | some b =>
          simp only at h
          split at h
          · simp at h
            exact .inr (by simp [h])
          · exact .inl h
      · exact .inr (by simp [h])
  rcases key votes none h with h | h
  · cases h
  · exact h

/-- A region that was clamped to a surface and is not empty lies inside it. -/
theorem clamp_to_inside (r : Rect) (size : Size) (h : 0 < (r.clamp_to size).width) :
    (r.clamp_to size).x + (r.clamp_to size).width ≤ size.width ∧
      (r.clamp_to size).y + (r.clamp_to size).height ≤ size.height := by
  unfold Rect.clamp_to Rect.intersect at h ⊢
  simp only at h ⊢
  split at h
  · simp [Rect.default] at h
  · rename_i hov
    rw [if_neg hov]
    have hw := size.width_le
    simp only [Size.bounds, Rect.right, Rect.bottom, U32_MAX, MAX_SURFACE_DIMENSION] at *
    omega

/-- What is known of a move that was found in a region: it has the region's columns and rows of
it only, and each of them was explained by the offset. -/
structure Detected (D : Deps) (previous next : Frame) (region : Rect) (m : VerticalMove) : Prop where
  size : previous.size = next.size
  inside : region.x + region.width ≤ next.size.width ∧ region.y + region.height ≤ next.size.height
  wide : TILE_SIZE ≤ region.width
  left : m.rect.x = region.x
  width : m.rect.width = region.width
  top : region.y ≤ m.rect.y
  tall : MIN_MOVE_ROWS ≤ m.rect.height
  offset : InReach m.dy
  rows : ∀ row, m.rect.y ≤ region.y + row → region.y + row < m.rect.y + m.rect.height →
    explained (row_hashes D previous region) (row_hashes D next region) region.height m.dy row = true

theorem detected (D : Deps) (previous next : Frame) (region : Rect) (m : VerticalMove)
    (h : detect_vertical_move D previous next region = some m) :
    Detected D previous next (region.clamp_to next.size) m := by
  unfold detect_vertical_move at h
  simp only [ne_eq, ite_not] at h
  split at h
  swap
  · cases h
  rename_i hsize
  split at h
  · cases h
  rename_i hregion
  split at h
  · cases h
  rename_i dy best hbest
  split at h
  · cases h
  split at h
  · cases h
  rename_i hrows
  have hinside := clamp_to_inside region next.size
  generalize region.clamp_to next.size = reg at *
  have hdy : InReach dy := by
    have hmem := (D.votes_order_perm _).subset (best_vote_mem _ _ hbest)
    exact votes_in_reach _ _ _ _ ([], 0) (by simp) _ hmem
  obtain ⟨-, hrun, -⟩ := runsOk_range
    (explained (row_hashes D previous reg) (row_hashes D next reg) reg.height dy) (reg.height + 1)
  simp only [MIN_MOVE_ROWS, TILE_SIZE] at hrows hregion
  cases h
  exact {
    size := hsize
    inside := hinside (by omega)
    wide := by simp only [TILE_SIZE]; omega
    left := rfl
    width := rfl
    top := Nat.le_add_right _ _
    tall := by simp only [MIN_MOVE_ROWS, TILE_SIZE]; omega
    offset := hdy
    rows := fun row hfirst hlast => hrun row (by simp only at hfirst; omega)
      (by simp only at hlast; omega) }

section
variable {D : Deps} {previous next : Frame} {region : Rect} {m : VerticalMove}

section
variable (h : Detected D previous next region m)
include h

/-- The first and the last row of the move, and the rows they come from, are rows of the region. -/
theorem Detected.rows_inside :
    m.rect.y + m.rect.height ≤ region.y + region.height ∧ (region.y : Int) ≤ m.rect.y + m.dy ∧
      (m.rect.y : Int) + m.rect.height + m.dy ≤ region.y + region.height := by
  have htall := h.tall
  have htop := h.top
  simp only [MIN_MOVE_ROWS, TILE_SIZE] at htall
  have hfirst := h.rows (m.rect.y - region.y) (by omega) (by omega)
  have hlast := h.rows (m.rect.y - region.y + m.rect.height - 1) (by omega) (by omega)
  simp [explained] at hfirst hlast
  omega

theorem Detected.ends :
    m.rect.right = m.rect.x + m.rect.width ∧ m.rect.bottom = m.rect.y + m.rect.height := by
  have hinside := h.inside
  have hrows := h.rows_inside
  have hleft := h.left
  have hwidth := h.width
  have hw := next.size.width_le
  have hh := next.size.height_le
  simp only [MAX_SURFACE_DIMENSION] at hw hh
  simp only [Rect.right, Rect.bottom, U32_MAX]
  omega

theorem Detected.fits : MoveFits previous.size m.rect m.dy := by
  obtain ⟨hright, hbottom⟩ := h.ends
  have hinside := h.inside
  have hrows := h.rows_inside
  have hleft := h.left
  have hwidth := h.width
  have hwide := h.wide
  have htall := h.tall
  have hw := next.size.width_le
  have hh := next.size.height_le
  simp only [TILE_SIZE, MIN_MOVE_ROWS, MAX_SURFACE_DIMENSION] at hwide htall hw hh
  rw [h.size]
  refine ⟨?_, h.offset.1, ?_, by omega, ?_⟩
  · simp [Rect.is_empty]
    omega
  · simp [Rect.contains_rect, hright, hbottom]
    simp only [Size.bounds, Rect.right, Rect.bottom, U32_MAX]
    omega
  · omega

end

end

/-! ## The motion region -/

def WINDOW_MS : Nat := 1000

structure MotionConfig where
  promote_hz : Nat
  sustain_ms : Nat
  demote_hz : Nat
  demote_ms : Nat
  min_tiles : Nat
  min_side_tiles : Nat
  tile_path_max_hz : Nat

/-- `MotionConfig::default()`. -/
def MotionConfig.default : MotionConfig := ⟨12, 300, 4, 500, 12, 3, 5⟩

inductive MotionEvent
  | Promoted (rect : Rect)
  | Demoted (rect : Rect)

/-- The change times of each tile, oldest first, and the region with its promotion time. -/
structure MotionTracker where
  grid : TileGrid
  config : MotionConfig
  changes : Nat → List Nat
  region : Option (Rect × Nat)

def MotionTracker.new (grid : TileGrid) (config : MotionConfig) : MotionTracker :=
  ⟨grid, config, fun _ => [], none⟩

def MotionTracker.region_rect (m : MotionTracker) : Option Rect := m.region.map Prod.fst

def MotionTracker.contains (m : MotionTracker) (tile : Nat) : Bool :=
  match m.region, m.grid.tile_rect tile with
  | some (region, _), some rect => region.contains_rect rect
  | _, _ => false

/-- The products and sums of the configured times wrap as `u64` does. -/
def rate_count (hz ms : Nat) : Nat := max ((hz * ms % 2 ^ 64 + 999) / 1000) 1

def count_since (times : List Nat) (since_ms : Nat) : Nat :=
  (times.filter fun at_ms => since_ms ≤ at_ms).length

def MotionTracker.sustained_hot_tiles (m : MotionTracker) (now_ms : Nat) : TileSet :=
  let needed := rate_count m.config.promote_hz m.config.sustain_ms
  let since := now_ms - m.config.sustain_ms
  (List.range m.grid.len).foldl (fun set tile =>
    let times := m.changes tile
    let sustained := match times with
      | [] => false
      | first :: _ => decide ((first + m.config.sustain_ms) % 2 ^ 64 ≤ now_ms)
    if sustained && decide (needed ≤ count_since times since) then set.insert tile else set)
    (TileSet.new m.grid)

/-- The four neighbours of a tile, left, right, above and below. -/
def neighbours (grid : TileGrid) (tile : Nat) : List Nat :=
  match grid.position tile with
  | none => []
  | some (column, row) =>
    [if column = 0 then none else grid.index (column - 1) row,
      grid.index (column + 1) row,
      if row = 0 then none else grid.index column (row - 1),
      grid.index column (row + 1)].filterMap id

/-- The variables of the flood fill: the tiles seen, the component and the stack. -/
structure FloodState where
  seen : TileSet
  component : List Nat
  stack : List Nat

def flood_neighbour (tiles : TileSet) (s : FloodState) (neighbour : Nat) : FloodState :=
  if tiles.contains neighbour && !s.seen.contains neighbour then
    ⟨s.seen.insert neighbour, s.component ++ [neighbour], neighbour :: s.stack⟩
  else s

/-- The `while let` of the flood fill. Each turn takes a tile off the stack and each tile is
put on it once, so as many turns as the grid has tiles are enough. -/
def flood (grid : TileGrid) (tiles : TileSet) : Nat → FloodState → FloodState
  | 0, s => s
  | fuel + 1, s =>
    match s.stack with
    | [] => s
    | tile :: stack =>
      flood grid tiles fuel ((neighbours grid tile).foldl (flood_neighbour tiles) { s with stack })

def largest_component (grid : TileGrid) (tiles : TileSet) : List Nat :=
  (tiles.iter.foldl (fun (s : TileSet × List Nat) start =>
    if s.1.contains start then s
    else
      let r := flood grid tiles grid.len ⟨s.1.insert start, [start], [start]⟩
      (r.seen, if r.component.length > s.2.length then r.component else s.2))
    (TileSet.new grid, [])).2

/-- The rectangle around a list of tiles, joined to `start`. -/
def union_tiles (grid : TileGrid) (tiles : List Nat) (start : Rect) : Rect :=
  (tiles.filterMap grid.tile_rect).foldl Rect.union start

/-- The times of the changed tiles are recorded, and times outside the window dropped. -/
def MotionTracker.record (m : MotionTracker) (changed : TileSet) (now_ms : Nat) : MotionTracker :=
  let pushed := changed.iter.foldl (fun (changes : Nat → List Nat) tile =>
    let times := changes tile ++ [now_ms]
    Function.update changes tile (if times.length > 128 then times.tail else times)) m.changes
  let horizon := now_ms - WINDOW_MS
  { m with changes := fun tile => (pushed tile).dropWhile fun at_ms => decide (at_ms < horizon) }

def MotionTracker.observe (m : MotionTracker) (changed : TileSet) (now_ms : Nat) :
    Option MotionEvent × MotionTracker :=
  let m := m.record changed now_ms
  match m.region with
  | none =>
    let hot := m.sustained_hot_tiles now_ms
    let area := largest_component m.grid hot
    let rect := union_tiles m.grid area Rect.default
    let min_side := ((m.config.min_side_tiles - 1) * TILE_SIZE + 1) % 2 ^ 32
    if m.config.min_tiles ≤ area.length ∧ min_side ≤ rect.width ∧ min_side ≤ rect.height then
      (some (.Promoted rect), { m with region := some (rect, now_ms) })
    else (none, m)
  | some (rect, since) =>
    let hot := m.sustained_hot_tiles now_ms
    let reach : Rect := ⟨rect.x - TILE_SIZE, rect.y - TILE_SIZE, rect.width + TILE_SIZE * 2,
      rect.height + TILE_SIZE * 2⟩
    let grown := ((hot.iter.filterMap m.grid.tile_rect).filter fun tile =>
      !(reach.intersect tile).is_empty).foldl Rect.union rect
    -- only tiles that touch the region join it, and the region only grows
    if grown ≠ rect ∧ grown.contains_rect rect then
      (some (.Promoted grown), { m with region := some (grown, since) })
    else if now_ms - since < m.config.demote_ms then (none, m)
    else
      let needed := rate_count m.config.demote_hz m.config.demote_ms
      let from_ms := now_ms - m.config.demote_ms
      if (m.grid.tiles_covering rect).iter.any fun tile =>
          decide (needed ≤ count_since (m.changes tile) from_ms) then (none, m)
      else (some (.Demoted rect), { m with region := none })

@[simp] theorem observe_grid (m : MotionTracker) (changed : TileSet) (now_ms : Nat) :
    (m.observe changed now_ms).2.grid = m.grid := by
  unfold MotionTracker.observe MotionTracker.record
  simp only
  split
  · split <;> rfl
  · split
    · rfl
    · split
      · rfl
      · split <;> rfl

end multiplex_screen_codec
