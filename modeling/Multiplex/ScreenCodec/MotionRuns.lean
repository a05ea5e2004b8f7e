-- What a tracker announces over time: promotions that only grow, each series
-- closed by one demotion, of rectangles that are made of whole tiles.
import Multiplex.ScreenCodec.MotionRegions

open Components

namespace multiplex_screen_codec

/-! ## Rectangles of whole tiles -/

/-- A rectangle that is not empty and lies on the lines of the grid or the edge of the surface. -/
structure Aligned (grid : TileGrid) (r : Rect) : Prop where
  wide : 0 < r.width
  tall : 0 < r.height
  left : r.x % TILE_SIZE = 0
  top : r.y % TILE_SIZE = 0
  right : (r.x + r.width) % TILE_SIZE = 0 ∨ r.x + r.width = grid.size.width
  bottom : (r.y + r.height) % TILE_SIZE = 0 ∨ r.y + r.height = grid.size.height
  inside : r.x + r.width ≤ grid.size.width ∧ r.y + r.height ≤ grid.size.height

section
variable {grid : TileGrid} {r r' : Rect}

theorem Aligned.ends (h : Aligned grid r) :
    r.is_empty = false ∧ r.right = r.x + r.width ∧ r.bottom = r.y + r.height := by
  have hinside := h.inside
  have hwide := h.wide
  have htall := h.tall
  have hw := grid.size.width_le
  have hh := grid.size.height_le
  simp [Rect.is_empty, Rect.right, Rect.bottom, U32_MAX, MAX_SURFACE_DIMENSION] at *
  omega

theorem aligned_rectOf {tile : Nat} (h : tile < grid.len) : Aligned grid (grid.rectOf tile) := by
  obtain ⟨hwide, -, htall, -, hin⟩ := grid.rectOf_inside tile h
  refine ⟨hwide, htall, ?_, ?_, ?_, ?_, hin⟩ <;>
      simp only [TileGrid.rectOf, TILE_SIZE] at hwide htall ⊢ <;>
    omega

theorem Aligned.union (h : Aligned grid r) (h' : Aligned grid r') : Aligned grid (r.union r') := by
  obtain ⟨hne, hright, hbottom⟩ := h.ends
  obtain ⟨hne', hright', hbottom'⟩ := h'.ends
  have hunion : r.union r' = ⟨min r.x r'.x, min r.y r'.y,
      max (r.x + r.width) (r'.x + r'.width) - min r.x r'.x,
      max (r.y + r.height) (r'.y + r'.height) - min r.y r'.y⟩ := by
    simp [Rect.union, hne, hne', hright, hbottom, hright', hbottom']
  obtain ⟨h1, h2, h3, h4, h5, h6, h7⟩ := h
  obtain ⟨h1', h2', h3', h4', h5', h6', h7'⟩ := h'
  rw [hunion]
  simp only [TILE_SIZE] at *
  constructor <;> simp only [TILE_SIZE] <;> omega

theorem Aligned.join (h : Aligned grid r) (rects : List Rect) (hrects : ∀ t ∈ rects, Aligned grid t) :
    Aligned grid (rects.foldl Rect.union r) := by
  induction rects generalizing r with
  | nil => exact h
  | cons t rects ih =>
    exact ih (h.union (hrects t (by simp))) fun t ht => hrects t (by simp [ht])

theorem aligned_tile_rect {t : Rect} {tiles : List Nat} (h : t ∈ tiles.filterMap grid.tile_rect) :
    Aligned grid t := by
  obtain ⟨tile, -, htile⟩ := List.mem_filterMap.mp h
  unfold TileGrid.tile_rect at htile
  split at htile
  · rename_i hin
    cases htile
    exact aligned_rectOf (by simpa [TileGrid.contains] using hin)
  · cases htile

/-- The rectangle around some tiles is aligned, unless there are none. -/
theorem aligned_union_tiles {tiles : List Nat} (h : 0 < (union_tiles grid tiles Rect.default).width) :
    Aligned grid (union_tiles grid tiles Rect.default) := by
  have hall : ∀ t ∈ tiles.filterMap grid.tile_rect, Aligned grid t := fun t => aligned_tile_rect
  unfold union_tiles at h ⊢
  cases hrects : tiles.filterMap grid.tile_rect with
  | nil =>
    rw [hrects] at h
    simp [Rect.default] at h
  | cons t rects =>
    rw [hrects] at hall
    exact (hall t (by simp)).join rects fun t ht => hall t (by simp [ht])

theorem Aligned.join_tiles (h : Aligned grid r) (p : Rect → Bool) (tiles : List Nat) :
    Aligned grid (((tiles.filterMap grid.tile_rect).filter p).foldl Rect.union r) :=
  h.join _ fun _ ht => aligned_tile_rect (List.mem_of_mem_filter ht)

/-- Every pixel of the rectangle is one of a tile that lies in it as a whole. -/
def WholeTiles (grid : TileGrid) (r : Rect) : Prop :=
  ∀ x y, r.Covers x y →
    ∃ tile < grid.len, (grid.rectOf tile).Covers x y ∧
      ∀ x' y', (grid.rectOf tile).Covers x' y' → r.Covers x' y'

theorem Aligned.wholeTiles (h : Aligned grid r) : WholeTiles grid r := by
  obtain ⟨-, hright, hbottom⟩ := h.ends
  have hinside := h.inside
  have hleft := h.left
  have htop := h.top
  have hends := h.right
  have hends' := h.bottom
  intro x y hcovers
  simp only [Rect.Covers, hright, hbottom] at hcovers
  have hlt := grid.tileAt_lt x y (by omega) (by omega)
  refine ⟨grid.tileAt x y, hlt, ?_, fun x' y' hcovers' => ?_⟩
  · rw [grid.covers_rectOf _ hlt]
    exact ⟨by omega, by omega, rfl⟩
  · rw [grid.covers_rectOf _ hlt] at hcovers'
    obtain ⟨hx, hy, htile⟩ := hcovers'
    obtain ⟨hcolumn, hrow⟩ := grid.tileAt_position x y (by omega)
    obtain ⟨hcolumn', hrow'⟩ := grid.tileAt_position x' y' hx
    rw [htile] at hcolumn' hrow'
    simp only [TILE_SIZE] at hleft htop hends hends'
    simp only [Rect.Covers, hright, hbottom]
    omega

/-- More pixels, and all that there were. -/
def StrictlyInside (r r' : Rect) : Prop :=
  (∀ x y, r.Covers x y → r'.Covers x y) ∧ ∃ x y, r'.Covers x y ∧ ¬r.Covers x y

theorem Aligned.strictlyInside (h : Aligned grid r) (h' : Aligned grid r') (hne : r' ≠ r)
    (hcontains : r'.contains_rect r = true) : StrictlyInside r r' := by
  obtain ⟨hfull, hright, hbottom⟩ := h.ends
  obtain ⟨-, hright', hbottom'⟩ := h'.ends
  have hwide := h'.wide
  have htall := h'.tall
  simp [Rect.contains_rect, hfull, hright, hbottom, hright', hbottom'] at hcontains
  simp only [StrictlyInside, Rect.Covers, hright, hbottom, hright', hbottom']
  refine ⟨fun x y hcovers => by omega, ?_⟩
  by_cases hfirst : r'.x = r.x ∧ r'.y = r.y
  · -- the corners agree, so the last pixel is new
    refine ⟨r'.x + r'.width - 1, r'.y + r'.height - 1, by omega, fun hcovers => hne ?_⟩
    cases r
    cases r'
    simp at *
    omega
  · exact ⟨r'.x, r'.y, by omega, fun hcovers => hfirst (by omega)⟩

end

/-! ## One look at the screen -/

theorem sustained_hot_tiles_grid (m : MotionTracker) (now_ms : Nat) :
    (m.sustained_hot_tiles now_ms).grid = m.grid := by
  have hfold : ∀ (l : List Nat) (ok : Nat → Bool) (set : TileSet), set.grid = m.grid →
      (l.foldl (fun set tile => if ok tile then set.insert tile else set) set).grid = m.grid := by
    intro l ok
    induction l with
    | nil => exact fun set h => h
    | cons tile l ih =>
      intro set h
      apply ih
      by_cases hok : ok tile = true <;> simpa [hok] using h
  exact hfold _ _ _ rfl

def MotionTracker.hot (m : MotionTracker) (changed : TileSet) (now_ms : Nat) : TileSet :=
  (m.record changed now_ms).sustained_hot_tiles now_ms

/-- Where a tracker may be: nowhere, or on a rectangle of whole tiles. -/
def MotionTracker.Placed (m : MotionTracker) : Prop := ∀ r, m.region_rect = some r → Aligned m.grid r

/-- What a look at the screen can do to the region. -/
inductive Look (m : MotionTracker) (changed : TileSet) (now_ms : Nat) :
    Option MotionEvent → Option Rect → Prop
  | same : Look m changed now_ms none m.region_rect
  | first {area : List Nat} {r : Rect} (hnone : m.region_rect = none)
      (hlargest : IsLargest (neighbours m.grid) (m.hot changed now_ms).contains area)
      (hsome : area ≠ []) (hr : r = union_tiles m.grid area Rect.default) (haligned : Aligned m.grid r) :
      Look m changed now_ms (some (.Promoted r)) (some r)
  | grow {r grown : Rect} (hsome : m.region_rect = some r) (haligned : Aligned m.grid grown)
      (hmore : StrictlyInside r grown) : Look m changed now_ms (some (.Promoted grown)) (some grown)
  | demote {r : Rect} (hsome : m.region_rect = some r) :
      Look m changed now_ms (some (.Demoted r)) none

theorem observe_look {m : MotionTracker} (h : m.Placed) (changed : TileSet) (now_ms : Nat) :
    Look m changed now_ms (m.observe changed now_ms).1 (m.observe changed now_ms).2.region_rect := by
  have hgrid := sustained_hot_tiles_grid (m.record changed now_ms) now_ms
  have hregion : (m.record changed now_ms).region = m.region := rfl
  unfold MotionTracker.observe
  cases hplace : m.region with
  | none =>
    have hnone : m.region_rect = none := by simp [MotionTracker.region_rect, hplace]
    simp only [hregion, hplace]
    split
    · rename_i hwide
      have hpos : 0 < (union_tiles m.grid
          (largest_component m.grid (m.hot changed now_ms)) Rect.default).width := by
        have hside := hwide.2.1
        simp only [TILE_SIZE] at hside
        exact lt_of_lt_of_le (by omega) hside
      refine .first hnone (largest_component_isLargest hgrid) (fun hempty => ?_) rfl
        (aligned_union_tiles hpos)
      rw [hempty] at hpos
      simp [union_tiles, Rect.default] at hpos
    · exact .same
  | some place =>
    obtain ⟨r, since⟩ := place
    have hsome : m.region_rect = some r := by simp [MotionTracker.region_rect, hplace]
    have haligned := h r hsome
    simp only [hregion, hplace]
    split
    · rename_i hgrown
      exact .grow hsome (haligned.join_tiles _ _)
        (haligned.strictlyInside (haligned.join_tiles _ _) hgrown.1 hgrown.2)
    · split
      · exact .same
      · split
        · exact .same
        · exact .demote hsome

/-! ## Any number of looks -/

/-- A tracker together with what it has announced. -/
structure Watched where
  tracker : MotionTracker
  events : List MotionEvent

def Watched.look (w : Watched) (sample : TileSet × Nat) : Watched :=
  let r := w.tracker.observe sample.1 sample.2
  ⟨r.2, w.events ++ r.1.toList⟩

/-- The promotions of one region, and its demotion. -/
def block (rects : List Rect) : List MotionEvent :=
  rects.map .Promoted ++ (rects.getLast?.map .Demoted).toList

/-- Closed blocks and the promotions of the region that stands. -/
def Bracketed (events : List MotionEvent) (region : Option Rect) : Prop :=
  ∃ (blocks : List (List Rect)) (last : List Rect),
    events = blocks.flatMap block ++ last.map .Promoted ∧
    (∀ b ∈ blocks, b ≠ [] ∧ b.IsChain StrictlyInside) ∧ last.IsChain StrictlyInside ∧
    region = last.getLast?

theorem Bracketed.promote {events : List MotionEvent} {region : Option Rect} {r : Rect}
    (h : Bracketed events region) (hmore : ∀ r', region = some r' → StrictlyInside r' r) :
    Bracketed (events ++ [.Promoted r]) (some r) := by
  obtain ⟨blocks, last, rfl, hblocks, hlast, rfl⟩ := h
  refine ⟨blocks, last ++ [r], by simp, hblocks, ?_, by simp⟩
  rw [List.isChain_append]
  refine ⟨hlast, by simp, ?_⟩
  intro a ha b hb
  simp at hb
  subst hb
  exact hmore a ha

theorem Bracketed.demote {events : List MotionEvent} {r : Rect} (h : Bracketed events (some r)) :
    Bracketed (events ++ [.Demoted r]) none := by
  obtain ⟨blocks, last, rfl, hblocks, hlast, hr⟩ := h
  refine ⟨blocks ++ [last], [], by simp [block, ← hr], ?_, by simp, by simp⟩
  intro b hb
  rcases List.mem_append.mp hb with hb | hb
  · exact hblocks b hb
  · rw [List.mem_singleton.mp hb]
    refine ⟨?_, hlast⟩
    rintro rfl
    cases hr

/-- What holds of a watched tracker after any number of looks. -/
structure WatchedOk (grid : TileGrid) (w : Watched) : Prop where
  grid_eq : w.tracker.grid = grid
  placed : w.tracker.Placed
  bracketed : Bracketed w.events w.tracker.region_rect
  whole : ∀ r, .Promoted r ∈ w.events → Aligned grid r

theorem watchedOk_look {grid : TileGrid} {w : Watched} (h : WatchedOk grid w)
    (sample : TileSet × Nat) : WatchedOk grid (w.look sample) := by
  obtain ⟨hgrid, hplaced, hbracketed, hwhole⟩ := h
  have hkept : (w.look sample).tracker.grid = grid :=
    (observe_grid w.tracker sample.1 sample.2).trans hgrid
  have hlook := observe_look hplaced sample.1 sample.2
  have htracker : (w.look sample).tracker = (w.tracker.observe sample.1 sample.2).2 := rfl
  have hevents : (w.look sample).events =
      w.events ++ (w.tracker.observe sample.1 sample.2).1.toList := rfl
  rw [← htracker] at hlook
  generalize (w.tracker.observe sample.1 sample.2).1 = event at hlook hevents
  generalize hregion : (w.look sample).tracker.region_rect = region at hlook
  have hpromoted : ∀ r, Aligned w.tracker.grid r →
      ∀ r', .Promoted r' ∈ w.events ++ [MotionEvent.Promoted r] → Aligned grid r' := by
    intro r haligned r' hmem
    simp at hmem
    rcases hmem with hmem | rfl
    · exact hwhole r' hmem
    · rwa [hgrid] at haligned
  cases hlook with
  | same =>
    simp at hevents
    refine ⟨hkept, ?_, ?_, ?_⟩
    · intro r hr
      rw [hkept, ← hgrid]
      exact hplaced r (hregion ▸ hr)
    · rwa [hevents, hregion]
    · rwa [hevents]
  | first hnone _ _ _ haligned =>
    refine ⟨hkept, ?_, ?_, ?_⟩
    · intro r' hr'
      rw [hregion, Option.some.injEq] at hr'
      rwa [hkept, ← hr', ← hgrid]
    · rw [hevents, hregion]
      apply hbracketed.promote
      simp [hnone]
    · rw [hevents]
      exact hpromoted _ haligned
  | grow hsome haligned hmore =>
    refine ⟨hkept, ?_, ?_, ?_⟩
    · intro r' hr'
      rw [hregion, Option.some.injEq] at hr'
      rwa [hkept, ← hr', ← hgrid]
    · rw [hevents, hregion]
      apply hbracketed.promote
      intro r' hr'
      rw [hsome, Option.some.injEq] at hr'
      exact hr' ▸ hmore
    · rw [hevents]
      exact hpromoted _ haligned
  | demote hsome =>
    refine ⟨hkept, ?_, ?_, ?_⟩
    · intro r hr
      rw [hregion] at hr
      cases hr
    · rw [hevents, hregion]
      exact (hsome ▸ hbracketed).demote
    · intro r hmem
      rw [hevents] at hmem
      exact hwhole r (by simpa using hmem)

/-- Any looks at the screen announce regions one after the other. Each is promoted with ever more
pixels and then demoted as it was promoted last, and the tracker's region is the one that still
stands. All of them are made of whole tiles, and the first promotion of a region is the rectangle
around a largest connected set of the hot tiles. -/
theorem motion_is_bracketed (grid : TileGrid) (config : MotionConfig)
    (samples : List (TileSet × Nat)) :
    let w := Runs.run Watched.look ⟨.new grid config, []⟩ samples
    Bracketed w.events w.tracker.region_rect ∧ (∀ r, .Promoted r ∈ w.events → WholeTiles grid r) ∧
      ∀ changed now_ms r, w.tracker.region_rect = none →
        (w.tracker.observe changed now_ms).1 = some (.Promoted r) →
        ∃ area, IsLargest (neighbours grid) (w.tracker.hot changed now_ms).contains area ∧
          area ≠ [] ∧ r = union_tiles grid area Rect.default := by
  intro w
  have hok : WatchedOk grid w := by
    apply Runs.keeps_always (WatchedOk grid) (fun w sample h => watchedOk_look h sample)
    refine ⟨rfl, ?_, ⟨[], [], by simp [MotionTracker.new, MotionTracker.region_rect]⟩, by simp⟩
    intro r hr
    simp [MotionTracker.new, MotionTracker.region_rect] at hr
  refine ⟨hok.bracketed, fun r hr => (hok.whole r hr).wholeTiles, ?_⟩
  intro changed now_ms r hnone hevent
  have hlook := observe_look hok.placed changed now_ms
  rw [hevent] at hlook
  generalize (w.tracker.observe changed now_ms).2.region_rect = region at hlook
  cases hlook with
  | first _ hlargest hsome hr _ =>
    rw [hok.grid_eq] at hlargest hr
    exact ⟨_, hlargest, hsome, hr⟩
  | grow hsome =>
    rw [hnone] at hsome
    cases hsome

end multiplex_screen_codec
