-- The motion region over time. It is promoted from a largest connected set of hot
-- tiles, only grows while it lasts, and is demoted before the next one; and every
-- rectangle that is announced is made of whole tiles.
import Multiplex.Lib.Components
import Multiplex.Lib.Runs
import Multiplex.ScreenCodec.Movement

open Components

namespace multiplex_screen_codec

/-! ## Neighbours -/

/-- Two tiles of the grid that share an edge. -/
def Adjacent (grid : TileGrid) (a b : Nat) : Prop :=
  a < grid.len ∧ b < grid.len ∧
    (a / grid.columns = b / grid.columns ∧
        (a % grid.columns + 1 = b % grid.columns ∨ b % grid.columns + 1 = a % grid.columns) ∨
      a % grid.columns = b % grid.columns ∧
        (a / grid.columns + 1 = b / grid.columns ∨ b / grid.columns + 1 = a / grid.columns))

variable {grid : TileGrid} {tiles : TileSet}

theorem Adjacent.symm {a b : Nat} (h : Adjacent grid a b) : Adjacent grid b a := by
  obtain ⟨ha, hb, ⟨hrow, hcolumns⟩ | ⟨hcolumn, hrows⟩⟩ := h
  · exact ⟨hb, ha, .inl ⟨hrow.symm, hcolumns.symm⟩⟩
  · exact ⟨hb, ha, .inr ⟨hcolumn.symm, hrows.symm⟩⟩

theorem index_eq_some {column row b : Nat} : grid.index column row = some b ↔
      b < grid.len ∧ b % grid.columns = column ∧ b / grid.columns = row := by
  have hpos := grid.columns_pos
  unfold TileGrid.index
  constructor
  · intro h
    split at h
    · cases h
    · rename_i hin
      rw [not_or, not_le, not_le] at hin
      cases h
      refine ⟨?_, ?_, ?_⟩
      · calc row * grid.columns + column < row * grid.columns + grid.columns := by omega
          _ = (row + 1) * grid.columns := by ring
          _ ≤ grid.rows * grid.columns := Nat.mul_le_mul_right _ hin.2
          _ = grid.len := Nat.mul_comm _ _
      · rw [Nat.mul_add_mod_self_right, Nat.mod_eq_of_lt hin.1]
      · rw [Nat.add_comm, Nat.add_mul_div_right _ _ hpos, Nat.div_eq_of_lt hin.1, Nat.zero_add]
  · rintro ⟨hlt, rfl, rfl⟩
    obtain ⟨hcolumn, hrow⟩ := grid.position_lt b hlt
    rw [if_neg (by omega), Nat.mul_comm, Nat.div_add_mod]

theorem guarded_eq_some {n : Nat} {f : Nat → Option Nat} {b : Nat} :
    some b = (if n = 0 then none else f (n - 1)) ↔ ∃ m, m + 1 = n ∧ f m = some b := by
  cases n with
  | zero => simp
  | succ n => simp [eq_comm]

theorem mem_neighbours {a b : Nat} (ha : a < grid.len) :
    b ∈ neighbours grid a ↔ Adjacent grid a b := by
  have hposition : grid.position a = some (a % grid.columns, a / grid.columns) := by
    simp [TileGrid.position, TileGrid.contains, ha]
  have hright : ∀ column row, some b = grid.index column row ↔
      b < grid.len ∧ b % grid.columns = column ∧ b / grid.columns = row := fun column row =>
    eq_comm.trans index_eq_some
  have hleft := guarded_eq_some (n := a % grid.columns) (f := (grid.index · (a / grid.columns))) (b := b)
  have habove := guarded_eq_some (n := a / grid.columns) (f := (grid.index (a % grid.columns))) (b := b)
  simp only [index_eq_some] at hleft habove
  simp only [neighbours, hposition, List.mem_filterMap, List.mem_cons, List.not_mem_nil, or_false,
    id_eq, exists_eq_right, Adjacent, ha, true_and, hright, hleft, habove]
  constructor
  · rintro (⟨m, hm, hlt, rfl, hrow⟩ | ⟨hlt, hcolumn, hrow⟩ | ⟨m, hm, hlt, hcolumn, rfl⟩ |
      ⟨hlt, hcolumn, hrow⟩)
    · exact ⟨hlt, .inl ⟨hrow.symm, .inr hm⟩⟩
    · exact ⟨hlt, .inl ⟨hrow.symm, .inl hcolumn.symm⟩⟩
    · exact ⟨hlt, .inr ⟨hcolumn.symm, .inr hm⟩⟩
    · exact ⟨hlt, .inr ⟨hcolumn.symm, .inl hrow.symm⟩⟩
  · rintro ⟨hlt, ⟨hrow, hcolumn | hcolumn⟩ | ⟨hcolumn, hrow | hrow⟩⟩
    · exact .inr (.inl ⟨hlt, hcolumn.symm, hrow.symm⟩)
    · exact .inl ⟨_, hcolumn, hlt, rfl, hrow.symm⟩
    · exact .inr (.inr (.inr ⟨hlt, hcolumn.symm, hrow.symm⟩))
    · exact .inr (.inr (.inl ⟨_, hrow, hlt, hcolumn.symm, rfl⟩))

/-! ## The flood fill is the search -/

def FloodState.toSearch (s : FloodState) : Search Nat := ⟨s.seen.contains, s.component, s.stack⟩

/-- Marking a tile of the grid as seen changes what the set says of that tile only. -/
theorem contains_insert_eq {set : TileSet} {tile : Nat} (h : tile < set.grid.len) :
    (set.insert tile).contains = Function.update set.contains tile true := by
  funext u
  by_cases hu : u = tile <;> simp [hu, TileGrid.contains, h]

theorem flood_neighbour_eq {s : FloodState} (hgrid : s.seen.grid = tiles.grid) (n : Nat) :
    (flood_neighbour tiles s n).toSearch = meet tiles.contains s.toSearch n ∧
      (flood_neighbour tiles s n).seen.grid = tiles.grid := by
  unfold flood_neighbour meet
  by_cases hmeet : (tiles.contains n && !s.seen.contains n) = true
  · rw [if_pos hmeet, if_pos (by exact hmeet)]
    have hlt : n < s.seen.grid.len := by
      rw [hgrid]
      simp at hmeet
      exact TileSet.lt_of_contains hmeet.1
    simp [FloodState.toSearch, contains_insert_eq hlt, hgrid]
  · rw [if_neg hmeet, if_neg (by exact hmeet)]
    exact ⟨rfl, hgrid⟩

theorem foldl_flood_neighbour (l : List Nat) {s : FloodState} (hgrid : s.seen.grid = tiles.grid) :
    (l.foldl (flood_neighbour tiles) s).toSearch = l.foldl (meet tiles.contains) s.toSearch ∧
      (l.foldl (flood_neighbour tiles) s).seen.grid = tiles.grid := by
  induction l generalizing s with
  | nil => exact ⟨rfl, hgrid⟩
  | cons n l ih =>
    obtain ⟨hone, hkept⟩ := flood_neighbour_eq hgrid n
    obtain ⟨hrest, hlast⟩ := ih hkept
    rw [List.foldl_cons, List.foldl_cons, hrest, hone]
    exact ⟨rfl, hlast⟩

theorem flood_eq_search (grid : TileGrid) (tiles : TileSet) (fuel : Nat) {s : FloodState}
    (hgrid : s.seen.grid = tiles.grid) :
    (flood grid tiles fuel s).toSearch = search (neighbours grid) tiles.contains fuel s.toSearch ∧
      (flood grid tiles fuel s).seen.grid = tiles.grid := by
  induction fuel generalizing s with
  | zero => exact ⟨rfl, hgrid⟩
  | succ fuel ih =>
    unfold flood search
    cases hstack : s.stack with
    | nil => simpa [FloodState.toSearch, hstack] using hgrid
    | cons tile stack =>
      obtain ⟨hturn, hkept⟩ := foldl_flood_neighbour (neighbours grid tile) (s := { s with stack }) hgrid
      obtain ⟨hrest, hlast⟩ := ih hkept
      simp only [FloodState.toSearch, hstack] at hturn hrest ⊢
      exact ⟨by rw [hrest, hturn], hlast⟩

theorem largest_component_isLargest (hgrid : tiles.grid = grid) :
    IsLargest (neighbours grid) tiles.contains (largest_component grid tiles) := by
  have hlt : ∀ tile, tiles.contains tile = true → tile < grid.len := fun tile h =>
    hgrid ▸ TileSet.lt_of_contains h
  have hfold : ∀ (l : List Nat) (s : TileSet × List Nat), (∀ tile ∈ l, tiles.contains tile = true) →
      s.1.grid = grid →
      let r := l.foldl (fun (s : TileSet × List Nat) start =>
        if s.1.contains start then s
        else
          let r := flood grid tiles grid.len ⟨s.1.insert start, [start], [start]⟩
          (r.seen, if r.component.length > s.2.length then r.component else s.2)) s
      (r.1.contains, r.2) =
        l.foldl (lookFrom (neighbours grid) tiles.contains grid.len) (s.1.contains, s.2) := by
    intro l
    induction l with
    | nil => exact fun s _ _ => rfl
    | cons start l ih =>
      intro s hl hs
      have hstart : start < s.1.grid.len := by
        rw [hs]
        exact hlt start (hl start (by simp))
      simp
      by_cases hseen : s.1.contains start = true
      · simp [lookFrom, hseen]
        exact ih s (fun tile h => hl tile (by simp [h])) hs
      · obtain ⟨hsearch, hkept⟩ := flood_eq_search grid tiles grid.len
          (s := ⟨s.1.insert start, [start], [start]⟩) (by simp [hs, hgrid])
        simp only [lookFrom, hseen]
        rw [ih _ (fun tile h => hl tile (by simp [h])) (by simp [hkept, hgrid])]
        simp only [FloodState.toSearch, contains_insert_eq hstart] at hsearch
        rw [← hsearch]
        simp
  have hlargest : largest_component grid tiles =
      largest (neighbours grid) tiles.contains grid.len tiles.iter := by
    have heq := hfold tiles.iter (TileSet.new grid, []) (fun tile h => (tiles.mem_iter tile).mp h) rfl
    have hnew : (TileSet.new grid).contains = fun _ => false := funext fun tile => by simp
    simp only [hnew] at heq
    exact congrArg Prod.snd heq
  rw [hlargest]
  apply largest_isLargest (Finset.range grid.len)
  · intro a b ha hb hmem
    rw [mem_neighbours (hlt a ha)] at hmem
    exact (mem_neighbours (hlt b hb)).mpr hmem.symm
  · intro b hb
    exact Finset.mem_range.mpr (hlt b hb)
  · simp
  · exact fun a => tiles.mem_iter a

end multiplex_screen_codec
