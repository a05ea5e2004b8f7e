-- The bits of a tile set, as `geometry.rs` keeps them: words of 64 with a count
-- beside them. Whatever is done to a set, its count, its bits and the order of
-- its tiles agree.
import Multiplex.Lib.Maxima
import Multiplex.ScreenCodec.Frame

namespace multiplex_screen_codec.bits

/-! ## One word -/

def trailing_zeros (word : BitVec 64) : Nat := ((List.range 64).find? word.getLsbD).getD 64

def count_ones (word : BitVec 64) : Nat := (List.range 64).countP word.getLsbD

/-- The lowest bit that is set, and the last on a number with that bit and those below it:
clearing it leaves every other bit. -/
theorem lowest_bit {word : BitVec 64} (h : word ≠ 0) :
    trailing_zeros word < 64 ∧ word.getLsbD (trailing_zeros word) = true ∧
      (∀ j, j < trailing_zeros word → word.getLsbD j = false) ∧
      ∀ i, (word &&& (word - 1)).getLsbD i = (word.getLsbD i && i != trailing_zeros word) := by
  have hne : word.toNat ≠ 0 := fun hzero => h (BitVec.eq_of_toNat_eq hzero)
  have hsub : (word - 1).toNat = word.toNat - 1 := by bv_omega
  obtain ⟨t, u, ⟨v, rfl⟩, hword⟩ := Nat.exists_eq_two_pow_mul_odd hne
  have hpos := Nat.two_pow_pos t
  have hless : word.toNat - 1 = 2 ^ t * (2 * v) + (2 ^ t - 1) := by
    rw [hword, Nat.mul_add]
    omega
  have hbit : ∀ i, word.getLsbD i = (decide (t ≤ i) && (2 * v + 1).testBit (i - t)) := by
    intro i
    rw [BitVec.getLsbD, hword, Nat.testBit_two_pow_mul]
  have hbit' : ∀ i, (word - 1).getLsbD i =
      if i < t then true else (2 * v).testBit (i - t) := by
    intro i
    rw [BitVec.getLsbD, hsub, hless, Nat.testBit_two_pow_mul_add _ (by omega)]
    split
    · rename_i hlt
      simp [hlt]
    · rfl
  have hset : word.getLsbD t = true := by simp [hbit]
  have hlow : ∀ j, j < t → word.getLsbD j = false := by
    intro j hj
    simp [hbit, Nat.not_le.mpr hj]
  have hlt : t < 64 := BitVec.lt_of_getLsbD hset
  have hfound : trailing_zeros word = t := by
    have hfind : (List.range 64).find? word.getLsbD = some t :=
      List.find?_range_eq_some.mpr ⟨hset, List.mem_range.mpr hlt, fun j hj => by simp [hlow j hj]⟩
    rw [trailing_zeros, hfind]
    rfl
  rw [hfound]
  refine ⟨hlt, hset, hlow, fun i => ?_⟩
  rw [BitVec.getLsbD_and, hbit']
  rcases Nat.lt_trichotomy i t with hi | rfl | hi
  · simp [hlow i hi]
  · simp
  · obtain ⟨j, rfl⟩ : ∃ j, i = t + (j + 1) := ⟨i - t - 1, by omega⟩
    have hodd : (2 * v + 1).testBit (j + 1) = (2 * v).testBit (j + 1) := by
      rw [Nat.testBit_succ, Nat.testBit_succ]
      congr 1
      omega
    simp [hbit, hodd]

/-- The bits that are set in one word, taken off from the lowest on. -/
def set_bits (word : BitVec 64) : List Nat :=
  if h : word = 0 then [] else trailing_zeros word :: set_bits (word &&& (word - 1))
termination_by word.toNat
decreasing_by
  have hne : word.toNat ≠ 0 := fun hzero => h (BitVec.eq_of_toNat_eq hzero)
  have hsub : (word - 1).toNat = word.toNat - 1 := by bv_omega
  rw [BitVec.toNat_and, hsub]
  exact Nat.lt_of_le_of_lt Nat.and_le_right (by omega)

theorem set_bits_eq (word : BitVec 64) : set_bits word = (List.range 64).filter word.getLsbD := by
  induction word using set_bits.induct with
  | case1 =>
    rw [set_bits]
    simp
  | case2 word h ih =>
    obtain ⟨hlt, hset, hlow, hrest⟩ := lowest_bit h
    rw [set_bits, dif_neg h, ih]
    apply SortedList.eq_of_mem_iff
    · rw [List.pairwise_cons]
      refine ⟨fun i hi => ?_, List.pairwise_lt_range.filter _⟩
      have hi' := (List.mem_filter.mp hi).2
      rw [hrest] at hi'
      rcases Nat.lt_trichotomy i (trailing_zeros word) with hlt | heq | hgt
      · simp [hlow i hlt] at hi'
      · simp [heq] at hi'
      · exact hgt
    · exact List.pairwise_lt_range.filter _
    intro i
    simp only [List.mem_cons, List.mem_filter, List.mem_range, hrest]
    by_cases hi : i = trailing_zeros word
    · simp [hi, hlt, hset]
    · simp [hi]

theorem length_set_bits (word : BitVec 64) : (set_bits word).length = count_ones word := by
  rw [set_bits_eq, count_ones, List.countP_eq_length_filter]

/-! ## Sets -/

/-- A set as the source keeps it. `Kept` says what holds of every set that is built. -/
structure TileSet where
  grid : TileGrid
  words : List (BitVec 64)
  count : Nat

namespace TileSet

def new (grid : TileGrid) : TileSet := ⟨grid, List.replicate (div_ceil grid.len 64) 0, 0⟩

def contains (s : TileSet) (tile : Nat) : Bool :=
  s.grid.contains tile && s.words.getD (tile / 64) 0 &&& 1#64 <<< (tile % 64) != 0

def insert (s : TileSet) (tile : Nat) : TileSet :=
  if !s.grid.contains tile then s
  else
    let word := s.words.getD (tile / 64) 0
    let bit := 1#64 <<< (tile % 64)
    if word &&& bit != 0 then s
    else { s with words := s.words.set (tile / 64) (word ||| bit), count := s.count + 1 }

def remove (s : TileSet) (tile : Nat) : TileSet :=
  if !s.contains tile then s
  else
    { s with
      words := s.words.set (tile / 64) (s.words.getD (tile / 64) 0 &&& ~~~(1#64 <<< (tile % 64)))
      count := s.count - 1 }

def clear (s : TileSet) : TileSet := { s with words := s.words.map fun _ => 0, count := 0 }

def insert_rect (s : TileSet) (rect : Rect) : TileSet :=
  let r := rect.clamp_to s.grid.size
  if r.is_empty then s else (s.grid.span r).foldl insert s

/-- Two sets of one grid have as many words, so that no word is left over. -/
def union_with (s other : TileSet) : TileSet :=
  if other.grid ≠ s.grid then s
  else
    let words := List.zipWith (· ||| ·) s.words other.words
    { s with words, count := (words.map count_ones).sum }

def iter (s : TileSet) : List Nat :=
  s.words.zipIdx.flatMap fun word => (set_bits word.1).map (word.2 * 64 + ·)

end TileSet

def tiles_covering (grid : TileGrid) (rect : Rect) : TileSet := (TileSet.new grid).insert_rect rect

/-- A set that the calls of the source can build. -/
inductive Reached : TileSet → Prop
  | new (grid : TileGrid) : Reached (.new grid)
  | insert {s : TileSet} (h : Reached s) (tile : Nat) : Reached (s.insert tile)
  | remove {s : TileSet} (h : Reached s) (tile : Nat) : Reached (s.remove tile)
  | insert_rect {s : TileSet} (h : Reached s) (rect : Rect) : Reached (s.insert_rect rect)
  | union_with {s other : TileSet} (h : Reached s) (h' : Reached other) :
      Reached (s.union_with other)
  | clear {s : TileSet} (h : Reached s) : Reached s.clear

/-! ## One bit of the words -/

def bitAt (words : List (BitVec 64)) (tile : Nat) : Bool :=
  (words.getD (tile / 64) 0).getLsbD (tile % 64)

theorem bit_shifted {k : Nat} (hk : k < 64) (i : Nat) :
    (1#64 <<< k).getLsbD i = decide (i = k) := by
  by_cases hi : i = k
  · simp [hi, hk]
  · simp [hi]
    omega

theorem tested (word : BitVec 64) {k : Nat} (hk : k < 64) :
    (word &&& 1#64 <<< k != 0) = word.getLsbD k := by
  have hand : ∀ i, (word &&& 1#64 <<< k).getLsbD i = (word.getLsbD i && decide (i = k)) := by
    intro i
    rw [BitVec.getLsbD_and, bit_shifted hk]
  cases hbit : word.getLsbD k with
  | false =>
    have hzero : word &&& 1#64 <<< k = 0 := by
      apply BitVec.eq_of_getLsbD_eq
      intro i _
      rw [hand]
      by_cases hi : i = k
      · simp [hi, hbit]
      · simp [hi]
    simp [hzero]
  | true =>
    have hne : word &&& 1#64 <<< k ≠ 0 := by
      intro hzero
      have := hand k
      rw [hzero, hbit] at this
      simp at this
    simpa using hne

variable {words : List (BitVec 64)} {tile : Nat}

section
variable (h : tile / 64 < words.length)
include h

theorem bitAt_set (word : BitVec 64) (u : Nat) :
    bitAt (words.set (tile / 64) word) u =
      if u / 64 = tile / 64 then word.getLsbD (u % 64) else bitAt words u := by
  unfold bitAt
  by_cases hu : tile / 64 = u / 64
  · simp [hu, hu ▸ h]
  · simp [hu, Ne.symm hu, List.getD_eq_getElem?_getD]

theorem bitAt_set_bit (u : Nat) :
    bitAt (words.set (tile / 64) (words.getD (tile / 64) 0 ||| 1#64 <<< (tile % 64))) u =
      (bitAt words u || decide (u = tile)) := by
  rw [bitAt_set h, BitVec.getLsbD_or, bit_shifted (Nat.mod_lt _ (by decide))]
  by_cases hu : u / 64 = tile / 64
  · have : u % 64 = tile % 64 ↔ u = tile := by omega
    simp [hu, bitAt, this]
  · have : u ≠ tile := fun heq => hu (by rw [heq])
    simp [hu, this]

theorem bitAt_clear_bit (u : Nat) :
    bitAt (words.set (tile / 64) (words.getD (tile / 64) 0 &&& ~~~(1#64 <<< (tile % 64)))) u =
      (bitAt words u && !decide (u = tile)) := by
  have hlt : u % 64 < 64 := Nat.mod_lt _ (by decide)
  rw [bitAt_set h, BitVec.getLsbD_and, BitVec.getLsbD_not, bit_shifted (Nat.mod_lt _ (by decide))]
  by_cases hu : u / 64 = tile / 64
  · have : u % 64 = tile % 64 ↔ u = tile := by omega
    simp [hu, bitAt, this, hlt]
  · have : u ≠ tile := fun heq => hu (by rw [heq])
    simp [hu, this]

end

/-! ## The words of a set -/

theorem tiles_eq (words : List (BitVec 64)) :
    (words.zipIdx.flatMap fun word => (set_bits word.1).map (word.2 * 64 + ·)) =
      (List.range (64 * words.length)).filter (bitAt words) := by
  induction words using List.reverseRecOn with
  | nil => simp
  | append_singleton words word ih =>
    rw [List.zipIdx_append, List.flatMap_append, ih, List.length_append, List.length_singleton,
      Nat.mul_succ, List.range_add, List.filter_append]
    congr 1
    · apply List.filter_congr
      intro u hu
      have hu' : u / 64 < words.length := by
        rw [List.mem_range] at hu
        omega
      simp [bitAt, List.getElem?_append_left hu']
    · have hlast : (List.range 64).filter (bitAt (words ++ [word]) ∘ (64 * words.length + ·)) =
          (List.range 64).filter word.getLsbD := by
        apply List.filter_congr
        intro i hi
        rw [List.mem_range] at hi
        have hdiv : (64 * words.length + i) / 64 = words.length := by omega
        have hmod : (64 * words.length + i) % 64 = i := by omega
        simp [bitAt, hdiv, hmod]
      rw [List.filter_map, hlast, ← set_bits_eq]
      simp [Nat.mul_comm]

theorem count_eq (words : List (BitVec 64)) :
    (words.map count_ones).sum = (List.range (64 * words.length)).countP (bitAt words) := by
  rw [List.countP_eq_length_filter, ← tiles_eq, List.length_flatMap]
  simp [length_set_bits]
  conv_lhs => rw [← List.zipIdx_map_fst 0 words, List.map_map]
  rfl

theorem countP_toggle {k n : Nat} {p q : Nat → Bool} (hlt : k < n) (hp : p k = false)
    (hq : q k = true) (hrest : ∀ u, u ≠ k → q u = p u) :
    (List.range n).countP q = (List.range n).countP p + 1 := by
  induction n with
  | zero => omega
  | succ n ih =>
    rw [List.range_succ, List.countP_append, List.countP_append]
    by_cases hn : k = n
    · subst hn
      have hsame : (List.range k).countP q = (List.range k).countP p := by
        apply List.countP_congr
        intro u hu
        rw [hrest u (List.mem_range.mp hu).ne]
      simp [hsame, hp, hq]
    · simp [hrest n (Ne.symm hn)]
      omega

/-- What holds of every set that is built. -/
structure Kept (s : TileSet) : Prop where
  length : s.words.length = div_ceil s.grid.len 64
  inside : ∀ t, bitAt s.words t = true → t < s.grid.len
  count : s.count = (List.range (64 * s.words.length)).countP (bitAt s.words)

variable {s other : TileSet}

theorem contains_eq (s : TileSet) (u : Nat) :
    s.contains u = (decide (u < s.grid.len) && bitAt s.words u) := by
  unfold TileSet.contains TileGrid.contains bitAt
  rw [tested _ (Nat.mod_lt _ (by decide))]

theorem Kept.within (h : Kept s) (hlt : tile < s.grid.len) : tile / 64 < s.words.length := by
  rw [h.length, div_ceil]
  omega

theorem kept_of_none {grid : TileGrid} {words : List (BitVec 64)}
    (hlength : words.length = div_ceil grid.len 64) (hnone : ∀ t, bitAt words t = false) :
    Kept ⟨grid, words, 0⟩ := by
  refine ⟨hlength, fun t ht => ?_, ?_⟩
  · rw [hnone] at ht
    cases ht
  · symm
    simp [hnone]

theorem bitAt_new (grid : TileGrid) (t : Nat) : bitAt (TileSet.new grid).words t = false := by
  simp [TileSet.new, bitAt, List.getElem?_replicate]
  split
  · simp
  · simp

theorem kept_new (grid : TileGrid) : Kept (.new grid) :=
  kept_of_none List.length_replicate (bitAt_new grid)

theorem Kept.clear (h : Kept s) : Kept s.clear := by
  apply kept_of_none
  · rw [List.length_map, h.length]
  · intro t
    simp only [bitAt, List.getD_eq_getElem?_getD, List.getElem?_map]
    cases s.words[t / 64]? with
    | none => simp
    | some word => simp

theorem Kept.insert (h : Kept s) (tile : Nat) : Kept (s.insert tile) ∧
    (s.insert tile).grid = s.grid ∧ ∀ u, (s.insert tile).contains u =
      (s.contains u || (decide (u = tile) && s.grid.contains tile)) := by
  unfold TileSet.insert
  split
  · rename_i hout
    refine ⟨h, rfl, fun u => ?_⟩
    simp only [Bool.not_eq_true'] at hout
    simp [hout]
  rename_i hin
  have hlt : tile < s.grid.len := by simpa [TileGrid.contains] using hin
  simp only [tested _ (Nat.mod_lt tile (by decide : 0 < 64))]
  split
  · rename_i hset
    have hmem : s.contains tile = true := by
      rw [contains_eq]
      simp [hlt]
      exact hset
    refine ⟨h, rfl, fun u => ?_⟩
    by_cases hu : u = tile
    · simp [hu, hmem]
    · simp [hu]
  · rename_i hclear
    have hwithin := h.within hlt
    refine ⟨⟨?_, fun t ht => ?_, ?_⟩, rfl, fun u => ?_⟩
    · rw [List.length_set]
      exact h.length
    · rw [bitAt_set_bit hwithin, Bool.or_eq_true, decide_eq_true_eq] at ht
      rcases ht with ht | rfl
      · exact h.inside t ht
      · exact hlt
    · rw [List.length_set, h.count]
      symm
      apply countP_toggle (by omega) (Bool.not_eq_true _ ▸ hclear)
      · rw [bitAt_set_bit hwithin, decide_eq_true rfl, Bool.or_true]
      · intro u hu
        rw [bitAt_set_bit hwithin, decide_eq_false hu, Bool.or_false]
    · simp only [contains_eq, bitAt_set_bit hwithin, TileGrid.contains, hlt]
      by_cases hu : u = tile
      · simp [hu, hlt]
      · simp [hu]

theorem Kept.remove (h : Kept s) (tile : Nat) : Kept (s.remove tile) := by
  unfold TileSet.remove
  split
  · exact h
  rename_i hin
  simp [contains_eq] at hin
  obtain ⟨hlt, hset⟩ := hin
  have hwithin := h.within hlt
  refine ⟨?_, fun t ht => ?_, ?_⟩
  · rw [List.length_set]
    exact h.length
  · rw [bitAt_clear_bit hwithin, Bool.and_eq_true] at ht
    exact h.inside t ht.1
  · have hcount := countP_toggle (n := 64 * s.words.length) (k := tile) (q := bitAt s.words)
      (p := fun u => bitAt s.words u && !decide (u = tile)) (by omega) (by simp) hset
      (fun u hu => by simp [hu])
    simp only [List.length_set]
    rw [h.count, hcount]
    simp only [Nat.add_sub_cancel]
    congr 1
    funext u
    rw [bitAt_clear_bit hwithin]

theorem Kept.union_with (h : Kept s) (h' : Kept other) : Kept (s.union_with other) := by
  unfold TileSet.union_with
  split
  · exact h
  rename_i hgrid
  rw [not_not] at hgrid
  have hlen : other.words.length = s.words.length := by rw [h.length, h'.length, hgrid]
  have hbit : ∀ t, bitAt (List.zipWith (· ||| ·) s.words other.words) t =
      (bitAt s.words t || bitAt other.words t) := by
    intro t
    unfold bitAt
    simp [List.getElem?_zipWith]
    by_cases ht : t / 64 < s.words.length
    · simp [ht, hlen]
    · simp [List.getElem?_eq_none (Nat.not_lt.mp ht),
        List.getElem?_eq_none (Nat.not_lt.mp (hlen ▸ ht))]
  refine ⟨?_, fun t ht => ?_, count_eq _⟩
  · simp [hlen, h.length]
  · rw [hbit, Bool.or_eq_true] at ht
    rcases ht with ht | ht
    · exact h.inside t ht
    · exact hgrid ▸ h'.inside t ht

/-- The set as it is without its words. -/
def Shows (s : TileSet) (a : multiplex_screen_codec.TileSet) : Prop :=
  Kept s ∧ s.grid = a.grid ∧ ∀ u, s.contains u = a.contains u

theorem Shows.insert {a : multiplex_screen_codec.TileSet} (h : Shows s a) (tile : Nat) :
    Shows (s.insert tile) (a.insert tile) := by
  obtain ⟨hkept, hgrid, hsame⟩ := h
  obtain ⟨hkept', hgrid', hcontains⟩ := hkept.insert tile
  refine ⟨hkept', by rw [hgrid', hgrid, TileSet.insert_grid], fun u => ?_⟩
  rw [hcontains, TileSet.contains_insert, hsame, hgrid]

theorem Shows.insert_rect {a : multiplex_screen_codec.TileSet} (h : Shows s a) (rect : Rect) :
    Shows (s.insert_rect rect) (a.insert_rect rect) := by
  unfold TileSet.insert_rect multiplex_screen_codec.TileSet.insert_rect
  rw [h.2.1]
  simp only
  split
  · exact h
  rename_i hne
  clear hne
  generalize a.grid.span _ = tiles
  induction tiles generalizing s a with
  | nil => exact h
  | cons tile tiles ih => exact ih (h.insert tile)

theorem Kept.shows (h : Kept s) : Shows s ⟨s.grid, bitAt s.words, s.count⟩ :=
  ⟨h, rfl, contains_eq s⟩

theorem kept_of_reached (h : Reached s) : Kept s := by
  induction h with
  | new grid => exact kept_new grid
  | insert _ tile ih => exact (ih.insert tile).1
  | remove _ tile ih => exact ih.remove tile
  | insert_rect _ rect ih => exact (ih.shows.insert_rect rect).1
  | union_with _ _ ih ih' => exact ih.union_with ih'
  | clear _ ih => exact ih.clear

theorem contains_tiles_covering (grid : TileGrid) (rect : Rect) (tile : Nat) :
    (tiles_covering grid rect).contains tile = (grid.tiles_covering rect).contains tile := by
  have hnew : Shows (.new grid) (.new grid) :=
    ⟨kept_new grid, rfl, fun u => by simp [contains_eq, bitAt_new]⟩
  exact (hnew.insert_rect rect).2.2 tile

/-- What the claims of a set come to: its count is that of its bits, it has no bit past the
grid, and its tiles come in ascending order. -/
structure Exact (s : TileSet) : Prop where
  count : s.count = (s.words.map count_ones).sum
  inside : ∀ t, bitAt s.words t = true → t < s.grid.len
  ascending : s.iter.Pairwise (· < ·)
  members : ∀ t, t ∈ s.iter ↔ s.contains t = true

theorem Kept.exact (h : Kept s) : Exact s := by
  refine ⟨h.count.trans (count_eq _).symm, h.inside, ?_, fun t => ?_⟩
  · rw [TileSet.iter, tiles_eq]
    exact List.pairwise_lt_range.filter _
  · rw [TileSet.iter, tiles_eq, List.mem_filter, List.mem_range, contains_eq, Bool.and_eq_true,
      decide_eq_true_eq]
    refine and_congr_left fun hbit => ?_
    have hlt := h.inside t hbit
    have := h.within hlt
    omega

/-- The tile at `t` of the grid holds the pixel at `x` and `y`. -/
def Holds (grid : TileGrid) (t x y : Nat) : Prop := ∃ r, grid.tile_rect t = some r ∧ r.Covers x y

theorem holds_iff (grid : TileGrid) (t x y : Nat) : Holds grid t x y ↔
    x < grid.size.width ∧ y < grid.size.height ∧ grid.tileAt x y = t := by
  unfold Holds TileGrid.tile_rect TileGrid.contains
  by_cases hlt : t < grid.len
  · simp [hlt, grid.covers_rectOf t hlt]
  · simp only [hlt, decide_false]
    constructor
    · rintro ⟨r, hr, -⟩
      cases hr
    · rintro ⟨hx, hy, rfl⟩
      exact absurd (grid.tileAt_lt x y hx hy) hlt

theorem tile_geometry_is_exact :
    (∀ (size : Size) (rect : Rect) (t : Nat),
      (tiles_covering (.new size) rect).contains t = true ↔
        ∃ x y, Holds (.new size) t x y ∧ rect.Covers x y) ∧
    (∀ (size : Size) (x y : Nat),
      (x < size.width ∧ y < size.height → ∃! t, Holds (.new size) t x y) ∧
        ∀ t, Holds (.new size) t x y → x < size.width ∧ y < size.height) ∧
    ∀ s, Reached s → Exact s := by
  refine ⟨fun size rect t => ?_, fun size x y => ⟨?_, fun t ht => ?_⟩, fun s h =>
    (kept_of_reached h).exact⟩
  · rw [contains_tiles_covering, TileGrid.contains_tiles_covering]
    constructor
    · rintro ⟨hlt, x, y, hin, hrect⟩
      exact ⟨x, y, ⟨_, by simp [TileGrid.tile_rect, TileGrid.contains, hlt], hin⟩, hrect⟩
    · rintro ⟨x, y, hholds, hrect⟩
      obtain ⟨hx, hy, rfl⟩ := (holds_iff _ _ _ _).mp hholds
      have hlt := TileGrid.tileAt_lt _ x y hx hy
      exact ⟨hlt, x, y, (TileGrid.covers_rectOf _ _ hlt x y).mpr ⟨hx, hy, rfl⟩, hrect⟩
  · rintro ⟨hx, hy⟩
    refine ⟨(TileGrid.new size).tileAt x y, (holds_iff _ _ _ _).mpr ⟨hx, hy, rfl⟩, fun t ht => ?_⟩
    exact ((holds_iff _ _ _ _).mp ht).2.2.symm
  · obtain ⟨hx, hy, -⟩ := (holds_iff _ _ _ _).mp ht
    exact ⟨hx, hy⟩

end multiplex_screen_codec.bits
