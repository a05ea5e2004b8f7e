-- The tile cache of the viewer and its shadow on the host, as `cache.rs` has
-- them. The clock stamps of the source only order the entries, so the index is
-- the list of entries from the least to the most recently used.
import Multiplex.ScreenCodec.Hash

namespace multiplex_screen_codec

structure CacheMiss where
  tile : Nat
  hash : TileHash
  deriving DecidableEq

/-- Least recently used order and byte count. An entry is a hash and its size. -/
structure CacheIndex where
  budget : Nat
  used : Nat
  order : List (TileHash × Nat)

def CacheIndex.new (budget : Nat) : CacheIndex := ⟨budget, 0, []⟩

def CacheIndex.contains (c : CacheIndex) (hash : TileHash) : Bool :=
  c.order.any fun e => e.1 == hash

/-- Marks an entry as most recently used. The flag is false when there is none. -/
def CacheIndex.touch (c : CacheIndex) (hash : TileHash) : Bool × CacheIndex :=
  match c.order.find? fun e => e.1 == hash with
  | none => (false, c)
  | some e => (true, { c with order := (c.order.filter fun e => e.1 != hash) ++ [e] })

def CacheIndex.remove (c : CacheIndex) (hash : TileHash) : Bool × CacheIndex :=
  match c.order.find? fun e => e.1 == hash with
  | none => (false, c)
  | some e => (true, { c with used := c.used - e.2, order := c.order.filter fun e => e.1 != hash })

/-- The eviction loop of `insert`: the oldest entries go until `bytes` more fit the budget.
Used bytes imply an entry, so the empty order is never met with bytes left to free. -/
def evict_for (budget bytes : Nat) : Nat → List (TileHash × Nat) →
    Nat × List (TileHash × Nat) × List TileHash
  | used, [] => (used, [], [])
  | used, e :: rest =>
    if used + bytes > budget then
      let r := evict_for budget bytes (used - e.2) rest
      (r.1, r.2.1, e.1 :: r.2.2)
    else (used, e :: rest, [])

/-- Inserts or refreshes an entry, and gives the hashes evicted to make room. -/
def CacheIndex.insert (c : CacheIndex) (hash : TileHash) (bytes : Nat) :
    List TileHash × CacheIndex :=
  if bytes > c.budget then ([], c)
  else
    let c1 := (c.remove hash).2
    let r := evict_for c.budget bytes c1.used c1.order
    (r.2.2, { c1 with used := r.1 + bytes, order := r.2.1 ++ [(hash, bytes)] })

def CacheIndex.clear (c : CacheIndex) : CacheIndex := { c with used := 0, order := [] }

/-- Decoded exact pixels of a tile. -/
abbrev CachedTile := TileImage

structure ViewerCache where
  index : CacheIndex
  tiles : TileHash → Option CachedTile

def ViewerCache.new (budget : Nat) : ViewerCache := ⟨CacheIndex.new budget, fun _ => none⟩

def ViewerCache.get (c : ViewerCache) (hash : TileHash) : Option CachedTile × ViewerCache :=
  match c.index.touch hash with
  | (false, _) => (none, c)
  | (true, index) => (c.tiles hash, { c with index })

def ViewerCache.insert (c : ViewerCache) (hash : TileHash) (tile : CachedTile) : ViewerCache :=
  let r := c.index.insert hash (tile.pixels.length * BYTES_PER_PIXEL)
  let tiles := r.1.foldl (fun m h => Function.update m h none) c.tiles
  if r.2.contains hash then ⟨r.2, Function.update tiles hash (some tile)⟩ else ⟨r.2, tiles⟩

/-- The host's model of the cache of one viewer. -/
structure CacheShadow where
  index : CacheIndex

def CacheShadow.new (budget : Nat) : CacheShadow := ⟨CacheIndex.new budget⟩

def CacheShadow.use_if_held (s : CacheShadow) (hash : TileHash) : Bool × CacheShadow :=
  let r := s.index.touch hash
  (r.1, ⟨r.2⟩)

def CacheShadow.record_sent (s : CacheShadow) (hash : TileHash) (bytes : Nat) : CacheShadow :=
  ⟨(s.index.insert hash bytes).2⟩

def CacheShadow.forget (s : CacheShadow) (hash : TileHash) : CacheShadow := ⟨(s.index.remove hash).2⟩

def CacheShadow.clear (s : CacheShadow) : CacheShadow := ⟨s.index.clear⟩

/-! ## The hashes that an index holds -/

/-- The hashes held, oldest first. -/
def CacheIndex.hashes (c : CacheIndex) : List TileHash := c.order.map Prod.fst

variable (D : Deps) (c : CacheIndex) (tiles : Set TileImage) (h : TileHash)

theorem CacheIndex.contains_iff : c.contains h = true ↔ h ∈ c.hashes := by
  simp [CacheIndex.contains, CacheIndex.hashes]

theorem find_of_mem {l : List (TileHash × Nat)} {h : TileHash} (hm : h ∈ l.map Prod.fst) :
    ∃ n, l.find? (fun e => e.1 == h) = some (h, n) := by
  cases hf : l.find? (fun e => e.1 == h) with
  | none =>
    obtain ⟨e, he, rfl⟩ := List.mem_map.mp hm
    have := List.find?_eq_none.mp hf e he
    simp at this
  | some e =>
    have h1 : e.1 = h := by simpa using List.find?_some hf
    exact ⟨e.2, by rw [← h1]⟩

theorem map_fst_filter_ne (l : List (TileHash × Nat)) (h : TileHash) :
    (l.filter fun e => e.1 != h).map Prod.fst = (l.map Prod.fst).filter fun k => k != h := by
  rw [List.filter_map]
  rfl

theorem touch_spec (hn : c.hashes.Nodup) :
    ((c.touch h).1 = true ↔ h ∈ c.hashes) ∧ (c.touch h).2.hashes.Nodup ∧
      (∀ k, k ∈ (c.touch h).2.hashes ↔ k ∈ c.hashes) ∧ (c.touch h).2.budget = c.budget := by
  by_cases hm : h ∈ c.hashes
  · obtain ⟨n, hf⟩ := find_of_mem hm
    have ht : c.touch h = (true, { c with order := (c.order.filter fun e => e.1 != h) ++ [(h, n)] }) := by
      simp [CacheIndex.touch, hf]
    have hh : (c.touch h).2.hashes = (c.hashes.filter fun k => k != h) ++ [h] := by
      rw [ht]
      simp [CacheIndex.hashes, map_fst_filter_ne]
    refine ⟨by simp [ht, hm], ?_, ?_, by simp [ht]⟩
    · rw [hh, List.nodup_append]
      refine ⟨hn.filter _, List.nodup_singleton h, ?_⟩
      intro a ha b hb
      simp at ha
      simp only [List.mem_singleton] at hb
      rw [hb]
      exact ha.2
    · intro k
      rw [hh]
      by_cases hk : k = h
      · subst hk; simp [hm]
      · simp [hk]
  · have hf : c.order.find? (fun e => e.1 == h) = none := by
      rw [List.find?_eq_none]
      intro e he hb
      exact hm (List.mem_map.mpr ⟨e, he, by simpa using hb⟩)
    have ht : c.touch h = (false, c) := by simp [CacheIndex.touch, hf]
    simp [ht, hm, hn]

theorem remove_spec :
    (c.remove h).2.hashes = c.hashes.filter (fun k => k != h) ∧ (c.remove h).2.budget = c.budget := by
  by_cases hm : h ∈ c.hashes
  · obtain ⟨n, hf⟩ := find_of_mem hm
    have ht : c.remove h = (true, { c with
        used := c.used - n, order := c.order.filter fun e => e.1 != h }) := by
      simp [CacheIndex.remove, hf]
    rw [ht]
    exact ⟨map_fst_filter_ne _ _, rfl⟩
  · have hf : c.order.find? (fun e => e.1 == h) = none := by
      rw [List.find?_eq_none]
      intro e he hb
      exact hm (List.mem_map.mpr ⟨e, he, by simpa using hb⟩)
    have ht : c.remove h = (false, c) := by simp [CacheIndex.remove, hf]
    rw [ht]
    refine ⟨?_, rfl⟩
    symm
    rw [List.filter_eq_self]
    intro k hk
    simp
    rintro rfl
    exact hm hk

theorem evict_for_split (budget bytes used : Nat) (l : List (TileHash × Nat)) :
    (evict_for budget bytes used l).2.2 ++ (evict_for budget bytes used l).2.1.map Prod.fst =
      l.map Prod.fst := by
  induction l generalizing used with
  | nil => simp [evict_for]
  | cons e rest ih =>
    unfold evict_for
    split
    · simp [ih]
    · simp

/-- An insert keeps the hashes distinct. After it the index holds old hashes that were not
evicted, and the new one unless it is larger than the budget. -/
theorem insert_spec (bytes : Nat) (hn : c.hashes.Nodup) : (c.insert h bytes).2.hashes.Nodup ∧
      (∀ k, k ∈ (c.insert h bytes).2.hashes →
        (k = h ∧ bytes ≤ c.budget) ∨ (k ∈ c.hashes ∧ k ∉ (c.insert h bytes).1)) ∧
      (h ∉ (c.insert h bytes).1) ∧ (c.insert h bytes).2.budget = c.budget := by
  unfold CacheIndex.insert
  split
  · exact ⟨hn, fun k hk => .inr ⟨hk, by simp⟩, by simp, rfl⟩
  · obtain ⟨hr, hb⟩ := remove_spec c h
    have hsplit := evict_for_split c.budget bytes (c.remove h).2.used (c.remove h).2.order
    simp only
    generalize hev : evict_for c.budget bytes (c.remove h).2.used (c.remove h).2.order = ev at hsplit ⊢
    have hnod : (ev.2.2 ++ ev.2.1.map Prod.fst).Nodup := by
      rw [hsplit]
      change (c.remove h).2.hashes.Nodup
      rw [hr]
      exact hn.filter _
    have hmem : ∀ k, k ∈ ev.2.2 ∨ k ∈ ev.2.1.map Prod.fst ↔ k ∈ c.hashes ∧ k ≠ h := by
      intro k
      rw [← List.mem_append, hsplit]
      change k ∈ (c.remove h).2.hashes ↔ _
      rw [hr]
      simp
    rw [List.nodup_append] at hnod
    obtain ⟨-, hn2, hdis⟩ := hnod
    refine ⟨?_, ?_, ?_, hb⟩
    · simp [CacheIndex.hashes]
      rw [List.nodup_append]
      refine ⟨hn2, List.nodup_singleton h, ?_⟩
      intro a ha b hb'
      simp only [List.mem_singleton] at hb'
      rw [hb']
      exact ((hmem a).mp (.inr ha)).2
    · intro k hk
      simp only [CacheIndex.hashes, List.map_append, List.map_cons, List.map_nil, List.mem_append,
        List.mem_singleton] at hk
      rcases hk with hk | hk
      · refine .inr ⟨((hmem k).mp (.inr hk)).1, fun hc => hdis k hc k hk rfl⟩
      · exact .inl ⟨hk, by omega⟩
    · intro hc
      exact ((hmem h).mp (.inl hc)).2 rfl

/-! ## The cache of the viewer -/

/-- Every cached tile is one of `tiles`, under its own hash, and every hash of the index has
its pixels. -/
structure CacheSound (D : Deps) (tiles : Set TileImage) (c : ViewerCache) : Prop where
  nodup : c.index.hashes.Nodup
  held : ∀ h ∈ c.index.hashes, (c.tiles h).isSome
  honest : ∀ h tile, c.tiles h = some tile → tile ∈ tiles ∧ hashImage D tile = h

theorem cacheSound_new (budget : Nat) : CacheSound D tiles (ViewerCache.new budget) :=
  ⟨by simp [ViewerCache.new, CacheIndex.new, CacheIndex.hashes],
    by simp [ViewerCache.new, CacheIndex.new, CacheIndex.hashes], by simp [ViewerCache.new]⟩

/-- A lookup gives the pixels exactly when the index holds the hash. -/
theorem get_spec (c : ViewerCache) (h : TileHash) (hs : CacheSound D tiles c) :
    CacheSound D tiles (c.get h).2 ∧ (c.get h).2.index = (c.index.touch h).2 ∧
      ((c.index.touch h).1 = true →
        ∃ tile ∈ tiles, (c.get h).1 = some tile ∧ hashImage D tile = h) ∧
      ((c.index.touch h).1 = false → (c.get h).1 = none) := by
  obtain ⟨h1, h2, h3, -⟩ := touch_spec c.index h hs.nodup
  unfold ViewerCache.get
  cases ht : c.index.touch h with
  | mk flag index =>
    rw [ht] at h1 h2 h3
    cases flag with
    | false =>
      have hidx : index = c.index := by
        unfold CacheIndex.touch at ht
        split at ht <;> cases ht
        rfl
      subst hidx
      exact ⟨hs, rfl, by simp, by simp⟩
    | true =>
      refine ⟨⟨h2, fun k hk => hs.held k ((h3 k).mp hk), hs.honest⟩, rfl, fun _ => ?_, by simp⟩
      obtain ⟨tile, htile⟩ := Option.isSome_iff_exists.mp (hs.held h (h1.mp rfl))
      obtain ⟨hmem, hhash⟩ := hs.honest h tile htile
      exact ⟨tile, hmem, htile, hhash⟩

theorem foldl_update_none (l : List TileHash) (m : TileHash → Option CachedTile) (k : TileHash) :
    l.foldl (fun m h => Function.update m h none) m k = if k ∈ l then none else m k := by
  induction l generalizing m with
  | nil => simp
  | cons a l ih =>
    rw [List.foldl_cons, ih]
    by_cases hk : k ∈ l
    · simp [hk]
    · by_cases hka : k = a
      · simp [hka]
      · simp [hk, hka]

/-- An insert of a tile under its own hash keeps the cache sound, and moves the index as the
shadow moves when it records the same number of bytes. -/
theorem viewer_insert_spec (c : ViewerCache) (tile : CachedTile) (hs : CacheSound D tiles c)
    (hm : tile ∈ tiles) : CacheSound D tiles (c.insert (hashImage D tile) tile) ∧
      (c.insert (hashImage D tile) tile).index =
        (c.index.insert (hashImage D tile) (tile.pixels.length * BYTES_PER_PIXEL)).2 := by
  generalize hh : hashImage D tile = h
  obtain ⟨h1, h2, h3, -⟩ := insert_spec c.index h (tile.pixels.length * BYTES_PER_PIXEL) hs.nodup
  unfold ViewerCache.insert
  generalize c.index.insert h (tile.pixels.length * BYTES_PER_PIXEL) = r at *
  simp only
  have hhon : ∀ k t, r.1.foldl (fun m h => Function.update m h none) c.tiles k = some t →
      t ∈ tiles ∧ hashImage D t = k := by
    intro k t hk
    rw [foldl_update_none] at hk
    split at hk
    · cases hk
    · exact hs.honest k t hk
  split
  · refine ⟨⟨h1, ?_, ?_⟩, rfl⟩
    · intro k hk
      by_cases hkh : k = h
      · simp [hkh]
      · simp [hkh, foldl_update_none]
        rcases h2 k hk with hk' | ⟨hold, hev⟩
        · exact absurd hk'.1 hkh
        · rw [if_neg hev]
          exact hs.held k hold
    · intro k t hk
      by_cases hkh : k = h
      · subst hkh
        simp at hk
        subst hk
        exact ⟨hm, hh⟩
      · simp only [Function.update_of_ne hkh] at hk
        exact hhon k t hk
  · rename_i hnot
    refine ⟨⟨h1, ?_, hhon⟩, rfl⟩
    intro k hk
    simp only [foldl_update_none]
    have hkh : k ≠ h := by
      rintro rfl
      exact hnot ((CacheIndex.contains_iff r.2 k).mpr hk)
    rcases h2 k hk with hk' | ⟨hold, hev⟩
    · exact absurd hk'.1 hkh
    · rw [if_neg hev]
      exact hs.held k hold

end multiplex_screen_codec
