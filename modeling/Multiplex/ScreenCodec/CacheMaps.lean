-- The cache index with the two maps that `cache.rs` keeps: the size and the stamp
-- of each hash, and the hashes in the order of their stamps. A failed `expect` is
-- no value. While the maps agree none fails, and the maps do what the list of the
-- hashes in the order of their last use does.
import Multiplex.Lib.Recency
import Multiplex.Lib.SortedMap
import Multiplex.ScreenCodec.Cache

namespace multiplex_screen_codec

/-! ## The index -/

structure CacheMaps where
  budget : Nat
  used : Nat
  clock : Nat
  entries : TileHash → Option (Nat × Nat)
  order : SortedMap Nat TileHash

def CacheMaps.new (budget : Nat) : CacheMaps := ⟨budget, 0, 0, fun _ => none, .empty⟩

def CacheMaps.contains (c : CacheMaps) (hash : TileHash) : Bool := (c.entries hash).isSome

/-- Marks an entry as most recently used. The flag is false when there is none. -/
def CacheMaps.touch (c : CacheMaps) (hash : TileHash) : Bool × CacheMaps :=
  match c.entries hash with
  | none => (false, c)
  | some (size, stamp) =>
    let clock := c.clock + 1
    (true, { c with
      clock := clock
      entries := Function.update c.entries hash (some (size, clock))
      order := (c.order.erase stamp).insert clock hash })

def CacheMaps.remove (c : CacheMaps) (hash : TileHash) : Bool × CacheMaps :=
  match c.entries hash with
  | none => (false, c)
  | some (size, stamp) =>
    (true, { c with
      entries := Function.update c.entries hash none
      order := c.order.erase stamp
      used := c.used - size })

/-- The loop of `insert`. `pop_first` takes from the front of the order, which `queue` walks. -/
def CacheMaps.evict (bytes : Nat) :
    List (Nat × TileHash) → CacheMaps → Option (List TileHash × CacheMaps)
  | [], c => if c.used + bytes > c.budget then none else some ([], c)
  | (stamp, oldest) :: queue, c =>
    if c.used + bytes > c.budget then
      match c.entries oldest with
      | none => none
      | some (size, _) => do
        let (evicted, c) ← CacheMaps.evict bytes queue { c with
          order := c.order.erase stamp
          entries := Function.update c.entries oldest none
          used := c.used - size }
        return (oldest :: evicted, c)
    else some ([], c)

/-- Inserts or refreshes an entry, and gives the hashes evicted to make room. -/
def CacheMaps.insert (c : CacheMaps) (hash : TileHash) (bytes : Nat) :
    Option (List TileHash × CacheMaps) :=
  if bytes > c.budget then some ([], c)
  else do
    let c := (c.remove hash).2
    let (evicted, c) ← CacheMaps.evict bytes c.order.entries c
    let clock := c.clock + 1
    return (evicted, { c with
      clock := clock
      entries := Function.update c.entries hash (some (bytes, clock))
      order := c.order.insert clock hash
      used := c.used + bytes })

def CacheMaps.clear (c : CacheMaps) : CacheMaps :=
  { c with entries := fun _ => none, order := .empty, used := 0 }

/-! ## The viewer's cache and the host's shadow of it -/

/-- Decoded exact tile pixels. -/
structure TilePixels where
  width : Nat
  height : Nat
  bgra : List UInt8

structure ViewerTiles where
  index : CacheMaps
  tiles : TileHash → Option TilePixels

def ViewerTiles.new (budget : Nat) : ViewerTiles := ⟨.new budget, fun _ => none⟩

def ViewerTiles.get (v : ViewerTiles) (hash : TileHash) : Option TilePixels × ViewerTiles :=
  match v.index.touch hash with
  | (false, index) => (none, { v with index })
  | (true, index) => (v.tiles hash, { v with index })

def ViewerTiles.insert (v : ViewerTiles) (hash : TileHash) (tile : TilePixels) :
    Option ViewerTiles := do
  let (evicted, index) ← v.index.insert hash tile.bgra.length
  let tiles := evicted.foldl (fun tiles h => Function.update tiles h none) v.tiles
  if index.contains hash then return ⟨index, Function.update tiles hash (some tile)⟩
  else return ⟨index, tiles⟩

def ViewerTiles.clear (v : ViewerTiles) : ViewerTiles := ⟨v.index.clear, fun _ => none⟩

structure TileShadow where
  index : CacheMaps

def TileShadow.new (budget : Nat) : TileShadow := ⟨.new budget⟩

def TileShadow.use_if_held (s : TileShadow) (hash : TileHash) : Bool × TileShadow :=
  let (held, index) := s.index.touch hash
  (held, ⟨index⟩)

def TileShadow.record_sent (s : TileShadow) (hash : TileHash) (bytes : Nat) : Option TileShadow := do
  let (_, index) ← s.index.insert hash bytes
  return ⟨index⟩

def TileShadow.forget (s : TileShadow) (hash : TileHash) : TileShadow := ⟨(s.index.remove hash).2⟩

def TileShadow.clear (s : TileShadow) : TileShadow := ⟨s.index.clear⟩

/-! ## The order of the last use -/

/-- What the order lists, with the size that the entries give each hash. -/
def listed (entries : TileHash → Option (Nat × Nat)) (order : List (Nat × TileHash)) :
    List (TileHash × Nat) :=
  order.filterMap fun e => (entries e.2).map fun entry => (e.2, entry.1)

/-- The hashes with their sizes, from the least to the most recently used. -/
def CacheMaps.recency (c : CacheMaps) : List (TileHash × Nat) := listed c.entries c.order.entries

/-- The two maps hold the same hashes under the same stamps, none newer than the clock, and the
bytes used are those of the entries. -/
structure Agree (c : CacheMaps) : Prop where
  ordered : ∀ hash size stamp, c.entries hash = some (size, stamp) → (stamp, hash) ∈ c.order.entries
  known : ∀ stamp hash, (stamp, hash) ∈ c.order.entries → ∃ size, c.entries hash = some (size, stamp)
  clock : ∀ e ∈ c.order.entries, e.1 ≤ c.clock
  used : c.used = Recency.total c.recency
  fits : c.used ≤ c.budget

theorem agree_new (budget : Nat) : Agree (.new budget) where
  ordered hash size stamp h := by simp [CacheMaps.new] at h
  known stamp hash h := by simp [CacheMaps.new, SortedMap.empty] at h
  clock e h := by simp [CacheMaps.new, SortedMap.empty] at h
  used := by simp [CacheMaps.new, CacheMaps.recency, listed, SortedMap.empty]
  fits := by simp [CacheMaps.new]

theorem agree_clear (c : CacheMaps) : Agree c.clear where
  ordered hash size stamp h := by simp [CacheMaps.clear] at h
  known stamp hash h := by simp [CacheMaps.clear, SortedMap.empty] at h
  clock e h := by simp [CacheMaps.clear, SortedMap.empty] at h
  used := by simp [CacheMaps.clear, CacheMaps.recency, listed, SortedMap.empty]
  fits := by simp [CacheMaps.clear]

section
variable {c : CacheMaps}

variable {hash : TileHash}

theorem Agree.mem_recency (h : Agree c) {size : Nat} :
    (hash, size) ∈ c.recency ↔ ∃ stamp, c.entries hash = some (size, stamp) := by
  unfold CacheMaps.recency listed
  rw [List.mem_filterMap]
  constructor
  · rintro ⟨⟨stamp, k⟩, hmem, hmap⟩
    obtain ⟨size', hentry⟩ := h.known stamp k hmem
    simp [hentry] at hmap
    obtain ⟨rfl, rfl⟩ := hmap
    exact ⟨stamp, hentry⟩
  · rintro ⟨stamp, hentry⟩
    exact ⟨(stamp, hash), h.ordered hash size stamp hentry, by simp [hentry]⟩

theorem Agree.stamp_unique (h : Agree c) {stamp stamp' : Nat}
    (hmem : (stamp, hash) ∈ c.order.entries) (hmem' : (stamp', hash) ∈ c.order.entries) :
    stamp = stamp' := by
  obtain ⟨size, hentry⟩ := h.known stamp hash hmem
  obtain ⟨size', hentry'⟩ := h.known stamp' hash hmem'
  rw [hentry] at hentry'
  cases hentry'
  rfl

theorem Agree.recency_keys (h : Agree c) :
    c.recency.map Prod.fst = c.order.entries.map Prod.snd := by
  unfold CacheMaps.recency listed
  rw [List.map_filterMap, ← List.filterMap_eq_map]
  apply List.filterMap_congr
  rintro ⟨stamp, hash⟩ hmem
  obtain ⟨size, hentry⟩ := h.known stamp hash hmem
  simp [hentry]

theorem Agree.distinct (h : Agree c) : Recency.Distinct c.recency := by
  unfold Recency.Distinct
  rw [h.recency_keys]
  apply List.Nodup.map_on _ (c.order.sorted.imp fun hlt heq => absurd (congrArg Prod.fst heq) hlt.ne)
  rintro ⟨stamp, hash⟩ hmem ⟨stamp', hash'⟩ hmem' heq
  subst heq
  rw [h.stamp_unique hmem hmem']

theorem Agree.find_recency (h : Agree c) (hash : TileHash) :
    Recency.find hash c.recency = (c.entries hash).map fun entry => (hash, entry.1) := by
  cases hentry : c.entries hash with
  | none =>
    unfold Recency.find
    rw [Option.map_none, List.find?_eq_none]
    rintro ⟨k, size⟩ hmem heq
    obtain ⟨stamp, hsome⟩ := h.mem_recency.mp hmem
    simp at heq
    rw [heq, hentry] at hsome
    cases hsome
  | some entry => exact h.distinct.find_of_mem (h.mem_recency.mpr ⟨entry.2, hentry⟩)

/-! ## One entry leaves -/

theorem Agree.recency_remove (h : Agree c) (hash : TileHash) :
    (c.remove hash).2.recency = Recency.without hash c.recency := by
  unfold CacheMaps.remove
  cases hentry : c.entries hash with
  | none =>
    symm
    unfold Recency.without
    rw [List.filter_eq_self]
    rintro ⟨k, size⟩ hmem
    obtain ⟨stamp, hsome⟩ := h.mem_recency.mp hmem
    simp
    rintro rfl
    rw [hentry] at hsome
    cases hsome
  | some entry =>
    obtain ⟨size, stamp⟩ := entry
    have hplace := h.ordered hash size stamp hentry
    simp only [CacheMaps.recency, listed, Recency.without, SortedMap.erase, List.filterMap_filter,
      List.filter_filterMap]
    apply List.filterMap_congr
    rintro ⟨stamp', k⟩ hmem
    by_cases hk : k = hash
    · -- the place of the hash, which the order has dropped
      subst hk
      simp [hentry, Option.filter]
    · have hne : stamp' ≠ stamp := by
        rintro rfl
        exact hk (congrArg Prod.snd (SortedMap.key_injective hmem hplace rfl))
      cases hsome : c.entries k <;> simp [hne, hk, hsome, Option.filter]

theorem Agree.remove (h : Agree c) (hash : TileHash) : Agree (c.remove hash).2 := by
  have hrecency := h.recency_remove hash
  unfold CacheMaps.remove at hrecency ⊢
  cases hentry : c.entries hash with
  | none => exact h
  | some entry =>
    obtain ⟨size, stamp⟩ := entry
    simp only [hentry] at hrecency ⊢
    have hplace := h.ordered hash size stamp hentry
    have htotal := h.distinct.total_without (h.mem_recency.mpr ⟨stamp, hentry⟩)
    constructor
    · intro k size' stamp' hk
      have hne : k ≠ hash := by
        rintro rfl
        simp at hk
      simp only [Function.update_of_ne hne] at hk
      have hold := h.ordered k size' stamp' hk
      refine SortedMap.mem_erase.mpr ⟨hold, ?_⟩
      rintro rfl
      exact hne (congrArg Prod.snd (SortedMap.key_injective hold hplace rfl))
    · intro stamp' k hmem
      obtain ⟨hold, hne⟩ := SortedMap.mem_erase.mp hmem
      have hk : k ≠ hash := by
        rintro rfl
        exact hne (h.stamp_unique hold hplace)
      simp only [Function.update_of_ne hk]
      exact h.known stamp' k hold
    · exact fun e he => h.clock e (SortedMap.mem_erase.mp he).1
    · rw [hrecency]
      have := h.used
      simp only
      omega
    · have := h.fits
      simp only
      omega

/-! ## One entry comes -/

def CacheMaps.push (c : CacheMaps) (hash : TileHash) (size : Nat) : CacheMaps :=
  { c with
    clock := c.clock + 1
    entries := Function.update c.entries hash (some (size, c.clock + 1))
    order := c.order.insert (c.clock + 1) hash
    used := c.used + size }

theorem Agree.order_push (h : Agree c) (hash : TileHash) (size : Nat) :
    (c.push hash size).order.entries = c.order.entries ++ [(c.clock + 1, hash)] := by
  apply SortedMap.entries_insert_new
  intro e he
  have := h.clock e he
  omega

theorem Agree.recency_push (h : Agree c) (hnew : c.entries hash = none) (size : Nat) :
    (c.push hash size).recency = c.recency ++ [(hash, size)] := by
  unfold CacheMaps.recency listed
  rw [h.order_push, List.filterMap_append]
  congr 1
  · apply List.filterMap_congr
    rintro ⟨stamp, k⟩ hmem
    have hne : k ≠ hash := by
      rintro rfl
      obtain ⟨size', hentry⟩ := h.known stamp k hmem
      rw [hnew] at hentry
      cases hentry
    simp [CacheMaps.push, hne]
  · simp [CacheMaps.push]

theorem Agree.push (h : Agree c) (hnew : c.entries hash = none) {size : Nat}
    (hfits : c.used + size ≤ c.budget) : Agree (c.push hash size) := by
  have hentries := h.order_push hash size
  constructor
  · intro k size' stamp hk
    rw [hentries, List.mem_append, List.mem_singleton]
    by_cases hne : k = hash
    · subst hne
      simp [CacheMaps.push] at hk
      exact .inr (by rw [hk.2])
    · simp only [CacheMaps.push, Function.update_of_ne hne] at hk
      exact .inl (h.ordered k size' stamp hk)
  · intro stamp k hmem
    rw [hentries, List.mem_append, List.mem_singleton] at hmem
    rcases hmem with hold | hlast
    · obtain ⟨size', hentry⟩ := h.known stamp k hold
      have hne : k ≠ hash := by
        rintro rfl
        rw [hnew] at hentry
        cases hentry
      exact ⟨size', by simpa [CacheMaps.push, hne] using hentry⟩
    · cases hlast
      exact ⟨size, by simp [CacheMaps.push]⟩
  · intro e he
    rw [hentries, List.mem_append, List.mem_singleton] at he
    rcases he with hold | rfl
    · exact (h.clock e hold).trans (Nat.le_succ c.clock)
    · simp [CacheMaps.push]
  · rw [h.recency_push hnew]
    simp [CacheMaps.push, h.used]
  · exact hfits

/-! ## The operations on agreeing maps -/

theorem remove_entries (hash k : TileHash) :
    (c.remove hash).2.entries k = if k = hash then none else c.entries k := by
  unfold CacheMaps.remove
  cases hentry : c.entries hash with
  | none =>
    by_cases hk : k = hash <;> simp [hk, hentry]
  | some entry =>
    by_cases hk : k = hash <;> simp [hk]

theorem remove_budget (hash : TileHash) : (c.remove hash).2.budget = c.budget := by
  unfold CacheMaps.remove
  split <;> simp

theorem Agree.touch_eq (h : Agree c) (hash : TileHash) : c.touch hash = match c.entries hash with
      | none => (false, c)
      | some (size, _) => (true, (c.remove hash).2.push hash size) := by
  unfold CacheMaps.touch CacheMaps.remove CacheMaps.push
  cases hentry : c.entries hash with
  | none => simp
  | some entry =>
    obtain ⟨size, stamp⟩ := entry
    have htotal := h.distinct.total_without (h.mem_recency.mpr ⟨stamp, hentry⟩)
    have hused : c.used - size + size = c.used := by
      have := h.used
      omega
    simp [hused]

/-- A touch finds what the order of the last use holds, and makes it the newest. -/
theorem Agree.touch (h : Agree c) (hash : TileHash) :
    (c.touch hash).1 = (Recency.find hash c.recency).isSome ∧ Agree (c.touch hash).2 ∧
      (c.touch hash).2.recency = Recency.touch hash c.recency ∧ (c.touch hash).2.budget = c.budget ∧
      ∀ k, ((c.touch hash).2.entries k).isSome = (c.entries k).isSome := by
  unfold Recency.touch
  rw [h.find_recency, h.touch_eq]
  cases hentry : c.entries hash with
  | none => simpa using h
  | some entry =>
    obtain ⟨size, stamp⟩ := entry
    have hgone : (c.remove hash).2.entries hash = none := by simp [remove_entries]
    have htotal := h.distinct.total_without (h.mem_recency.mpr ⟨stamp, hentry⟩)
    have hremoved := h.remove hash
    have hfits : (c.remove hash).2.used + size ≤ (c.remove hash).2.budget := by
      have hle := h.fits
      have hused := h.used
      rw [hremoved.used, h.recency_remove, remove_budget]
      omega
    refine ⟨by simp, hremoved.push hgone hfits, ?_, ?_, fun k => ?_⟩
    · simp [hremoved.recency_push hgone, h.recency_remove]
    · exact remove_budget hash
    · by_cases hk : k = hash <;> simp [CacheMaps.push, remove_entries, hk, hentry]

theorem Agree.evict (bytes : Nat) :
    ∀ (queue : List (Nat × TileHash)) {c : CacheMaps}, Agree c → c.order.entries = queue →
      bytes ≤ c.budget →
      ∃ evicted c', CacheMaps.evict bytes queue c = some (evicted, c') ∧ Agree c' ∧
        c'.recency = Recency.shed (c.budget - bytes) c.recency ∧ c'.budget = c.budget ∧
        c'.used + bytes ≤ c.budget ∧
        ∀ k, c'.entries k = if k ∈ evicted then none else c.entries k := by
  intro queue
  induction queue with
  | nil =>
    intro c h hqueue hle
    have hempty : c.recency = [] := by simp [CacheMaps.recency, listed, hqueue]
    have hused : c.used = 0 := by simp [h.used, hempty]
    have hroom : ¬c.used + bytes > c.budget := by omega
    exact ⟨[], c, by simp [CacheMaps.evict, hroom], h, by simp [hempty, Recency.shed], by simp,
      by omega, by simp⟩
  | cons e queue ih =>
    obtain ⟨stamp, oldest⟩ := e
    intro c h hqueue hle
    obtain ⟨size, hentry⟩ := h.known stamp oldest (by rw [hqueue]; simp)
    have hrecency : c.recency = (oldest, size) :: listed c.entries queue := by
      simp [CacheMaps.recency, listed, hqueue, hentry]
    unfold CacheMaps.evict
    split
    · have hremove : (c.remove oldest).2 = { c with
          order := c.order.erase stamp
          entries := Function.update c.entries oldest none
          used := c.used - size } := by
        simp [CacheMaps.remove, hentry]
      have hrest : (c.remove oldest).2.order.entries = queue := by
        rw [hremove]
        exact SortedMap.entries_erase_first hqueue
      have hshed : Recency.shed (c.budget - bytes) c.recency =
          Recency.shed (c.budget - bytes) (c.remove oldest).2.recency := by
        have hused := h.used
        have hwithout : (c.remove oldest).2.recency = listed c.entries queue := by
          rw [h.recency_remove, hrecency]
          have hdistinct := h.distinct
          rw [hrecency] at hdistinct
          have hnot := (List.nodup_cons.mp hdistinct).1
          unfold Recency.without
          rw [List.filter_cons_of_neg (by simp), List.filter_eq_self]
          intro f hf
          simp
          rintro rfl
          exact hnot (List.mem_map.mpr ⟨f, hf, rfl⟩)
        rw [hwithout, hrecency, Recency.shed, if_pos]
        rw [← hrecency, ← hused]
        omega
      obtain ⟨evicted, c', hevict, hagree, hleft, hbudget, hroom, hentries⟩ :=
        ih (h.remove oldest) hrest (by rw [remove_budget]; exact hle)
      rw [remove_budget] at hleft hbudget hroom
      simp only [hentry, ← hremove, hevict]
      refine ⟨oldest :: evicted, c', by simp, hagree, hleft.trans hshed.symm, hbudget, hroom, ?_⟩
      intro k
      rw [hentries, remove_entries]
      by_cases hk : k = oldest <;> by_cases hin : k ∈ evicted <;> simp [hk, hin]
    · refine ⟨[], c, by simp, h, ?_, rfl, by omega, by simp⟩
      rw [hrecency, Recency.shed, if_neg]
      rw [← hrecency, ← h.used]
      omega

theorem Agree.insert (h : Agree c) (hash : TileHash) (bytes : Nat) :
    ∃ evicted c', c.insert hash bytes = some (evicted, c') ∧ Agree c' ∧
      c'.recency = Recency.store c.budget hash bytes c.recency ∧ c'.budget = c.budget ∧
      ∀ k, (c'.entries k).isSome → k = hash ∨ (c.entries k).isSome ∧ k ∉ evicted := by
  unfold CacheMaps.insert Recency.store
  split
  · exact ⟨[], c, by simp, h, by simp, by simp, fun k hk => .inr ⟨hk, by simp⟩⟩
  · have hremoved := h.remove hash
    obtain ⟨evicted, c', hevict, hagree, hleft, hbudget, hroom, hentries⟩ :=
      Agree.evict bytes _ hremoved rfl (by rw [remove_budget]; omega)
    rw [remove_budget] at hleft hbudget hroom
    have hgone : c'.entries hash = none := by
      rw [hentries, remove_entries]
      simp
    have hpushed : Agree (c'.push hash bytes) := hagree.push hgone (by rw [hbudget]; exact hroom)
    refine ⟨evicted, c'.push hash bytes, ?_, hpushed, ?_, hbudget, ?_⟩
    · simp [hevict, CacheMaps.push]
    · rw [hagree.recency_push hgone, hleft, h.recency_remove]
    · intro k hk
      by_cases hne : k = hash
      · exact .inl hne
      · have hkept : (c'.entries k).isSome := by simpa [CacheMaps.push, hne] using hk
        rw [hentries, remove_entries] at hkept
        by_cases hin : k ∈ evicted
        · simp [hin] at hkept
        · exact .inr ⟨by simpa [hin, hne] using hkept, hin⟩

/-! ## The index as a list -/

/-! ## The viewer's tiles -/

/-- The maps agree, and every hash of the index has its pixels. -/
structure Holds (v : ViewerTiles) : Prop where
  agree : Agree v.index
  tiles : ∀ hash, (v.index.entries hash).isSome → (v.tiles hash).isSome

theorem Holds.get {v : ViewerTiles} (h : Holds v) (hash : TileHash) :
    Holds (v.get hash).2 ∧ (v.get hash).2.index = (v.index.touch hash).2 ∧
      (v.get hash).1.isSome = (Recency.find hash v.index.recency).isSome := by
  obtain ⟨hheld, hagree, -, -, hsame⟩ := h.agree.touch hash
  have hkept : ∀ k, ((v.index.touch hash).2.entries k).isSome → (v.tiles k).isSome := by
    intro k hk
    rw [hsame] at hk
    exact h.tiles k hk
  unfold ViewerTiles.get
  rcases htouch : v.index.touch hash with ⟨held, index⟩
  rw [htouch] at hheld hagree hkept
  cases held with
  | false => exact ⟨⟨hagree, hkept⟩, rfl, by simpa using hheld⟩
  | true =>
    refine ⟨⟨hagree, hkept⟩, rfl, ?_⟩
    rw [← hheld]
    apply h.tiles hash
    rw [h.agree.find_recency] at hheld
    simpa using hheld.symm

theorem foldl_evicted (evicted : List TileHash) (tiles : TileHash → Option TilePixels)
    (k : TileHash) : evicted.foldl (fun tiles h => Function.update tiles h none) tiles k =
      if k ∈ evicted then none else tiles k := by
  induction evicted generalizing tiles with
  | nil => simp
  | cons e evicted ih =>
    rw [List.foldl_cons, ih]
    by_cases hk : k = e <;> by_cases hin : k ∈ evicted <;> simp [hk, hin]

theorem Holds.insert {v : ViewerTiles} (h : Holds v) (hash : TileHash) (tile : TilePixels) :
    ∃ v', v.insert hash tile = some v' ∧ Holds v' ∧ v'.index.budget = v.index.budget ∧
      v'.index.recency = Recency.store v.index.budget hash tile.bgra.length v.index.recency := by
  obtain ⟨evicted, index, hinsert, hagree, hrecency, hbudget, hentries⟩ :=
    h.agree.insert hash tile.bgra.length
  have hkept : ∀ k, k ≠ hash → (index.entries k).isSome →
      (evicted.foldl (fun tiles h => Function.update tiles h none) v.tiles k).isSome := by
    intro k hne hk
    obtain ⟨hold, hnot⟩ := (hentries k hk).resolve_left hne
    rw [foldl_evicted, if_neg hnot]
    exact h.tiles k hold
  simp [ViewerTiles.insert, hinsert]
  split
  · refine ⟨_, rfl, ⟨hagree, fun k hk => ?_⟩, hbudget, hrecency⟩
    by_cases hne : k = hash
    · simp [hne]
    · simpa [hne] using hkept k hne hk
  · rename_i hnot
    refine ⟨_, rfl, ⟨hagree, fun k hk => ?_⟩, hbudget, hrecency⟩
    apply hkept k _ hk
    rintro rfl
    exact hnot hk

end

end multiplex_screen_codec
