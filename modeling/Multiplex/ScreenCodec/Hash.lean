-- Tile hashes, as `hash.rs` has them, and the functions of other crates that
-- the codec calls. A run is free of collisions on a set of tiles when the hash
-- tells any two of them apart.
import Multiplex.ScreenCodec.Frame

namespace multiplex_screen_codec

/-- The functions of other crates: `xxhash_rust` and `miniz_oxide`, and the order in which a
`HashMap` of votes is walked, which the standard library leaves open. -/
structure Deps where
  /-- `Xxh3::with_seed(seed)`, fed some bytes and read with `digest`. -/
  xxh3_with_seed : Nat → List UInt8 → UInt64
  xxh3_64 : List UInt8 → UInt64
  /-- `deflate::compress_to_vec(raw, level)`. -/
  compress_to_vec : List UInt8 → Nat → List UInt8
  /-- `inflate::decompress_to_vec_with_limit(payload, limit)`. -/
  decompress_to_vec_with_limit : List UInt8 → Nat → Option (List UInt8)
  votes_order : List (Int × Nat) → List (Int × Nat)
  votes_order_perm : ∀ votes, (votes_order votes).Perm votes

/-- Inflate undoes deflate: any data that fits the limit comes back. -/
def Deps.InflateUndoesDeflate (D : Deps) : Prop :=
  ∀ raw level limit, raw.length ≤ limit →
    D.decompress_to_vec_with_limit (D.compress_to_vec raw level) limit = some raw

abbrev TileHash := UInt64

/-- The shape and the pixels of one tile: all that its hash is taken from. -/
structure TileImage where
  width : Nat
  height : Nat
  pixels : List Pixel
  deriving DecidableEq

def Frame.image (f : Frame) (rect : Rect) : TileImage := ⟨rect.width, rect.height, f.copy_rect rect⟩

/-- The hash of an image. The seed holds the shape: `width << 32 | height`. -/
def hashImage (D : Deps) (i : TileImage) : TileHash :=
  D.xxh3_with_seed (i.width * 2 ^ 32 + i.height) (i.pixels.flatMap Pixel.bytes)

def hash_rect (D : Deps) (f : Frame) (rect : Rect) : TileHash := hashImage D (f.image rect)

/-- The hash tells any two of the tiles apart. -/
def NoCollision (D : Deps) (tiles : Set TileImage) : Prop :=
  ∀ a ∈ tiles, ∀ b ∈ tiles, hashImage D a = hashImage D b → a = b

theorem NoCollision.mono {D : Deps} {tiles more : Set TileImage} (h : NoCollision D more)
    (hsub : tiles ⊆ more) : NoCollision D tiles :=
  fun a ha b hb => h a (hsub ha) b (hsub hb)

/-- The current hash of every tile of a surface, one entry for each tile. -/
structure TileHashes where
  grid : TileGrid
  hashes : Nat → TileHash

def TileHashes.compute (D : Deps) (frame : Frame) : TileHashes :=
  ⟨TileGrid.new frame.size, fun t => hash_rect D frame ((TileGrid.new frame.size).rectOf t)⟩

/-- The closure `visit` of `update`. -/
def TileHashes.visit (D : Deps) (frame : Frame) (st : TileHashes × TileSet) (tile : Nat) :
    TileHashes × TileSet :=
  let hash := hash_rect D frame (st.1.grid.rectOf tile)
  if st.1.hashes tile ≠ hash then
    ({ st.1 with hashes := Function.update st.1.hashes tile hash }, st.2.insert tile)
  else st

def TileHashes.update (D : Deps) (h : TileHashes) (frame : Frame) (candidates : Option TileSet) :
    Except CodecError (TileHashes × TileSet) :=
  if frame.size ≠ h.grid.size then .error .FrameSizeMismatch
  else
    match candidates with
    | some set =>
      if set.grid = h.grid then
        .ok (set.iter.foldl (TileHashes.visit D frame) (h, TileSet.new h.grid))
      else .error .FrameSizeMismatch
    | none =>
      .ok ((List.range h.grid.len).foldl (TileHashes.visit D frame) (h, TileSet.new h.grid))

theorem foldl_visit (D : Deps) (frame : Frame) (l : List Nat) (h : TileHashes) (s : TileSet)
    (hs : s.grid = h.grid) (hl : l.Nodup) (hlt : ∀ t ∈ l, t < h.grid.len) :
    let r := l.foldl (TileHashes.visit D frame) (h, s)
    r.1.grid = h.grid ∧ r.2.grid = h.grid ∧
      (∀ t, r.1.hashes t = if t ∈ l then hash_rect D frame (h.grid.rectOf t) else h.hashes t) ∧
      ∀ t, r.2.contains t = true ↔ s.contains t = true ∨
        (t ∈ l ∧ h.hashes t ≠ hash_rect D frame (h.grid.rectOf t)) := by
  induction l generalizing h s with
  | nil => simp [hs]
  | cons a l ih =>
    rw [List.nodup_cons] at hl
    simp
    by_cases hch : h.hashes a ≠ hash_rect D frame (h.grid.rectOf a)
    · have hstep : TileHashes.visit D frame (h, s) a =
          ({ h with hashes := Function.update h.hashes a (hash_rect D frame (h.grid.rectOf a)) },
            s.insert a) := by
        simp [TileHashes.visit, hch]
      rw [hstep]
      obtain ⟨h1, h2, h3, h4⟩ := ih
        { h with hashes := Function.update h.hashes a (hash_rect D frame (h.grid.rectOf a)) }
        (s.insert a) (by simp [hs]) hl.2 (fun t ht => hlt t (by simp [ht]))
      refine ⟨h1, h2, ?_, ?_⟩
      · intro t
        rw [h3 t]
        by_cases hta : t = a
        · subst hta; simp [hl.1]
        · simp [hta]
      · intro t
        rw [h4 t]
        by_cases hta : t = a
        · subst hta
          have := hlt t (by simp)
          simp [hl.1, hch, hs, TileGrid.contains, this]
        · simp [hta]
    · have hstep : TileHashes.visit D frame (h, s) a = (h, s) := by
        unfold TileHashes.visit
        rw [if_neg hch]
      rw [hstep]
      obtain ⟨h1, h2, h3, h4⟩ := ih h s hs hl.2 (fun t ht => hlt t (by simp [ht]))
      simp at hch
      refine ⟨h1, h2, ?_, ?_⟩
      · intro t
        rw [h3 t]
        by_cases hta : t = a
        · subst hta; simp [hl.1, hch]
        · simp [hta]
      · intro t
        rw [h4 t]
        by_cases hta : t = a
        · subst hta; simp [hl.1, hch]
        · simp [hta]

/-- The tiles that `update` reads again. -/
def isCandidate (g : TileGrid) (candidates : Option TileSet) (t : Nat) : Prop :=
  t < g.len ∧ ∀ set, candidates = some set → set.contains t = true

/-- `update` never fails on a frame of the right size. A candidate takes the hash of the frame,
every other tile keeps its hash, and the changed tiles are the candidates whose hash moved. -/
theorem update_spec (D : Deps) (h : TileHashes) (frame : Frame) (candidates : Option TileSet)
    (hsize : frame.size = h.grid.size) (hgrid : ∀ set, candidates = some set → set.grid = h.grid) :
    ∃ h' changed, h.update D frame candidates = .ok (h', changed) ∧ h'.grid = h.grid ∧
      changed.grid = h.grid ∧
      (∀ t, isCandidate h.grid candidates t → h'.hashes t = hash_rect D frame (h.grid.rectOf t)) ∧
      (∀ t, ¬ isCandidate h.grid candidates t → h'.hashes t = h.hashes t) ∧
      ∀ t, changed.contains t = true ↔ isCandidate h.grid candidates t ∧
        h.hashes t ≠ hash_rect D frame (h.grid.rectOf t) := by
  have key : ∀ l : List Nat, l.Nodup → (∀ t, t ∈ l ↔ isCandidate h.grid candidates t) →
      ∃ h' changed, l.foldl (TileHashes.visit D frame) (h, TileSet.new h.grid) = (h', changed) ∧
        h'.grid = h.grid ∧ changed.grid = h.grid ∧
        (∀ t, isCandidate h.grid candidates t → h'.hashes t = hash_rect D frame (h.grid.rectOf t)) ∧
        (∀ t, ¬ isCandidate h.grid candidates t → h'.hashes t = h.hashes t) ∧
        ∀ t, changed.contains t = true ↔ isCandidate h.grid candidates t ∧
          h.hashes t ≠ hash_rect D frame (h.grid.rectOf t) := by
    intro l hl hmem
    obtain ⟨h1, h2, h3, h4⟩ := foldl_visit D frame l h (TileSet.new h.grid) rfl hl
      (fun t ht => ((hmem t).mp ht).1)
    refine ⟨_, _, rfl, h1, h2, ?_, ?_, ?_⟩
    · intro t ht
      rw [h3 t, if_pos ((hmem t).mpr ht)]
    · intro t ht
      rw [h3 t, if_neg (fun hc => ht ((hmem t).mp hc))]
    · intro t
      rw [h4 t, hmem t]
      simp
  unfold TileHashes.update
  simp [hsize]
  cases candidates with
  | none =>
    obtain ⟨h', ch, he, hrest⟩ := key (List.range h.grid.len) List.nodup_range
      (by intro t; simp [isCandidate])
    exact ⟨h', ch, by simp [he], hrest⟩
  | some set =>
    have hg := hgrid set rfl
    obtain ⟨h', ch, he, hrest⟩ := key set.iter set.iter_nodup (by
      intro t
      rw [TileSet.mem_iter]
      constructor
      · intro hc
        have hlt := TileSet.lt_of_contains hc
        rw [hg] at hlt
        exact ⟨hlt, fun s hs => by cases hs; exact hc⟩
      · intro hc
        exact hc.2 set rfl)
    exact ⟨h', ch, by simp [hg, he], hrest⟩

/-! ## A concrete choice -/

/-- The number that little-endian bytes spell. -/
def leNat (bytes : List UInt8) : Nat := bytes.foldr (fun b n => b.toNat + 256 * n) 0

def rotl64 (n k : Nat) : Nat := (n <<< k ||| n >>> (64 - k)) % 2 ^ 64

/-- XXH3 with a seed on four to eight bytes, as a tile of one or two pixels has them. -/
def xxh3Short (seed : Nat) (bytes : List UInt8) : UInt64 :=
  let low := seed % 2 ^ 32
  let swapped := (low % 256) * 2 ^ 24 + (low / 2 ^ 8 % 256) * 2 ^ 16 + (low / 2 ^ 16 % 256) * 2 ^ 8 +
    low / 2 ^ 24
  let seed := seed ^^^ swapped * 2 ^ 32
  let flip := ((0x1CAD21F72C81017C ^^^ 0xDB979083E96DD4DE) + 2 ^ 64 - seed) % 2 ^ 64
  let input := leNat (bytes.drop (bytes.length - 4)) + leNat (bytes.take 4) * 2 ^ 32
  let h := input ^^^ flip
  let h := h ^^^ rotl64 h 49 ^^^ rotl64 h 24
  let h := h * 0x9FB21C651E98DF25 % 2 ^ 64
  let h := h ^^^ (h / 2 ^ 35 + bytes.length)
  let h := h * 0x9FB21C651E98DF25 % 2 ^ 64
  UInt64.ofNat (h ^^^ h / 2 ^ 28)

/-- The deflated forms of three tiles of two pixels and of three rows of 64, and the lossy form of the
first row. -/
def deflated : List (List UInt8 × List UInt8) :=
  [([1, 2, 10, 0, 0, 200, 0, 0, 0, 1, 1, 1],
      [99, 100, 226, 98, 96, 56, 193, 192, 192, 192, 200, 200, 8, 0]),
    ([1, 2, 20, 0, 0, 210, 0, 0, 0, 1, 1, 1],
      [99, 100, 18, 97, 96, 184, 196, 192, 192, 192, 200, 200, 8, 0]),
    ([1, 2, 30, 0, 0, 220, 0, 0, 0, 1, 1, 1],
      [99, 100, 146, 99, 96, 184, 195, 192, 192, 192, 200, 200, 8, 0]),
    ([1, 2, 10, 0, 0, 200, 0, 0, 0, 1, 1, 63],
      [99, 100, 226, 98, 96, 56, 193, 192, 192, 192, 200, 104, 15, 0]),
    ([1, 2, 20, 0, 0, 200, 0, 0, 0, 1, 1, 63],
      [99, 100, 18, 97, 96, 56, 193, 192, 192, 192, 200, 104, 15, 0]),
    ([1, 2, 30, 0, 0, 200, 0, 0, 0, 1, 1, 63],
      [99, 100, 146, 99, 96, 56, 193, 192, 192, 192, 200, 104, 15, 0]),
    ([6, 26, 0, 0, 24] ++ List.replicate 92 0, [99, 147, 98, 96, 144, 96, 160, 33, 0, 0])]

/-- The functions of other crates on tiles of one or two pixels. Other data is marked with a byte
that no deflated stream starts with. -/
def shortDeps : Deps where
  xxh3_with_seed := xxh3Short
  xxh3_64 := xxh3Short 0
  compress_to_vec raw _ :=
    match deflated.find? fun e => e.1 == raw with
    | some e => e.2
    | none => 0xFF :: raw
  decompress_to_vec_with_limit payload limit :=
    let raw := match deflated.find? fun e => e.2 == payload with
      | some e => some e.1
      | none => payload.tail?
    raw.filter fun r => decide (r.length ≤ limit)
  votes_order := id
  votes_order_perm := fun votes => List.Perm.refl votes

/-- A surface of two pixels, side by side. -/
def pairSize : Size := ⟨2, 1, by decide, by decide, by decide, by decide⟩

def pairFrame (left right : UInt8) : Frame :=
  ⟨pairSize, fun x _ => if x = 0 then ⟨left, 0, 0, 0xFF⟩ else ⟨right, 0, 0, 0xFF⟩⟩

/-- The tiles of the frames used below, and of a new framebuffer. -/
def pairImages : List TileImage :=
  [(pairFrame 10 200).image ⟨0, 0, 2, 1⟩, (pairFrame 20 210).image ⟨0, 0, 2, 1⟩,
    (pairFrame 30 220).image ⟨0, 0, 2, 1⟩, (FrameBuffer.new pairSize).image ⟨0, 0, 2, 1⟩]

theorem pairImages_distinct : NoCollision shortDeps { i | i ∈ pairImages } := by
  have hall : ∀ a ∈ pairImages, ∀ b ∈ pairImages,
      hashImage shortDeps a = hashImage shortDeps b → a = b := by decide
  exact hall

theorem shortDeps_inflate : shortDeps.InflateUndoesDeflate := by
  intro raw level limit hlen
  simp only [shortDeps]
  cases hf : deflated.find? fun e => e.1 == raw with
  | none =>
    have hnone : deflated.find? (fun e => e.2 == 0xFF :: raw) = none := by
      simp [deflated]
    simp [hnone, hlen]
  | some e =>
    have hraw : e.1 = raw := by simpa using List.find?_some hf
    have hback : deflated.find? (fun d => d.2 == e.2) = some e := by
      have hall : ∀ e ∈ deflated, deflated.find? (fun d => d.2 == e.2) = some e := by decide
      exact hall e (List.mem_of_find?_eq_some hf)
    simp [hback, hraw, hlen]

/-- A surface of two tiles, side by side. -/
def rowSize : Size := ⟨2 * 64, 1, by decide, by decide, by decide, by decide⟩

def rowFrame (left right : UInt8) : Frame :=
  ⟨rowSize, fun x _ => ⟨if x = 0 then left else if x = 64 then right else 200, 0, 0, 0xFF⟩⟩

/-- XXH3 of a row of 64 pixels, by its first byte, with the seed of a tile of that shape. -/
def rowHashes : List (UInt8 × UInt64) :=
  [(0, 0x8CEAFA2D0BECDDAD), (10, 0xCCF720111DDEF29F), (20, 0x2673171C60E46FDC),
    (30, 0x5EBB3E3577670D1E)]

def rowDeps : Deps :=
  { shortDeps with
    xxh3_with_seed := fun seed bytes =>
      (bytes.head?.bind fun first => rowHashes.lookup first).getD (xxh3Short seed bytes) }

end multiplex_screen_codec
