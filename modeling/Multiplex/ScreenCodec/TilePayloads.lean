-- The payload of a tile there and back. The exact form gives every pixel again.
-- The lossy form shows one colour for each block, which is as near to the mean of
-- the block as the bits that are kept allow.
import Multiplex.ScreenCodec.Tiles

namespace multiplex_screen_codec

/-! ## Blocks and their mean -/

/-- The pixels of the 2×2 block that holds pixel `(x, y)` of the rectangle, without those that
lie outside of the rectangle. -/
def Frame.blockAround (f : Frame) (rect : Rect) (x y : Nat) : List Pixel :=
  ((List.range rect.height).filter (· / 2 = y / 2)).flatMap fun j =>
    ((List.range rect.width).filter (· / 2 = x / 2)).map fun i => f.pixel (rect.x + i) (rect.y + j)

/-- The mean, with halves rounded up. -/
def rounded_mean (values : List Nat) : Nat := (values.sum + values.length / 2) / values.length

theorem rounded_mean_lt {values : List Nat} (h : values ≠ []) (hlt : ∀ v ∈ values, v < 256) :
    rounded_mean values < 256 := by
  have hpos := List.length_pos_iff.mpr h
  have hsum := List.sum_le_card_nsmul values 255 fun v hv => Nat.le_of_lt_succ (hlt v hv)
  rw [smul_eq_mul] at hsum
  unfold rounded_mean
  rw [Nat.div_lt_iff_lt_mul hpos]
  omega

theorem filter_half_range (n k : Nat) :
    (List.range n).filter (· / 2 = k) = ((List.range 2).map (k * 2 + ·)).filter (· < n) := by
  induction n with
  | zero => simp
  | succ n ih =>
    rw [List.range_succ, List.filter_append, ih]
    simp [List.range_succ, List.filter_cons]
    grind

theorem flatMap_filterMap_skip {α : Type} (rows columns : List Nat) (p q : Nat → Prop)
    [DecidablePred p] [DecidablePred q] (g : Nat → Nat → α) :
    (rows.flatMap fun j => columns.filterMap fun i => if ¬p j ∨ ¬q i then none else some (g i j)) =
      (rows.filter p).flatMap fun j => (columns.filter q).map fun i => g i j := by
  have hrow : ∀ j, p j → (columns.filterMap fun i => if ¬p j ∨ ¬q i then none else some (g i j)) =
      (columns.filter q).map fun i => g i j := by
    intro j hj
    rw [← List.filterMap_eq_map, List.filterMap_filter]
    apply List.filterMap_congr
    intro i _
    by_cases hi : q i <;> simp [hi, hj]
  induction rows with
  | nil => simp
  | cons j rows ih =>
    rw [List.flatMap_cons, ih]
    by_cases hj : p j
    · rw [hrow j hj]
      simp [hj]
    · simp [hj]

theorem blockPixels_eq_blockAround (f : Frame) {rect : Rect}
    (hbottom : rect.bottom = rect.y + rect.height) (x y : Nat) :
    blockPixels f rect (x / 2) (y / 2) = f.blockAround rect x y := by
  have hloops : blockPixels f rect (x / 2) (y / 2) =
      (List.range 2).flatMap fun dy => (List.range 2).filterMap fun dx =>
        if ¬y / 2 * 2 + dy < rect.height ∨ ¬x / 2 * 2 + dx < rect.width then none
        else some (f.pixel (rect.x + (x / 2 * 2 + dx)) (rect.y + (y / 2 * 2 + dy))) := by
    unfold blockPixels
    simp [hbottom, Nat.add_assoc]
  rw [hloops, flatMap_filterMap_skip, Frame.blockAround, filter_half_range, filter_half_range]
  simp [List.filter_map, List.flatMap_map, Function.comp_def]

theorem mem_blockAround {f : Frame} {rect : Rect} {x y : Nat} (hx : x < rect.width)
    (hy : y < rect.height) : f.pixel (rect.x + x) (rect.y + y) ∈ f.blockAround rect x y := by
  simp [Frame.blockAround]
  exact ⟨y, ⟨hy, rfl⟩, x, ⟨hx, rfl⟩, rfl⟩

/-! ## The bits that are kept -/

theorem lossyDetail_cases (detail : LossyDetail) : 3 ≤ detail.bits.toNat ∧ detail.bits.toNat ≤ 7 ∧
      (8 - detail.bits).toNat = 8 - detail.bits.toNat := by
  obtain ⟨bits, hlow, hhigh⟩ := detail
  rw [UInt8.le_iff_toNat_le] at hlow hhigh
  refine ⟨hlow, hhigh, ?_⟩
  rw [UInt8.toNat_sub_of_le]
  · rfl
  · rw [UInt8.le_iff_toNat_le]
    simp at hhigh ⊢
    omega

/-- Low bits cut off, and half of what they can be worth put in their place. -/
def cutTo (shift value : Nat) : Nat := value / 2 ^ shift * 2 ^ shift + 2 ^ (shift - 1)

theorem cutTo_near {shift : Nat} (h : 0 < shift) (value : Nat) :
    cutTo shift value ≤ value + 2 ^ (shift - 1) ∧ value ≤ cutTo shift value + 2 ^ (shift - 1) := by
  have hhalf : 2 ^ shift = 2 ^ (shift - 1) * 2 := by
    rw [← pow_succ, Nat.sub_add_cancel h]
  have hdiv := Nat.div_add_mod' value (2 ^ shift)
  unfold cutTo
  omega

theorem restore_shift {shift : UInt8} (h : 0 < shift.toNat) (h' : shift.toNat < 8) {value : Nat}
    (hvalue : value < 256) :
    (((UInt8.ofNat value >>> shift) <<< shift) ||| ((1 : UInt8) <<< (shift - 1))).toNat =
      cutTo shift.toNat value := by
  have hone : (shift - 1).toNat = shift.toNat - 1 := by
    rw [UInt8.toNat_sub_of_le]
    · rfl
    · exact h
  have hless : 2 ^ (shift.toNat - 1) < 2 ^ shift.toNat :=
    Nat.pow_lt_pow_right (by omega) (by omega)
  have hle : 2 ^ shift.toNat ≤ 2 ^ 7 := Nat.pow_le_pow_right (by omega) (by omega)
  have hcut : value / 2 ^ shift.toNat * 2 ^ shift.toNat ≤ value := Nat.div_mul_le_self _ _
  rw [UInt8.toNat_or, UInt8.toNat_shiftLeft, UInt8.toNat_shiftLeft, UInt8.toNat_shiftRight, hone,
    UInt8.toNat_ofNat', Nat.mod_eq_of_lt hvalue, Nat.mod_eq_of_lt h',
    Nat.mod_eq_of_lt (show shift.toNat - 1 < 8 by omega), Nat.shiftRight_eq_div_pow,
    Nat.shiftLeft_eq, Nat.shiftLeft_eq]
  rw [Nat.mod_eq_of_lt (by omega), UInt8.toNat_one, one_mul, Nat.mod_eq_of_lt (by omega),
    Nat.mul_comm, ← Nat.two_pow_add_eq_or_of_lt hless, cutTo, Nat.mul_comm]

/-! ## What is shown -/

theorem getElem?_flatten_rows {α : Type} {w : Nat} (rows : List (List α))
    (hrows : ∀ row ∈ rows, row.length = w) {x : Nat} (hx : x < w) (y : Nat) :
    rows.flatten[y * w + x]? = rows[y]?.bind (·[x]?) := by
  induction rows generalizing y with
  | nil => simp
  | cons row rows ih =>
    have hlen : row.length = w := hrows row (by simp)
    rw [List.flatten_cons]
    cases y with
    | zero => simp [List.getElem?_append, hlen, hx]
    | succ y =>
      have hskip : (y + 1) * w + x - w = y * w + x := by
        rw [Nat.succ_mul]
        omega
      rw [List.getElem?_append_right (by rw [hlen, Nat.succ_mul]; omega), hlen, hskip,
        ih (fun row hrow => hrows row (by simp [hrow])) y]
      simp

theorem getElem?_spreadBlocks {colors : List Color} {width height x y : Nat} (hx : x < width)
    (hy : y < height) : (spreadBlocks colors width height)[y * width + x]? =
      some (colors.getD (y / 2 * ((width + 1) / 2) + x / 2) Color.black).pixel := by
  rw [spreadBlocks, List.flatMap_def, getElem?_flatten_rows _ (by simp) hx]
  simp [hx, hy]

section
variable {f : Frame} {rect : Rect} {x y : Nat}

theorem getElem?_shown (shift : UInt8) (hx : x < rect.width) (hy : y < rect.height) :
    (spreadBlocks ((blockRows f rect shift).flatten.map (restoreCode shift)) rect.width
        rect.height)[y * rect.width + x]? =
      some (restoreCode shift (blockCode f rect shift (x / 2) (y / 2))).pixel := by
  have hcode : (blockRows f rect shift).flatten[y / 2 * ((rect.width + 1) / 2) + x / 2]? =
      some (blockCode f rect shift (x / 2) (y / 2)) := by
    rw [getElem?_flatten_rows _ (by simp [blockRows]) (by omega)]
    simp [blockRows, show y / 2 < (rect.height + 1) / 2 by omega,
      show x / 2 < (rect.width + 1) / 2 by omega]
  rw [getElem?_spreadBlocks hx hy, List.getD_eq_getElem?_getD, List.getElem?_map, hcode]
  simp

def Frame.blockMean (f : Frame) (rect : Rect) (x y : Nat) (channel : Pixel → UInt8) : Nat :=
  rounded_mean ((f.blockAround rect x y).map fun p => (channel p).toNat)

theorem blockValues_ne_nil (hx : x < rect.width) (hy : y < rect.height) (channel : Pixel → UInt8) :
    (f.blockAround rect x y).map (fun p => (channel p).toNat) ≠ [] := by
  have hmem : f.pixel (rect.x + x) (rect.y + y) ∈ f.blockAround rect x y := mem_blockAround hx hy
  simpa using List.ne_nil_of_mem hmem

theorem restored_channel (hbottom : rect.bottom = rect.y + rect.height) (hx : x < rect.width)
    (hy : y < rect.height) {shift : UInt8} (hshift : 0 < shift.toNat) (hshift' : shift.toNat < 8)
    (channel : Pixel → UInt8) :
    ((channelCode channel (blockPixels f rect (x / 2) (y / 2)) shift <<< shift) |||
        ((1 : UInt8) <<< (shift - 1))).toNat =
      cutTo shift.toNat (f.blockMean rect x y channel) := by
  have hmean : f.blockMean rect x y channel < 256 := by
    apply rounded_mean_lt (blockValues_ne_nil hx hy channel)
    intro v hv
    obtain ⟨p, -, rfl⟩ := List.mem_map.mp hv
    exact (channel p).toNat_lt
  have hcode : channelCode channel (blockPixels f rect (x / 2) (y / 2)) shift =
      UInt8.ofNat (f.blockMean rect x y channel) >>> shift := by
    simp [channelCode, blockPixels_eq_blockAround f hbottom, Frame.blockMean, rounded_mean]
  rw [hcode, restore_shift hshift hshift' hmean]

theorem blockMean_alpha (hf : f.FullAlpha) (hx : x < rect.width) (hy : y < rect.height) :
    f.blockMean rect x y Pixel.a = 255 := by
  have hall : ∀ p ∈ f.blockAround rect x y, (Pixel.a p).toNat = 255 := by
    intro p hp
    simp [Frame.blockAround] at hp
    obtain ⟨j, -, i, -, rfl⟩ := hp
    rw [hf]
    rfl
  have hne := blockValues_ne_nil (f := f) hx hy Pixel.a
  have hpos := List.length_pos_iff.mpr hne
  unfold Frame.blockMean
  rw [List.map_congr_left hall, List.map_const'] at *
  rw [List.length_replicate] at hpos
  rw [rounded_mean, List.sum_replicate, List.length_replicate, smul_eq_mul,
    Nat.div_eq_iff hpos]
  omega

end

/-- No further apart than half of what the bits that are not kept can be worth. -/
def LossyDetail.Near (detail : LossyDetail) (shown mean : Nat) : Prop :=
  shown ≤ mean + 2 ^ (7 - detail.bits.toNat) ∧ mean ≤ shown + 2 ^ (7 - detail.bits.toNat)

/-- The pixels drawn for a rectangle at some detail: as many bytes as the rectangle has, one
colour for each block, and each channel near the mean of the block. -/
structure ShowsBlocks (f : Frame) (rect : Rect) (detail : LossyDetail) (out : List Pixel) :
    Prop where
  length : (out.flatMap Pixel.bytes).length = 4 * rect.width * rect.height
  constant : ∀ {x y x' y'}, x < rect.width → y < rect.height → x' < rect.width →
    y' < rect.height → x / 2 = x' / 2 → y / 2 = y' / 2 →
    out[y * rect.width + x]? = out[y' * rect.width + x']?
  near : ∀ {x y}, x < rect.width → y < rect.height → ∃ p, out[y * rect.width + x]? = some p ∧
    ∀ channel ∈ [Pixel.b, Pixel.g, Pixel.r, Pixel.a],
      detail.Near (channel p).toNat (f.blockMean rect x y channel)

theorem showsBlocks_spread {f : Frame} {rect : Rect} (hf : f.FullAlpha)
    (hbottom : rect.bottom = rect.y + rect.height) (detail : LossyDetail) :
    ShowsBlocks f rect detail (spreadBlocks ((blockRows f rect (8 - detail.bits)).flatten.map
      (restoreCode (8 - detail.bits))) rect.width rect.height) := by
  obtain ⟨hlow, hhigh, hshift⟩ := lossyDetail_cases detail
  have hnear : ∀ mean, detail.Near (cutTo (8 - detail.bits).toNat mean) mean := by
    intro mean
    have hcut := @cutTo_near (8 - detail.bits).toNat (by omega) mean
    rwa [hshift, show 8 - detail.bits.toNat - 1 = 7 - detail.bits.toNat by omega, ← hshift] at hcut
  constructor
  · have hbytes : ∀ l : List Pixel, (l.flatMap Pixel.bytes).length = 4 * l.length := by
      intro l
      induction l with
      | nil => simp
      | cons p l ih =>
        simp [ih, Pixel.bytes]
        omega
    rw [hbytes, length_spreadBlocks, Nat.mul_assoc]
  · intro x y x' y' hx hy hx' hy' hcolumn hrow
    rw [getElem?_shown _ hx hy, getElem?_shown _ hx' hy', hcolumn, hrow]
  · intro x y hx hy
    refine ⟨_, getElem?_shown _ hx hy, ?_⟩
    have hchannel := @restored_channel f rect x y hbottom hx hy (8 - detail.bits)
      (by omega) (by omega)
    simp
    refine ⟨?_, ?_, ?_, ?_⟩
    · exact (hchannel Pixel.b).symm ▸ hnear _
    · exact (hchannel Pixel.g).symm ▸ hnear _
    · exact (hchannel Pixel.r).symm ▸ hnear _
    · rw [blockMean_alpha hf hx hy]
      exact ⟨Nat.le_add_right 255 _, Nat.le_add_right 255 _⟩

/-- A tile that is not empty comes back from its exact form as it was, and from its lossy form
near the mean of each block. -/
theorem tile_payloads_round_trip (D : Deps) (hD : D.InflateUndoesDeflate) (f : Frame)
    (hf : f.FullAlpha) (rect : Rect) (hinside : f.size.bounds.contains_rect rect = true)
    (hwidth : rect.width ≤ 64) (hheight : rect.height ≤ 64) (hne : rect.is_empty = false) :
    decode_lossless D (encode_lossless D f rect) rect.width rect.height = .ok (f.copy_rect rect) ∧
      ∀ detail, ∃ out,
        decode_lossy D (encode_lossy D f rect detail) rect.width rect.height = .ok out ∧
        ShowsBlocks f rect detail out := by
  obtain ⟨-, hbottom, hw, hh, -, -⟩ := inside_bounds f.size rect hne hinside
  refine ⟨decode_encode_lossless D hD f rect hf hw hwidth hh hheight, fun detail => ?_⟩
  exact ⟨_, decode_encode_lossy D hD f rect detail hw hwidth hh hheight,
    showsBlocks_spread hf hbottom detail⟩

/-- A row of 64 pixels there and back. -/
theorem left_row_round_trips :
    decode_lossless shortDeps (encode_lossless shortDeps (rowFrame 10 20) ⟨0, 0, 64, 1⟩) 64 1 =
        .ok (⟨10, 0, 0, 0xFF⟩ :: List.replicate 63 ⟨200, 0, 0, 0xFF⟩) ∧ ∃ out, decode_lossy shortDeps
          (encode_lossy shortDeps (rowFrame 10 20) ⟨0, 0, 64, 1⟩ LossyDetail.STANDARD) 64 1 =
            .ok out ∧ ShowsBlocks (rowFrame 10 20) ⟨0, 0, 64, 1⟩ LossyDetail.STANDARD out := by
  obtain ⟨hexact, hlossy⟩ := tile_payloads_round_trip shortDeps shortDeps_inflate
    (rowFrame 10 20) (fun _ _ => rfl) ⟨0, 0, 64, 1⟩ (by decide) (by decide) (by decide) (by decide)
  exact ⟨hexact, hlossy LossyDetail.STANDARD⟩

/-- An empty rectangle has a payload, but the decoder takes no empty tile. -/
theorem empty_tile_is_refused :
    ¬∀ (D : Deps) (f : Frame) (rect : Rect), D.InflateUndoesDeflate → f.FullAlpha →
      f.size.bounds.contains_rect rect = true → rect.width ≤ 64 → rect.height ≤ 64 →
      decode_lossless D (encode_lossless D f rect) rect.width rect.height =
        .ok (f.copy_rect rect) := by
  intro h
  have hempty := h shortDeps (pairFrame 10 200) Rect.default shortDeps_inflate
    (pairFrame_fullAlpha 10 200) (by decide) (by decide) (by decide)
  have hrefused : ∀ payload, decode_lossless shortDeps payload Rect.default.width
      Rect.default.height = .error .InvalidSize := fun _ => rfl
  rw [hrefused] at hempty
  cases hempty

end multiplex_screen_codec
