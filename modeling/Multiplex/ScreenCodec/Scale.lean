-- Preview averaging, as `scale.rs` has it, with its sums of `u32` checked.
import Multiplex.ScreenCodec.Frame

namespace multiplex_screen_codec.scale

inductive Channel
  | b
  | g
  | r
  deriving DecidableEq

instance : Fintype Channel := ⟨{.b, .g, .r}, by intro c; cases c <;> simp⟩

def Channel.of (p : Pixel) : Channel → Nat
  | b => p.b.toNat
  | g => p.g.toNat
  | r => p.r.toNat

/-- The sums over one block: one for each channel, and the number of pixels. -/
structure Sums where
  sum : Channel → Nat
  count : Nat

/-- One pixel of a block. A sum that no `u32` holds ends the call: no value comes of it. -/
def Sums.add (s : Sums) (p : Pixel) : Option Sums :=
  if (∀ c, s.sum c + Channel.of p c ≤ U32_MAX) ∧ s.count + 1 ≤ U32_MAX then
    some ⟨fun c => s.sum c + Channel.of p c, s.count + 1⟩
  else none

def Sums.mean (s : Sums) : Option Pixel :=
  if ∀ c, s.sum c + s.count / 2 ≤ U32_MAX then
    let channel c := UInt8.ofNat ((s.sum c + s.count / 2) / s.count)
    some ⟨channel .b, channel .g, channel .r, 0xFF⟩
  else none

def block_sums (frame : Frame) (block : Rect) : Option Sums :=
  (List.range' block.y block.height).foldlM
    (fun sums y => (frame.row_span y block).foldlM Sums.add sums) ⟨fun _ => 0, 0⟩

def checked (n : Nat) : Option Nat := if n ≤ U32_MAX then some n else none

def block_row (frame : Frame) (factor width top bottom : Nat) : Option (List Pixel) :=
  (List.range width).mapM fun block_x => do
    let left ← checked (block_x * factor)
    let right := min (← checked ((block_x + 1) * factor)) frame.size.width
    let sums ← block_sums frame ⟨left, top, right - left, bottom - top⟩
    sums.mean

def downscale (frame : Frame) (factor : Nat) : Option FrameBuffer := do
  let size := frame.size.preview factor
  let factor := max factor 1
  let pixels ← (List.range size.height).mapM fun block_y => do
    let top ← checked (block_y * factor)
    let bottom := min (← checked (top + factor)) frame.size.height
    block_row frame factor size.width top bottom
  ((FrameBuffer.new size).write_rect size.bounds pixels.flatten).toOption

/-! ## What a preview is for -/

/-- The source pixels that one pixel of the preview stands for. -/
def blockOf (source : Size) (factor X Y : Nat) : Rect :=
  ⟨X * factor, Y * factor, min ((X + 1) * factor) source.width - X * factor,
    min ((Y + 1) * factor) source.height - Y * factor⟩

def light (frame : Frame) (block : Rect) (c : Channel) : Nat :=
  ∑ y ∈ Finset.range block.height, ∑ x ∈ Finset.range block.width,
    Channel.of (frame.pixel (block.x + x) (block.y + y)) c

/-- Each channel of each pixel is the mean over its block, rounded. -/
structure Averages (frame : Frame) (factor : Nat) (small : Frame) : Prop where
  size : small.size = frame.size.preview factor
  mean : ∀ X Y, X < small.size.width → Y < small.size.height → ∀ c,
    let block := blockOf frame.size (max factor 1) X Y
    (Channel.of (small.pixel X Y) c : ℤ) =
      round ((light frame block c : ℚ) / (block.width * block.height : Nat))

/-- The preview is made, each of its sums fits, and it is made of rounded means. -/
def Averaged (frame : Frame) (factor : UInt32) : Prop :=
  ∃ small, downscale frame factor.toNat = some small ∧ Averages frame factor.toNat small

/-- The sum over a block fits, that of the rounding included. -/
def BlockFits (frame : Frame) (block : Rect) : Prop :=
  ∀ c, light frame block c + block.width * block.height / 2 ≤ U32_MAX

instance (frame : Frame) (block : Rect) : Decidable (BlockFits frame block) :=
  inferInstanceAs (Decidable (∀ _, _))

/-! ## One block -/

def lightOf (pixels : List Pixel) (c : Channel) : Nat := (pixels.map (Channel.of · c)).sum

theorem foldlM_add (pixels : List Pixel) (s : Sums) (hsum : ∀ c, s.sum c ≤ U32_MAX)
    (hcount : s.count ≤ U32_MAX) :
    pixels.foldlM Sums.add s =
      if (∀ c, s.sum c + lightOf pixels c ≤ U32_MAX) ∧ s.count + pixels.length ≤ U32_MAX then
        some ⟨fun c => s.sum c + lightOf pixels c, s.count + pixels.length⟩
      else none := by
  induction pixels generalizing s with
  | nil => simp [lightOf, hsum, hcount]
  | cons p pixels ih =>
    have hcons : ∀ c, lightOf (p :: pixels) c = Channel.of p c + lightOf pixels c := by
      simp [lightOf]
    rw [List.foldlM_cons]
    unfold Sums.add
    split
    · rename_i hfits
      refine (ih _ hfits.1 hfits.2).trans ?_
      simp [hcons, Nat.add_assoc, Nat.add_comm 1]
    · rename_i hfits
      rw [if_neg]
      · rfl
      rintro ⟨hsums, hcounts⟩
      apply hfits
      refine ⟨fun c => ?_, ?_⟩
      · have := hsums c
        rw [hcons] at this
        omega
      · rw [List.length_cons] at hcounts
        omega

theorem foldlM_rows (rows : List Nat) (row : Nat → List Pixel) (s : Sums) :
    rows.foldlM (fun sums y => (row y).foldlM Sums.add sums) s =
      (rows.flatMap row).foldlM Sums.add s := by
  induction rows generalizing s with
  | nil => simp
  | cons y rows ih => simp [ih]

theorem lightOf_copy_rect (frame : Frame) (block : Rect) (c : Channel) :
    lightOf (frame.copy_rect block) c = light frame block c := by
  have hrow : ∀ y, ((frame.row_span y block).map (Channel.of · c)).sum =
      ∑ x ∈ Finset.range block.width, Channel.of (frame.pixel (block.x + x) y) c := by
    intro y
    rw [Frame.row_span, List.map_map]
    rfl
  unfold lightOf Frame.copy_rect light
  rw [List.map_flatMap, List.flatMap, List.sum_flatten, List.map_map, List.range'_eq_map_range,
    List.map_map]
  simp only [Function.comp_def, hrow]
  rfl

theorem light_le (frame : Frame) (block : Rect) (c : Channel) :
    light frame block c ≤ 255 * (block.width * block.height) := by
  have hof : ∀ p : Pixel, Channel.of p c ≤ 255 := by
    intro p
    cases c <;> exact Nat.le_of_lt_succ (UInt8.toNat_lt _)
  calc light frame block c
      ≤ ∑ _y ∈ Finset.range block.height, ∑ _x ∈ Finset.range block.width, 255 :=
        Finset.sum_le_sum fun _ _ => Finset.sum_le_sum fun _ _ => hof _
    _ = 255 * (block.width * block.height) := by
        simp
        ring

def meanOf (frame : Frame) (block : Rect) : Pixel :=
  let n := block.width * block.height
  let channel c := UInt8.ofNat ((light frame block c + n / 2) / n)
  ⟨channel .b, channel .g, channel .r, 0xFF⟩

theorem block_mean (frame : Frame) (block : Rect) (hn : block.width * block.height ≤ U32_MAX) :
    (block_sums frame block).bind Sums.mean =
      if BlockFits frame block then some (meanOf frame block) else none := by
  unfold block_sums
  rw [foldlM_rows]
  change (List.foldlM Sums.add _ (frame.copy_rect block)).bind _ = _
  rw [foldlM_add _ _ (fun _ => Nat.zero_le _) (Nat.zero_le _)]
  simp [lightOf_copy_rect, length_copy_rect, hn]
  split
  · rfl
  · rename_i hsum
    have hfits : ¬ BlockFits frame block :=
      fun hfits => hsum fun c => (Nat.le_add_right _ _).trans (hfits c)
    rw [if_neg hfits]
    rfl

theorem mean_of_block (frame : Frame) (block : Rect) (hn : 0 < block.width * block.height)
    (c : Channel) :
    (Channel.of (meanOf frame block) c : ℤ) =
      round ((light frame block c : ℚ) / (block.width * block.height : Nat)) := by
  have hle := light_le frame block c
  have hof : Channel.of (meanOf frame block) c =
      (light frame block c + block.width * block.height / 2) / (block.width * block.height) := by
    have hlt : (light frame block c + block.width * block.height / 2) /
        (block.width * block.height) < 256 := by
      rw [Nat.div_lt_iff_lt_mul hn]
      omega
    cases c <;> exact UInt8.toNat_ofNat_of_lt' hlt
  rw [hof]
  generalize light frame block c = s
  generalize block.width * block.height = n at hn
  have hdiv := Nat.div_add_mod (s + n / 2) n
  have hmod := Nat.mod_lt (s + n / 2) hn
  generalize (s + n / 2) / n = q at hdiv
  have hpos : (0 : ℚ) < n := by exact_mod_cast hn
  -- twice the sum stays within `n` of `2 q n`, whether `n` is even or odd
  have hlow : 2 * (n * q) ≤ 2 * s + n := by omega
  have hhigh : 2 * s + n < 2 * (n * q) + 2 * n := by omega
  have hlow' : 2 * ((n : ℚ) * q) ≤ 2 * s + n := by exact_mod_cast hlow
  have hhigh' : 2 * (s : ℚ) + n < 2 * (n * q) + 2 * n := by exact_mod_cast hhigh
  symm
  rw [round_eq_iff]
  constructor
  · rw [le_div_iff₀ hpos]
    push_cast
    linarith
  · rw [div_lt_iff₀ hpos]
    push_cast
    linarith

/-! ## The whole preview -/

/-- A step that answers only where a test holds answers for a list where it holds for all. -/
theorem mapM_eq {α β : Type} {l : List α} {f : α → Option β} {p : α → Prop} [DecidablePred p]
    {g : α → β} (h : ∀ a ∈ l, f a = if p a then some (g a) else none) :
    l.mapM f = if ∀ a ∈ l, p a then some (l.map g) else none := by
  induction l with
  | nil => simp
  | cons a l ih =>
    rw [List.mapM_cons, h a List.mem_cons_self, ih fun b hb => h b (List.mem_cons_of_mem _ hb)]
    by_cases ha : p a
    · by_cases hl : ∀ b ∈ l, p b
      · rw [if_pos ha, if_pos hl, if_pos (List.forall_mem_cons.mpr ⟨ha, hl⟩)]
        simp
      · rw [if_pos ha, if_neg hl, if_neg fun hall => hl (List.forall_mem_cons.mp hall).2]
        simp
    · rw [if_neg ha, if_neg fun hall => ha (List.forall_mem_cons.mp hall).1]
      simp

theorem block_ends {side factor i : Nat} (hside : side ≤ MAX_SURFACE_DIMENSION)
    (hpos : 0 < factor) (hfactor : factor ≤ U32_MAX) (hi : i < div_ceil side factor) :
    i * factor < side ∧ i * factor + factor ≤ U32_MAX := by
  have hend : (i + 1) * factor ≤ side + factor - 1 := (Nat.le_div_iff_mul_le hpos).mp hi
  rw [Nat.succ_mul] at hend
  refine ⟨by omega, ?_⟩
  rcases Nat.eq_zero_or_pos i with rfl | hi
  · simpa using hfactor
  · have := Nat.le_mul_of_pos_left factor hi
    unfold MAX_SURFACE_DIMENSION at hside
    unfold U32_MAX
    omega

theorem area_le (source : Size) (factor X Y : Nat) :
    (blockOf source factor X Y).width * (blockOf source factor X Y).height ≤
      min factor source.width * min factor source.height := by
  apply Nat.mul_le_mul
  · simp only [blockOf, Nat.succ_mul]
    omega
  · simp only [blockOf, Nat.succ_mul]
    omega

theorem checked_of_le {n : Nat} (h : n ≤ U32_MAX) : checked n = some n := if_pos h

theorem written (size : Size) (pixel : Nat → Nat → Pixel) :
    ∃ small, (FrameBuffer.new size).write_rect size.bounds
        ((List.range size.height).map fun y => (List.range size.width).map fun x =>
          pixel x y).flatten = .ok small ∧ small.size = size ∧
      ∀ x y, x < size.width → y < size.height → small.pixel x y = pixel x y := by
  have hcopy : ((List.range size.height).map fun y => (List.range size.width).map fun x =>
      pixel x y).flatten = (⟨size, pixel⟩ : Frame).copy_rect size.bounds := by
    simp [Frame.copy_rect, Frame.row_span, Size.bounds, List.range_eq_range', List.flatMap]
  have hwidth := size.width_pos
  have hheight := size.height_pos
  have hne : size.bounds.is_empty = false := by
    simp [Rect.is_empty, Size.bounds]
    omega
  have hin : size.bounds.contains_rect size.bounds = true := by
    simp [Rect.contains_rect]
  rw [hcopy]
  obtain ⟨small, hwrite, hsize, hpacked, -⟩ := write_rect_spec (FrameBuffer.new size) size.bounds
    _ hne hin (length_copy_rect ⟨size, pixel⟩ size.bounds)
  refine ⟨small, hwrite, hsize, fun x y hx hy => ?_⟩
  obtain ⟨hright, hbottom, -⟩ := inside_bounds size size.bounds hne hin
  exact (copy_rect_eq_iff _ _ _ hright hbottom).mp hpacked x y ((covers_bounds size x y).mpr ⟨hx, hy⟩)

theorem downscale_eq (frame : Frame) (factor : Nat) (hfactor : factor ≤ U32_MAX) :
    let size := frame.size.preview factor
    let block X Y := blockOf frame.size (max factor 1) X Y
    downscale frame factor =
      if ∀ Y ∈ List.range size.height, ∀ X ∈ List.range size.width, BlockFits frame (block X Y) then
        ((FrameBuffer.new size).write_rect size.bounds ((List.range size.height).map fun Y =>
          (List.range size.width).map fun X => meanOf frame (block X Y)).flatten).toOption
      else none := by
  intro size block
  have hpos : 0 < max factor 1 := by omega
  have hmax : max factor 1 ≤ U32_MAX := max_le hfactor (by decide)
  unfold downscale
  simp only
  rw [mapM_eq (p := fun Y => ∀ X ∈ List.range size.width, BlockFits frame (block X Y))
    (g := fun Y => (List.range size.width).map fun X => meanOf frame (block X Y))]
  · split
    · rfl
    · rfl
  intro Y hY
  obtain ⟨htop, hbottom⟩ := block_ends frame.size.height_le hpos hmax (List.mem_range.mp hY)
  rw [checked_of_le (by omega), Option.bind_eq_bind, Option.bind_some, checked_of_le hbottom,
    Option.bind_some]
  apply mapM_eq
  intro X hX
  obtain ⟨hleft, hright⟩ := block_ends frame.size.width_le hpos hmax (List.mem_range.mp hX)
  have hn : (block X Y).width * (block X Y).height ≤ U32_MAX :=
    (area_le frame.size (max factor 1) X Y).trans
      ((Nat.mul_le_mul (min_le_right _ _) (min_le_right _ _)).trans
        ((Nat.mul_le_mul frame.size.width_le frame.size.height_le).trans (by decide)))
  rw [checked_of_le (by omega), Option.bind_eq_bind, Option.bind_some, Nat.succ_mul,
    checked_of_le hright, Option.bind_some, ← Nat.succ_mul, ← Nat.succ_mul]
  exact block_mean frame (block X Y) hn

theorem area_pos {source : Size} {factor X Y : Nat} (hpos : 0 < factor)
    (hX : X * factor < source.width) (hY : Y * factor < source.height) :
    0 < (blockOf source factor X Y).width * (blockOf source factor X Y).height := by
  apply Nat.mul_pos
  · simp only [blockOf, Nat.succ_mul]
    omega
  · simp only [blockOf, Nat.succ_mul]
    omega

theorem factor_le (factor : UInt32) : factor.toNat ≤ U32_MAX := Nat.le_of_lt_succ factor.toNat_lt

theorem averaged_iff (frame : Frame) (factor : UInt32) :
    Averaged frame factor ↔
      ∀ X Y, X < (frame.size.preview factor.toNat).width →
        Y < (frame.size.preview factor.toNat).height →
          BlockFits frame (blockOf frame.size (max factor.toNat 1) X Y) := by
  have hpos : 0 < max factor.toNat 1 := by omega
  have hmax : max factor.toNat 1 ≤ U32_MAX := max_le (factor_le factor) (by decide)
  unfold Averaged
  rw [downscale_eq frame _ (factor_le factor)]
  constructor
  · rintro ⟨small, hsmall, -⟩ X Y hX hY
    split at hsmall
    · rename_i hfits
      exact hfits Y (List.mem_range.mpr hY) X (List.mem_range.mpr hX)
    · cases hsmall
  · intro hfits
    obtain ⟨small, hwrite, hsize, hpixel⟩ := written (frame.size.preview factor.toNat)
      fun X Y => meanOf frame (blockOf frame.size (max factor.toNat 1) X Y)
    refine ⟨small, ?_, hsize, fun X Y hX hY c => ?_⟩
    · rw [if_pos fun Y hY X hX => hfits X Y (List.mem_range.mp hX) (List.mem_range.mp hY)]
      rw [hwrite]
      rfl
    · rw [hsize] at hX hY
      rw [hpixel X Y hX hY]
      apply mean_of_block
      exact area_pos hpos (block_ends frame.size.width_le hpos hmax hX).1
        (block_ends frame.size.height_le hpos hmax hY).1

def white (size : Size) : Frame := ⟨size, fun _ _ => ⟨255, 255, 255, 255⟩⟩

theorem light_white (size : Size) (block : Rect) (c : Channel) :
    light (white size) block c = 255 * (block.width * block.height) := by
  have hof : ∀ x y, Channel.of ((white size).pixel x y) c = 255 := by
    intro x y
    cases c <;> rfl
  simp [light, hof]
  ring

theorem white_averaged {size : Size} {factor : UInt32} (h : Averaged (white size) factor) :
    let n := min (max factor.toNat 1) size.width * min (max factor.toNat 1) size.height
    255 * n + n / 2 ≤ U32_MAX := by
  intro n
  have hfirst := (averaged_iff _ factor).mp h 0 0 (Size.width_pos _) (Size.height_pos _) .b
  rw [light_white] at hfirst
  simpa [blockOf, white, n] using hfirst

theorem previews_average_iff_no_block_is_too_bright (size : Size) (factor : UInt32) :
    (∀ frame : Frame, Averaged frame factor ↔
      ∀ X Y, X < (frame.size.preview factor.toNat).width →
        Y < (frame.size.preview factor.toNat).height →
          BlockFits frame (blockOf frame.size (max factor.toNat 1) X Y)) ∧
    let n := min (max factor.toNat 1) size.width * min (max factor.toNat 1) size.height
    (∀ frame : Frame, frame.size = size → Averaged frame factor) ↔ 255 * n + n / 2 ≤ U32_MAX := by
  refine ⟨fun frame => averaged_iff frame factor, ?_⟩
  intro n
  refine ⟨fun h => white_averaged (h (white size) rfl), ?_⟩
  rintro hn frame rfl
  rw [averaged_iff]
  intro X Y _ _ c
  have harea := area_le frame.size (max factor.toNat 1) X Y
  have hlight := light_le frame (blockOf frame.size (max factor.toNat 1) X Y) c
  omega

/-- The preview of the largest surface, in white, with its longer side down to one pixel. -/
theorem the_largest_white_surface_overflows :
    let size : Size := ⟨16384, 16384, by decide, by decide, by decide, by decide⟩
    ¬ Averaged (white size) (UInt32.ofNat (preview_factor size 1)) := by
  intro size haveraged
  have hfactor : (UInt32.ofNat (preview_factor size 1)).toNat = 16384 := by decide
  have hfits := white_averaged haveraged
  rw [hfactor] at hfits
  exact absurd hfits (by decide)

end multiplex_screen_codec.scale
