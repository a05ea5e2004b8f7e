-- A scroll that is found is real: on the previous frame the move can be made, and
-- after it the rectangle shows the next frame and nothing else has changed. Rows
-- are compared by their hashes, so this rests on hashes telling rows apart.
import Multiplex.ScreenCodec.Movement

namespace multiplex_screen_codec

/-! ## Rows and their hashes -/

def Frame.row_bytes (f : Frame) (y : Nat) (region : Rect) : List UInt8 :=
  (f.row_span y region).flatMap Pixel.bytes

/-- The hash tells the rows of a region apart that the two frames have there. -/
def RowsToldApart (D : Deps) (previous next : Frame) (region : Rect) : Prop :=
  ∀ y y', region.y ≤ y → y < region.bottom → region.y ≤ y' → y' < region.bottom →
    D.xxh3_64 (previous.row_bytes y region) = D.xxh3_64 (next.row_bytes y' region) →
    previous.row_bytes y region = next.row_bytes y' region

theorem bytes_injective {p q : Pixel} (h : p.bytes = q.bytes) : p = q := by
  simp [Pixel.bytes] at h
  cases p
  simp_all

theorem pixel_of_row_bytes {f g : Frame} {y y' : Nat} {region : Rect}
    (h : f.row_bytes y region = g.row_bytes y' region) {x : Nat} (hleft : region.x ≤ x)
    (hright : x < region.x + region.width) : f.pixel x y = g.pixel x y' := by
  simp only [Frame.row_bytes, Frame.row_span, List.flatMap_map] at h
  have hpixels := flatMap_inj_of_length (List.range region.width) _ _ (by simp [Pixel.bytes]) h
    (x - region.x) (by rw [List.mem_range]; omega)
  have hx : region.x + (x - region.x) = x := by omega
  simp only [hx] at hpixels
  exact bytes_injective hpixels

theorem row_hashes_get (D : Deps) (f : Frame) (region : Rect) {row : Nat}
    (h : row < region.bottom - region.y) :
    (row_hashes D f region)[row]? = some (D.xxh3_64 (f.row_bytes (region.y + row) region)) := by
  simp [row_hashes, Frame.row_bytes, h]

/-! ## The move is the scroll -/

/-- Every row of the move shows the row of the previous frame that it comes from. -/
theorem Detected.pixel {D : Deps} {previous next : Frame} {region : Rect} {m : VerticalMove}
    (h : Detected D previous next region m) (happart : RowsToldApart D previous next region)
    {x y : Nat} (hcovers : m.rect.Covers x y) :
    previous.pixel x ((y : Int) + m.dy).toNat = next.pixel x y := by
  obtain ⟨hright, hbottom⟩ := h.ends
  have hinside := h.inside
  have hh := next.size.height_le
  simp only [MAX_SURFACE_DIMENSION] at hh
  have hends : region.bottom = region.y + region.height := by
    simp only [Rect.bottom, U32_MAX]
    omega
  simp only [Rect.Covers, hright, hbottom, h.left, h.width] at hcovers
  have htop := h.top
  -- the row counted from the top of the region, and the row it comes from
  have hrow := h.rows (y - region.y) (by omega) (by omega)
  simp [explained] at hrow
  obtain ⟨⟨⟨hnew, hsource⟩, hold⟩, hhash⟩ := hrow
  rw [row_hashes_get D next region (by omega), row_hashes_get D previous region (by omega)] at hhash
  have hy : region.y + (y - region.y) = y := by omega
  have hy' : region.y + (((y - region.y : Nat) : Int) + m.dy).toNat = ((y : Int) + m.dy).toNat := by
    omega
  rw [hy, hy'] at hhash
  simp at hhash
  have hbytes := happart ((y : Int) + m.dy).toNat y (by omega) (by omega) (by omega) (by omega)
    hhash.symm
  exact pixel_of_row_bytes hbytes hcovers.1 hcovers.2.1

/-- A scroll that is found has the clamped region's columns and at least a tile of its rows, goes by
an offset that is not zero and not beyond the largest scroll, and takes its rows from rows of
the region. Made on the previous frame, it shows the next frame in its rectangle and changes
nothing else. -/
theorem detected_scroll_is_real (D : Deps) (previous next : Frame) (region : Rect) (m : VerticalMove)
    (h : detect_vertical_move D previous next region = some m)
    (happart : RowsToldApart D previous next (region.clamp_to next.size)) :
    let clamped := region.clamp_to next.size
    (m.rect.x = clamped.x ∧ m.rect.width = clamped.width ∧ clamped.y ≤ m.rect.y ∧
      m.rect.y + m.rect.height ≤ clamped.y + clamped.height ∧ 64 ≤ m.rect.height) ∧
    (m.dy ≠ 0 ∧ m.dy.natAbs ≤ MAX_SCROLL_PIXELS) ∧
    ((clamped.y : Int) ≤ m.rect.y + m.dy ∧
      (m.rect.y : Int) + m.rect.height + m.dy ≤ clamped.y + clamped.height) ∧
    ∃ after : FrameBuffer, FrameBuffer.apply_move previous m.rect m.dy = .ok after ∧
      (∀ x y, m.rect.Covers x y → after.pixel x y = next.pixel x y) ∧
      ∀ x y, ¬m.rect.Covers x y → after.pixel x y = previous.pixel x y := by
  have hdetected := detected D previous next region m h
  obtain ⟨hin, hfirst, hlast⟩ := hdetected.rows_inside
  obtain ⟨after, happly⟩ := (apply_move_ok_iff previous m.rect m.dy).mpr hdetected.fits
  obtain ⟨-, hpixels⟩ := apply_move_spec previous after m.rect m.dy happly
  refine ⟨⟨hdetected.left, hdetected.width, hdetected.top, hin, hdetected.tall⟩, hdetected.offset,
    ⟨hfirst, hlast⟩, after, happly, ?_, ?_⟩
  · intro x y hcovers
    rw [hpixels, if_pos hcovers]
    exact hdetected.pixel happart hcovers
  · intro x y hnot
    rw [hpixels, if_neg hnot]

/-! ## Five lines, one row up -/

def blank : Pixel := ⟨0, 0, 0, 255⟩
def ink : Pixel := ⟨255, 255, 255, 255⟩

/-- The smallest surface that can scroll, with a line of ink on every other of nine rows. -/
def ruled (top : Nat) : Frame where
  size := ⟨64, 128, by decide, by decide, by decide, by decide⟩
  pixel := fun _ y => if top ≤ y ∧ y < top + 9 ∧ (y - top) % 2 = 0 then ink else blank

/-- XXH3 of a row of 64 blank or inked pixels, and of the hashes of eight such rows, by the rows
that are inked. -/
def ruledHashes : List (Nat × UInt64) :=
  [(0b00000000, 0xD3992634D604CC9A), (0b00000001, 0x06413A614AC05616), (0b00000010, 0xDA6C1699A2B96DBE),
    (0b00000101, 0xF4B9DE6DCD322D8C), (0b00001010, 0xD99C01D1D9004416), (0b00010101, 0x2FB94AAC74BFD706),
    (0b00101010, 0xF41D18BFB322010B), (0b01000000, 0xA42CBD29A61D9C73), (0b01010000, 0x85CA8381E596C686),
    (0b01010100, 0x94E5A98F858BF733), (0b01010101, 0x27B99EE4BFBEED46), (0b10000000, 0x6EC14284CCD4DA86),
    (0b10100000, 0xA39ACC7447EB9CE0), (0b10101000, 0x6CF5073A431C0F97), (0b10101010, 0x6831248293C8B94B)]

def xxh3Ruled (bytes : List UInt8) : UInt64 :=
  -- the fourth byte of a row is the alpha of its first pixel
  if bytes.getD 3 0 = 255 then
    if bytes.headD 0 = 0 then 0x94EFC6E3827CFE43 else 0x2164293A60D148AC
  else
    -- the first byte of a row's hash says whether the row is inked
    let inked := (List.range 8).foldl (fun n i => 2 * n + if bytes.getD (8 * i) 0 = 0xAC then 1 else 0) 0
    (((ruledHashes.find? fun e => e.1 == inked).map Prod.snd).getD 0)

def ruledDeps : Deps := { shortDeps with xxh3_64 := xxh3Ruled }

theorem ruled_hash : ruledDeps.xxh3_64 = xxh3Ruled := rfl

theorem ruled_row_bytes (top y : Nat) :
    (ruled top).row_bytes y ⟨0, 0, 64, 128⟩ = (List.range 64).flatMap fun _ =>
      (if top ≤ y ∧ y < top + 9 ∧ (y - top) % 2 = 0 then ink else blank).bytes := by
  simp only [Frame.row_bytes, Frame.row_span, ruled, List.flatMap_map]

theorem ruled_told_apart : RowsToldApart ruledDeps (ruled 60) (ruled 59) ⟨0, 0, 64, 128⟩ := by
  intro y y' _ _ _ _ h
  have hink : xxh3Ruled ((List.range 64).flatMap fun _ => ink.bytes) ≠
      xxh3Ruled ((List.range 64).flatMap fun _ => blank.bytes) := by decide +kernel
  rw [ruled_hash, ruled_row_bytes, ruled_row_bytes] at h
  rw [ruled_row_bytes, ruled_row_bytes]
  by_cases hold : 60 ≤ y ∧ y < 60 + 9 ∧ (y - 60) % 2 = 0 <;>
    by_cases hnew : 59 ≤ y' ∧ y' < 59 + 9 ∧ (y' - 59) % 2 = 0 <;>
    simp [hold, hnew] at h ⊢
  · exact absurd h hink
  · exact absurd h.symm hink

set_option maxRecDepth 10000 in
theorem the_lines_went_up_a_row :
    let m : VerticalMove := ⟨⟨0, 0, 64, 127⟩, 1⟩
    (m.rect.x = 0 ∧ m.rect.width = 64 ∧ 0 ≤ m.rect.y ∧ m.rect.y + m.rect.height ≤ 0 + 128 ∧
      64 ≤ m.rect.height) ∧
    (m.dy ≠ 0 ∧ m.dy.natAbs ≤ MAX_SCROLL_PIXELS) ∧
    (((0 : Nat) : Int) ≤ m.rect.y + m.dy ∧ (m.rect.y : Int) + m.rect.height + m.dy ≤
        (0 : Nat) + (128 : Nat)) ∧
    ∃ after : FrameBuffer, FrameBuffer.apply_move (ruled 60) m.rect m.dy = .ok after ∧
      (∀ x y, m.rect.Covers x y → after.pixel x y = (ruled 59).pixel x y) ∧
      ∀ x y, ¬m.rect.Covers x y → after.pixel x y = (ruled 60).pixel x y :=
  detected_scroll_is_real ruledDeps (ruled 60) (ruled 59) ⟨0, 0, 64, 128⟩ ⟨⟨0, 0, 64, 127⟩, 1⟩
    (by decide +kernel) ruled_told_apart

end multiplex_screen_codec
