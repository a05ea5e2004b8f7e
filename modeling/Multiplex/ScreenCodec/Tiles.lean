-- How the pixels of one tile travel, as `classify.rs`, `lossless.rs` and
-- `lossy.rs` have it. The exact form decodes to the pixels it was made from,
-- and the lossy form always decodes to a tile of the right shape.
import Multiplex.ScreenCodec.Hash

namespace multiplex_screen_codec

/-- A BGR colour. Alpha is not sent. -/
structure Color where
  b : UInt8
  g : UInt8
  r : UInt8
  deriving DecidableEq

def Pixel.color (p : Pixel) : Color := ⟨p.b, p.g, p.r⟩

/-- The pixel drawn for a colour. Its alpha is full. -/
def Color.pixel (c : Color) : Pixel := ⟨c.b, c.g, c.r, 0xFF⟩

def Color.bytes (c : Color) : List UInt8 := [c.b, c.g, c.r]

def Color.black : Color := ⟨0, 0, 0⟩

/-- `wrapping_sub` on each channel. -/
def Color.sub (c d : Color) : Color := ⟨c.b - d.b, c.g - d.g, c.r - d.r⟩

/-- `wrapping_add` on each channel. -/
def Color.add (c d : Color) : Color := ⟨c.b + d.b, c.g + d.g, c.r + d.r⟩

/-- Every pixel of the frame has full alpha, as captured screens do. -/
def Frame.FullAlpha (f : Frame) : Prop := ∀ x y, (f.pixel x y).a = 0xFF

theorem pairFrame_fullAlpha (left right : UInt8) : (pairFrame left right).FullAlpha := by
  intro x y
  simp only [pairFrame]
  split <;> rfl

def MAX_PALETTE_COLORS : Nat := 64
def EDGE_CHANNEL_DELTA : Nat := 48
def TEXT_EDGE_DENSITY_MILLI : Nat := 180

/-! ## The class of a tile -/

inductive TileClass
  | Solid (color : Color)
  | Text
  | Picture

def abs_diff (x y : UInt8) : Nat := max (x.toNat - y.toNat) (y.toNat - x.toNat)

def max_channel_delta (a b : Color) : Nat :=
  max (abs_diff a.b b.b) (max (abs_diff a.g b.g) (abs_diff a.r b.r))

/-- The variables of the loops of `classify`. -/
structure ClassifyState where
  palette : List Color
  last : Option Color
  edges : Nat
  pairs : Nat
  previous : Option Color

def classify_pixel (s : ClassifyState) (pixel : Pixel) : ClassifyState :=
  let color := pixel.color
  let palette :=
    if s.palette.length ≤ MAX_PALETTE_COLORS ∧ s.last ≠ some color ∧ color ∉ s.palette then
      s.palette ++ [color]
    else s.palette
  match s.previous with
  | some previous =>
    let edge := if max_channel_delta previous color ≥ EDGE_CHANNEL_DELTA then 1 else 0
    ⟨palette, some color, s.edges + edge, s.pairs + 1, some color⟩
  | none => ⟨palette, some color, s.edges, s.pairs, some color⟩

def classify_row (f : Frame) (rect : Rect) (s : ClassifyState) (y : Nat) : ClassifyState :=
  (f.row_span y rect).foldl classify_pixel { s with previous := none }

def classify (f : Frame) (rect : Rect) : TileClass :=
  let s := (List.range' rect.y rect.height).foldl (classify_row f rect) ⟨[], none, 0, 0, none⟩
  match s.palette with
  | [color] => .Solid color
  | palette =>
    if palette.length ≤ MAX_PALETTE_COLORS then .Text
    else if s.pairs > 0 ∧ s.edges * 1000 / s.pairs ≥ TEXT_EDGE_DENSITY_MILLI then .Text
    else .Picture

/-- The palette holds every colour seen so far, or it is full. -/
def PaletteKnows (s : ClassifyState) (seen : List Pixel) : Prop :=
  MAX_PALETTE_COLORS < s.palette.length ∨
    ((∀ p ∈ seen, p.color ∈ s.palette) ∧ ∀ c, s.last = some c → c ∈ s.palette)

variable (f : Frame) (palette : List Color) (s : ClassifyState) (left : Color) (cs : List Color)
  (rs : List (Nat × Nat)) (row : List Color) (rect : Rect) (c : Color) (p : Pixel)
  (runs : List (Nat × Nat)) (seen : List Pixel)

theorem classify_pixel_palette : (classify_pixel s p).last = some p.color ∧
      (classify_pixel s p).palette =
        if s.palette.length ≤ MAX_PALETTE_COLORS ∧ s.last ≠ some p.color ∧ p.color ∉ s.palette then
          s.palette ++ [p.color]
        else s.palette := by
  unfold classify_pixel
  cases s.previous <;> exact ⟨rfl, rfl⟩

theorem paletteKnows_pixel (p : Pixel) (h : PaletteKnows s seen) :
    PaletteKnows (classify_pixel s p) (seen ++ [p]) := by
  obtain ⟨hl, hp⟩ := classify_pixel_palette s p
  unfold PaletteKnows at h ⊢
  rw [hl, hp]
  split
  · rcases h with h | ⟨h1, h2⟩
    · omega
    · refine .inr ⟨?_, ?_⟩
      · intro q hq
        rcases List.mem_append.mp hq with hq | hq
        · exact List.mem_append_left _ (h1 q hq)
        · simp only [List.mem_singleton] at hq
          subst hq
          simp
      · intro c hc
        cases hc
        simp
  · rename_i hold
    rcases h with h | ⟨h1, h2⟩
    · exact .inl h
    · by_cases hlen : s.palette.length ≤ MAX_PALETTE_COLORS
      · have hmem : p.color ∈ s.palette := by
          by_contra hn
          exact hold ⟨hlen, fun hc => hn (h2 _ hc), hn⟩
        refine .inr ⟨?_, fun c hc => by cases hc; exact hmem⟩
        intro q hq
        rcases List.mem_append.mp hq with hq | hq
        · exact h1 q hq
        · simp only [List.mem_singleton] at hq
          exact hq ▸ hmem
      · exact .inl (by omega)

theorem paletteKnows_row (row : List Pixel) (h : PaletteKnows s seen) :
    PaletteKnows (row.foldl classify_pixel { s with previous := none }) (seen ++ row) := by
  have key : ∀ (row seen : List Pixel) (s : ClassifyState), PaletteKnows s seen →
      PaletteKnows (row.foldl classify_pixel s) (seen ++ row) := by
    intro row
    induction row with
    | nil => intro seen s h; simpa using h
    | cons p row ih =>
      intro seen s h
      have := ih (seen ++ [p]) _ (paletteKnows_pixel s seen p h)
      simpa using this
  exact key row seen _ h

theorem paletteKnows_rows (rows : List Nat) (s : ClassifyState) (seen : List Pixel)
    (h : PaletteKnows s seen) : PaletteKnows (rows.foldl (classify_row f rect) s)
      (seen ++ rows.flatMap fun y => f.row_span y rect) := by
  induction rows generalizing s seen with
  | nil => simpa using h
  | cons y rows ih =>
    have hrest := ih _ _ (paletteKnows_row s seen (f.row_span y rect) h)
    rw [List.append_assoc] at hrest
    exact hrest

theorem solid_is_one_color (h : classify f rect = .Solid c) :
    ∀ p ∈ f.copy_rect rect, p.color = c := by
  have hk := paletteKnows_rows f rect (List.range' rect.y rect.height) ⟨[], none, 0, 0, none⟩ []
    (.inr ⟨by simp, by simp⟩)
  unfold classify at h
  simp only at h
  split at h
  · rename_i color hpal
    cases h
    unfold PaletteKnows at hk
    rw [hpal] at hk
    rcases hk with hk | ⟨hk, -⟩
    · simp [MAX_PALETTE_COLORS] at hk
    · intro p hp
      simpa using hk p hp
  · split at h
    · cases h
    · split at h <;> cases h

/-- So the fill that the viewer draws for it shows the pixels of the tile. -/
theorem solid_pixels (g : Frame) (rect : Rect) (c : Color) (hf : f.FullAlpha)
    (hr : rect.right = rect.x + rect.width) (hb : rect.bottom = rect.y + rect.height)
    (h : classify f rect = .Solid c) (hg : ∀ x y, rect.Covers x y → g.pixel x y = c.pixel) :
    g.SameOn f rect := by
  intro x y hc
  have hmem : f.pixel x y ∈ f.copy_rect rect := by
    simp only [Rect.Covers] at hc
    simp [Frame.copy_rect, Frame.row_span]
    exact ⟨y, by omega, x - rect.x, by omega, by rw [show rect.x + (x - rect.x) = x by omega]⟩
  have hcol := solid_is_one_color f rect c h _ hmem
  rw [hg x y hc, ← hcol]
  have ha := hf x y
  revert ha
  generalize f.pixel x y = p
  cases p
  rintro rfl
  rfl

/-! ## The exact form -/

def MODE_PALETTE : UInt8 := 1
def MODE_DELTA : UInt8 := 2
def DEFLATE_LEVEL : Nat := 6

/-- `as_chunks::<3>` of colour bytes. -/
def colorsOf : List UInt8 → List Color
  | b :: g :: r :: rest => ⟨b, g, r⟩ :: colorsOf rest
  | _ => []

/-- `as_chunks::<2>` of run bytes. -/
def pairsOf : List UInt8 → List (UInt8 × UInt8)
  | i :: n :: rest => (i, n) :: pairsOf rest
  | _ => []

/-- `chunks_exact`: as many whole chunks as the list holds. -/
def chunks_exact {α : Type} (size : Nat) (l : List α) : List (List α) :=
  (List.range (l.length / size)).map fun i => (l.drop (i * size)).take size

/-- The variables of the loops of `palette_form`. A run is a palette index and a length. -/
structure PaletteState where
  palette : List Color
  runs : List (Nat × Nat)
  current : Option (Nat × Nat)

/-- The open run takes one more pixel, or is closed and a new one begins. -/
def extend_run (palette : List Color) (runs : List (Nat × Nat)) (index : Nat) :
    Option (Nat × Nat) → PaletteState
  | some (run_index, run) =>
    if run_index = index ∧ run < 255 then ⟨palette, runs, some (index, run + 1)⟩
    else ⟨palette, runs ++ [(run_index, run)], some (index, 1)⟩
  | none => ⟨palette, runs, some (index, 1)⟩

def palette_pixel (s : PaletteState) (pixel : Pixel) : Option PaletteState :=
  let color := pixel.color
  match s.palette.findIdx? (· = color) with
  | some index => some (extend_run s.palette s.runs index s.current)
  | none =>
    if s.palette.length < MAX_PALETTE_COLORS then
      some (extend_run (s.palette ++ [color]) s.runs s.palette.length s.current)
    else none

/-- All the runs of a state, the open one last. -/
def PaletteState.allRuns (s : PaletteState) : List (Nat × Nat) := s.runs ++ s.current.toList

def runBytes (r : Nat × Nat) : List UInt8 := [UInt8.ofNat r.1, UInt8.ofNat r.2]

def palette_form (f : Frame) (rect : Rect) : Option (List UInt8) := do
  let s ← (f.copy_rect rect).foldlM palette_pixel ⟨[], [], none⟩
  some (MODE_PALETTE :: UInt8.ofNat s.palette.length ::
    (s.palette.flatMap Color.bytes ++ s.allRuns.flatMap runBytes))

/-- The residuals of one row, each pixel against the one on its left. -/
def delta_row : Color → List Color → List Color
  | _, [] => []
  | left, color :: rest => color.sub left :: delta_row color rest

/-- The first pixel of a row is predicted by the first pixel of the row above. -/
def delta_rows : Color → List (List Color) → List Color
  | _, [] => []
  | above, row :: rest => delta_row above row ++ delta_rows (row.headD above) rest

/-- The colours of the rows of a rectangle. -/
def Frame.colorRows (f : Frame) (rect : Rect) : List (List Color) :=
  (List.range' rect.y rect.height).map fun y => (f.row_span y rect).map Pixel.color

def delta_form (f : Frame) (rect : Rect) : List UInt8 :=
  MODE_DELTA :: (delta_rows Color.black (f.colorRows rect)).flatMap Color.bytes

def encode_lossless (D : Deps) (f : Frame) (rect : Rect) : List UInt8 :=
  D.compress_to_vec ((palette_form f rect).getD (delta_form f rect)) DEFLATE_LEVEL

/-- One run of `decode_palette`, added to the pixels decoded so far. -/
def decode_run (colors : List Color) (pixels : Nat) (out : List Pixel) (run : UInt8 × UInt8) :
    Except CodecError (List Pixel) :=
  let length := run.2.toNat
  match colors[run.1.toNat]? with
  | none => .error .CorruptPayload
  | some color =>
    if length = 0 ∨ out.length + length > pixels then .error .CorruptPayload
    else .ok (out ++ List.replicate length color.pixel)

def decode_palette (body : List UInt8) (pixels : Nat) : Except CodecError (List Pixel) :=
  match body with
  | [] => .error .CorruptPayload
  | head :: rest => do
    let count := head.toNat
    if count = 0 ∨ count > MAX_PALETTE_COLORS ∨ rest.length < count * 3 then
      throw .CorruptPayload
    let colors := rest.take (count * 3)
    let runs := rest.drop (count * 3)
    if runs.length % 2 ≠ 0 then throw .CorruptPayload
    let out ← (pairsOf runs).foldlM (decode_run (colorsOf colors) pixels) []
    if out.length ≠ pixels then throw .CorruptPayload
    return out

def undelta_row : Color → List Color → List Color
  | _, [] => []
  | left, residual :: rest => left.add residual :: undelta_row (left.add residual) rest

def undelta_rows : Color → List (List Color) → List Color
  | _, [] => []
  | above, row :: rest =>
    undelta_row above row ++ undelta_rows ((undelta_row above row).headD above) rest

def decode_delta (body : List UInt8) (width pixels : Nat) : Except CodecError (List Pixel) :=
  if body.length ≠ pixels * 3 then .error .CorruptPayload
  else
    .ok ((undelta_rows Color.black ((chunks_exact (width * 3) body).map colorsOf)).map Color.pixel)

def decode_lossless (D : Deps) (payload : List UInt8) (width height : Nat) :
    Except CodecError (List Pixel) := do
  if width = 0 ∨ height = 0 ∨ width > TILE_SIZE ∨ height > TILE_SIZE then throw .InvalidSize
  let pixels := width * height
  let limit := 2 + MAX_PALETTE_COLORS * 3 + max (pixels * 2) (pixels * 3)
  match D.decompress_to_vec_with_limit payload limit with
  | none | some [] => throw .CorruptPayload
  | some (mode :: body) =>
    if mode = MODE_PALETTE then decode_palette body pixels
    else if mode = MODE_DELTA then decode_delta body width pixels
    else throw .CorruptPayload

/-! ## The exact form decodes to its pixels -/

@[simp] theorem length_color_bytes : c.bytes.length = 3 := rfl

theorem colorsOf_bytes : colorsOf (cs.flatMap Color.bytes) = cs := by
  induction cs with
  | nil => rfl
  | cons c cs ih => simp [Color.bytes, colorsOf, ih]

theorem length_flatMap_color_bytes : (cs.flatMap Color.bytes).length = cs.length * 3 := by
  induction cs with
  | nil => rfl
  | cons c cs ih => simp [ih]; omega

theorem pairsOf_runBytes :
    pairsOf (rs.flatMap runBytes) = rs.map fun r => (UInt8.ofNat r.1, UInt8.ofNat r.2) := by
  induction rs with
  | nil => rfl
  | cons r rs ih => simp [runBytes, pairsOf, ih]

theorem length_runBytes : (rs.flatMap runBytes).length = rs.length * 2 := by
  induction rs with
  | nil => rfl
  | cons r rs ih => simp [runBytes, ih]; omega

/-- The colours that a list of runs stands for. -/
def expand (palette : List Color) (runs : List (Nat × Nat)) : List Color :=
  runs.flatMap fun r => List.replicate r.2 (palette.getD r.1 Color.black)

/-- A run that fits its two bytes and has a colour. -/
def RunFits (palette : List Color) (r : Nat × Nat) : Prop :=
  r.1 < palette.length ∧ 1 ≤ r.2 ∧ r.2 ≤ 255

/-- The runs of a state stand for the colours seen so far. -/
structure PaletteHolds (s : PaletteState) (seen : List Color) : Prop where
  small : s.palette.length ≤ MAX_PALETTE_COLORS
  fits : ∀ r ∈ s.allRuns, RunFits s.palette r
  expands : expand s.palette s.allRuns = seen

theorem expand_append_palette (more : List Color) (runs : List (Nat × Nat))
    (h : ∀ r ∈ runs, RunFits palette r) : expand (palette ++ more) runs = expand palette runs := by
  apply List.flatMap_congr
  intro r hr
  simp [List.getD_eq_getElem?_getD, List.getElem?_append_left (h r hr).1]

theorem expand_append (a b : List (Nat × Nat)) :
    expand palette (a ++ b) = expand palette a ++ expand palette b := by
  simp [expand]

theorem expand_single (i n : Nat) :
    expand palette [(i, n)] = List.replicate n (palette.getD i Color.black) := by
  simp [expand]

theorem paletteHolds_run (current : Option (Nat × Nat)) (seen : List Color) (index : Nat)
    (h : PaletteHolds ⟨palette, runs, current⟩ seen) (hi : index < palette.length) :
    PaletteHolds (extend_run palette runs index current)
      (seen ++ [palette.getD index Color.black]) := by
  obtain ⟨h1, h2, h3⟩ := h
  simp only [PaletteState.allRuns] at h1 h2 h3
  rcases current with _ | ⟨run_index, run⟩
  · refine ⟨h1, ?_, ?_⟩
    · intro r hr
      simp [extend_run, PaletteState.allRuns] at hr
      rcases hr with hr | rfl
      · exact h2 r (by simp [hr])
      · exact ⟨hi, by simp, by simp⟩
    · simp at h3
      simp [extend_run, PaletteState.allRuns, expand_append, h3, expand_single]
  · simp only [Option.toList_some] at h2 h3
    unfold extend_run
    simp only
    split
    · rename_i hsame
      obtain ⟨rfl, hrun⟩ := hsame
      refine ⟨h1, ?_, ?_⟩
      · intro r hr
        simp [PaletteState.allRuns] at hr
        rcases hr with hr | rfl
        · exact h2 r (by simp [hr])
        · exact ⟨hi, by simp, by simpa using hrun⟩
      · rw [expand_append, expand_single] at h3
        simp only [PaletteState.allRuns, Option.toList_some]
        rw [expand_append, expand_single, List.replicate_succ', ← List.append_assoc, h3]
    · refine ⟨h1, ?_, ?_⟩
      · intro r hr
        simp only [PaletteState.allRuns, Option.toList_some, List.mem_append,
          List.mem_singleton] at hr
        rcases hr with (hr | rfl) | rfl
        · exact h2 r (by simp [hr])
        · exact h2 _ (by simp)
        · exact ⟨hi, by simp, by simp⟩
      · simp only [PaletteState.allRuns, Option.toList_some]
        rw [expand_append, h3, expand_single]
        rfl

theorem paletteHolds_pixel (s s' : PaletteState) (seen : List Color) (p : Pixel)
    (h : PaletteHolds s seen) (hs : palette_pixel s p = some s') :
    PaletteHolds s' (seen ++ [p.color]) := by
  obtain ⟨palette, runs, current⟩ := s
  unfold palette_pixel at hs
  simp only at hs
  split at hs
  · rename_i index hidx
    cases hs
    obtain ⟨hlt, hcol, -⟩ := List.findIdx?_eq_some_iff_getElem.mp hidx
    have hrun := paletteHolds_run palette runs current seen index h hlt
    simpa [hlt, of_decide_eq_true hcol] using hrun
  · split at hs
    · rename_i hroom
      cases hs
      have h' : PaletteHolds ⟨palette ++ [p.color], runs, current⟩ seen := by
        obtain ⟨h1, h2, h3⟩ := h
        refine ⟨by simpa using hroom, ?_, ?_⟩
        · intro r hr
          obtain ⟨g1, g2⟩ := h2 r hr
          exact ⟨by simpa using Nat.lt_succ_of_lt g1, g2⟩
        · rw [← h3]
          exact expand_append_palette _ _ _ h2
      have hrun := paletteHolds_run (palette ++ [p.color]) runs current seen palette.length h'
        (by simp)
      simpa using hrun
    · cases hs

theorem paletteHolds_pixels (pixels : List Pixel) (s s' : PaletteState) (seen : List Color)
    (h : PaletteHolds s seen) (hs : pixels.foldlM palette_pixel s = some s') :
    PaletteHolds s' (seen ++ pixels.map Pixel.color) := by
  induction pixels generalizing s seen with
  | nil =>
    simp [pure] at hs
    subst hs
    simpa using h
  | cons p pixels ih =>
    rw [List.foldlM_cons] at hs
    cases hp : palette_pixel s p with
    | none => rw [hp] at hs; cases hs
    | some s1 =>
      rw [hp] at hs
      have := ih s1 _ (paletteHolds_pixel s s1 seen p h hp) hs
      simpa using this

theorem decode_runs (pixels : Nat) (runs : List (Nat × Nat))
    (hp : palette.length ≤ MAX_PALETTE_COLORS) (hfit : ∀ r ∈ runs, RunFits palette r)
    (out : List Pixel) (hlen : out.length + (expand palette runs).length ≤ pixels) :
    (runs.map fun r => (UInt8.ofNat r.1, UInt8.ofNat r.2)).foldlM (decode_run palette pixels) out =
      .ok (out ++ (expand palette runs).map Color.pixel) := by
  induction runs generalizing out with
  | nil => simp [expand, pure, Except.pure]
  | cons r runs ih =>
    obtain ⟨i, n⟩ := r
    obtain ⟨h1, h2, h3⟩ := hfit (i, n) (by simp)
    simp only [MAX_PALETTE_COLORS] at hp h1 h2 h3
    have hi : (UInt8.ofNat i).toNat = i := by simp; omega
    have hn : (UInt8.ofNat n).toNat = n := by simp; omega
    have hcons : expand palette ((i, n) :: runs) =
        List.replicate n palette[i] ++ expand palette runs := by
      rw [← List.singleton_append, expand_append, expand_single]
      simp [h1]
    rw [hcons, List.length_append, List.length_replicate] at hlen
    have hstep : decode_run palette pixels out (UInt8.ofNat i, UInt8.ofNat n) =
        .ok (out ++ List.replicate n palette[i].pixel) := by
      unfold decode_run
      simp only [hi, hn, List.getElem?_eq_getElem h1]
      rw [if_neg (by omega)]
    rw [List.map_cons, List.foldlM_cons, hstep]
    have := ih (fun r hr => hfit r (by simp [hr])) (out ++ List.replicate n palette[i].pixel)
      (by simp; omega)
    rw [hcons]
    simpa [bind, Except.bind] using this

theorem length_runs_le (h : ∀ r ∈ runs, RunFits palette r) :
    runs.length ≤ (expand palette runs).length := by
  induction runs with
  | nil => simp
  | cons r runs ih =>
    have h1 := (h r (by simp)).2.1
    have h2 := ih fun q hq => h q (by simp [hq])
    have hcons : (expand palette (r :: runs)).length = r.2 + (expand palette runs).length := by
      simp [expand]
    rw [hcons, List.length_cons]
    omega

theorem palette_ne_nil {palette : List Color} {runs : List (Nat × Nat)}
    (h : ∀ r ∈ runs, RunFits palette r) (hne : expand palette runs ≠ []) : 0 < palette.length := by
  cases runs with
  | nil => exact absurd rfl hne
  | cons r runs =>
    have := (h r (by simp)).1
    omega

theorem decode_palette_form (raw : List UInt8) (hpos : 0 < rect.width * rect.height)
    (h : palette_form f rect = some raw) : ∃ body, raw = MODE_PALETTE :: body ∧
      raw.length ≤ 2 + MAX_PALETTE_COLORS * 3 + rect.width * rect.height * 2 ∧
      decode_palette body (rect.width * rect.height) =
        .ok ((f.copy_rect rect).map fun p => p.color.pixel) := by
  unfold palette_form at h
  rw [Option.bind_eq_bind, Option.bind_eq_some_iff] at h
  obtain ⟨s, hs, hraw⟩ := h
  cases hraw
  have hinit : PaletteHolds ⟨[], [], none⟩ [] := by
    refine ⟨by simp, ?_, rfl⟩
    simp [PaletteState.allRuns]
  obtain ⟨h1, h2, h3⟩ := paletteHolds_pixels _ _ _ _ hinit hs
  simp at h3
  have hexp : (expand s.palette s.allRuns).length = rect.width * rect.height := by
    rw [h3, List.length_map, length_copy_rect]
  have hruns := length_runs_le _ _ h2
  have hpal := palette_ne_nil h2 (by
    intro hnil
    rw [hnil] at hexp
    simp only [List.length_nil] at hexp
    omega)
  have hcount : (UInt8.ofNat s.palette.length).toNat = s.palette.length := by
    simp only [MAX_PALETTE_COLORS] at h1
    simp
    omega
  refine ⟨_, rfl, ?_, ?_⟩
  · simp only [List.length_cons, List.length_append, length_flatMap_color_bytes, length_runBytes]
    omega
  · unfold decode_palette
    simp only [hcount, List.length_append, length_flatMap_color_bytes, length_runBytes]
    rw [show s.palette.length * 3 = (s.palette.flatMap Color.bytes).length by
      rw [length_flatMap_color_bytes]]
    rw [List.take_left, List.drop_left, length_runBytes, if_neg (by omega), pairsOf_runBytes,
      colorsOf_bytes]
    have hrun := decode_runs s.palette (rect.width * rect.height) s.allRuns h1 h2 []
      (by simp [hexp])
    simp [pure, Except.pure, bind, Except.bind] at hrun ⊢
    rw [hrun, h3]
    simp [length_copy_rect]

@[simp] theorem color_add_sub (d : Color) : d.add (c.sub d) = c := by
  have h : ∀ x y : UInt8, y + (x - y) = x := fun x y => by
    rw [UInt8.add_comm, UInt8.sub_add_cancel]
  simp [Color.add, Color.sub, h]

theorem undelta_delta_row : undelta_row left (delta_row left row) = row := by
  induction row generalizing left with
  | nil => rfl
  | cons c row ih => simp [delta_row, undelta_row, ih]

theorem length_delta_row : (delta_row left row).length = row.length := by
  induction row generalizing left with
  | nil => rfl
  | cons c row ih => simp [delta_row, ih]

theorem chunks_exact_flatten {α : Type} (size : Nat) (rows : List (List α)) (hs : 0 < size)
    (h : ∀ row ∈ rows, row.length = size) : chunks_exact size rows.flatten = rows := by
  induction rows with
  | nil => simp [chunks_exact]
  | cons row rows ih =>
    have hrow : row.length = size := h row (by simp)
    have ih' := ih fun r hr => h r (by simp [hr])
    unfold chunks_exact at ih' ⊢
    have hlen : (row :: rows).flatten.length / size = rows.flatten.length / size + 1 := by
      rw [List.flatten_cons, List.length_append, hrow, Nat.add_comm, Nat.add_div_right _ hs]
    rw [hlen, List.range_succ_eq_map, List.map_cons, List.map_map]
    congr 1
    · simp [← hrow]
    · refine Eq.trans ?_ ih'
      apply List.map_congr_left
      intro i _
      simp [Function.comp]
      rw [show (i + 1) * size = row.length + i * size by rw [hrow]; ring, List.drop_append,
        List.drop_eq_nil_of_le (by omega), List.nil_append, Nat.add_sub_cancel_left]

theorem undelta_delta_rows (above : Color) (width : Nat) (rows : List (List Color))
    (h : ∀ row ∈ rows, row.length = width) :
    ∃ residuals : List (List Color), delta_rows above rows = residuals.flatten ∧
      residuals.length = rows.length ∧ (∀ r ∈ residuals, r.length = width) ∧
      undelta_rows above residuals = rows.flatten := by
  induction rows generalizing above with
  | nil => exact ⟨[], rfl, rfl, by simp, rfl⟩
  | cons row rows ih =>
    obtain ⟨rs, h1, hl, h2, h3⟩ := ih (row.headD above) fun r hr => h r (by simp [hr])
    refine ⟨delta_row above row :: rs, by rw [delta_rows, h1, List.flatten_cons], by simp [hl],
      ?_, ?_⟩
    · intro r hr
      rcases List.mem_cons.mp hr with rfl | hr
      · rw [length_delta_row]
        exact h row (by simp)
      · exact h2 r hr
    · simp only [undelta_rows, undelta_delta_row, h3, List.flatten_cons]

theorem flatten_colorRows : (f.colorRows rect).flatten = (f.copy_rect rect).map Pixel.color := by
  simp [Frame.colorRows, Frame.copy_rect, List.flatMap_def, Function.comp_def]

theorem colorRows_width : ∀ row ∈ f.colorRows rect, row.length = rect.width := by
  intro row hrow
  obtain ⟨y, -, rfl⟩ := List.mem_map.mp hrow
  simp [Frame.row_span]

theorem flatMap_bytes_flatten (rows : List (List Color)) :
    rows.flatten.flatMap Color.bytes = (rows.map fun r => r.flatMap Color.bytes).flatten := by
  induction rows with
  | nil => rfl
  | cons r rows ih => simp [ih]

theorem decode_delta_form (hw : 0 < rect.width) : ∃ body, delta_form f rect = MODE_DELTA :: body ∧
      body.length = rect.width * rect.height * 3 ∧
      decode_delta body rect.width (rect.width * rect.height) =
        .ok ((f.copy_rect rect).map fun p => p.color.pixel) := by
  obtain ⟨rs, h1, hl, h2, h3⟩ := undelta_delta_rows Color.black rect.width (f.colorRows rect)
    (colorRows_width f rect)
  have hlen : rs.flatten.length = rect.width * rect.height := by
    have hrows : rs.length = rect.height := by simpa [Frame.colorRows] using hl
    rw [List.length_flatten, List.map_congr_left h2, List.map_const', List.sum_replicate, hrows,
      smul_eq_mul, Nat.mul_comm]
  have hbody : rs.flatten.flatMap Color.bytes = (rs.map fun r => r.flatMap Color.bytes).flatten :=
    flatMap_bytes_flatten rs
  refine ⟨rs.flatten.flatMap Color.bytes, by rw [delta_form, h1], ?_, ?_⟩
  · rw [length_flatMap_color_bytes, hlen]
  · unfold decode_delta
    rw [if_neg (by rw [length_flatMap_color_bytes, hlen]; simp), hbody,
      chunks_exact_flatten (rect.width * 3) _ (by omega) (by
        intro row hrow
        obtain ⟨r, hr, rfl⟩ := List.mem_map.mp hrow
        rw [length_flatMap_color_bytes, h2 r hr]),
      List.map_map]
    have hid : (rs.map (colorsOf ∘ fun r => r.flatMap Color.bytes)) = rs := by
      simp [Function.comp_def, colorsOf_bytes]
    rw [hid, h3, flatten_colorRows, List.map_map]
    rfl

theorem color_pixel_of_full (h : p.a = 0xFF) : p.color.pixel = p := by
  cases p
  subst h
  rfl

theorem decode_encode_lossless (D : Deps) (hD : D.InflateUndoesDeflate) (f : Frame) (rect : Rect)
    (hf : f.FullAlpha) (hw : 0 < rect.width) (hw' : rect.width ≤ 64) (hh : 0 < rect.height)
    (hh' : rect.height ≤ 64) : decode_lossless D (encode_lossless D f rect) rect.width rect.height =
      .ok (f.copy_rect rect) := by
  have hpos : 0 < rect.width * rect.height := Nat.mul_pos hw hh
  have hfull : ((f.copy_rect rect).map fun p => p.color.pixel) = f.copy_rect rect := by
    conv_rhs => rw [← List.map_id (f.copy_rect rect)]
    apply List.map_congr_left
    intro p hp
    simp [Frame.copy_rect, Frame.row_span] at hp
    obtain ⟨y, -, i, -, rfl⟩ := hp
    exact color_pixel_of_full _ (hf _ _)
  have hsize : ¬ (rect.width = 0 ∨ rect.height = 0 ∨ rect.width > TILE_SIZE ∨
      rect.height > TILE_SIZE) := by
    simp only [TILE_SIZE]
    omega
  unfold decode_lossless encode_lossless
  simp only [if_neg hsize]
  cases hp : palette_form f rect with
  | some raw =>
    obtain ⟨body, rfl, hlen, hdec⟩ := decode_palette_form f rect raw hpos hp
    rw [Option.getD_some, hD _ _ _ (by omega)]
    simp
    rw [hdec, hfull]
  | none =>
    obtain ⟨body, hbody, hlen, hdec⟩ := decode_delta_form f rect hw
    rw [Option.getD_none, hbody, hD _ _ _ (by
      simp only [List.length_cons, hlen, MAX_PALETTE_COLORS]
      omega)]
    simp
    rw [if_neg (by decide), hdec, hfull]

/-! ## The lossy form -/

/-- Bits kept for each channel. Only 3 to 7 can be built, as `LossyDetail::new` checks. -/
structure LossyDetail where
  bits : UInt8
  three_le : 3 ≤ bits
  le_seven : bits ≤ 7

def LossyDetail.new (bits : UInt8) : Option LossyDetail :=
  if h : 3 ≤ bits ∧ bits ≤ 7 then some ⟨bits, h.1, h.2⟩ else none

def LossyDetail.STANDARD : LossyDetail := ⟨6, by decide, by decide⟩

/-- The pixels of a 2×2 block that lie inside the tile. -/
def blockPixels (f : Frame) (rect : Rect) (block_x block_y : Nat) : List Pixel :=
  (List.range 2).flatMap fun dy =>
    (List.range 2).filterMap fun dx =>
      let y := rect.y + block_y * 2 + dy
      let x := block_x * 2 + dx
      if y ≥ rect.bottom ∨ x ≥ rect.width then none else some (f.pixel (rect.x + x) y)

/-- The rounded average of one channel over a block, cut to its high bits. -/
def channelCode (channel : Pixel → UInt8) (block : List Pixel) (shift : UInt8) : UInt8 :=
  let sum := (block.map fun p => (channel p).toNat).sum
  let count := block.length
  UInt8.ofNat ((sum + count / 2) / count) >>> shift

def blockCode (f : Frame) (rect : Rect) (shift : UInt8) (block_x block_y : Nat) : Color :=
  let block := blockPixels f rect block_x block_y
  ⟨channelCode Pixel.b block shift, channelCode Pixel.g block shift,
    channelCode Pixel.r block shift⟩

def blockRows (f : Frame) (rect : Rect) (shift : UInt8) : List (List Color) :=
  (List.range ((rect.height + 1) / 2)).map fun block_y =>
    (List.range ((rect.width + 1) / 2)).map fun block_x => blockCode f rect shift block_x block_y

def encode_lossy (D : Deps) (f : Frame) (rect : Rect) (detail : LossyDetail) : List UInt8 :=
  let codes := (blockRows f rect (8 - detail.bits)).flatMap (delta_row Color.black)
  D.compress_to_vec (detail.bits :: codes.flatMap Color.bytes) DEFLATE_LEVEL

/-- The colour drawn for a code: the middle of the range that the code stands for. -/
def restoreCode (shift : UInt8) (code : Color) : Color :=
  let midpoint := (1 : UInt8) <<< (shift - 1)
  ⟨(code.b <<< shift) ||| midpoint, (code.g <<< shift) ||| midpoint,
    (code.r <<< shift) ||| midpoint⟩

def spreadBlocks (colors : List Color) (width height : Nat) : List Pixel :=
  (List.range height).flatMap fun y =>
    (List.range width).map fun x =>
      (colors.getD (y / 2 * ((width + 1) / 2) + x / 2) Color.black).pixel

def decode_lossy (D : Deps) (payload : List UInt8) (width height : Nat) :
    Except CodecError (List Pixel) :=
  if width = 0 ∨ height = 0 ∨ width > TILE_SIZE ∨ height > TILE_SIZE then .error .InvalidSize
  else
    let blocks_wide := (width + 1) / 2
    let blocks_high := (height + 1) / 2
    let expected := 1 + blocks_wide * blocks_high * 3
    match D.decompress_to_vec_with_limit payload expected with
    | none | some [] => .error .CorruptPayload
    | some (bits :: codes) =>
      if (bits :: codes).length ≠ expected then .error .CorruptPayload
      else
        match LossyDetail.new bits with
        | none => .error .CorruptPayload
        | some detail =>
          let shift := 8 - detail.bits
          let colors := (chunks_exact (blocks_wide * 3) codes).flatMap fun row =>
            (undelta_row Color.black (colorsOf row)).map (restoreCode shift)
          .ok (spreadBlocks colors width height)

theorem new_bits (detail : LossyDetail) : LossyDetail.new detail.bits = some detail := by
  unfold LossyDetail.new
  rw [dif_pos ⟨detail.three_le, detail.le_seven⟩]

theorem length_spreadBlocks (colors : List Color) (width height : Nat) :
    (spreadBlocks colors width height).length = width * height := by
  simp [spreadBlocks, List.length_flatMap, Nat.mul_comm]

/-- The lossy form of a tile decodes: each pixel shows the code of its block. -/
theorem decode_encode_lossy (D : Deps) (hD : D.InflateUndoesDeflate) (f : Frame) (rect : Rect)
    (detail : LossyDetail) (hw : 0 < rect.width) (hw' : rect.width ≤ 64) (hh : 0 < rect.height)
    (hh' : rect.height ≤ 64) :
    decode_lossy D (encode_lossy D f rect detail) rect.width rect.height =
      .ok (spreadBlocks ((blockRows f rect (8 - detail.bits)).flatten.map
        (restoreCode (8 - detail.bits))) rect.width rect.height) := by
  generalize hshift : 8 - detail.bits = shift
  have hcodes : ((blockRows f rect shift).flatMap (delta_row Color.black)).flatMap Color.bytes =
      ((blockRows f rect shift).map fun row =>
        (delta_row Color.black row).flatMap Color.bytes).flatten := by
    have := flatMap_bytes_flatten ((blockRows f rect shift).map (delta_row Color.black))
    rw [List.map_map, ← List.flatMap_def] at this
    exact this
  have hrow : ∀ row ∈ (blockRows f rect shift).map fun row =>
      (delta_row Color.black row).flatMap Color.bytes,
      row.length = (rect.width + 1) / 2 * 3 := by
    intro row hr
    simp [blockRows] at hr
    obtain ⟨y, -, rfl⟩ := hr
    simp [length_delta_row]
  have hlen : (((blockRows f rect shift).flatMap (delta_row Color.black)).flatMap
      Color.bytes).length = (rect.width + 1) / 2 * ((rect.height + 1) / 2) * 3 := by
    rw [hcodes, List.length_flatten, List.map_congr_left hrow, List.map_const', List.sum_replicate,
      smul_eq_mul]
    simp [blockRows]
    ring
  have hchunks := chunks_exact_flatten ((rect.width + 1) / 2 * 3) _ (by omega) hrow
  unfold decode_lossy encode_lossy
  rw [if_neg (by simp only [TILE_SIZE]; omega)]
  simp only [hshift]
  rw [hD _ _ _ (by simp only [List.length_cons, hlen]; omega)]
  simp only [List.length_cons, hlen]
  rw [if_neg (by omega), new_bits]
  simp only [hshift]
  rw [hcodes, hchunks, List.flatMap_map, List.map_flatten, List.flatMap_def]
  simp only [colorsOf_bytes, undelta_delta_row]

end multiplex_screen_codec
