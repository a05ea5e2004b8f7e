-- What a batch that fails leaves behind. The operations before the failing one
-- stay drawn and the counter stays, but the decoder has moved to the surface and
-- generation of the batch, and to a blank picture where these are new.
import Multiplex.ScreenCodec.Decoder

namespace multiplex_screen_codec

/-! ## Errors of one operation -/

variable {e : CodecError} {f : FrameBuffer} {rect : Rect}

variable {colors : List Color} {pixels : Nat} {out bgra : List Pixel} {payload : List UInt8}
  {f' : FrameBuffer} {p : Pixel}

theorem decode_run_error {run : UInt8 × UInt8} (h : decode_run colors pixels out run = .error e) :
    e = .CorruptPayload := by
  unfold decode_run at h
  simp only at h
  split at h
  · cases h
    rfl
  · split at h
    · cases h
      rfl
    · cases h

theorem decode_runs_error (runs : List (UInt8 × UInt8))
    (h : runs.foldlM (decode_run colors pixels) out = .error e) : e = .CorruptPayload := by
  induction runs generalizing out with
  | nil => cases h
  | cons run runs ih =>
    rw [List.foldlM_cons] at h
    cases hrun : decode_run colors pixels out run with
    | error e' =>
      rw [hrun] at h
      cases h
      exact decode_run_error hrun
    | ok out' =>
      rw [hrun] at h
      exact ih h

theorem decode_palette_error {body : List UInt8} (h : decode_palette body pixels = .error e) :
    e = .CorruptPayload := by
  unfold decode_palette at h
  split at h
  · cases h
    rfl
  · simp only [bind, Except.bind, pure, Except.pure, throw, throwThe, MonadExceptOf.throw] at h
    split at h
    · cases h
      rfl
    · split at h
      · cases h
        rfl
      · split at h
        · rename_i hruns
          cases h
          exact decode_runs_error _ hruns
        · split at h
          · cases h
            rfl
          · cases h

theorem decode_lossless_error {D : Deps} {width height : Nat}
    (h : decode_lossless D payload width height = .error e) :
    e = .InvalidSize ∨ e = .CorruptPayload := by
  unfold decode_lossless at h
  simp only [bind, Except.bind, throw, throwThe, MonadExceptOf.throw] at h
  split at h
  · cases h
    exact .inl rfl
  · refine .inr ?_
    split at h
    · cases h
      rfl
    · cases h
      rfl
    · split at h
      · exact decode_palette_error h
      · split at h
        · unfold decode_delta at h
          split at h
          · cases h
            rfl
          · cases h
        · cases h
          rfl

theorem decode_lossy_error {D : Deps} {width height : Nat}
    (h : decode_lossy D payload width height = .error e) :
    e = .InvalidSize ∨ e = .CorruptPayload := by
  unfold decode_lossy at h
  simp only at h
  split at h
  · cases h
    exact .inl rfl
  · refine .inr ?_
    split at h
    · cases h
      rfl
    · cases h
      rfl
    · split at h
      · cases h
        rfl
      · split at h
        · cases h
          rfl
        · cases h

/-! ## What operations draw -/

def TileOp.area (grid : TileGrid) : TileOp → Option Rect
  | .Solid tile _ | .Cached tile _ | .Lossless tile _ _ | .Lossy tile _ => grid.tile_rect tile
  | .Move rect _ => some rect

/-- A picture of the same size, with the same pixels outside of some areas. -/
def KeptOutside (areas : List Rect) (f f' : FrameBuffer) : Prop :=
  f'.size = f.size ∧ ∀ x y, (∀ rect ∈ areas, ¬rect.Covers x y) → f'.pixel x y = f.pixel x y

theorem KeptOutside.refl (areas : List Rect) (f : FrameBuffer) : KeptOutside areas f f :=
  ⟨rfl, fun _ _ _ => rfl⟩

theorem KeptOutside.trans {areas more : List Rect} {g k : FrameBuffer} (h : KeptOutside areas f g)
    (h' : KeptOutside more g k) : KeptOutside (areas ++ more) f k := by
  refine ⟨h'.1.trans h.1, fun x y hout => ?_⟩
  rw [h'.2 x y fun rect hr => hout rect (by simp [hr]), h.2 x y fun rect hr => hout rect (by simp [hr])]

theorem fill_rect_kept (h : f.fill_rect rect p = .ok f') : KeptOutside [rect] f f' := by
  unfold FrameBuffer.fill_rect at h
  split at h
  · cases h
  · cases h
    exact ⟨rfl, fun x y hout => if_neg (hout rect (by simp))⟩

theorem write_rect_kept (h : f.write_rect rect bgra = .ok f') : KeptOutside [rect] f f' := by
  unfold FrameBuffer.write_rect at h
  split at h
  · cases h
  · split at h
    · cases h
    · cases h
      exact ⟨rfl, fun x y hout => if_neg (hout rect (by simp))⟩

theorem apply_move_kept {dy : Int} (h : f.apply_move rect dy = .ok f') :
    KeptOutside [rect] f f' := by
  obtain ⟨hsize, hpixels⟩ := apply_move_spec f f' rect dy h
  exact ⟨hsize, fun x y hout => by rw [hpixels, if_neg (hout rect (by simp))]⟩

theorem fill_rect_error (h : f.fill_rect rect p = .error e) : e ≠ .StaleBatch := by
  unfold FrameBuffer.fill_rect at h
  split at h <;> cases h
  simp

theorem write_rect_error (h : f.write_rect rect bgra = .error e) : e ≠ .StaleBatch := by
  unfold FrameBuffer.write_rect at h
  split at h
  · cases h
    simp
  · split at h <;> cases h
    simp

theorem apply_move_error {dy : Int} (h : f.apply_move rect dy = .error e) : e ≠ .StaleBatch := by
  unfold FrameBuffer.apply_move at h
  simp only at h
  split at h <;> cases h
  simp

/-- What became of one operation: its area was drawn at most, or it failed and drew nothing. -/
def Drew (d : DrawState) (area : List Rect) (r : DrawState × Option CodecError) : Prop :=
  match r.2 with
  | none => KeptOutside area d.framebuffer r.1.framebuffer
  | some e => r.1.framebuffer = d.framebuffer ∧ e ≠ .StaleBatch

theorem drew_drawn {d : DrawState} {r : Except CodecError FrameBuffer}
    (hok : ∀ f, r = .ok f → KeptOutside [rect] d.framebuffer f)
    (herror : ∀ e, r = .error e → e ≠ .StaleBatch) : Drew d [rect] (d.drawn rect r) := by
  cases r with
  | ok f => exact hok f rfl
  | error e => exact ⟨rfl, herror e rfl⟩

theorem drew_cached (d : DrawState) (tile : Nat) (rect : Rect) (hash : TileHash) :
    Drew d [rect] (apply_cached d tile rect hash) := by
  unfold apply_cached
  split
  split
  · split
    · exact drew_drawn (d := { d with cache := _ }) (fun _ => write_rect_kept) fun _ =>
        write_rect_error
    · exact KeptOutside.refl _ _
  · exact KeptOutside.refl _ _

theorem drew_lossless (D : Deps) (d : DrawState) (rect : Rect) (hash : TileHash)
    (payload : List UInt8) : Drew d [rect] (apply_lossless D d rect hash payload) := by
  unfold apply_lossless
  split
  · rename_i e he
    refine ⟨rfl, ?_⟩
    rcases decode_lossless_error he with rfl | rfl <;> simp
  · split
    · rename_i e he
      refine ⟨rfl, ?_⟩
      unfold Size.new at he
      split at he <;> cases he
      simp
    · split
      · exact ⟨rfl, by simp⟩
      · split
        · rename_i e he
          exact ⟨rfl, write_rect_error he⟩
        · rename_i f hf
          exact write_rect_kept hf

theorem drew_op (D : Deps) (grid : TileGrid) (d : DrawState) (op : TileOp) :
    Drew d (op.area grid).toList (apply_op D grid d op) := by
  have hnone : Drew d [] (d, some .TileOutOfRange) := ⟨rfl, by simp⟩
  cases op with
  | Solid tile color =>
    simp only [apply_op, TileOp.area]
    cases grid.tile_rect tile with
    | none => exact hnone
    | some rect => exact drew_drawn (fun _ => fill_rect_kept) fun _ => fill_rect_error
  | Cached tile hash =>
    simp only [apply_op, TileOp.area]
    cases grid.tile_rect tile with
    | none => exact hnone
    | some rect => exact drew_cached d tile rect hash
  | Lossless tile hash payload =>
    simp only [apply_op, TileOp.area]
    cases grid.tile_rect tile with
    | none => exact hnone
    | some rect => exact drew_lossless D d rect hash payload
  | Lossy tile payload =>
    simp only [apply_op, TileOp.area]
    cases grid.tile_rect tile with
    | none => exact hnone
    | some rect =>
      simp
      split
      · rename_i e he
        refine ⟨rfl, ?_⟩
        rcases decode_lossy_error he with rfl | rfl <;> simp
      · exact drew_drawn (fun _ => write_rect_kept) fun _ => write_rect_error
  | Move rect dy => exact drew_drawn (fun _ => apply_move_kept) fun _ => apply_move_error

/-- The areas of the operations before the first that fails, when one does. -/
def areas_before_failure (D : Deps) (grid : TileGrid) :
    DrawState → List TileOp → Option (List Rect)
  | _, [] => none
  | d, op :: ops =>
    match apply_op D grid d op with
    | (d', none) => (areas_before_failure D grid d' ops).map ((op.area grid).toList ++ ·)
    | (_, some _) => some []

theorem apply_ops_failure (D : Deps) (grid : TileGrid) (ops : List TileOp) (d : DrawState) :
    match (apply_ops D grid d ops).2 with
    | none => areas_before_failure D grid d ops = none
    | some e => e ≠ .StaleBatch ∧ ∃ areas, areas_before_failure D grid d ops = some areas ∧
        KeptOutside areas d.framebuffer (apply_ops D grid d ops).1.framebuffer := by
  induction ops generalizing d with
  | nil => rfl
  | cons op ops ih =>
    have hop := drew_op D grid d op
    unfold apply_ops areas_before_failure
    cases hr : apply_op D grid d op with
    | mk d' err =>
      rw [hr] at hop
      cases err with
      | some e => exact ⟨hop.2, [], rfl, hop.1 ▸ KeptOutside.refl _ _⟩
      | none =>
        have hrest := ih d'
        simp only
        cases he : (apply_ops D grid d' ops).2 with
        | none =>
          rw [he] at hrest
          rw [hrest]
          rfl
        | some e =>
          rw [he] at hrest
          obtain ⟨hstale, areas, hareas, hkept⟩ := hrest
          exact ⟨hstale, _, by rw [hareas]; rfl, KeptOutside.trans hop hkept⟩

/-! ## What a batch leaves -/

/-- The areas drawn before a batch fails, when it is not stale and fails. -/
def Decoder.failing (D : Deps) (d : Decoder) (batch : Batch) : Option (List Rect) :=
  if d.is_stale batch then none
  else
    areas_before_failure D (TileGrid.new batch.size) ⟨(d.canvas batch).1, d.cache, [], []⟩ batch.ops

def FrameBuffer.pixelAt (f : FrameBuffer) (x y : Nat) : Option Pixel :=
  if x < f.size.width ∧ y < f.size.height then some (f.pixel x y) else none

def Decoder.pixelAt (d : Decoder) (x y : Nat) : Option Pixel :=
  d.framebuffer.bind fun f => f.pixelAt x y

/-- What became of a batch. -/
inductive BatchOutcome (D : Deps) (d : Decoder) (batch : Batch) :
    Decoder × Except CodecError Applied → Prop
  | stale (hstale : d.is_stale batch = true) (hfailing : d.failing D batch = none) :
      BatchOutcome D d batch (d, .error .StaleBatch)
  | failed {areas : List Rect} {f : FrameBuffer} {cache : ViewerCache} {e : CodecError}
      (hstale : d.is_stale batch = false) (hfailing : d.failing D batch = some areas)
      (hkept : KeptOutside areas (d.canvas batch).1 f) (herror : e ≠ .StaleBatch) :
      BatchOutcome D d batch
        (⟨some (batch.surface, batch.generation), some f, cache, d.last_sequence⟩, .error e)
  | applied {d' : Decoder} {applied : Applied} (hfailing : d.failing D batch = none) :
      BatchOutcome D d batch (d', .ok applied)

theorem apply_outcome (D : Deps) (d : Decoder) (batch : Batch) :
    BatchOutcome D d batch (d.apply D batch) := by
  have hfailing : ∀ h : d.is_stale batch = false, d.failing D batch =
      areas_before_failure D (TileGrid.new batch.size) ⟨(d.canvas batch).1, d.cache, [], []⟩
        batch.ops := by
    intro h
    simp [Decoder.failing, h]
  unfold Decoder.apply
  by_cases hstale : d.is_stale batch = true
  · rw [if_pos hstale]
    exact .stale hstale (by simp [Decoder.failing, hstale])
  · rw [if_neg hstale]
    rw [Bool.not_eq_true] at hstale
    have hops := apply_ops_failure D (TileGrid.new batch.size) batch.ops
      ⟨(d.canvas batch).1, d.cache, [], []⟩
    simp only
    cases hr : (apply_ops D (TileGrid.new batch.size) ⟨(d.canvas batch).1, d.cache, [], []⟩
      batch.ops).2 with
    | none =>
      rw [hr] at hops
      exact .applied ((hfailing hstale).trans hops)
    | some e =>
      rw [hr] at hops
      obtain ⟨herror, areas, hareas, hkept⟩ := hops
      exact .failed hstale ((hfailing hstale).trans hareas) hkept herror

/-- A batch that fails without being stale does not make later batches of its surface and
generation stale. -/
def NotWedged (D : Deps) (d : Decoder) (batch : Batch) : Prop :=
  ∀ e, d.is_stale batch = false → (d.apply D batch).2 = .error e →
    ∀ later : Batch, later.surface = batch.surface → later.generation = batch.generation →
      batch.sequence < later.sequence →
      ((d.apply D batch).1.apply D later).2 ≠ .error .StaleBatch

/-- An error changes neither the counter nor the identity, and no pixel outside of the areas of the
operations before the failing one. -/
def NothingElseChanged (D : Deps) (d : Decoder) (batch : Batch) : Prop :=
  ∀ e, (d.apply D batch).2 = .error e →
    (d.apply D batch).1.last_sequence = d.last_sequence ∧
      (d.apply D batch).1.surface = d.surface ∧
      ∀ x y, (∀ rect ∈ (d.failing D batch).getD [], ¬rect.Covers x y) →
        (d.apply D batch).1.pixelAt x y = d.pixelAt x y

/-- The batch goes on with the surface and generation that are shown, on a picture that is the one
shown wherever it does not draw. -/
def Continues (d : Decoder) (batch : Batch) (areas : List Rect) : Prop :=
  d.surface = some (batch.surface, batch.generation) ∧
    ∀ x y, (∀ rect ∈ areas, ¬rect.Covers x y) →
      FrameBuffer.pixelAt (d.canvas batch).1 x y = d.pixelAt x y

section
variable {D : Deps} {d : Decoder} {batch : Batch}

theorem KeptOutside.pixelAt_eq {areas : List Rect} {f f' : FrameBuffer} (h : KeptOutside areas f f')
    {x y : Nat} (hout : ∀ rect ∈ areas, ¬rect.Covers x y) : f'.pixelAt x y = f.pixelAt x y := by
  simp [FrameBuffer.pixelAt, h.1, h.2 x y hout]

/-- A later batch is stale after a failure exactly when the old counter is not below it. -/
theorem later_is_stale {cache : ViewerCache} {f : Option FrameBuffer} {later : Batch} {sequence : Nat}
    (hsurface : later.surface = batch.surface) (hgeneration : later.generation = batch.generation) :
    ((Decoder.mk (some (batch.surface, batch.generation)) f cache sequence).apply D later).2 =
      .error .StaleBatch ↔ later.sequence ≤ sequence := by
  generalize hd : Decoder.mk (some (batch.surface, batch.generation)) f cache sequence = d'
  have hstale : d'.is_stale later = true ↔ later.sequence ≤ sequence := by
    subst hd
    simp [Decoder.is_stale, hsurface, hgeneration]
  rw [← hstale]
  generalize hr : d'.apply D later = r
  have houtcome := apply_outcome D d' later
  rw [hr] at houtcome
  cases houtcome with
  | stale h _ => simp [h]
  | failed h _ _ herror => simpa [h] using herror
  | applied h =>
    simp
    by_contra hcon
    rw [Bool.not_eq_false] at hcon
    simp [Decoder.apply, hcon] at hr

end

/-- After a failure later batches are taken exactly when the counter was not ahead of the batch.
That, and that nothing else changed, is so exactly for batches that go on with what is shown. -/
theorem failed_batch_is_harmless_iff (D : Deps) (d : Decoder) (batch : Batch) :
    (NotWedged D d batch ↔
        ∀ areas, d.failing D batch = some areas → d.last_sequence ≤ batch.sequence) ∧
      (NotWedged D d batch ∧ NothingElseChanged D d batch ↔
        ∀ areas, d.failing D batch = some areas → Continues d batch areas) := by
  have houtcome := apply_outcome D d batch
  unfold NotWedged NothingElseChanged
  generalize d.apply D batch = r at houtcome ⊢
  cases houtcome with
  | stale hstale hfailing => simp [hstale, hfailing]
  | applied hfailing => simp [hfailing]
  | @failed areas f cache e hstale hfailing hkept herror =>
    have hwedged : (∀ later : Batch, later.surface = batch.surface →
        later.generation = batch.generation → batch.sequence < later.sequence →
        ((Decoder.mk (some (batch.surface, batch.generation)) (some f) cache
          d.last_sequence).apply D later).2 ≠ .error .StaleBatch) ↔
        d.last_sequence ≤ batch.sequence := by
      constructor
      · intro h
        by_contra hcon
        have hnext : batch.sequence + 1 ≤ d.last_sequence := by omega
        refine h { batch with sequence := batch.sequence + 1 } rfl rfl (Nat.lt_succ_self _) ?_
        rwa [later_is_stale]
        · rfl
        · rfl
      · intro hle later hsurface hgeneration hlater hcon
        have hstale' := (later_is_stale hsurface hgeneration).mp hcon
        omega
    have hpixels : ∀ x y, (∀ rect ∈ areas, ¬rect.Covers x y) →
        f.pixelAt x y = FrameBuffer.pixelAt (d.canvas batch).1 x y := fun x y hout =>
      hkept.pixelAt_eq hout
    simp only [hstale, hfailing, Except.error.injEq, forall_eq', true_imp_iff, Option.some.injEq,
      hwedged, Option.getD_some, true_and, iff_self]
    constructor
    · rintro ⟨-, hsurface, hsame⟩
      exact ⟨hsurface.symm, fun x y hout => (hpixels x y hout).symm.trans (hsame x y hout)⟩
    · rintro ⟨hsurface, hsame⟩
      refine ⟨?_, hsurface.symm, fun x y hout => (hpixels x y hout).trans (hsame x y hout)⟩
      simp only [Decoder.is_stale, hsurface, beq_self_eq_true, Bool.true_and, Bool.or_eq_false_iff,
        decide_eq_false_iff_not] at hstale
      omega

/-- A decoder that has applied batch 100 of a generation. -/
def busyDecoder : Decoder := ((Decoder.new 16).apply shortDeps ⟨1, 1, 100, pairSize, []⟩).1

/-- The first batch of the next generation, with pixels that do not match their hash. -/
def damagedBatch : Batch :=
  ⟨1, 2, 1, pairSize,
    [.Lossless 0 0 [99, 100, 18, 97, 96, 184, 196, 192, 192, 192, 200, 200, 8, 0]]⟩

/-- The damaged batch travels and is refused as corrupt. After that the decoder calls itself one of
the new generation, and the batch after the damaged one is stale. -/
theorem a_damaged_batch_wedges : damagedBatch.encode.isOk = true ∧
      (busyDecoder.apply shortDeps damagedBatch).2 = .error .CorruptPayload ∧
      (busyDecoder.apply shortDeps damagedBatch).1.surface ≠ busyDecoder.surface ∧
      ((busyDecoder.apply shortDeps damagedBatch).1.apply shortDeps ⟨1, 2, 2, pairSize, []⟩).2 =
        .error .StaleBatch ∧ ¬NotWedged shortDeps busyDecoder damagedBatch ∧
      ¬NothingElseChanged shortDeps busyDecoder damagedBatch := by
  have hfails : (busyDecoder.apply shortDeps damagedBatch).2 = .error .CorruptPayload := by
    decide +kernel
  have hmoved : (busyDecoder.apply shortDeps damagedBatch).1.surface ≠ busyDecoder.surface := by
    decide +kernel
  have hstale : ((busyDecoder.apply shortDeps damagedBatch).1.apply shortDeps
      ⟨1, 2, 2, pairSize, []⟩).2 = .error .StaleBatch := by
    decide +kernel
  refine ⟨by decide +kernel, hfails, hmoved, hstale, fun h => ?_, fun h => ?_⟩
  · exact h _ (by decide +kernel) hfails ⟨1, 2, 2, pairSize, []⟩ rfl rfl (by decide) hstale
  · exact hmoved (h _ hfails).2.1

end multiplex_screen_codec
