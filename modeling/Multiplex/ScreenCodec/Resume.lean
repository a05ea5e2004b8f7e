-- Outages and resumes. Once a batch is lost all later ones are lost, until the
-- viewer reconnects and the encoder takes its belief back to a batch that the
-- viewer applied. What it still believes after that, the viewer shows.
import Multiplex.ScreenCodec.Lockstep

namespace multiplex_screen_codec

/-! ## Taking the belief back -/

variable (l : List (Nat × TileHash))

theorem mem_foldl_forget (s : CacheShadow) (h : TileHash) :
    h ∈ (l.foldl (fun s i => s.forget i.2) s).index.hashes ↔
      h ∈ s.index.hashes ∧ ∀ i ∈ l, i.2 ≠ h := by
  induction l generalizing s with
  | nil => simp
  | cons i l ih =>
    rw [List.foldl_cons, ih]
    simp only [CacheShadow.forget, (remove_spec s.index i.2).1, List.mem_filter, bne_iff_ne,
      List.mem_cons, forall_eq_or_imp, and_assoc]
    constructor
    · rintro ⟨h1, h2, h3⟩
      exact ⟨h1, Ne.symm h2, h3⟩
    · rintro ⟨h1, h2, h3⟩
      exact ⟨h1, Ne.symm h2, h3⟩

theorem nodup_foldl_forget (s : CacheShadow) (hn : s.index.hashes.Nodup) :
    (l.foldl (fun s i => s.forget i.2) s).index.hashes.Nodup := by
  induction l generalizing s with
  | nil => exact hn
  | cons i l ih =>
    apply ih
    simp only [CacheShadow.forget, (remove_spec s.index i.2).1]
    exact hn.filter _

theorem resume_cases (e : Encoder) (a : Nat) : e.resume a = (.Full, e.reset_viewer) ∨
      ∃ n, n = min a (e.next_sequence - 1) ∧ 0 < n ∧ e.acked ≤ n ∧ e.oldest_resumable ≤ n ∧
        e.resume a = (.Partial, e.rollBack n) := by
  unfold Encoder.resume
  simp only
  split
  · exact .inl rfl
  · refine .inr ⟨_, rfl, ?_, ?_, ?_, rfl⟩ <;> omega

theorem rollBack_viewer (e : Encoder) (n t : Nat) : (e.rollBack n).viewer t = .Unknown ∨
      ((e.rollBack n).viewer t = e.viewer t ∧ e.sent_at t ≤ n) := by
  unfold Encoder.rollBack
  simp only
  split
  · exact .inl rfl
  · rename_i h
    refine .inr ⟨rfl, ?_⟩
    simp only [Encoder.touched_after, Bool.or_eq_true, decide_eq_true_eq, not_or] at h
    omega

def Encoder.report (e : Encoder) (misses : List CacheMiss) : Encoder :=
  misses.foldl Encoder.cache_miss e

section

variable {D : Deps} {tiles : Set TileImage}

variable {e : Encoder} {last : Option Frame} {fb : FrameBuffer} {L : Nat → Option (List UInt8)}

section
variable (h : EncoderOk D tiles e last)
include h

theorem encoderOk_reset : EncoderOk D tiles e.reset_viewer last :=
  encoderOk_forget h rfl rfl rfl rfl
    (by simp [Encoder.reset_viewer, CacheShadow.clear, CacheIndex.clear, CacheIndex.hashes])
    fun _ => .inr rfl

theorem encoderOk_rollBack (n : Nat) : EncoderOk D tiles (e.rollBack n) last := by
  refine encoderOk_forget h rfl rfl rfl rfl (nodup_foldl_forget _ _ h.nodup) ?_
  intro t
  rcases rollBack_viewer e n t with hv | ⟨hv, -⟩
  · exact .inr hv
  · exact .inl hv

theorem encoderOk_cache_miss (m : CacheMiss) : EncoderOk D tiles (e.cache_miss m) last := by
  refine encoderOk_forget h rfl rfl rfl rfl ?_ ?_
  · simp only [Encoder.cache_miss, CacheShadow.forget, (remove_spec e.shadow.index m.hash).1]
    exact h.nodup.filter _
  · intro t
    by_cases ht : t = m.tile
    · exact .inr (by simp [Encoder.cache_miss, ht])
    · exact .inl (by simp [Encoder.cache_miss, ht])

end

/-- After a resume to before the first lost batch, nothing that was lost is believed. -/
theorem Shows.rollBack {X Y : Nat → Prop} {n : Nat} (h : Shows D e fb L X)
    (hX : ∀ t, X t → Y t ∨ n < e.sent_at t) : Shows D (e.rollBack n) fb L Y := by
  refine shows_step h rfl rfl ?_
  intro t ht hy
  rcases rollBack_viewer e n t with hv | ⟨hv, hle⟩
  · exact .inl hv
  · refine .inr (.inl ⟨fun hx => ?_, fun _ _ _ => rfl, fun _ _ _ => rfl, rfl, hv⟩)
    rcases hX t hx with hc | hc
    · exact hy hc
    · omega

variable {r : Encoder}

/-- A batch that is lost: only its own tiles are not as they are believed to be. -/
theorem Shows.lost {X Y : Nat → Prop} {ops : List TileOp} (h : Shows D e fb L X)
    (hp : Produced D tiles e r last ops)
    (hX : ∀ t < e.grid.len, ¬ Y t → r.sent_at t ≠ e.next_sequence ∧ ¬ X t) :
    Shows D r fb (lastLossy L ops) Y := by
  have hg := hp.advance.setup.grid
  refine shows_step h hg rfl ?_
  intro t ht hy
  obtain ⟨hnot, hx⟩ := hX t ht hy
  rcases hp.advance.tiles t ht with hs | ⟨-, hsrc, hv⟩
  · exact absurd hs hnot
  · rcases hv with hv | hv
    · refine .inr (.inl ⟨hx, hsrc, fun _ _ _ => rfl, ?_, hv⟩)
      apply lastLossy_other
      intro p hm
      exact hnot (hp.lossy t (by rw [hg]; exact ht) p hm)
    · exact .inl hv

theorem Shows.finish {X : Nat → Prop} (h : Shows D r fb L X) (ops : List TileOp) :
    Shows D (r.finish ops).2 fb L X :=
  h.forget rfl rfl fun _ _ => .inl rfl

end

/-! ## Runs with outages -/

/-- The calls on the encoder. A batch that is not delivered brings the line down. A viewer that is
refused a resume may start over with a new decoder. -/
inductive StreamEvent
  | Encode (frame : Frame) (damage : Option (List Rect)) (delivered : Bool)
  | EncodeAt (frame : Frame) (damage : Option (List Rect)) (now_ms : Nat) (delivered : Bool)
  | RefineAt (now_ms budget_bytes : Nat) (delivered : Bool)
  | SetLossyDetail (detail : LossyDetail)
  | Acknowledge (sequence : Nat)
  | CacheMiss (miss : CacheMiss)
  | Resume (acknowledged : Nat) (fresh : Bool)

/-- Both sides, and what the run has done to them so far. -/
structure Stream where
  encoder : Encoder
  decoder : Decoder
  /-- The first batch lost since the viewer last reconnected. -/
  lost : Option Nat
  /-- The misses of the viewer that the encoder has not heard of. -/
  unreported : List CacheMiss
  last : Option Frame
  lossy : Nat → Option (List UInt8)
  /-- The hashes in the shadow when each batch was produced. -/
  shadowAt : Nat → List TileHash

def Stream.start (surface : SurfaceId) (generation : Generation) (size : Size)
    (config : EncoderConfig) (cache_bytes : Nat) : Stream :=
  ⟨Encoder.new surface generation size config, Decoder.new cache_bytes, none, [], none,
    fun _ => none, fun _ => []⟩

/-- A delivered batch is applied. A lost one stays lost, with all that follow it. -/
def Stream.send (D : Deps) (s : Stream) (last : Option Frame) (delivered : Bool)
    (p : Batch × Encoder) : Stream :=
  let sent := { s with
    encoder := p.2
    last
    lossy := lastLossy s.lossy p.1.ops
    shadowAt := Function.update s.shadowAt p.1.sequence p.2.shadow.index.hashes }
  if delivered && s.lost.isNone then
    match s.decoder.apply D p.1 with
    | (decoder, .ok applied) =>
      { sent with decoder, unreported := s.unreported ++ applied.misses }
    | (decoder, .error _) => { sent with decoder }
  else { sent with lost := some (s.lost.getD p.1.sequence) }

def Stream.encoded (D : Deps) (s : Stream) (frame : Frame) (delivered : Bool) :
    Except CodecError (Batch × Encoder) → Stream
  | .ok p => s.send D (some frame) delivered p
  | .error _ => s

def Stream.resumed (s : Stream) (fresh : Bool) : Resume × Encoder → Stream
  | (.Partial, encoder) => { s with encoder, lost := none }
  | (.Full, encoder) =>
    { s with
      encoder
      lost := none
      unreported := []
      decoder := if fresh then Decoder.new s.decoder.cache.index.budget else s.decoder }

def Stream.step (D : Deps) (s : Stream) : StreamEvent → Stream
  | .Encode frame damage delivered =>
    s.encoded D frame delivered (s.encoder.encode D frame damage)
  | .EncodeAt frame damage now_ms delivered =>
    s.encoded D frame delivered (s.encoder.encode_at D frame damage now_ms)
  | .RefineAt now_ms budget_bytes delivered =>
    match s.encoder.refine_at D now_ms budget_bytes with
    | some p => s.send D s.last delivered p
    | none => s
  | .SetLossyDetail detail => { s with encoder := s.encoder.set_lossy_detail detail }
  | .Acknowledge sequence => { s with encoder := s.encoder.acknowledge sequence }
  | .CacheMiss miss =>
    { s with
      encoder := s.encoder.cache_miss miss
      unreported := s.unreported.filter fun m => decide (m ≠ miss) }
  | .Resume acknowledged fresh => s.resumed fresh (s.encoder.resume acknowledged)

def Stream.run (D : Deps) (s : Stream) (events : List StreamEvent) : Stream :=
  events.foldl (Stream.step D) s

def StreamEvent.frame? : StreamEvent → Option (Frame × Option (List Rect))
  | .Encode frame damage _ | .EncodeAt frame damage _ _ => some (frame, damage)
  | _ => none

/-- Misses are reported before a frame is encoded, and a viewer that resumes partly has every batch
up to the one it names, as far as they came after it last reconnected. -/
def Stream.Allows (s : Stream) : StreamEvent → Prop
  | .Encode frame damage _ | .EncodeAt frame damage _ _ =>
    s.encoder.FrameOk s.last frame damage ∧ s.unreported = []
  | .Resume acknowledged _ =>
    (s.encoder.resume acknowledged).1 = .Partial → ∀ n, s.lost = some n → acknowledged < n
  | _ => True

def Stream.AllowsAll (D : Deps) : Stream → List StreamEvent → Prop
  | _, [] => True
  | s, event :: events => s.Allows event ∧ Stream.AllowsAll D (s.step D event) events

def Stream.tiles (D : Deps) : Stream → List StreamEvent → Set TileImage
  | _, [] => ∅
  | s, event :: events =>
    { i | ∃ frame damage, event.frame? = some (frame, damage) ∧
      i ∈ s.encoder.hashedTiles D frame damage } ∪ Stream.tiles D (s.step D event) events

/-! ## What every run keeps -/

/-- The tiles that need not show what is believed of them: missed, or drawn by a lost batch. -/
def Stream.Excused (s : Stream) (t : Nat) : Prop :=
  Missed s.unreported t ∨ ∃ n, s.lost = some n ∧ n ≤ s.encoder.sent_at t

/-- Every hash in the shadow was there when batch `k` was produced, or the history names it after
`k`, for every `k` that a resume may go back to. -/
def ShadowTraced (e : Encoder) (shadowAt : Nat → List TileHash) : Prop :=
  ∀ k, 0 < k → e.acked ≤ k → e.oldest_resumable ≤ k → k < e.next_sequence →
    ∀ h ∈ e.shadow.index.hashes, h ∈ shadowAt k ∨ ∃ n, k < n ∧ (n, h) ∈ e.inserted

structure Intact (D : Deps) (tiles : Set TileImage) (s : Stream) : Prop where
  encoder : EncoderOk D tiles s.encoder s.last
  sound : CacheSound D tiles s.decoder.cache
  picture : ∃ fb, Follows s.decoder s.encoder fb ∧ Shows D s.encoder fb s.lossy s.Excused
  traced : ShadowTraced s.encoder s.shadowAt
  behind : ∀ n, s.lost = some n → s.decoder.last_sequence < n ∧ n ≤ s.encoder.next_sequence
  drawn : s.decoder.framebuffer = none → s.decoder.last_sequence = 0

variable {shadowAt : Nat → List TileHash}

theorem shadowTraced_finish {e r : Encoder} (ops : List TileOp) (h : ShadowTraced e shadowAt)
    (hadv : Advance e.next_sequence e r) : ShadowTraced (r.finish ops).2
      (Function.update shadowAt e.next_sequence r.shadow.index.hashes) := by
  intro k hk hacked hold hlt h' hh
  simp only [Encoder.finish, hadv.setup.next_sequence] at hlt hacked hold hh ⊢
  by_cases hkn : k = e.next_sequence
  · subst hkn
    exact .inl (by simpa using hh)
  · have hkn' : k < e.next_sequence := by omega
    rw [Function.update_of_ne hkn]
    have hlog := hadv.logged
    rcases hlog.gained h' hh with hh | hh | hn
    · rcases h k hk (by rw [← hadv.setup.acked]; exact hacked) (le_trans hlog.oldest hold) hkn' h' hh
        with hin | ⟨n, hn, hin⟩
      · exact .inl hin
      · rcases hlog.kept n h' hin with hin | hle
        · exact .inr ⟨n, hn, hin⟩
        · omega
    · exact .inr ⟨_, hkn', hh⟩
    · omega

theorem ShadowTraced.drop {e e' : Encoder} (h : ShadowTraced e shadowAt)
    (hseq : e'.next_sequence = e.next_sequence) (hold : e'.oldest_resumable = e.oldest_resumable)
    (hacked : e.acked ≤ e'.acked) (hsub : ∀ k ∈ e'.shadow.index.hashes, k ∈ e.shadow.index.hashes)
    (hins : ∀ n k, (n, k) ∈ e.inserted → e'.acked < n → k ∈ e'.shadow.index.hashes →
      (n, k) ∈ e'.inserted) : ShadowTraced e' shadowAt := by
  intro k hk ha ho hlt x hx
  rw [hold] at ho
  rw [hseq] at hlt
  rcases h k hk (le_trans hacked ha) ho hlt x (hsub x hx) with hin | ⟨n, hn, hin⟩
  · exact .inl hin
  · exact .inr ⟨n, hn, hins n x hin (by omega) hx⟩

theorem mem_dropWhile_of_not {α : Type} (p : α → Bool) (l : List α) (x : α) (hx : x ∈ l)
    (hp : p x = false) : x ∈ l.dropWhile p := by
  induction l with
  | nil => cases hx
  | cons a l ih =>
    rw [List.dropWhile_cons]
    split
    · rename_i ha
      rcases List.mem_cons.mp hx with rfl | hx
      · rw [ha] at hp
        cases hp
      · exact ih hx
    · exact hx

theorem shadowTraced_acknowledge {e : Encoder} (h : ShadowTraced e shadowAt) (sequence : Nat) :
    ShadowTraced (e.acknowledge sequence) shadowAt := by
  unfold Encoder.acknowledge
  simp only
  split
  · exact h
  · refine h.drop rfl rfl ?_ (fun _ => id) ?_
    · simp only
      omega
    · intro n k hin hn _
      exact mem_dropWhile_of_not _ _ _ hin (decide_eq_false (not_le.mpr hn))

theorem shadowTraced_rollBack {e : Encoder} (h : ShadowTraced e shadowAt) {n : Nat}
    (hn : e.acked ≤ n) : ShadowTraced (e.rollBack n) shadowAt := by
  refine h.drop rfl rfl hn ?_ ?_
  · intro k hk
    exact ((mem_foldl_forget _ _ k).mp hk).1
  · intro m k hin hm hk
    -- such a hash was forgotten
    have hnot := ((mem_foldl_forget _ _ k).mp hk).2 (m, k)
      (by simp; exact ⟨hin, hm⟩)
    exact absurd rfl hnot

/-- After a resume to batch `n` the shadow holds only what it held when `n` was produced. -/
theorem rollBack_shadow {e : Encoder} (h : ShadowTraced e shadowAt) {n : Nat} (h0 : 0 < n)
    (hacked : e.acked ≤ n) (hold : e.oldest_resumable ≤ n) (hlt : n < e.next_sequence)
    (k : TileHash) (hk : k ∈ (e.rollBack n).shadow.index.hashes) : k ∈ shadowAt n := by
  rcases shadowTraced_rollBack h hacked n h0 (le_refl n) hold hlt k hk with hin | ⟨m, -, hin⟩
  · exact hin
  · cases hin

section

variable {D : Deps} {tiles : Set TileImage}

theorem intact_start (surface : SurfaceId) (generation : Generation) (size : Size)
    (config : EncoderConfig) (cache_bytes : Nat) :
    Intact D tiles (Stream.start surface generation size config cache_bytes) := by
  refine ⟨encoderOk_new D tiles surface generation size config, cacheSound_new D tiles _,
    ⟨FrameBuffer.new size, ⟨by simp [Stream.start, Decoder.new, Encoder.new],
      .inl ⟨rfl, rfl, rfl⟩⟩, ⟨rfl, ?_, ?_⟩⟩, ?_, by simp [Stream.start],
      by simp [Stream.start, Decoder.new]⟩
  · intro t _ _ h hh
    cases hh
  · intro t _ _ h hh
    cases hh
  · intro k _ _ _ _ h hh
    cases hh

variable {s : Stream} {last : Option Frame} {e : Encoder} {fb : FrameBuffer}
  {L : Nat → Option (List UInt8)}

theorem intact_send {r : Encoder} {ops : List TileOp} (h : Intact D tiles s)
    (hp : Produced D tiles s.encoder r last ops)
    (hm : ∀ rect dy, TileOp.Move rect dy ∈ ops → s.unreported = []) (delivered : Bool) :
    Intact D tiles (s.send D last delivered (r.finish ops)) := by
  obtain ⟨fb, hfol, hshows⟩ := h.picture
  have hset := hp.advance.setup
  have htr := shadowTraced_finish ops h.traced hp.advance
  have hseq : (r.finish ops).1.sequence = s.encoder.next_sequence := hset.next_sequence
  have hsh : (r.finish ops).2.shadow = r.shadow := rfl
  have hnext : s.decoder.last_sequence < (r.finish ops).2.next_sequence := by
    have := hfol.sequence
    simp only [Encoder.finish, hset.next_sequence]
    omega
  by_cases hdel : delivered = true ∧ s.lost = none
  · obtain ⟨rfl, hlost⟩ := hdel
    obtain ⟨d', hd⟩ := hp.delivered fb s.decoder.cache s.lossy s.Excused (by
      rintro rect dy hmove t - u - (⟨m, hmem, -⟩ | ⟨n, hn, -⟩)
      · rw [hm rect dy hmove] at hmem
        cases hmem
      · rw [hlost] at hn
        cases hn) hshows h.sound
    obtain ⟨dec, reset, happ, h1, h2, h3, h4⟩ := apply_delivered hset hfol hshows.size hd
    simp [Stream.send, hlost, happ, hseq, hsh]
    refine ⟨encoderOk_finish hp.ok ops, by simp only [h3]; exact hd.sound,
      ⟨d'.framebuffer, ⟨?_, .inr ⟨?_, h2⟩⟩, ?_⟩, htr, by simp, by simp [h2]⟩
    · simp only [h4, Encoder.finish, hset.next_sequence]
      omega
    · rw [h1]
      simp [Encoder.finish, hset.surface, hset.generation]
    · have hs := hd.shows.mono (Y := Missed (s.unreported ++ d'.misses)) (by
        rintro t ((⟨m, hmem, rfl⟩ | ⟨n, hn, -⟩) | ⟨m, hmem, rfl⟩)
        · exact ⟨m, List.mem_append_left _ hmem, rfl⟩
        · rw [hlost] at hn
          cases hn
        · exact ⟨m, List.mem_append_right _ hmem, rfl⟩)
      exact (hs.finish ops).mono fun t => .inl
  · have hoff : (delivered && s.lost.isNone) = false := by
      cases delivered
      · rfl
      · simp at hdel
        cases hl : s.lost with
        | none => exact absurd hl hdel
        | some n => rfl
    have hge : s.decoder.last_sequence < s.lost.getD s.encoder.next_sequence ∧
        s.lost.getD s.encoder.next_sequence ≤ s.encoder.next_sequence := by
      cases hl : s.lost with
      | none => exact ⟨hfol.sequence, le_rfl⟩
      | some n => exact h.behind n hl
    simp [Stream.send, hoff, hseq, hsh]
    refine ⟨encoderOk_finish hp.ok ops, h.sound, ⟨fb, ⟨hnext, ?_⟩, ?_⟩, htr, ?_, h.drawn⟩
    · simp only [Encoder.finish, hset.surface, hset.generation, hset.grid]
      exact hfol.canvas
    · have hs := hshows.lost (Y := fun t => Missed s.unreported t ∨
        s.lost.getD s.encoder.next_sequence ≤ r.sent_at t) hp (by
          intro t ht hy
          rw [not_or, not_le] at hy
          refine ⟨by omega, ?_⟩
          rintro (hx | ⟨n, hn, hle⟩)
          · exact hy.1 hx
          · rw [hn, Option.getD_some] at hy hge
            rcases hp.advance.tiles t ht with hs | ⟨hs, -⟩ <;> omega)
      refine (hs.finish ops).mono ?_
      rintro t (hx | hx)
      · exact .inl hx
      · exact .inr ⟨_, rfl, hx⟩
    · intro n hn
      cases hn
      simp only [Encoder.finish, hset.next_sequence]
      omega

theorem intact_encoded (hD : D.InflateUndoesDeflate) (hcol : NoCollision D tiles)
    (h : Intact D tiles s) (frame : Frame) (damage : Option (List Rect)) (now_ms : Option Nat)
    (delivered : Bool) (hf : s.encoder.FrameOk s.last frame damage) (hu : s.unreported = [])
    (hin : s.encoder.hashedTiles D frame damage ⊆ tiles) :
    Intact D tiles (s.encoded D frame delivered (s.encoder.encode_inner D frame damage now_ms)) := by
  obtain ⟨hsize, hfull, hdam⟩ := hf
  obtain ⟨r, ops, henc, hp, -⟩ := encode_produced damage now_ms hD hcol h.encoder hsize hfull hdam
    hin
  rw [henc]
  exact intact_send h hp (fun _ _ _ => hu) delivered

theorem Shows.cache_miss {X Y : Nat → Prop} (h : Shows D e fb L X) (m : CacheMiss)
    (hX : ∀ t, X t → t = m.tile ∨ Y t) : Shows D (e.cache_miss m) fb L Y := by
  refine shows_step h rfl rfl ?_
  intro t ht hy
  by_cases hm : t = m.tile
  · exact .inl (by simp [Encoder.cache_miss, hm])
  · refine .inr (.inl ⟨fun hx => ?_, fun _ _ _ => rfl, fun _ _ _ => rfl, rfl,
      by simp [Encoder.cache_miss, hm]⟩)
    rcases hX t hx with hc | hc
    · exact hm hc
    · exact hy hc

theorem shadowTraced_cache_miss {shadowAt : Nat → List TileHash} (h : ShadowTraced e shadowAt)
    (m : CacheMiss) : ShadowTraced (e.cache_miss m) shadowAt := by
  refine h.drop rfl rfl le_rfl ?_ fun n k hin _ _ => hin
  intro k hk
  simp [Encoder.cache_miss, CacheShadow.forget, (remove_spec e.shadow.index m.hash).1] at hk
  exact hk.1

theorem shadowTraced_reset (e : Encoder) (shadowAt : Nat → List TileHash) :
    ShadowTraced e.reset_viewer shadowAt := by
  intro k _ _ _ _ h hh
  cases hh

theorem intact_resume (h : Intact D tiles s) (a : Nat) (fresh : Bool)
    (ha : s.Allows (.Resume a fresh)) : Intact D tiles (s.resumed fresh (s.encoder.resume a)) := by
  obtain ⟨fb, hfol, hshows⟩ := h.picture
  rcases resume_cases s.encoder a with hr | ⟨n, hn, h0, hacked, hold, hr⟩
  · rw [hr]
    have hunknown : ∀ fb' : FrameBuffer, fb'.size = s.encoder.grid.size →
        ∀ X, Shows D s.encoder.reset_viewer fb' s.lossy X := by
      intro fb' hsz X
      refine ⟨hsz, ?_, ?_⟩
      · intro t _ _ k hk
        cases hk
      · intro t _ _ k hk
        cases hk
    simp only [Stream.resumed]
    cases fresh with
    | true =>
      exact ⟨encoderOk_reset h.encoder, cacheSound_new D tiles _,
        ⟨FrameBuffer.new s.encoder.grid.size, ⟨Nat.zero_lt_of_lt hfol.sequence,
          .inl ⟨rfl, rfl, rfl⟩⟩, hunknown _ rfl _⟩, shadowTraced_reset _ _, by simp,
        fun _ => rfl⟩
    | false =>
      exact ⟨encoderOk_reset h.encoder, h.sound, ⟨fb, ⟨hfol.sequence, hfol.canvas⟩,
        hunknown fb hshows.size _⟩, shadowTraced_reset _ _, by simp, h.drawn⟩
  · have hbefore := ha (by rw [hr])
    rw [hr]
    refine ⟨encoderOk_rollBack h.encoder n, h.sound, ⟨fb, ⟨hfol.sequence, hfol.canvas⟩, ?_⟩,
      shadowTraced_rollBack h.traced hacked, by simp [Stream.resumed], h.drawn⟩
    refine (hshows.rollBack (Y := Missed s.unreported) ?_).mono fun t => .inl
    rintro t (hx | ⟨m, hm, hle⟩)
    · exact .inl hx
    · have := hbefore m hm
      exact .inr (by omega)

theorem intact_step (hD : D.InflateUndoesDeflate) (hcol : NoCollision D tiles)
    (h : Intact D tiles s) (event : StreamEvent) (ha : s.Allows event)
    (hin : ∀ frame damage, event.frame? = some (frame, damage) →
      s.encoder.hashedTiles D frame damage ⊆ tiles) : Intact D tiles (s.step D event) := by
  obtain ⟨fb, hfol, hshows⟩ := h.picture
  cases event with
  | Encode frame damage delivered =>
    exact intact_encoded hD hcol h frame damage none delivered ha.1 ha.2 (hin _ _ rfl)
  | EncodeAt frame damage now_ms delivered =>
    exact intact_encoded hD hcol h frame damage (some now_ms) delivered ha.1 ha.2 (hin _ _ rfl)
  | RefineAt now_ms budget_bytes delivered =>
    simp only [Stream.step]
    cases hr : s.encoder.refine_at D now_ms budget_bytes with
    | none => exact h
    | some p =>
      obtain ⟨r, ops, rfl, hp, hno⟩ := refine_produced hD hcol h.encoder hr
      exact intact_send h hp (fun rect dy hm => absurd hm (hno rect dy)) delivered
  | SetLossyDetail detail =>
    exact ⟨encoderOk_set_lossy_detail h.encoder detail, h.sound,
      ⟨fb, ⟨hfol.sequence, hfol.canvas⟩, hshows.forget rfl rfl fun _ _ => .inl rfl⟩, h.traced,
      h.behind, h.drawn⟩
  | Acknowledge sequence =>
    obtain ⟨hset, h2, h3, -, -, -, h4⟩ := acknowledge_rest s.encoder sequence
    refine ⟨encoderOk_acknowledge h.encoder sequence, h.sound, ⟨fb, ⟨?_, ?_⟩, ?_⟩,
      shadowTraced_acknowledge h.traced sequence, ?_, h.drawn⟩
    · simp only [Stream.step, hset.next_sequence]
      exact hfol.sequence
    · simp only [Stream.step, hset.grid, hset.surface, hset.generation]
      exact hfol.canvas
    · refine (hshows.forget hset.grid h2 fun t _ => .inl (by rw [h3])).mono ?_
      intro t hx
      simpa only [Stream.Excused, Stream.step, h4] using hx
    · simp only [Stream.step, hset.next_sequence]
      exact h.behind
  | CacheMiss miss =>
    refine ⟨encoderOk_cache_miss h.encoder miss, h.sound, ⟨fb, ⟨hfol.sequence, hfol.canvas⟩,
      hshows.cache_miss miss ?_⟩, shadowTraced_cache_miss h.traced miss, h.behind, h.drawn⟩
    rintro t (⟨m, hm, rfl⟩ | hx)
    · by_cases heq : m = miss
      · exact .inl (by rw [heq])
      · exact .inr (.inl ⟨m, by simp [Stream.step, hm, heq], rfl⟩)
    · exact .inr (.inr hx)
  | Resume acknowledged fresh => exact intact_resume h acknowledged fresh ha

theorem intact_run (hD : D.InflateUndoesDeflate) (hcol : NoCollision D tiles)
    (events : List StreamEvent) (s : Stream) (h : Intact D tiles s) (ha : s.AllowsAll D events)
    (hin : s.tiles D events ⊆ tiles) : Intact D tiles (s.run D events) := by
  induction events generalizing s with
  | nil => exact h
  | cons event events ih =>
    refine ih (s.step D event) (intact_step hD hcol h event ha.1 ?_) ha.2
      (fun i hi => hin (.inr hi))
    intro frame damage hframe i hi
    exact hin (.inl ⟨frame, damage, hframe, hi⟩)

/-! ## After a resume -/

variable (misses : List CacheMiss)

theorem report_setup (e : Encoder) : SameSetup e (e.report misses) := by
  induction misses generalizing e with
  | nil => exact SameSetup.refl e
  | cons m misses ih =>
    have h1 : SameSetup e (e.cache_miss m) := ⟨rfl, rfl, rfl, rfl, rfl, rfl, rfl⟩
    exact h1.trans (ih (e.cache_miss m))

theorem encoderOk_report (h : EncoderOk D tiles e last) :
    EncoderOk D tiles (e.report misses) last := by
  induction misses generalizing e with
  | nil => exact h
  | cons m misses ih => exact ih (encoderOk_cache_miss h m)

theorem Shows.report {X : Nat → Prop} (h : Shows D e fb L (fun t => X t ∨ Missed misses t)) :
    Shows D (e.report misses) fb L X := by
  induction misses generalizing e with
  | nil =>
    refine h.mono ?_
    rintro t (hx | ⟨m, hm, -⟩)
    · exact hx
    · cases hm
  | cons m misses ih =>
    refine ih (h.cache_miss m ?_)
    rintro t (hx | ⟨m', hm, rfl⟩)
    · exact .inr (.inl hx)
    · rcases List.mem_cons.mp hm with rfl | hm
      · exact .inl rfl
      · exact .inr (.inr ⟨m', hm, rfl⟩)

/-- A viewer that shows all that is believed takes the next frame, and once its misses are reported
every exact tile is that of the frame. -/
theorem next_frame_exact (hD : D.InflateUndoesDeflate) (hcol : NoCollision D tiles) {d : Decoder}
    {frame : Frame} {damage : Option (List Rect)} (now_ms : Option Nat)
    (hok : EncoderOk D tiles e last) (hc : CacheSound D tiles d.cache) (hfol : Follows d e fb)
    (hs : Shows D e fb L (fun _ => False)) (hf : e.FrameOk last frame damage)
    (hin : e.hashedTiles D frame damage ⊆ tiles) :
    ∃ batch e' d' applied fb', e.encode_inner D frame damage now_ms = .ok (batch, e') ∧
      d.apply D batch = (d', .ok applied) ∧ d'.framebuffer = some fb' ∧
      ∀ t < e.grid.len, ∀ h, (e'.report applied.misses).viewer t = .Exact h →
        fb'.SameOn frame (e.grid.rectOf t) := by
  obtain ⟨hsize, hfull, hdam⟩ := hf
  obtain ⟨r, ops, henc, hp, -⟩ := encode_produced damage now_ms hD hcol hok hsize hfull hdam hin
  obtain ⟨d', hd⟩ := hp.delivered fb d.cache L _ (fun _ _ _ _ _ _ _ => id) hs hc
  have hset := hp.advance.setup
  obtain ⟨dec, reset, happ, -, h2, -, -⟩ := apply_delivered hset hfol hs.size hd
  refine ⟨_, _, dec, _, d'.framebuffer, henc, happ, h2, ?_⟩
  intro t ht k hk
  have hg : ((r.finish ops).2.report d'.misses).grid = e.grid :=
    (report_setup d'.misses (r.finish ops).2).grid.trans hset.grid
  have hshows := (hd.shows.finish ops).report d'.misses
  have hokr := encoderOk_report d'.misses (encoderOk_finish hp.ok ops)
  have ht' : t < ((r.finish ops).2.report d'.misses).grid.len := by rw [hg]; exact ht
  have hfb := hshows.exact t ht' id k hk
  have hsrc := (encoderOk_tile hokr hcol ht' (.inl hk)).2
  rw [hg] at hfb hsrc
  exact hfb.trans hsrc

/-- What a partial resume leaves, for a viewer with every batch up to the one it names. -/
theorem intact_resumed {a : Nat} (h : Intact D tiles s)
    (hviewer : s.decoder.last_sequence = min a (s.encoder.next_sequence - 1))
    (hpart : (s.encoder.resume a).1 = .Partial) :
    ∃ fb, s.decoder.framebuffer = some fb ∧ Follows s.decoder (s.encoder.resume a).2 fb ∧
      Shows D (s.encoder.resume a).2 fb s.lossy (Missed s.unreported) ∧
      EncoderOk D tiles (s.encoder.resume a).2 s.last ∧
      ∀ k ∈ (s.encoder.resume a).2.shadow.index.hashes, k ∈ s.shadowAt s.decoder.last_sequence := by
  obtain ⟨fb, hfol, hshows⟩ := h.picture
  obtain ⟨n, hn, h0, hacked, hold, hr⟩ := (resume_cases s.encoder a).resolve_left (by
    intro hfull
    rw [hfull] at hpart
    cases hpart)
  rw [← hviewer] at hn
  subst hn
  rw [hr]
  have hfb : s.decoder.framebuffer = some fb := by
    rcases hfol.canvas with ⟨-, hnone, -⟩ | ⟨-, hsome⟩
    · have := h.drawn hnone
      omega
    · exact hsome
  refine ⟨fb, hfb, ⟨hfol.sequence, hfol.canvas⟩, hshows.rollBack ?_, encoderOk_rollBack h.encoder _,
    rollBack_shadow h.traced h0 hacked hold (by omega)⟩
  rintro t (hx | ⟨m, hm, hle⟩)
  · exact .inl hx
  · have := (h.behind m hm).1
    exact .inr (by omega)

end

/-- A resume to a batch that the viewer has is sound: what is still believed the viewer shows,
what the shadow still holds it held at that batch, and the next frame is drawn exactly. -/
theorem resume_is_sound (D : Deps) (hD : D.InflateUndoesDeflate) (surface : SurfaceId)
    (generation : Generation) (size : Size) (config : EncoderConfig) (cache_bytes : Nat)
    (events : List StreamEvent) (a : Nat)
    (hrun : (Stream.start surface generation size config cache_bytes).AllowsAll D events)
    (hcol : NoCollision D
      ((Stream.start surface generation size config cache_bytes).tiles D events))
    (hviewer : ((Stream.start surface generation size config cache_bytes).run D
      events).decoder.last_sequence = min a (((Stream.start surface generation size config
        cache_bytes).run D events).encoder.next_sequence - 1))
    (hpart : (((Stream.start surface generation size config cache_bytes).run D
      events).encoder.resume a).1 = .Partial) :
    let s := (Stream.start surface generation size config cache_bytes).run D events
    let e := (s.encoder.resume a).2
    ∃ fb, s.decoder.framebuffer = some fb ∧
      (∀ t < e.grid.len, ¬ Missed s.unreported t →
        (∀ h, e.viewer t = .Exact h →
          fb.SameOn e.source (e.grid.rectOf t) ∧ hash_rect D fb (e.grid.rectOf t) = h) ∧
        ∀ h, e.viewer t = .Approximate h →
          hash_rect D e.source (e.grid.rectOf t) = h ∧ ∃ p px, s.lossy t = some p ∧
            decode_lossy D p (e.grid.rectOf t).width (e.grid.rectOf t).height = .ok px ∧
            fb.copy_rect (e.grid.rectOf t) = px) ∧
      (∀ h ∈ e.shadow.index.hashes, h ∈ s.shadowAt s.decoder.last_sequence) ∧
      ((∀ h, h ∈ s.shadowAt s.decoder.last_sequence ↔ h ∈ s.decoder.cache.index.hashes) →
        ∀ h ∈ e.shadow.index.hashes, h ∈ s.decoder.cache.index.hashes) ∧
      ∀ frame damage now_ms, (e.report s.unreported).FrameOk s.last frame damage →
        NoCollision D ((Stream.start surface generation size config cache_bytes).tiles D events ∪
          (e.report s.unreported).hashedTiles D frame damage) →
        ∃ batch e' d' applied fb',
          (e.report s.unreported).encode_inner D frame damage now_ms = .ok (batch, e') ∧
          s.decoder.apply D batch = (d', .ok applied) ∧ d'.framebuffer = some fb' ∧
          ∀ t < e.grid.len, ∀ h, (e'.report applied.misses).viewer t = .Exact h →
            fb'.SameOn frame (e.grid.rectOf t) := by
  intro s e
  have hintact : ∀ tiles, NoCollision D tiles →
      (Stream.start surface generation size config cache_bytes).tiles D events ⊆ tiles →
      Intact D tiles s := fun tiles hc hsub =>
    intact_run hD hc events _ (intact_start surface generation size config cache_bytes) hrun hsub
  obtain ⟨fb, hfb, hfol, hshows, hok, hshadow⟩ := intact_resumed (hintact _ hcol fun _ => id) hviewer
    hpart
  refine ⟨fb, hfb, ?_, hshadow, fun hagree h hh => (hagree h).mp (hshadow h hh), ?_⟩
  · intro t ht hm
    refine ⟨fun h hh => ?_, fun h hh => ⟨(hok.ok t ht h (Or.inr hh)).1, hshows.approx t ht hm h hh⟩⟩
    have hsame := hshows.exact t ht hm h hh
    refine ⟨hsame, ?_⟩
    rw [hash_rect, (image_eq_iff fb e.source e.grid t ht).mpr hsame]
    exact (hok.ok t ht h (Or.inl hh)).1
  · intro frame damage now_ms hframe hcol'
    have h' := hintact _ hcol' Set.subset_union_left
    obtain ⟨fb', hfb', hfol', hshows', hok', -⟩ := intact_resumed h' hviewer hpart
    have hset := report_setup s.unreported e
    have hnext := next_frame_exact hD hcol' now_ms (encoderOk_report s.unreported hok') h'.sound
      ⟨by rw [hset.next_sequence]; exact hfol'.sequence,
        by rw [hset.grid, hset.surface, hset.generation]; exact hfol'.canvas⟩
      (Shows.report s.unreported (hshows'.mono fun t => Or.inr)) hframe Set.subset_union_right
    rw [hset.grid] at hnext
    exact hnext

/-- A batch is lost, the viewer resumes from the one before, and the frame is drawn again. -/
theorem a_lost_frame_is_drawn_again :
    let events := [StreamEvent.Encode (pairFrame 10 200) none true, .Acknowledge 1,
      .Encode (pairFrame 20 210) none false]
    let s := (Stream.start 1 1 pairSize pairConfig 16).run shortDeps events
    let e := (s.encoder.resume 1).2
    (s.encoder.resume 1).1 = .Partial ∧ s.lost = some 2 ∧ e.viewer 0 = .Unknown ∧
      ∃ batch e' d' applied fb',
        (e.report s.unreported).encode_inner shortDeps (pairFrame 20 210) none none =
          .ok (batch, e') ∧
        s.decoder.apply shortDeps batch = (d', .ok applied) ∧ d'.framebuffer = some fb' ∧
        ∀ t < e.grid.len, ∀ h, (e'.report applied.misses).viewer t = .Exact h →
          fb'.SameOn (pairFrame 20 210) (e.grid.rectOf t) := by
  intro events s e
  have himages : (Stream.start 1 1 pairSize pairConfig 16).tiles shortDeps events ⊆
      { i | i ∈ pairImages } := by
    rintro i (⟨f, d, hev, hi⟩ | ⟨f, d, hev, -⟩ | ⟨f, d, hev, hi⟩ | hi)
    · cases hev
      exact hashedTiles_among hi (by decide)
    · cases hev
    · cases hev
      exact hashedTiles_among hi (by decide)
    · exact absurd hi (Set.notMem_empty i)
  have hrun : (Stream.start 1 1 pairSize pairConfig 16).AllowsAll shortDeps events :=
    ⟨⟨⟨rfl, pairFrame_fullAlpha 10 200, fun _ h => by cases h⟩, rfl⟩, trivial,
      ⟨⟨rfl, pairFrame_fullAlpha 20 210, fun _ h => by cases h⟩, rfl⟩, trivial⟩
  obtain ⟨fb, -, -, -, -, hnext⟩ := resume_is_sound shortDeps shortDeps_inflate 1 1 pairSize
    pairConfig 16 events 1 hrun (pairImages_distinct.mono himages) (by decide) (by decide)
  refine ⟨by decide, by decide, by decide, ?_⟩
  exact hnext (pairFrame 20 210) none none
    ⟨rfl, pairFrame_fullAlpha 20 210, fun _ h => by cases h⟩
    (pairImages_distinct.mono (Set.union_subset himages fun i hi =>
      hashedTiles_among hi (by decide)))

def rowImages : List TileImage :=
  [(rowFrame 10 20).image ⟨0, 0, 64, 1⟩, (rowFrame 20 30).image ⟨0, 0, 64, 1⟩,
    (rowFrame 30 10).image ⟨0, 0, 64, 1⟩, (FrameBuffer.new rowSize).image ⟨0, 0, 64, 1⟩]

/-- Two rows are sent, and the batch that draws the first one twice is lost. -/
def lostRow : List StreamEvent :=
  [.Encode (rowFrame 10 20) none true, .Acknowledge 1, .Encode (rowFrame 10 10) none false]

def afterLostRow : Stream := (Stream.start 1 1 rowSize (.with_cache 512) 512).run rowDeps lostRow

/-- Nothing is left unreported and the caches agree, and yet the next batch misses: the lost one has
used a tile of the shadow again, so the shadow drops another tile than the cache does. -/
theorem a_held_tile_is_missed_after_a_resume :
    ¬ ∀ (D : Deps) (surface : SurfaceId) (generation : Generation) (size : Size)
      (config : EncoderConfig) (cache_bytes : Nat) (events : List StreamEvent) (a : Nat),
      let start := Stream.start surface generation size config cache_bytes
      let s := start.run D events
      let e := (s.encoder.resume a).2
      D.InflateUndoesDeflate → start.AllowsAll D events →
      s.decoder.last_sequence = min a (s.encoder.next_sequence - 1) →
      (s.encoder.resume a).1 = .Partial → s.unreported = [] →
      (∀ h, h ∈ s.shadowAt s.decoder.last_sequence ↔ h ∈ s.decoder.cache.index.hashes) →
      ∀ frame damage now_ms, e.FrameOk s.last frame damage →
        NoCollision D (start.tiles D events ∪ e.hashedTiles D frame damage) →
        ∃ batch e' d' applied fb', e.encode_inner D frame damage now_ms = .ok (batch, e') ∧
          s.decoder.apply D batch = (d', .ok applied) ∧ d'.framebuffer = some fb' ∧
          ∀ t < e.grid.len, ∀ h, e'.viewer t = .Exact h → fb'.SameOn frame (e.grid.rectOf t) := by
  intro h
  have hhashes : (rowImages.map (hashImage rowDeps)).Nodup := by decide +kernel
  have hdistinct : NoCollision rowDeps { i | i ∈ rowImages } :=
    fun _ ha _ hb => List.inj_on_of_nodup_map hhashes ha hb
  have himages : (Stream.start 1 1 rowSize (.with_cache 512) 512).tiles rowDeps lostRow ⊆
      { i | i ∈ rowImages } := by
    rintro i (⟨f, d, hev, hi⟩ | ⟨f, d, hev, -⟩ | ⟨f, d, hev, hi⟩ | hi)
    · cases hev
      exact hashedTiles_among hi (by decide +kernel)
    · cases hev
    · cases hev
      exact hashedTiles_among hi (by decide +kernel)
    · exact absurd hi (Set.notMem_empty i)
  have hframe : ∀ left right last, (rowFrame left right).FullAlpha ∧
      DamageCovers last none (rowFrame left right) :=
    fun _ _ _ => ⟨fun _ _ => rfl, fun _ h => by cases h⟩
  have hagree : (afterLostRow.shadowAt afterLostRow.decoder.last_sequence).Perm
      afterLostRow.decoder.cache.index.hashes := by decide +kernel
  unfold afterLostRow at hagree
  obtain ⟨batch, e', d', applied, fb', hencoded, happlied, hfb, hsame⟩ := h rowDeps 1 1 rowSize
    (.with_cache 512) 512 lostRow 1 (fun raw level limit => shortDeps_inflate raw level limit)
    ⟨⟨⟨rfl, hframe 10 20 none⟩, rfl⟩, trivial,
      ⟨⟨by decide +kernel, hframe 10 10 _⟩, by decide +kernel⟩, trivial⟩
    (by decide +kernel) (by decide +kernel) (by decide +kernel) (fun _ => hagree.mem_iff)
    (rowFrame 30 10) none none ⟨by decide +kernel, hframe 30 10 _⟩ (hdistinct.mono
      (Set.union_subset himages fun i hi => hashedTiles_among hi (by decide +kernel)))
  have hshown : (((afterLostRow.encoder.resume 1).2.encode_inner rowDeps (rowFrame 30 10) none
      none).toOption.bind fun p => (afterLostRow.decoder.apply rowDeps p.1).1.framebuffer.map fun fb =>
        (p.2.viewer 1, fb.pixel 64 0)) = some (.Exact 0xCCF720111DDEF29F, ⟨20, 0, 0, 0xFF⟩) := by
    decide +kernel
  simp [afterLostRow, hencoded, Except.toOption, happlied, hfb] at hshown
  have hpixel := hsame 1 (by decide +kernel) _ hshown.1 64 0 (by decide +kernel)
  rw [hshown.2] at hpixel
  exact absurd hpixel (by decide)

end multiplex_screen_codec
