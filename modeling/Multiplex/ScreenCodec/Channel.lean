-- The encoder and the decoder at the two ends of a connection. Batches are on
-- their way to the viewer while its reports are on their way back, and a cut
-- loses both. A report that is lost is never made again.
import Multiplex.ScreenCodec.Resume

namespace multiplex_screen_codec

/-! ## The connection -/

/-- What the viewer sends back for a batch. -/
inductive Report
  | CacheMiss (miss : CacheMiss)
  | Acknowledge (sequence : Nat)
  deriving DecidableEq

/-- Both sides, and what is on its way between them, oldest first. -/
structure Channel where
  encoder : Encoder
  decoder : Decoder
  batches : List Batch
  reports : List Report
  connected : Bool
  last : Option Frame
  lossy : Nat → Option (List UInt8)

inductive ChannelEvent
  | Encode (frame : Frame) (damage : Option (List Rect))
  | EncodeAt (frame : Frame) (damage : Option (List Rect)) (now_ms : Nat)
  | RefineAt (now_ms budget_bytes : Nat)
  | SetLossyDetail (detail : LossyDetail)
  | DeliverBatch
  | DeliverReport
  | Cut
  | Reconnect

/-- Both sides have the same room for cached tiles. -/
def Channel.start (surface : SurfaceId) (generation : Generation) (size : Size)
    (config : EncoderConfig) : Channel :=
  ⟨Encoder.new surface generation size config, Decoder.new config.cache_bytes, [], [], true, none,
    fun _ => none⟩

/-- Without a connection a batch is lost. -/
def Channel.send (s : Channel) (last : Option Frame) (p : Batch × Encoder) : Channel :=
  { s with
    encoder := p.2
    last
    lossy := lastLossy s.lossy p.1.ops
    batches := if s.connected then s.batches ++ [p.1] else s.batches }

def Channel.encoded (s : Channel) (frame : Frame) :
    Except CodecError (Batch × Encoder) → Channel
  | .ok p => s.send (some frame) p
  | .error _ => s

/-- The reports of an applied batch, as `ViewerSession::receive` queues them. -/
def reportsOf (applied : Applied) : List Report :=
  applied.misses.map Report.CacheMiss ++ [.Acknowledge applied.sequence]

def Channel.deliver (D : Deps) (s : Channel) (batch : Batch) : Channel :=
  match s.decoder.apply D batch with
  | (decoder, .ok applied) => { s with decoder, reports := s.reports ++ reportsOf applied }
  | (decoder, .error _) => { s with decoder }

def Encoder.hear (e : Encoder) : Report → Encoder
  | .CacheMiss miss => e.cache_miss miss
  | .Acknowledge sequence => e.acknowledge sequence

/-- The viewer asks to resume from its last batch. When it may not, it starts over. -/
def Channel.reconnect (s : Channel) : Channel :=
  match s.encoder.resume s.decoder.last_sequence with
  | (.Partial, encoder) => { s with encoder, connected := true }
  | (.Full, encoder) =>
    { s with encoder, decoder := Decoder.new s.encoder.config.cache_bytes, connected := true }

def Channel.step (D : Deps) (s : Channel) : ChannelEvent → Channel
  | .Encode frame damage => s.encoded frame (s.encoder.encode D frame damage)
  | .EncodeAt frame damage now_ms => s.encoded frame (s.encoder.encode_at D frame damage now_ms)
  | .RefineAt now_ms budget_bytes =>
    match s.encoder.refine_at D now_ms budget_bytes with
    | some p => s.send s.last p
    | none => s
  | .SetLossyDetail detail => { s with encoder := s.encoder.set_lossy_detail detail }
  | .DeliverBatch =>
    match s.batches with
    | [] => s
    | batch :: rest => { s.deliver D batch with batches := rest }
  | .DeliverReport =>
    match s.reports with
    | [] => s
    | report :: rest => { s with encoder := s.encoder.hear report, reports := rest }
  | .Cut => { s with batches := [], reports := [], connected := false }
  | .Reconnect => if s.connected then s else s.reconnect

def Channel.run (D : Deps) (s : Channel) (events : List ChannelEvent) : Channel :=
  events.foldl (Channel.step D) s

/-- When nothing is on its way, every tile believed exact shows pixels with the hash that is
believed. -/
def Channel.ExactShown (D : Deps) (s : Channel) : Prop :=
  s.connected = true → s.batches = [] → s.reports = [] → ∀ t < s.encoder.grid.len, ∀ h,
    s.encoder.viewer t = .Exact h →
      ∃ fb, s.decoder.framebuffer = some fb ∧ hash_rect D fb (s.encoder.grid.rectOf t) = h

/-- The report of a miss is lost: the viewer names the batch as applied, and the encoder goes on
believing that its tile is shown. -/
def lostReport : List ChannelEvent :=
  [.Encode (pairFrame 10 200) none, .DeliverBatch, .DeliverReport,
    .Encode (pairFrame 20 210) none, .DeliverBatch, .DeliverReport,
    -- the shadow now counts the first tile as used, the cache of the viewer does not
    .Encode (pairFrame 10 200) none, .Cut, .Reconnect,
    .Encode (pairFrame 30 220) none, .DeliverBatch, .DeliverReport,
    .Encode (pairFrame 10 200) none, .DeliverBatch, .Cut, .Reconnect]

theorem a_lost_report_leaves_a_wrong_tile :
    ¬ ((Channel.start 1 1 pairSize pairConfig).run shortDeps lostReport).ExactShown shortDeps := by
  intro h
  obtain ⟨fb, hfb, hhash⟩ := h (by decide) (by decide) (by decide) 0 (by decide)
    15110963122624877651 (by decide)
  have hshown : (((Channel.start 1 1 pairSize pairConfig).run shortDeps
      lostReport).decoder.framebuffer.map fun fb => hash_rect shortDeps fb ⟨0, 0, 2, 1⟩) =
      some 9648895709879951372 := by decide
  rw [hfb, Option.map_some, Option.some.injEq] at hshown
  have hrect : ((Channel.start 1 1 pairSize pairConfig).run shortDeps
      lostReport).encoder.grid.rectOf 0 = ⟨0, 0, 2, 1⟩ := by decide
  rw [hrect, hshown] at hhash
  exact absurd hhash (by decide)

/-! ## Which misses are outstanding -/

def Report.miss? : Report → Option multiplex_screen_codec.CacheMiss
  | .CacheMiss miss => some miss
  | .Acknowledge _ => none

def reportedMisses (reports : List Report) : List CacheMiss := reports.filterMap Report.miss?

/-- The misses that the batches on their way will meet. -/
def missesAhead (D : Deps) : Decoder → List Batch → List CacheMiss
  | _, [] => []
  | d, batch :: rest =>
    match d.apply D batch with
    | (d', .ok applied) => applied.misses ++ missesAhead D d' rest
    | (d', .error _) => missesAhead D d' rest

/-- The misses that the encoder has not heard of: their reports are on their way, or will be. -/
def Channel.outstanding (D : Deps) (s : Channel) : List CacheMiss :=
  reportedMisses s.reports ++ missesAhead D s.decoder s.batches

def ChannelEvent.frame? : ChannelEvent → Option (Frame × Option (List Rect))
  | .Encode frame damage | .EncodeAt frame damage _ => some (frame, damage)
  | _ => none

/-- No cut loses the report of a miss, and no scroll copies a tile whose miss is outstanding. -/
def Channel.Careful (D : Deps) (s : Channel) : ChannelEvent → Prop
  | .Encode frame damage | .EncodeAt frame damage _ =>
    s.encoder.FrameOk s.last frame damage ∧
      ∀ rect dy, TileOp.Move rect dy ∈ s.encoder.scrollOps D frame damage →
        CopiesNone s.encoder.grid ⟨rect, dy⟩ (Missed (s.outstanding D))
  | .Cut => ∀ miss, Report.CacheMiss miss ∉ s.reports
  | _ => True

def Channel.CarefulAll (D : Deps) : Channel → List ChannelEvent → Prop
  | _, [] => True
  | s, event :: events => s.Careful D event ∧ Channel.CarefulAll D (s.step D event) events

def Channel.tiles (D : Deps) : Channel → List ChannelEvent → Set TileImage
  | _, [] => ∅
  | s, event :: events =>
    { i | ∃ frame damage, event.frame? = some (frame, damage) ∧
      i ∈ s.encoder.hashedTiles D frame damage } ∪ Channel.tiles D (s.step D event) events

/-! ## The batches on their way -/

/-- A decoder that the encoder can go on with, showing `fb`. -/
structure Stands (D : Deps) (tiles : Set TileImage) (e : Encoder) (d : Decoder)
    (fb : FrameBuffer) : Prop where
  follows : Follows d e fb
  size : fb.size = e.grid.size
  sound : CacheSound D tiles d.cache
  drawn : d.framebuffer = none → d.last_sequence = 0

/-- The batches take the decoder to one that shows `fb`, with these misses. A tile that no later
batch drew is already as it will be. -/
inductive InFlight (D : Deps) (tiles : Set TileImage) (e : Encoder) (v : Decoder)
    (fb : FrameBuffer) : Decoder → List Batch → List CacheMiss → Prop
  | nil (hv : Stands D tiles e v fb) : InFlight D tiles e v fb v [] []
  | cons {d d1 : Decoder} {fbd : FrameBuffer} {batch : Batch} {rest : List Batch}
      {applied : Applied} {misses : List CacheMiss} (hd : Stands D tiles e d fbd)
      (happ : d.apply D batch = (d1, .ok applied)) (hseq : d.last_sequence ≤ d1.last_sequence)
      (kept : ∀ t < e.grid.len,
        d.last_sequence < e.sent_at t ∨ fb.SameOn fbd (e.grid.rectOf t))
      (missed : ∀ m ∈ applied.misses, m.tile < e.grid.len ∧ d.last_sequence < e.sent_at m.tile)
      (hrest : InFlight D tiles e v fb d1 rest misses) :
      InFlight D tiles e v fb d (batch :: rest) (applied.misses ++ misses)

section

variable {D : Deps} {tiles : Set TileImage} {e : Encoder} {v d : Decoder} {fb : FrameBuffer}
  {batches : List Batch} {misses : List CacheMiss}

section
variable (h : InFlight D tiles e v fb d batches misses)
include h

theorem InFlight.ahead : missesAhead D d batches = misses := by
  induction h with
  | nil _ => rfl
  | cons _ happ _ _ _ _ ih => simp only [missesAhead, happ, ih]

theorem InFlight.last : Stands D tiles e v fb := by
  induction h with
  | nil hv => exact hv
  | cons _ _ _ _ _ _ ih => exact ih

/-- The encoder may change what it believes while batches are on their way. -/
theorem InFlight.believe {e' : Encoder}
    (hset : SameSetup { e with acked := e'.acked, config := e'.config } e')
    (hsent : e'.sent_at = e.sent_at) : InFlight D tiles e' v fb d batches misses := by
  have hstands : ∀ {d : Decoder} {fb : FrameBuffer}, Stands D tiles e d fb →
      Stands D tiles e' d fb := by
    intro d fb h
    refine ⟨⟨?_, ?_⟩, by rw [hset.grid]; exact h.size, h.sound, h.drawn⟩
    · rw [hset.next_sequence]
      exact h.follows.sequence
    · rw [hset.grid, hset.surface, hset.generation]
      exact h.follows.canvas
  have hg : e'.grid = e.grid := hset.grid
  induction h with
  | nil hv => exact .nil (hstands hv)
  | cons hd happ hseq kept missed _ ih =>
    refine .cons (hstands hd) happ hseq ?_ ?_ ih
    · rw [hg, hsent]
      exact kept
    · rw [hg, hsent]
      exact missed

/-- The missed tiles were drawn by batches that the viewer has not applied. -/
theorem InFlight.missed : ∀ m ∈ misses, d.last_sequence < e.sent_at m.tile := by
  induction h with
  | nil _ => simp
  | cons _ _ hseq _ missed _ ih =>
    intro m hm
    rcases List.mem_append.mp hm with hm | hm
    · exact (missed m hm).2
    · exact lt_of_le_of_lt hseq (ih m hm)

theorem InFlight.first :
    ∃ fbd, Stands D tiles e d fbd ∧ ∀ t < e.grid.len,
      d.last_sequence < e.sent_at t ∨ fb.SameOn fbd (e.grid.rectOf t) := by
  cases h with
  | nil hv => exact ⟨fb, hv, fun t _ => .inr fun _ _ _ => rfl⟩
  | cons hd _ _ kept _ _ => exact ⟨_, hd, kept⟩

theorem InFlight.send {r : Encoder} {last : Option Frame} {ops : List TileOp} {v' : Decoder}
    {fb' : FrameBuffer} {applied : Applied} (hp : Produced D tiles e r last ops)
    (hv' : Stands D tiles (r.finish ops).2 v' fb')
    (happ : v.apply D (r.finish ops).1 = (v', .ok applied))
    (hseq : v.last_sequence ≤ v'.last_sequence)
    (hkept : ∀ t < e.grid.len, PixelsKept e.next_sequence e r fb fb' t)
    (hmissed : ∀ m ∈ applied.misses, m.tile < e.grid.len ∧ r.sent_at m.tile = e.next_sequence) :
    InFlight D tiles (r.finish ops).2 v' fb' d (batches ++ [(r.finish ops).1])
      (misses ++ applied.misses) := by
  have hset := hp.advance.setup
  have hg : (r.finish ops).2.grid = e.grid := hset.grid
  have hstands : ∀ {d : Decoder} {fb : FrameBuffer}, Stands D tiles e d fb →
      Stands D tiles (r.finish ops).2 d fb := by
    intro d fb h
    refine ⟨⟨?_, ?_⟩, by rw [hg]; exact h.size, h.sound, h.drawn⟩
    · have := h.follows.sequence
      simp only [Encoder.finish, hset.next_sequence]
      omega
    · simp only [Encoder.finish, hset.grid, hset.surface, hset.generation]
      exact h.follows.canvas
  -- a tile drawn now is one that no earlier decoder has
  have hnow : ∀ {d : Decoder} {fbd : FrameBuffer}, Stands D tiles e d fbd →
      (∀ t < e.grid.len, d.last_sequence < e.sent_at t ∨ fb.SameOn fbd (e.grid.rectOf t)) →
      ∀ t < e.grid.len, d.last_sequence < r.sent_at t ∨ fb'.SameOn fbd (e.grid.rectOf t) := by
    intro d fbd hd hold t ht
    have hlt := hd.follows.sequence
    rcases hkept t ht with hs | ⟨hs, hpix⟩
    · exact .inl (by omega)
    · rcases hold t ht with ho | ho
      · exact .inl (by omega)
      · exact .inr (hpix.trans ho)
  induction h with
  | nil hv =>
    rw [List.nil_append, List.nil_append, ← List.append_nil applied.misses]
    refine .cons (hstands hv) happ hseq ?_ ?_ (.nil hv')
    · rw [hg]
      exact hnow hv fun t _ => .inr fun _ _ _ => rfl
    · intro m hm
      have hlt := hv.follows.sequence
      obtain ⟨ht, hs⟩ := hmissed m hm
      rw [hg]
      exact ⟨ht, by simp only [Encoder.finish]; omega⟩
  | cons hd hap hsq kept missed hrest ih =>
    rw [List.cons_append, List.append_assoc]
    refine .cons (hstands hd) hap hsq ?_ ?_ ih
    · rw [hg]
      exact hnow hd kept
    · intro m hm
      have hlt := hd.follows.sequence
      obtain ⟨ht, hs⟩ := missed m hm
      rw [hg]
      simp only [Encoder.finish]
      rcases hp.advance.tiles m.tile ht with hn | ⟨hn, -⟩ <;> omega

end

theorem stands_applied {r : Encoder} {last : Option Frame} {ops : List TileOp}
    {L : Nat → Option (List UInt8)} {X : Nat → Prop} {d' : DrawState}
    (hv : Stands D tiles e v fb) (hp : Produced D tiles e r last ops)
    (hfb : fb.size = e.grid.size) (hd : Delivered D tiles e r fb v.cache L X ops d') :
    ∃ v' applied, v.apply D (r.finish ops).1 = (v', .ok applied) ∧
      Stands D tiles (r.finish ops).2 v' d'.framebuffer ∧ applied.misses = d'.misses ∧
      v'.framebuffer = some d'.framebuffer ∧ v.last_sequence ≤ v'.last_sequence := by
  have hset := hp.advance.setup
  obtain ⟨dec, reset, happ, h1, h2, h3, h4⟩ := apply_delivered hset hv.follows hfb hd
  refine ⟨dec, _, happ, ⟨⟨?_, .inr ⟨?_, h2⟩⟩, hd.shows.size, by rw [h3]; exact hd.sound,
    by simp [h2]⟩, rfl, h2, ?_⟩
  · simp only [h4, Encoder.finish, hset.next_sequence]
    omega
  · rw [h1]
    simp [Encoder.finish, hset.surface, hset.generation]
  · have := hv.follows.sequence
    omega

end

/-! ## What careful runs keep -/

/-- While the connection is up the picture shows what is believed, once all batches have arrived
and outside the outstanding misses. While it is down, it does so where no lost batch drew. -/
structure Trusted (D : Deps) (tiles : Set TileImage) (s : Channel) : Prop where
  encoder : EncoderOk D tiles s.encoder s.last
  up : s.connected = true → ∃ v fb misses,
    InFlight D tiles s.encoder v fb s.decoder s.batches misses ∧
    Shows D s.encoder fb s.lossy (Missed (reportedMisses s.reports ++ misses)) ∧
    (v.framebuffer = none → ∀ t < s.encoder.grid.len, s.encoder.viewer t = .Unknown)
  down : s.connected = false → s.batches = [] ∧ s.reports = [] ∧ ∃ fb,
    Stands D tiles s.encoder s.decoder fb ∧
    Shows D s.encoder fb s.lossy (fun t => s.decoder.last_sequence < s.encoder.sent_at t)

section

variable {D : Deps} {tiles : Set TileImage}

theorem shows_unknown {e : Encoder} {fb : FrameBuffer} (L : Nat → Option (List UInt8))
    (X : Nat → Prop) (hsize : fb.size = e.grid.size)
    (hv : ∀ t < e.grid.len, e.viewer t = .Unknown) : Shows D e fb L X := by
  refine ⟨hsize, ?_, ?_⟩
  · intro t ht _ k hk
    rw [hv t ht] at hk
    cases hk
  · intro t ht _ k hk
    rw [hv t ht] at hk
    cases hk

theorem stands_new (e : Encoder) (cache_bytes : Nat) (h : 0 < e.next_sequence) :
    Stands D tiles e (Decoder.new cache_bytes) (FrameBuffer.new e.grid.size) :=
  ⟨⟨h, .inl ⟨rfl, rfl, rfl⟩⟩, rfl, cacheSound_new D tiles cache_bytes, fun _ => rfl⟩

theorem trusted_start (surface : SurfaceId) (generation : Generation) (size : Size)
    (config : EncoderConfig) : Trusted D tiles (Channel.start surface generation size config) := by
  refine ⟨encoderOk_new D tiles surface generation size config, ?_, by simp [Channel.start]⟩
  intro _
  exact ⟨_, _, [], .nil (stands_new _ _ (by simp [Channel.start, Encoder.new])),
    shows_unknown _ _ rfl fun _ _ => rfl, fun _ _ _ => rfl⟩

variable {s : Channel}

theorem trusted_send {r : Encoder} {ops : List TileOp} {last : Option Frame} (h : Trusted D tiles s)
    (hp : Produced D tiles s.encoder r last ops) (hm : ∀ rect dy, TileOp.Move rect dy ∈ ops →
      CopiesNone s.encoder.grid ⟨rect, dy⟩ (Missed (s.outstanding D))) :
    Trusted D tiles (s.send last (r.finish ops)) := by
  have hset := hp.advance.setup
  refine ⟨encoderOk_finish hp.ok ops, ?_, ?_⟩
  · intro hup
    have hup' : s.connected = true := hup
    obtain ⟨v, fb, misses, hfl, hshows, -⟩ := h.up hup'
    have hout : s.outstanding D = reportedMisses s.reports ++ misses := by
      unfold Channel.outstanding
      rw [hfl.ahead]
    rw [hout] at hm
    obtain ⟨d', hd⟩ := hp.delivered fb v.cache s.lossy _ hm hshows hfl.last.sound
    obtain ⟨v', applied, happ, hv', hmiss, hsome, hseq⟩ := stands_applied hfl.last hp hshows.size hd
    refine ⟨v', d'.framebuffer, misses ++ applied.misses, ?_, ?_, by simp [hsome]⟩
    · simp [Channel.send, hup']
      exact hfl.send hp hv' happ hseq hd.kept (by rw [hmiss]; exact hd.missed)
    · refine (hd.shows.finish ops).mono ?_
      rw [hmiss]
      rintro t (⟨m, hmem, rfl⟩ | ⟨m, hmem, rfl⟩)
      · refine ⟨m, ?_, rfl⟩
        rw [← List.append_assoc]
        exact List.mem_append_left _ hmem
      · exact ⟨m, List.mem_append_right _ (List.mem_append_right _ hmem), rfl⟩
  · intro hdown
    have hdown' : s.connected = false := hdown
    obtain ⟨hb, hr, fb, hst, hshows⟩ := h.down hdown'
    have hlt := hst.follows.sequence
    refine ⟨by simp [Channel.send, hdown', hb], hr, fb,
      ⟨⟨?_, ?_⟩, hst.size.trans (congrArg TileGrid.size hset.grid.symm), hst.sound, hst.drawn⟩, ?_⟩
    · simp only [Channel.send, Encoder.finish, hset.next_sequence]
      omega
    · simp only [Channel.send, Encoder.finish, hset.grid, hset.surface, hset.generation]
      exact hst.follows.canvas
    · refine Shows.finish (hshows.lost hp ?_) ops
      intro t ht hy
      have hy' : ¬ s.decoder.last_sequence < r.sent_at t := hy
      rcases hp.advance.tiles t ht with hs | ⟨hs, -⟩ <;> omega

theorem trusted_encoded (hD : D.InflateUndoesDeflate) (hcol : NoCollision D tiles)
    (h : Trusted D tiles s) (frame : Frame) (damage : Option (List Rect)) (now_ms : Option Nat)
    (hc : s.Careful D (.Encode frame damage)) (hin : s.encoder.hashedTiles D frame damage ⊆ tiles) :
    Trusted D tiles (s.encoded frame (s.encoder.encode_inner D frame damage now_ms)) := by
  obtain ⟨⟨hsize, hfull, hdam⟩, hmove⟩ := hc
  obtain ⟨r, ops, henc, hp, hops⟩ := encode_produced damage now_ms hD hcol h.encoder hsize hfull hdam
    hin
  rw [henc]
  exact trusted_send h hp fun rect dy hm => hmove rect dy (hops rect dy hm)

section
variable (h : Trusted D tiles s)
include h

theorem trusted_deliver : Trusted D tiles (s.step D .DeliverBatch) := by
  unfold Channel.step
  cases hb : s.batches with
  | nil => exact h
  | cons batch rest =>
    have hup : s.connected = true := by
      cases hc : s.connected with
      | true => rfl
      | false =>
        have := (h.down hc).1
        rw [hb] at this
        cases this
    obtain ⟨v, fb, misses, hfl, hshows, hnone⟩ := h.up hup
    rw [hb] at hfl
    cases hfl with
    | @cons _ d1 _ _ _ applied misses' hd happ hseq kept missed hrest =>
      simp only [Channel.deliver, happ]
      refine ⟨h.encoder, fun _ => ⟨v, fb, misses', hrest, hshows.mono ?_, hnone⟩, by simp [hup]⟩
      rintro t ⟨m, hm, rfl⟩
      refine ⟨m, ?_, rfl⟩
      simp only [reportedMisses, reportsOf, List.filterMap_append, List.mem_append,
        List.mem_filterMap] at hm ⊢
      rcases hm with hm | hm | hm
      · exact .inl (.inl hm)
      · exact .inl (.inr (.inl ⟨.CacheMiss m, by simp [hm], rfl⟩))
      · exact .inr hm

theorem trusted_hear (report : Report) (rest : List Report) (hr : s.reports = report :: rest) :
    Trusted D tiles { s with encoder := s.encoder.hear report, reports := rest } := by
  have hup : s.connected = true := by
    cases hc : s.connected with
    | true => rfl
    | false =>
      have := (h.down hc).2.1
      rw [hr] at this
      cases this
  obtain ⟨v, fb, misses, hfl, hshows, hnone⟩ := h.up hup
  cases report with
  | CacheMiss miss =>
    refine ⟨encoderOk_cache_miss h.encoder miss, fun _ => ⟨v, fb, misses,
      hfl.believe ⟨rfl, rfl, rfl, rfl, rfl, rfl, rfl⟩ rfl, hshows.cache_miss miss ?_, ?_⟩,
      by simp [hup]⟩
    · rintro t ⟨m, hm, rfl⟩
      simp only [hr, reportedMisses, Report.miss?, List.filterMap_cons, List.cons_append,
        List.mem_cons] at hm
      rcases hm with rfl | hm
      · exact .inl rfl
      · exact .inr ⟨m, hm, rfl⟩
    · intro hv t ht
      simp only [Encoder.hear, Encoder.cache_miss]
      by_cases htm : t = miss.tile
      · simp [htm]
      · simp [htm]
        exact hnone hv t ht
  | Acknowledge sequence =>
    obtain ⟨hset, h2, h3, -, -, -, h4⟩ := acknowledge_rest s.encoder sequence
    have hsame : SameSetup { s.encoder with
        acked := (s.encoder.acknowledge sequence).acked
        config := (s.encoder.acknowledge sequence).config } (s.encoder.acknowledge sequence) :=
      ⟨hset.surface, hset.generation, hset.grid, rfl, hset.next_sequence, rfl, hset.carried⟩
    refine ⟨encoderOk_acknowledge h.encoder sequence, fun _ => ⟨v, fb, misses,
      hfl.believe hsame h4, ?_, ?_⟩, by simp [hup]⟩
    · refine (hshows.forget hset.grid h2 fun t _ => .inl (by simp only [h3])).mono ?_
      rintro t ⟨m, hm, rfl⟩
      rw [hr] at hm
      exact ⟨m, hm, rfl⟩
    · intro hv t ht
      simp only [Encoder.hear, h3, hset.grid] at ht ⊢
      exact hnone hv t ht

theorem trusted_cut (hc : ∀ miss, Report.CacheMiss miss ∉ s.reports) :
    Trusted D tiles (s.step D .Cut) := by
  refine ⟨h.encoder, by simp [Channel.step], fun _ => ⟨rfl, rfl, ?_⟩⟩
  cases hcon : s.connected with
  | false => exact (h.down hcon).2.2
  | true =>
    obtain ⟨v, fb, misses, hfl, hshows, -⟩ := h.up hcon
    obtain ⟨fbd, hst, hkept⟩ := hfl.first
    have hnone : reportedMisses s.reports = [] := by
      rw [reportedMisses, List.filterMap_eq_nil_iff]
      intro report hmem
      cases report with
      | CacheMiss miss => exact absurd hmem (hc miss)
      | Acknowledge sequence => rfl
    rw [hnone, List.nil_append] at hshows
    refine ⟨fbd, hst, ?_⟩
    refine shows_step hshows rfl (hst.size.trans hshows.size.symm) ?_
    intro t ht hy
    refine .inr (.inl ⟨?_, fun _ _ _ => rfl, ?_, rfl, rfl⟩)
    · rintro ⟨m, hm, rfl⟩
      exact hy (hfl.missed m hm)
    · exact ((hkept t ht).resolve_left hy).symm

theorem trusted_reconnect (hcon : s.connected = false) : Trusted D tiles s.reconnect := by
  obtain ⟨hb, hr, fb, hst, hshows⟩ := h.down hcon
  have hlt := hst.follows.sequence
  unfold Channel.reconnect
  rcases resume_cases s.encoder s.decoder.last_sequence with hres | ⟨n, hn, h0, -, -, hres⟩
  · rw [hres]
    have hnew : Stands D tiles s.encoder.reset_viewer (Decoder.new s.encoder.config.cache_bytes)
        (FrameBuffer.new s.encoder.grid.size) := stands_new _ _ (Nat.zero_lt_of_lt hlt)
    refine ⟨encoderOk_reset h.encoder, fun _ => ⟨Decoder.new s.encoder.config.cache_bytes,
      FrameBuffer.new s.encoder.grid.size, [], ?_, shows_unknown _ _ hnew.size fun _ _ => rfl,
      fun _ _ _ => rfl⟩, by simp⟩
    simp only [hb]
    exact .nil hnew
  · rw [hres]
    refine ⟨encoderOk_rollBack h.encoder n, fun _ => ⟨s.decoder, fb, [], ?_, ?_, ?_⟩, by simp⟩
    · simp only [hb]
      exact .nil ⟨⟨hst.follows.sequence, hst.follows.canvas⟩, hst.size, hst.sound, hst.drawn⟩
    · refine hshows.rollBack ?_
      intro t hx
      exact .inr (by omega)
    · intro hnone
      have := hst.drawn hnone
      omega

end

theorem trusted_step (hD : D.InflateUndoesDeflate) (hcol : NoCollision D tiles)
    (h : Trusted D tiles s) (event : ChannelEvent) (hc : s.Careful D event)
    (hin : ∀ frame damage, event.frame? = some (frame, damage) →
      s.encoder.hashedTiles D frame damage ⊆ tiles) : Trusted D tiles (s.step D event) := by
  cases event with
  | Encode frame damage => exact trusted_encoded hD hcol h frame damage none hc (hin _ _ rfl)
  | EncodeAt frame damage now_ms =>
    exact trusted_encoded hD hcol h frame damage (some now_ms) hc (hin _ _ rfl)
  | RefineAt now_ms budget_bytes =>
    simp only [Channel.step]
    cases hr : s.encoder.refine_at D now_ms budget_bytes with
    | none => exact h
    | some p =>
      obtain ⟨r, ops, rfl, hp, hno⟩ := refine_produced hD hcol h.encoder hr
      exact trusted_send h hp fun rect dy hm => absurd hm (hno rect dy)
  | SetLossyDetail detail =>
    refine ⟨encoderOk_set_lossy_detail h.encoder detail, fun hup => ?_, fun hdown => ?_⟩
    · obtain ⟨v, fb, misses, hfl, hshows, hnone⟩ := h.up hup
      exact ⟨v, fb, misses, hfl.believe ⟨rfl, rfl, rfl, rfl, rfl, rfl, rfl⟩ rfl,
        hshows.forget rfl rfl fun _ _ => .inl rfl, hnone⟩
    · obtain ⟨hb, hr, fb, hst, hshows⟩ := h.down hdown
      exact ⟨hb, hr, fb, ⟨⟨hst.follows.sequence, hst.follows.canvas⟩, hst.size, hst.sound, hst.drawn⟩,
        hshows.forget rfl rfl fun _ _ => .inl rfl⟩
  | DeliverBatch => exact trusted_deliver h
  | DeliverReport =>
    simp only [Channel.step]
    cases hr : s.reports with
    | nil => exact h
    | cons report rest => exact trusted_hear h report rest hr
  | Cut => exact trusted_cut h hc
  | Reconnect =>
    simp only [Channel.step]
    split
    · exact h
    · rename_i hcon
      exact trusted_reconnect h (by simpa using hcon)

theorem trusted_run (hD : D.InflateUndoesDeflate) (hcol : NoCollision D tiles)
    (events : List ChannelEvent) (s : Channel) (h : Trusted D tiles s)
    (hc : s.CarefulAll D events) (hin : s.tiles D events ⊆ tiles) :
    Trusted D tiles (s.run D events) := by
  induction events generalizing s with
  | nil => exact h
  | cons event events ih =>
    refine ih (s.step D event) (trusted_step hD hcol h event hc.1 ?_) hc.2
      (fun i hi => hin (.inr hi))
    intro frame damage hframe i hi
    exact hin (.inl ⟨frame, damage, hframe, hi⟩)

end

/-- When no cut loses the report of a miss and no scroll copies a tile whose miss is outstanding,
every tile believed exact is shown exactly. -/
theorem exact_tiles_are_shown_while_reports_arrive (D : Deps) (hD : D.InflateUndoesDeflate)
    (surface : SurfaceId) (generation : Generation) (size : Size) (config : EncoderConfig)
    (events : List ChannelEvent)
    (hc : (Channel.start surface generation size config).CarefulAll D events)
    (hcol : NoCollision D ((Channel.start surface generation size config).tiles D events)) :
    ((Channel.start surface generation size config).run D events).ExactShown D := by
  have h : Trusted D _ _ := trusted_run hD hcol events _
    (trusted_start surface generation size config) hc (fun _ => id)
  intro hup hb hr t ht k hk
  obtain ⟨v, fb, misses, hfl, hshows, hnone⟩ := h.up hup
  rw [hb] at hfl
  cases hfl with
  | nil hst =>
    rw [hr] at hshows
    have hsame := hshows.exact t ht (by rintro ⟨m, hm, -⟩; cases hm) k hk
    refine ⟨fb, ?_, ?_⟩
    · rcases hst.follows.canvas with ⟨-, hn, -⟩ | ⟨-, hsome⟩
      · rw [hnone hn t ht] at hk
        cases hk
      · exact hsome
    · rw [hash_rect, (image_eq_iff fb _ _ t ht).mpr hsame]
      exact (h.encoder.ok t ht k (Or.inl hk)).1

/-- A cut loses an acknowledgement and no miss, and the next frame is shown. -/
theorem a_lost_acknowledgement_does_no_harm :
    let events := [ChannelEvent.Encode (pairFrame 10 200) none, .DeliverBatch, .Cut, .Reconnect,
      .Encode (pairFrame 20 210) none, .DeliverBatch, .DeliverReport]
    let s := (Channel.start 1 1 pairSize pairConfig).run shortDeps events
    (∃ h, s.encoder.viewer 0 = .Exact h) ∧ s.ExactShown shortDeps := by
  intro events s
  have himages : (Channel.start 1 1 pairSize pairConfig).tiles shortDeps events ⊆
      { i | i ∈ pairImages } := by
    rintro i (⟨f, d, hev, hi⟩ | ⟨f, d, hev, -⟩ | ⟨f, d, hev, -⟩ | ⟨f, d, hev, -⟩ |
      ⟨f, d, hev, hi⟩ | ⟨f, d, hev, -⟩ | ⟨f, d, hev, -⟩ | hi)
    · cases hev
      exact hashedTiles_among hi (by decide)
    · cases hev
    · cases hev
    · cases hev
    · cases hev
      exact hashedTiles_among hi (by decide)
    · cases hev
    · cases hev
    · exact absurd hi (Set.notMem_empty i)
  have hfirst : (Channel.start 1 1 pairSize pairConfig).encoder.scrollOps shortDeps
      (pairFrame 10 200) none = [] := by decide
  have hsecond : ((Channel.start 1 1 pairSize pairConfig).run shortDeps
      (events.take 4)).encoder.scrollOps shortDeps (pairFrame 20 210) none = [] := by decide
  have hcareful : (Channel.start 1 1 pairSize pairConfig).CarefulAll shortDeps events := by
    refine ⟨⟨⟨rfl, pairFrame_fullAlpha 10 200, fun _ h => by cases h⟩, ?_⟩, trivial, ?_, trivial,
      ⟨⟨rfl, pairFrame_fullAlpha 20 210, fun _ h => by cases h⟩, ?_⟩, trivial, trivial, trivial⟩
    · rw [hfirst]
      intro rect dy hm
      cases hm
    · intro miss hm
      have hreports : ((Channel.start 1 1 pairSize pairConfig).run shortDeps
          (events.take 2)).reports = [.Acknowledge 1] := by decide
      change Report.CacheMiss miss ∈ ((Channel.start 1 1 pairSize pairConfig).run shortDeps
        (events.take 2)).reports at hm
      rw [hreports] at hm
      simp at hm
    · intro rect dy hm
      change TileOp.Move rect dy ∈ ((Channel.start 1 1 pairSize pairConfig).run shortDeps
        (events.take 4)).encoder.scrollOps shortDeps (pairFrame 20 210) none at hm
      rw [hsecond] at hm
      cases hm
  have hexact : s.encoder.viewer 0 = .Exact (hash_rect shortDeps (pairFrame 20 210) ⟨0, 0, 2, 1⟩) := by
    decide
  exact ⟨⟨_, hexact⟩, exact_tiles_are_shown_while_reports_arrive shortDeps shortDeps_inflate 1 1
    pairSize pairConfig events hcareful (pairImages_distinct.mono himages)⟩

end multiplex_screen_codec
