-- The host's side of the motion path, as `motion.rs` has it. A surface's motion
-- region goes to a video encoder, one at a time, and what the viewer says it
-- holds comes back.
import Multiplex.ScreenSession.Host

open multiplex_screen_codec multiplex_screen_protocol multiplex_screen_session

namespace multiplex_screen_host

def FRAME_INTERVAL_MS : Nat := 33

def DEFAULT_VIDEO_BITRATE : Nat := 8000000

def FIRST_COMPARISON_WINDOWS : Nat := 2

def LAST_COMPARISON_WINDOWS : Nat := 4

/-! ## How much parity -/

def GROUP_FRAMES : Nat := 4

def MINIMUM_RATIO : Float32 := 0.05

def MAXIMUM_RATIO : Float32 := 0.40

def SMOOTHING : Float32 := 0.2

/-- Reported loss, smoothed, from which the number of shards follows. -/
structure ParityPolicy where
  group : Nat
  observed : Float32
  reported : Nat

def ParityPolicy.default : ParityPolicy := ⟨GROUP_FRAMES, 0.0, 0⟩

def ParityPolicy.lost (p : ParityPolicy) : ParityPolicy := { p with reported := p.reported + 1 }

def ParityPolicy.shards (p : ParityPolicy) : Nat :=
  let ratio := MINIMUM_RATIO + 2.0 * p.observed
  let ratio := if ratio < MINIMUM_RATIO then MINIMUM_RATIO
    else if ratio > MAXIMUM_RATIO then MAXIMUM_RATIO else ratio
  max (Float32.ofNat p.group * ratio).ceil.toUInt64.toNat 1

/-- Folds what was reported during the group into the rate, and says how many shards the next one
gets. -/
def ParityPolicy.close_group (p : ParityPolicy) : Nat × ParityPolicy :=
  let share := Float32.ofNat p.reported / Float32.ofNat p.group
  let share := if share > 1.0 then 1.0 else share
  let p := { p with observed := p.observed + SMOOTHING * (share - p.observed), reported := 0 }
  (p.shards, p)

/-! ## Encoders -/

/-- What the encoder should do with the frame that is submitted. -/
structure MotionRequest where
  acknowledged : List UInt32
  refresh : Bool
  keyframe : Bool

structure MotionFrame where
  payload : List UInt8
  keyframe : Bool
  token : Option UInt32

/-- `trait MotionEncoder`, for encoders whose state is of type `ε`. -/
structure MotionEncoder (ε : Type) where
  parameter_sets : ε → List UInt8
  encode : ε → List UInt8 → MotionRequest → List MotionFrame × ε

/-- An encoder that runs over one rectangle. -/
structure Active (ε : Type) where
  region : Rect
  encoder : ε
  bitrate : Nat
  sequence : UInt64
  sent_config : Bool
  first : Bool
  group : List VideoFrame
  groups : UInt64
  last : List UInt8
  video_bytes : Nat
  video_window_ms : Nat

structure MotionSender (ε : Type) where
  state : Option (Active ε)
  refresh : Bool
  acknowledged : List UInt32
  policy : ParityPolicy
  bitrate : Nat
  confirmed : Bool
  declined : Bool
  decided : Bool
  compared : Nat

section
variable {ε V : Type}

def Active.new (region : Rect) (encoder : ε) (bitrate : Nat) : Active ε :=
  ⟨region, encoder, bitrate, 0, false, true, [], 0, [], 0, 0⟩

namespace MotionSender

def new : MotionSender ε :=
  ⟨none, false, [], .default, DEFAULT_VIDEO_BITRATE, false, false, false, 0⟩

def set_bitrate (m : MotionSender ε) (bitrate : Nat) : MotionSender ε := { m with bitrate }

/-- `MotionSender::acknowledged`: the viewer holds these references. A region that was declined is
not confirmed by them. -/
def acknowledge (m : MotionSender ε) (tokens : List UInt32) : MotionSender ε :=
  { m with acknowledged := tokens, confirmed := !m.declined && !tokens.isEmpty }

def lost (m : MotionSender ε) : MotionSender ε := { m with refresh := true, policy := m.policy.lost }

/-- The viewer left. -/
def stop (m : MotionSender ε) : MotionSender ε :=
  { m with state := none, refresh := false, confirmed := false, acknowledged := [] }

/-- What the tile path is told about the region. -/
def carried (m : MotionSender ε) : Bool := m.confirmed && m.decided && !m.declined

/-- The region was demoted, or there never was one. -/
def forget_region (m : MotionSender ε) : MotionSender ε :=
  { m with state := none, confirmed := false, declined := false, decided := false, compared := 0 }

/-- The encoder that runs serves this region at the allowed bitrate. -/
def serves (m : MotionSender ε) (region : Rect) : Option (Active ε) :=
  m.state.filter fun active => !(active.region ≠ region || active.bitrate ≠ m.bitrate)

/-- The encoder for a region: the one that runs, or else a new one, if one opens. -/
def encoder_for (opening : Nat → Nat → Nat → Option ε) (m : MotionSender ε) (region : Rect) :
    Option (Active ε) :=
  match m.serves region with
  | some active => some active
  | none => (opening region.width region.height m.bitrate).map fun encoder =>
    .new region encoder m.bitrate

/-- The window on which the next comparison is made. -/
def due (m : MotionSender ε) : Nat := (FIRST_COMPARISON_WINDOWS + m.compared) * REGION_COST_WINDOW_MS

/-- Sets the bytes of the video against those of the tiles, once it is time to. When tiles are
cheaper the region is given back to them. -/
def weigh (m : MotionSender ε) (active : Active ε) (tiles : Option Nat) : MotionSender ε :=
  let m := { m with state := some active }
  match tiles with
  | none => m
  | some tiles =>
    if !m.decided ∧ active.video_window_ms ≥ m.due then
      let video := active.video_bytes * 1000 % 2 ^ 64 / max active.video_window_ms 1
      let compared := min (m.compared + 1) U32_MAX
      let decided := m.decided || decide (FIRST_COMPARISON_WINDOWS + compared > LAST_COMPARISON_WINDOWS)
      if tiles < video then
        { m with compared, decided, state := none, confirmed := false, declined := true }
      else { m with compared, decided }
    else m

end MotionSender

/-- The frames that an encoder produced go out, after its configuration. The flag is false when the
session did not take the configuration, and the call ends there. -/
def Active.send (E : MotionEncoder ε) (surface : UInt32) :
    Active ε → HostSession V → List MotionFrame → Active ε × HostSession V × Bool
  | active, session, [] => (active, session, true)
  | active, session, encoded :: produced =>
    let sets := E.parameter_sets active.encoder
    if !active.sent_config && sets.isEmpty then
      -- nothing after them could be decoded
      Active.send E surface active session produced
    else
      let (session, sent_config) :=
        if active.sent_config then (session, true)
        else session.send_video_config ⟨surface, .Hevc, WireRect.of active.region, sets⟩
      if sent_config then
        let sequence := active.sequence + 1
        let sent : VideoFrame := ⟨surface, sequence, encoded.keyframe, encoded.token, encoded.payload⟩
        Active.send E surface { active with sent_config, sequence, group := active.group ++ [sent] }
          (session.send_video_frame sent).1 produced
      else ({ active with sent_config }, session, false)

namespace MotionSender

/-- Sends the parity for a full group, and moves the ratio to what the link is doing. -/
def close_group (surface : UInt32) (m : MotionSender ε) (session : HostSession V) (active : Active ε) :
    MotionSender ε × HostSession V :=
  let taken := min m.policy.group active.group.length
  let (shards, policy) := m.policy.close_group
  let m := { m with
    state := some { active with group := active.group.drop taken, groups := active.groups + 1 }
    policy }
  if session.agreed_features.has FeatureSet.VIDEO_PARITY then
    -- a group that cannot be covered sends nothing
    let parity := (parity_for surface active.groups (active.group.take taken) shards).toOption.getD []
    (m, parity.foldl (fun session p => (session.send_parity p).1) session)
  else (m, session)

/-- Closes the groups that are full. Each takes a frame at least, so as many turns as frames are
enough. -/
def close_groups (surface : UInt32) :
    Nat → MotionSender ε → HostSession V → MotionSender ε × HostSession V
  | 0, m, session => (m, session)
  | turns + 1, m, session =>
    match m.state with
    | none => (m, session)
    | some active =>
      if active.group.length ≥ m.policy.group then
        let r := m.close_group surface session active
        close_groups surface turns r.1 r.2
      else (m, session)

/-- The request that goes with the next frame. -/
def request (m : MotionSender ε) (active : Active ε) : MotionRequest :=
  ⟨m.acknowledged, m.refresh && !active.first, active.first⟩

/-- Hands the pixels to the encoder and sends what it produces. A frozen region needs no frames,
except after a loss. -/
def submit (E : MotionEncoder ε) (surface : UInt32) (m : MotionSender ε) (session : HostSession V)
    (active : Active ε) (pixels : List UInt8) : MotionSender ε × HostSession V :=
  if pixels = active.last ∧ !m.refresh ∧ !active.first then (m, session)
  else
    let (produced, encoder) := E.encode active.encoder pixels (m.request active)
    let bytes := (produced.map fun frame => frame.payload.length).sum
    let active := { active with
      encoder
      last := pixels
      first := active.first && produced.isEmpty
      video_bytes := min (active.video_bytes + bytes) U64_MAX
      video_window_ms := min (active.video_window_ms + FRAME_INTERVAL_MS) U64_MAX }
    let m := { m with refresh := m.refresh && produced.isEmpty }
    let (active, session, whole) := active.send E surface session produced
    let m := { m with state := some active }
    if whole then m.close_groups surface active.group.length session else (m, session)

/-- The motion region of the surface, clipped to the frame. -/
def region_of (session : HostSession V) (surface : UInt32) (frame : Frame) : Option Rect :=
  ((session.motion_region surface).map fun region => region.intersect frame.size.bounds).filter
    fun region => !region.is_empty

/-- Encodes and sends the motion region of the surface, if the session has one and the viewer agreed
to the motion path. `opening` is what the machine's encoders answer. -/
def frame (E : MotionEncoder ε) (opening : Nat → Nat → Nat → Option ε) (m : MotionSender ε)
    (session : HostSession V) (surface : UInt32) (frame : Frame) : MotionSender ε × HostSession V :=
  if !session.agreed_features.has FeatureSet.MOTION_VIDEO then (m.stop, session)
  else
    let session := session.set_motion_carried surface m.carried
    match region_of session surface frame with
    | none => (m.forget_region, session)
    | some region =>
      if m.declined then (m, session)
      else
        match m.encoder_for opening region with
        | none => ({ m with state := none }, session)
        | some active =>
          let m := m.weigh active (session.motion_region_bytes_per_second surface)
          match m.state with
          | none => (m, session)
          | some active =>
            m.submit E surface session active ((frame.copy_rect region).flatMap Pixel.bytes)

end MotionSender

/-! ## What a call does -/

/-- What the session queued on the way, all of one kind. -/
def Queued (kind : HostMessage → Prop) (session session' : HostSession V) : Prop :=
  ∃ sent, session'.outbox = session.outbox ++ sent ∧ ∀ message ∈ sent, kind message

section
variable {kind kind' : HostMessage → Prop} {session session' session'' : HostSession V}

theorem Queued.refl (kind : HostMessage → Prop) (session : HostSession V) :
    Queued kind session session := ⟨[], by simp⟩

theorem Queued.trans (h : Queued kind session session') (h' : Queued kind session' session'') :
    Queued kind session session'' := by
  obtain ⟨sent, hout, hkind⟩ := h
  obtain ⟨sent', hout', hkind'⟩ := h'
  refine ⟨sent ++ sent', by rw [hout', hout, List.append_assoc], fun message hmessage => ?_⟩
  rcases List.mem_append.mp hmessage with hmessage | hmessage
  · exact hkind message hmessage
  · exact hkind' message hmessage

theorem Queued.mono (h : Queued kind session session') (hkind : ∀ message, kind message → kind' message) :
    Queued kind' session session' := by
  obtain ⟨sent, hout, hall⟩ := h
  exact ⟨sent, hout, fun message hmessage => hkind message (hall message hmessage)⟩

theorem queued_send_video {message : HostMessage} (h : kind message) (feature : UInt32) :
    Queued kind session (session.send_video message feature).1 := by
  unfold HostSession.send_video
  split
  · exact ⟨[message], by simp [HostSession.queue], by simpa using h⟩
  · exact .refl kind session

section
variable (session : HostSession V) (surface : UInt32) (carried : Bool)

theorem set_motion_carried_outbox :
    (session.set_motion_carried surface carried).outbox = session.outbox := by
  unfold HostSession.set_motion_carried
  split <;> rfl

theorem region_of_set_motion_carried (frame : Frame) :
    MotionSender.region_of (session.set_motion_carried surface carried) surface frame =
      MotionSender.region_of session surface frame := by
  unfold MotionSender.region_of HostSession.motion_region HostSession.set_motion_carried
  cases hsubscription : session.subscriptions.get? (key_for surface .Interactive) with
  | none => simp [hsubscription]
  | some s =>
    simp [Encoder.set_motion_carried, Encoder.motion_region]

end

end

/-- What the viewer's answers left is as it was. -/
structure SameAnswers (m m' : MotionSender ε) : Prop where
  acknowledged : m'.acknowledged = m.acknowledged
  confirmed : m'.confirmed = m.confirmed

theorem SameAnswers.trans {m m' m'' : MotionSender ε} (h : SameAnswers m m') (h' : SameAnswers m' m'') :
    SameAnswers m m'' :=
  ⟨h'.acknowledged.trans h.acknowledged, h'.confirmed.trans h.confirmed⟩

/-- The same encoder over the same rectangle. -/
def SameEncoder (a a' : Active ε) : Prop := a'.encoder = a.encoder ∧ a'.region = a.region

def IsParity (message : HostMessage) : Prop := ∃ parity, message = .Parity parity

theorem queued_parity (parity : List Parity) (session : HostSession V) :
    Queued IsParity session (parity.foldl (fun session p => (session.send_parity p).1) session) := by
  induction parity generalizing session with
  | nil => exact .refl IsParity session
  | cons p parity ih => exact (queued_send_video ⟨p, rfl⟩ FeatureSet.VIDEO_PARITY).trans (ih _)

theorem close_group_spec (surface : UInt32) (m : MotionSender ε) (session : HostSession V)
    (active : Active ε) :
    let r := m.close_group surface session active
    SameAnswers m r.1 ∧ (∃ a, r.1.state = some a ∧ SameEncoder active a) ∧
      Queued IsParity session r.2 := by
  unfold MotionSender.close_group
  simp only
  split
  · exact ⟨⟨rfl, rfl⟩, ⟨_, rfl, rfl, rfl⟩, queued_parity _ session⟩
  · exact ⟨⟨rfl, rfl⟩, ⟨_, rfl, rfl, rfl⟩, .refl IsParity session⟩

theorem close_groups_spec (surface : UInt32) (turns : Nat) {m : MotionSender ε}
    (session : HostSession V) {active : Active ε} (h : m.state = some active) :
    let r := m.close_groups surface turns session
    SameAnswers m r.1 ∧ (∃ a, r.1.state = some a ∧ SameEncoder active a) ∧
      Queued IsParity session r.2 := by
  induction turns generalizing m session active with
  | zero => exact ⟨⟨rfl, rfl⟩, ⟨active, h, rfl, rfl⟩, .refl IsParity session⟩
  | succ turns ih =>
    unfold MotionSender.close_groups
    simp only [h]
    split
    · obtain ⟨hsame, ⟨a, ha, hencoder⟩, hqueued⟩ := close_group_spec surface m session active
      obtain ⟨hsame', ⟨a', ha', hencoder'⟩, hqueued'⟩ := ih _ ha
      exact ⟨hsame.trans hsame', ⟨a', ha', hencoder'.1.trans hencoder.1,
        hencoder'.2.trans hencoder.2⟩, hqueued.trans hqueued'⟩
    · exact ⟨⟨rfl, rfl⟩, ⟨active, h, rfl, rfl⟩, .refl IsParity session⟩

/-- A frame on its way carries the token of one that the encoder produced. -/
def CarriesTokens (produced : List MotionFrame) (message : HostMessage) : Prop :=
  ∀ frame, message = .VideoFrame frame → ∃ p ∈ produced, frame.token = p.token

theorem send_spec (E : MotionEncoder ε) (surface : UInt32) (produced : List MotionFrame)
    (active : Active ε) (session : HostSession V) :
    let r := active.send E surface session produced
    SameEncoder active r.1 ∧ Queued (CarriesTokens produced) session r.2.1 := by
  induction produced generalizing active session with
  | nil => exact ⟨⟨rfl, rfl⟩, .refl _ session⟩
  | cons encoded produced ih =>
    have hmore : ∀ message, CarriesTokens produced message →
        CarriesTokens (encoded :: produced) message := by
      intro message h frame hframe
      obtain ⟨p, hp, htoken⟩ := h frame hframe
      exact ⟨p, by simp [hp], htoken⟩
    unfold Active.send
    simp only
    split
    · obtain ⟨hsame, hqueued⟩ := ih active session
      exact ⟨hsame, hqueued.mono hmore⟩
    · have hconfig : Queued (CarriesTokens (encoded :: produced)) session
          (if active.sent_config then (session, true) else session.send_video_config
            ⟨surface, .Hevc, WireRect.of active.region, E.parameter_sets active.encoder⟩).1 := by
        split
        · exact .refl _ session
        · exact queued_send_video (by simp [CarriesTokens]) _
      generalize (if active.sent_config then (session, true) else session.send_video_config
        ⟨surface, .Hevc, WireRect.of active.region, E.parameter_sets active.encoder⟩) = configured at *
      obtain ⟨session', sent_config⟩ := configured
      cases sent_config with
      | false => exact ⟨⟨rfl, rfl⟩, hconfig⟩
      | true =>
        obtain ⟨hsame, hqueued⟩ := ih { active with
          sent_config := true
          sequence := active.sequence + 1
          group := active.group ++ [⟨surface, active.sequence + 1, encoded.keyframe, encoded.token,
            encoded.payload⟩] } (session'.send_video_frame ⟨surface, active.sequence + 1,
              encoded.keyframe, encoded.token, encoded.payload⟩).1
        refine ⟨hsame, (hconfig.trans (queued_send_video ?_ _)).trans (hqueued.mono hmore)⟩
        rintro frame hframe
        cases hframe
        exact ⟨encoded, by simp, rfl⟩

/-- Everything that a call can do with the region of a frame. -/
inductive FrameOutcome (E : MotionEncoder ε) (opening : Nat → Nat → Nat → Option ε)
    (m : MotionSender ε) (region : Option Rect) : MotionSender ε → List HostMessage → Prop
  | no_region (hregion : region = none) : FrameOutcome E opening m region m.forget_region []
  | declined {r : Rect} (hregion : region = some r) (hdeclined : m.declined = true) :
    FrameOutcome E opening m region m []
  | failed {r : Rect} (hregion : region = some r) (hdeclined : m.declined = false)
    (hfor : m.encoder_for opening r = none) :
    FrameOutcome E opening m region { m with state := none } []
  | gave_up {m' : MotionSender ε} {r : Rect} {active : Active ε} (hregion : region = some r)
    (hfor : m.encoder_for opening r = some active) (hwindow : 0 < active.video_window_ms)
    (hstate : m'.state = none) (hacknowledged : m'.acknowledged = m.acknowledged)
    (hconfirmed : m'.confirmed = false) : FrameOutcome E opening m region m' []
  | frozen {m' : MotionSender ε} {r : Rect} {active : Active ε} (hregion : region = some r)
    (hdeclined : m.declined = false) (hfor : m.encoder_for opening r = some active)
    (hfirst : active.first = false) (hsame : SameAnswers m m') (hstate : m'.state = some active) :
    FrameOutcome E opening m region m' []
  | encoded {m' : MotionSender ε} {r : Rect} {active active' : Active ε} {pixels : List UInt8}
    {request : MotionRequest} {produced : List MotionFrame} {sent : List HostMessage}
    (hregion : region = some r) (hdeclined : m.declined = false)
    (hfor : m.encoder_for opening r = some active) (hsame : SameAnswers m m')
    (hstate : m'.state = some active') (hplace : active'.region = active.region)
    (hrequest : request.acknowledged = m.acknowledged)
    (hencode : E.encode active.encoder pixels request = (produced, active'.encoder))
    (hsent : ∀ message ∈ sent, CarriesTokens produced message) :
    FrameOutcome E opening m region m' sent

theorem weigh_spec (m : MotionSender ε) (active : Active ε) (tiles : Option Nat) :
    let m' := m.weigh active tiles
    m'.acknowledged = m.acknowledged ∧
      (0 < active.video_window_ms ∧ m'.state = none ∧ m'.confirmed = false ∨
        m'.state = some active ∧ SameAnswers m m') := by
  unfold MotionSender.weigh
  cases tiles with
  | none => exact ⟨rfl, .inr ⟨rfl, rfl, rfl⟩⟩
  | some tiles =>
    simp only
    split
    · rename_i hdue
      split
      · refine ⟨rfl, .inl ⟨lt_of_lt_of_le ?_ hdue.2, rfl, rfl⟩⟩
        simp [MotionSender.due, FIRST_COMPARISON_WINDOWS, REGION_COST_WINDOW_MS]
      · exact ⟨rfl, .inr ⟨rfl, rfl, rfl⟩⟩
    · exact ⟨rfl, .inr ⟨rfl, rfl, rfl⟩⟩

/-- The frame is not encoded, or the encoder is asked for it with what is acknowledged. -/
theorem submit_spec (E : MotionEncoder ε) (surface : UInt32) (m : MotionSender ε)
    (session : HostSession V) (active : Active ε) (pixels : List UInt8) :
    let r := m.submit E surface session active pixels
    r = (m, session) ∧ active.first = false ∨
      ∃ request produced active', request.acknowledged = m.acknowledged ∧ SameAnswers m r.1 ∧
        r.1.state = some active' ∧ active'.region = active.region ∧
        E.encode active.encoder pixels request = (produced, active'.encoder) ∧
        Queued (CarriesTokens produced) session r.2 := by
  unfold MotionSender.submit
  split
  · rename_i hfrozen
    exact .inl ⟨rfl, by simpa using hfrozen.2.2⟩
  · right
    rcases hencode : E.encode active.encoder pixels (m.request active) with ⟨produced, encoder⟩
    simp only
    generalize hafter : ({ active with
      encoder
      last := pixels
      first := active.first && produced.isEmpty
      video_bytes := min (active.video_bytes +
        (produced.map fun frame => frame.payload.length).sum) U64_MAX
      video_window_ms := min (active.video_window_ms + FRAME_INTERVAL_MS) U64_MAX } : Active ε) =
      after
    have hencoder : after.encoder = encoder ∧ after.region = active.region := by
      rw [← hafter]
      exact ⟨rfl, rfl⟩
    obtain ⟨hsame, hqueued⟩ := send_spec E surface produced after session
    generalize after.send E surface session produced = sent at *
    obtain ⟨active', session', whole⟩ := sent
    have hafter' : active'.encoder = encoder ∧ active'.region = active.region :=
      ⟨hsame.1.trans hencoder.1, hsame.2.trans hencoder.2⟩
    cases whole with
    | false =>
      exact ⟨m.request active, produced, active', rfl, ⟨rfl, rfl⟩, rfl, hafter'.2,
        by rw [hencode, hafter'.1], hqueued⟩
    | true =>
      obtain ⟨hclosed, ⟨last, hlast, hlast'⟩, hparity⟩ := close_groups_spec surface
        active'.group.length session' (m := { m with
          refresh := m.refresh && produced.isEmpty
          state := some active' }) rfl
      refine ⟨m.request active, produced, last, rfl, ⟨hclosed.acknowledged, hclosed.confirmed⟩,
        hlast, hlast'.2.trans hafter'.2, by rw [hencode, hlast'.1, hafter'.1],
        hqueued.trans (hparity.mono ?_)⟩
      rintro message ⟨parity, rfl⟩ frame hframe
      cases hframe

theorem frame_outcome (E : MotionEncoder ε) (opening : Nat → Nat → Nat → Option ε)
    (m : MotionSender ε) (session : HostSession V) (surface : UInt32) (frame : Frame)
    (hagreed : session.agreed_features.has FeatureSet.MOTION_VIDEO = true) :
    let r := m.frame E opening session surface frame
    ∃ sent, r.2.outbox = session.outbox ++ sent ∧
      FrameOutcome E opening m (MotionSender.region_of session surface frame) r.1 sent := by
  unfold MotionSender.frame
  simp [hagreed, region_of_set_motion_carried]
  have hcarried := set_motion_carried_outbox session surface m.carried
  generalize session.set_motion_carried surface m.carried = session' at *
  cases hregion : MotionSender.region_of session surface frame with
  | none => exact ⟨[], by simpa using hcarried, .no_region rfl⟩
  | some region =>
    simp only
    split
    · rename_i hdeclined
      exact ⟨[], by simpa using hcarried, .declined rfl hdeclined⟩
    · rename_i hdeclined
      rw [Bool.not_eq_true] at hdeclined
      cases hfor : m.encoder_for opening region with
      | none => exact ⟨[], by simpa using hcarried, .failed rfl hdeclined hfor⟩
      | some active =>
        obtain ⟨hack, hweighed⟩ := weigh_spec m active
          (session'.motion_region_bytes_per_second surface)
        simp only
        generalize m.weigh active (session'.motion_region_bytes_per_second surface) = m' at *
        rcases hweighed with ⟨hwindow, hstate, hconfirmed⟩ | ⟨hstate, hsame⟩
        · simp only [hstate]
          exact ⟨[], by simpa using hcarried, .gave_up rfl hfor hwindow hstate hack hconfirmed⟩
        · simp only [hstate]
          rcases submit_spec E surface m' session' active
              ((frame.copy_rect region).flatMap Pixel.bytes) with
            ⟨hfrozen, hfirst⟩ | ⟨request, produced, active', hrequest, hsame', hstate', hplace,
              hencode, sent,
              hout, hsent⟩
          · rw [hfrozen]
            exact ⟨[], by simpa using hcarried, .frozen rfl hdeclined hfor hfirst hsame hstate⟩
          · exact ⟨sent, by rw [hout, hcarried], .encoded rfl hdeclined hfor (hsame.trans hsame')
              hstate' hplace (hrequest.trans hack) hencode hsent⟩

end

end multiplex_screen_host
