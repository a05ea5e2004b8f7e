-- The motion path from end to end: the sender with its encoders, the ordered
-- stream to the viewer, the viewer's decoders and what they acknowledge. Here
-- every encoder is numbered, and writes down what it was told.
import Multiplex.Lib.Runs
import Multiplex.ScreenHost.MotionSender
import Multiplex.ScreenSession.MotionView

open multiplex_screen_codec multiplex_screen_protocol multiplex_screen_session

namespace multiplex_screen_host

/-! ## Encoders and decoders that are told apart -/

/-- One request to an encoder: the references it named, the tokens that the encoder had attached by
then, and the last acknowledgement of the viewer. -/
structure Asked where
  acknowledged : List UInt32
  attached : List UInt32
  latest : List UInt32
  deriving DecidableEq

/-- An encoder with its number, the tokens it attached to frames, and its requests. -/
structure Watched (ε : Type) where
  number : Nat
  encoder : ε
  tokens : List UInt32
  told : List Asked

section
variable {ε δ V : Type}

def Watched.new (number : Nat) (encoder : ε) : Watched ε := ⟨number, encoder, [], []⟩

/-- The encoder that writes its requests down. -/
def watching (E : MotionEncoder ε) (latest : List UInt32) : MotionEncoder (Watched ε) where
  parameter_sets w := E.parameter_sets w.encoder
  encode w pixels request :=
    let (produced, encoder) := E.encode w.encoder pixels request
    (produced, { w with
      encoder
      tokens := w.tokens ++ produced.filterMap MotionFrame.token
      told := w.told ++ [⟨request.acknowledged, w.tokens, latest⟩] })

/-- The decoder that keeps the number of the encoder whose configuration opened it. -/
def numbered (H : HevcDecoder δ) (number : Nat) : HevcDecoder (Nat × δ) where
  opens payload := (H.opens payload).map fun decoder => (number, decoder)
  decode decoder payload :=
    let (picture, state) := H.decode decoder.2 payload
    (picture, (decoder.1, state))

/-! ## The link -/

/-- The host, the viewer and what is on its way between them. A message goes with the number of the
encoder that ran when it was queued, and an acknowledgement with that of the decoder it is of. -/
structure Link (ε δ : Type) where
  sender : MotionSender (Watched ε)
  opened : Nat
  down : List (Nat × HostMessage)
  viewer : ViewerSession (Nat × δ)
  up : List (Nat × List UInt32)
  latest : List UInt32

/-- What can happen on a link. The session that a frame is captured for is any at all, and so is the
answer of the machine's encoders. -/
inductive LinkEvent (ε V : Type)
  | frame (session : HostSession V) (surface : UInt32) (frame : Frame)
    (opening : Nat → Nat → Nat → Option ε)
  | set_bitrate (bitrate : Nat)
  | stop
  | announce (surface : UInt32) (rect : Option WireRect)
  | deliver
  | hear
  | hear_lost

def Link.start (agreed : FeatureSet) : Link ε δ := ⟨.new, 1, [], ⟨agreed, .new⟩, [], []⟩

/-- The number of the encoder that runs, or else one that all later encoders are above. -/
def Link.number (s : Link ε δ) : Nat :=
  match s.sender.state with
  | some active => active.encoder.number
  | none => s.opened - 1

/-- The number of the decoder that a frame went to. -/
def answering (viewer : ViewerSession (Nat × δ)) : HostMessage → Nat
  | .VideoFrame frame =>
    (((viewer.motion.regions frame.surface).bind Region.decoder).map Prod.fst).getD 0
  | _ => 0

def Link.step (E : MotionEncoder ε) (H : HevcDecoder δ) (s : Link ε δ) : LinkEvent ε V → Link ε δ
  | .frame session surface frame opening =>
    let r := s.sender.frame (watching E s.latest)
      (fun width height bitrate => (opening width height bitrate).map (.new s.opened)) session surface
      frame
    let s := { s with sender := r.1, opened := s.opened + 1 }
    { s with
      down := s.down ++ (r.2.outbox.drop session.outbox.length).map fun message => (s.number, message) }
  | .set_bitrate bitrate => { s with sender := s.sender.set_bitrate bitrate }
  | .stop => { s with sender := s.sender.stop }
  | .announce surface rect => { s with down := s.down ++ [(s.number, .MotionRegion surface rect)] }
  | .deliver =>
    match s.down with
    | [] => s
    | (number, message) :: down =>
      let r := s.viewer.receive (numbered H number) message
      { s with
        down
        viewer := r.1
        up := s.up ++ (r.2.map fun tokens => (answering r.1 message, tokens)).toList }
  | .hear =>
    match s.up with
    | [] => s
    | (_, tokens) :: up => { s with up, sender := s.sender.acknowledge tokens, latest := tokens }
  | .hear_lost => { s with sender := s.sender.lost }

/-- All that the running encoder was told about are tokens of its own, which the viewer had named
last. -/
def Link.OwnReferences (s : Link ε δ) : Prop :=
  ∀ active, s.sender.state = some active → ∀ told ∈ active.encoder.told,
    ∀ token ∈ told.acknowledged, token ∈ told.attached ∧ token ∈ told.latest

/-- A call for a frame of this session opens an encoder. -/
def MotionSender.opens (m : MotionSender ε) (session : HostSession V) (surface : UInt32)
    (frame : Frame) (opening : Nat → Nat → Nat → Option ε') : Bool :=
  session.agreed_features.has FeatureSet.MOTION_VIDEO && !m.declined &&
    match MotionSender.region_of session surface frame with
    | none => false
    | some region =>
      (m.serves region).isNone && (opening region.width region.height m.bitrate).isSome

/-- No encoder is opened while references are remembered, and no acknowledgement reaches an encoder
that is not of the decoder's. -/
def settled (s : Link ε δ) : LinkEvent ε V → Bool
  | .frame session surface frame opening =>
    !s.sender.opens session surface frame opening || s.sender.acknowledged.isEmpty
  | .hear =>
    match s.up with
    | [] => true
    | (number, tokens) :: _ =>
      tokens.isEmpty || s.sender.state.all fun active => active.encoder.number == number
  | _ => true

/-! ## What holds along the runs -/

/-- What is known on the link of an encoder's references: each was attached by it. -/
structure Knows (s : Link ε δ) (w : Watched ε) : Prop where
  sent : ∀ p ∈ s.down, p.1 = w.number → ∀ frame token, p.2 = .VideoFrame frame →
    frame.token = some token → token ∈ w.tokens
  held : ∀ surface region decoder, s.viewer.motion.regions surface = some region →
    region.decoder = some (w.number, decoder) → ∀ token ∈ region.held, token ∈ w.tokens
  up : ∀ p ∈ s.up, p.1 = w.number → ∀ token ∈ p.2, token ∈ w.tokens
  own : ∀ token ∈ s.sender.acknowledged, token ∈ w.tokens
  told : ∀ told ∈ w.told, ∀ token ∈ told.acknowledged, token ∈ told.attached ∧ token ∈ told.latest

/-- The numbers on the link grow towards the sender, and the running encoder is known. -/
structure Sound (s : Link ε δ) : Prop where
  opened : s.number < s.opened
  ordered : s.down.Pairwise fun p q => p.1 ≤ q.1
  down : ∀ p ∈ s.down, p.1 ≤ s.number
  decoders : ∀ surface region number decoder, s.viewer.motion.regions surface = some region →
    region.decoder = some (number, decoder) → number ≤ s.number ∧ ∀ p ∈ s.down, number ≤ p.1
  up : ∀ p ∈ s.up, p.1 ≤ s.number
  latest : ∀ token ∈ s.sender.acknowledged, token ∈ s.latest
  running : ∀ active, s.sender.state = some active → Knows s active.encoder

theorem Sound.ownReferences {s : Link ε δ} (h : Sound s) : s.OwnReferences :=
  fun active hactive => (h.running active hactive).told

theorem sound_start (agreed : FeatureSet) : Sound (Link.start agreed : Link ε δ) where
  opened := by simp [Link.start, Link.number, MotionSender.new]
  ordered := List.Pairwise.nil
  down := by simp [Link.start]
  decoders := by simp [Link.start, MotionView.new]
  up := by simp [Link.start]
  latest := by simp [Link.start, MotionSender.new]
  running := by simp [Link.start, MotionSender.new]

section
variable {s : Link ε δ} {E : MotionEncoder ε} {H : HevcDecoder δ}

variable {m : MotionSender (Watched ε)} {opening : Nat → Nat → Nat → Option ε}
  {active : Active (Watched ε)} {region : Region (Nat × δ)} {decoder : δ} {message : HostMessage}

theorem sound_idle (h : Sound s) {opened : Nat} (hopened : s.opened ≤ opened)
    (hstate : m.state = none)
    (hacknowledged : ∀ token ∈ m.acknowledged, token ∈ s.sender.acknowledged) :
    Sound { s with sender := m, opened } := by
  have hnumber : ({ s with sender := m, opened } : Link ε δ).number = opened - 1 := by
    simp [Link.number, hstate]
  have hmore : s.number ≤ opened - 1 := by
    have := h.opened
    omega
  constructor
  · have := h.opened
    simp only
    omega
  · exact h.ordered
  · exact fun p hp => hnumber ▸ (h.down p hp).trans hmore
  · intro surface region number decoder hregion hdecoder
    obtain ⟨hle, hdown⟩ := h.decoders surface region number decoder hregion hdecoder
    exact ⟨hnumber ▸ hle.trans hmore, hdown⟩
  · exact fun p hp => hnumber ▸ (h.up p hp).trans hmore
  · exact fun token htoken => h.latest token (hacknowledged token htoken)
  · simp [hstate]

theorem chosen_known (h : Sound s) {region : Rect}
    (hfor : s.sender.encoder_for (fun width height bitrate =>
      (opening width height bitrate).map (.new s.opened)) region = some active)
    (hsettled : (s.sender.serves region).isNone → (opening region.width region.height
      s.sender.bitrate).isSome → s.sender.acknowledged = []) :
    Knows s active.encoder ∧ s.number ≤ active.encoder.number ∧
      active.encoder.number < s.opened + 1 := by
  unfold MotionSender.encoder_for at hfor
  have hbelow := h.opened
  cases hserves : s.sender.serves region with
  | some running =>
    simp [hserves] at hfor
    subst hfor
    unfold MotionSender.serves at hserves
    rw [Option.filter_eq_some_iff] at hserves
    have hnumber : s.number = running.encoder.number := by simp [Link.number, hserves.1]
    exact ⟨h.running running hserves.1, hnumber.le, by omega⟩
  | none =>
    simp only [hserves, Option.map_eq_some_iff] at hfor
    obtain ⟨w, ⟨encoder, hopen, rfl⟩, rfl⟩ := hfor
    have hnone := hsettled (by simp [hserves]) (by simp [hopen])
    refine ⟨⟨?_, ?_, ?_, by simp [hnone], by simp [Active.new, Watched.new]⟩, ?_, ?_⟩
    · intro p hp hnumber
      have hle := h.down p hp
      simp only [Active.new, Watched.new] at hnumber
      omega
    · intro surface region' decoder hregion hdecoder
      have hle := (h.decoders surface region' _ decoder hregion hdecoder).1
      simp only [Active.new, Watched.new] at hle
      omega
    · intro p hp hnumber
      have hle := h.up p hp
      simp only [Active.new, Watched.new] at hnumber
      omega
    · simp only [Active.new, Watched.new]
      omega
    · simp [Active.new, Watched.new]

/-- A known encoder runs on, after it attached more tokens and sent frames that carry these. -/
theorem sound_running (h : Sound s) {w : Watched ε} (sent : List HostMessage) (tokens : List UInt32)
    (hknows : Knows s w) (habove : s.number ≤ w.number) (hbelow : w.number < s.opened + 1)
    (hstate : m.state = some active) (hnumber : active.encoder.number = w.number)
    (htokens : active.encoder.tokens = w.tokens ++ tokens)
    (hacknowledged : m.acknowledged = s.sender.acknowledged)
    (htold : ∀ told ∈ active.encoder.told, told ∈ w.told ∨
      told = ⟨s.sender.acknowledged, w.tokens, s.latest⟩)
    (hsent : ∀ message ∈ sent, ∀ frame token, message = .VideoFrame frame →
      frame.token = some token → token ∈ tokens) : Sound { s with
      sender := m
      opened := s.opened + 1
      down := s.down ++ sent.map fun message => (active.encoder.number, message) } := by
  have hlabel : ∀ p ∈ s.down ++ sent.map fun message => (active.encoder.number, message),
      p ∈ s.down ∨ p.1 = w.number ∧ p.2 ∈ sent := by
    intro p hp
    rcases List.mem_append.mp hp with hp | hp
    · exact .inl hp
    · obtain ⟨message, hmessage, rfl⟩ := List.mem_map.mp hp
      exact .inr ⟨hnumber, hmessage⟩
  have hmore : ∀ token, token ∈ w.tokens → token ∈ active.encoder.tokens := by
    intro token htoken
    rw [htokens]
    exact List.mem_append_left _ htoken
  constructor
  · simp [Link.number, hstate, hnumber, hbelow]
  · rw [List.pairwise_append]
    refine ⟨h.ordered, ?_, fun p hp q hq => ?_⟩
    · rw [List.pairwise_map]
      exact List.pairwise_of_forall fun _ _ => le_rfl
    · obtain ⟨message, -, rfl⟩ := List.mem_map.mp hq
      rw [hnumber]
      exact (h.down p hp).trans habove
  · intro p hp
    simp only [Link.number, hstate, hnumber]
    rcases hlabel p hp with hp | ⟨hp, -⟩
    · exact (h.down p hp).trans habove
    · exact hp.le
  · intro surface region number decoder hregion hdecoder
    obtain ⟨hle, hdown⟩ := h.decoders surface region number decoder hregion hdecoder
    simp only [Link.number, hstate, hnumber]
    refine ⟨hle.trans habove, fun p hp => ?_⟩
    rcases hlabel p (by simpa [hnumber] using hp) with hp | ⟨hp, -⟩
    · exact hdown p hp
    · rw [hp]
      exact hle.trans habove
  · intro p hp
    simp only [Link.number, hstate, hnumber]
    exact (h.up p hp).trans habove
  · rw [hacknowledged]
    exact h.latest
  · intro active' hactive'
    simp [hstate] at hactive'
    subst hactive'
    constructor
    · intro p hp hp' frame token hframe htoken
      rcases hlabel p hp with hp | ⟨-, hp⟩
      · exact hmore _ (hknows.sent p hp (hp'.trans hnumber) frame token hframe htoken)
      · rw [htokens]
        exact List.mem_append_right _ (hsent p.2 hp frame token hframe htoken)
    · intro surface region decoder hregion hdecoder token htoken
      rw [hnumber] at hdecoder
      exact hmore _ (hknows.held surface region decoder hregion hdecoder token htoken)
    · intro p hp hp' token htoken
      exact hmore _ (hknows.up p hp (hp'.trans hnumber) token htoken)
    · intro token htoken
      simp only [hacknowledged] at htoken
      exact hmore _ (hknows.own token htoken)
    · intro told htold' token htoken
      rcases htold told htold' with hin | rfl
      · exact hknows.told told hin token htoken
      · exact ⟨hknows.own token htoken, h.latest token htoken⟩

theorem sound_unchanged (h : Sound s) : Sound { s with opened := s.opened + 1 } := by
  cases hstate : s.sender.state with
  | none => exact sound_idle h (Nat.le_succ s.opened) hstate fun token htoken => htoken
  | some active =>
    have hnumber : s.number = active.encoder.number := by simp [Link.number, hstate]
    have hbelow := h.opened
    have hsound := sound_running h [] [] (h.running active hstate) hnumber.le
      (by omega) hstate rfl (by simp) rfl (fun told htold => .inl htold) (by simp)
    simpa using hsound

variable {surface : UInt32} {viewer : ViewerSession (Nat × δ)}

theorem sound_frame (h : Sound s) {session : HostSession V} {frame : Frame}
    (hsettled : settled s (.frame session surface frame opening : LinkEvent ε V) = true) :
    Sound (s.step E H (.frame session surface frame opening)) := by
  unfold Link.step
  simp only
  cases hagreed : session.agreed_features.has FeatureSet.MOTION_VIDEO with
  | false =>
    have hframe : s.sender.frame (watching E s.latest) (fun width height bitrate =>
        (opening width height bitrate).map (.new s.opened)) session surface frame =
        (s.sender.stop, session) := by
      simp [MotionSender.frame, hagreed]
    simp [hframe]
    exact sound_idle h (Nat.le_succ s.opened) rfl (by simp [MotionSender.stop])
  | true =>
    obtain ⟨sent, hout, houtcome⟩ := frame_outcome (watching E s.latest)
      (fun width height bitrate => (opening width height bitrate).map (.new s.opened)) s.sender
      session surface frame hagreed
    generalize s.sender.frame (watching E s.latest) (fun width height bitrate =>
      (opening width height bitrate).map (.new s.opened)) session surface frame = r at *
    have hdrop : r.2.outbox.drop session.outbox.length = sent := by simp [hout]
    simp only [hdrop]
    have hchosen : ∀ region, MotionSender.region_of session surface frame = some region →
        s.sender.declined = false → (s.sender.serves region).isNone →
        (opening region.width region.height s.sender.bitrate).isSome → s.sender.acknowledged = [] := by
      intro region hregion hdeclined hserves hopen
      simpa [settled, MotionSender.opens, hagreed, hregion, hdeclined, hserves, hopen] using hsettled
    generalize hm : r.1 = m at houtcome
    cases houtcome with
    | no_region _ =>
      have hsound := sound_idle h (m := s.sender.forget_region) (Nat.le_succ s.opened) rfl
        fun token htoken => htoken
      simpa using hsound
    | declined _ _ => simpa using sound_unchanged h
    | failed _ _ _ =>
      have hsound := sound_idle h (m := { s.sender with state := none }) (Nat.le_succ s.opened) rfl
        fun token htoken => htoken
      simpa using hsound
    | gave_up _ _ _ hstate hacknowledged _ =>
      simpa using sound_idle h (Nat.le_succ _) hstate fun token htoken => hacknowledged ▸ htoken
    | @frozen _ region active hregion hdeclined hfor _ hsame hstate =>
      obtain ⟨hknows, habove, hbelow⟩ := chosen_known h hfor (hchosen region hregion hdeclined)
      have hsound := sound_running h [] [] hknows habove hbelow hstate rfl
        (by simp) hsame.acknowledged (fun told htold => .inl htold) (by simp)
      simpa using hsound
    | @encoded _ region active active' pixels request produced _ hregion hdeclined hfor hsame hstate _
        hrequest hencode hsent =>
      obtain ⟨hknows, habove, hbelow⟩ := chosen_known h hfor (hchosen region hregion hdeclined)
      simp [watching] at hencode
      obtain ⟨rfl, hencoder⟩ := hencode
      have hsound := sound_running h sent _ hknows habove hbelow hstate
        (by rw [← hencoder]) (by rw [← hencoder]) hsame.acknowledged
        (by
          intro told htold
          rw [← hencoder, List.mem_append, List.mem_singleton, hrequest] at htold
          exact htold)
        (by
          intro message hmessage frame token hframe htoken
          obtain ⟨p, hp, heq⟩ := hsent message hmessage frame hframe
          rw [List.mem_filterMap]
          exact ⟨p, hp, heq ▸ htoken⟩)
      have hnumber : ({ s with sender := m, opened := s.opened + 1 } : Link ε δ).number =
          active'.encoder.number := by simp [Link.number, hstate]
      rw [hnumber]
      exact hsound

/-! ## The viewer -/

theorem mem_hold {held : List UInt32} {token t : UInt32} (h : t ∈ MotionView.hold held token) :
    t ∈ held ∨ t = token := by
  have hmem := List.mem_of_mem_drop h
  rwa [List.mem_append, List.mem_singleton] at hmem

/-- What a decoder's region holds after a message: nothing, if the message opened the decoder, and
else what it held, with a token of the frame more at most. -/
inductive HeldAfter (viewer : ViewerSession (Nat × δ)) (n : Nat) (message : HostMessage)
    (surface : UInt32) (number : Nat) : List UInt32 → Prop
  | opened (hnumber : number = n) : HeldAfter viewer n message surface number []
  | grown {before : Region (Nat × δ)} {state : δ} {held : List UInt32}
    (hbefore : viewer.motion.regions surface = some before)
    (hdecoder : before.decoder = some (number, state))
    (hheld : ∀ t ∈ held, t ∈ before.held ∨ ∃ frame, message = .VideoFrame frame ∧
      surface = frame.surface ∧ frame.token = some t) :
    HeldAfter viewer n message surface number held

theorem decode_held {n number : Nat} {frame : VideoFrame}
    (hregion : (viewer.motion.decode (numbered H n) frame).2.regions surface = some region)
    (hdecoder : region.decoder = some (number, decoder)) :
    HeldAfter viewer n (.VideoFrame frame) surface number region.held := by
  have hsame : viewer.motion.regions surface = some region →
      HeldAfter viewer n (.VideoFrame frame) surface number region.held :=
    fun h => .grown h hdecoder fun t ht => .inl ht
  unfold MotionView.decode at hregion
  cases hbefore : viewer.motion.regions frame.surface with
  | none => exact hsame (by simpa [hbefore] using hregion)
  | some before =>
    cases hstate : before.decoder with
    | none => exact hsame (by simpa [hbefore, hstate] using hregion)
    | some state =>
      simp only [hbefore, hstate, numbered] at hregion
      by_cases hsurface : surface = frame.surface
      · subst hsurface
        split at hregion
        · simp at hregion
          subst hregion
          simp at hdecoder
          exact .grown hbefore (hstate.trans (by rw [← hdecoder.1])) fun t ht => .inl ht
        · simp at hregion
          subst hregion
          simp at hdecoder
          refine .grown hbefore (hstate.trans (by rw [← hdecoder.1])) fun t ht => ?_
          cases htoken : frame.token with
          | none => exact .inl (by simpa [htoken] using ht)
          | some token =>
            simp [htoken] at ht
            split at ht
            · exact .inl (by simpa using ht)
            · rcases mem_hold (by simpa using ht) with hold | rfl
              · exact .inl hold
              · exact .inr ⟨frame, rfl, rfl, htoken⟩
      · split at hregion <;> exact hsame (by simpa [hsurface] using hregion)

theorem receive_held {n number : Nat}
    (hregion : (viewer.receive (numbered H n) message).1.motion.regions surface = some region)
    (hdecoder : region.decoder = some (number, decoder)) :
    HeldAfter viewer n message surface number region.held := by
  have hsame : viewer.motion.regions surface = some region →
      HeldAfter viewer n message surface number region.held :=
    fun h => .grown h hdecoder fun t ht => .inl ht
  cases message with
  | Goodbye reason => simp [ViewerSession.receive, MotionView.clear_all, MotionView.new] at hregion
  | MotionRegion other rect =>
    cases rect with
    | some rect => exact hsame hregion
    | none =>
      by_cases hsurface : surface = other
      · simp [ViewerSession.receive, MotionView.clear, hsurface] at hregion
      · exact hsame (by simpa [ViewerSession.receive, MotionView.clear, hsurface] using hregion)
  | VideoConfig config =>
    simp only [ViewerSession.receive] at hregion
    split at hregion
    · by_cases hsurface : surface = config.surface
      · simp [MotionView.configure, hsurface] at hregion
        subst hregion
        simp only [numbered, Option.map_eq_some_iff, Prod.mk.injEq] at hdecoder
        obtain ⟨state, -, hnumber, -⟩ := hdecoder
        exact .opened hnumber.symm
      · exact hsame (by simpa [MotionView.configure, hsurface] using hregion)
    · exact hsame hregion
  | VideoFrame frame =>
    simp only [ViewerSession.receive] at hregion
    split at hregion
    · exact decode_held hregion hdecoder
    · exact hsame hregion
  | _ => exact hsame hregion

theorem receive_answer {n : Nat} {tokens : List UInt32}
    (h : (viewer.receive (numbered H n) message).2 = some tokens) : ∃ surface region decoder,
      (viewer.receive (numbered H n) message).1.motion.regions surface = some region ∧
      region.decoder = some
        (answering (viewer.receive (numbered H n) message).1 message, decoder) ∧
      region.held = tokens := by
  cases message with
  | VideoFrame frame =>
    simp only [ViewerSession.receive] at h ⊢
    split at h
    · rename_i hagreed
      simp only [hagreed, if_true, ViewerSession.draw] at h ⊢
      split at h
      · unfold MotionView.decode at h ⊢
        cases hbefore : viewer.motion.regions frame.surface with
        | none => simp [hbefore, Decoded.default] at h
        | some before =>
          cases hstate : before.decoder with
          | none => simp [hbefore, hstate, Decoded.default] at h
          | some state =>
            simp only [hbefore, hstate, numbered] at h ⊢
            split at h
            · simp [Decoded.default] at h
            · refine ⟨frame.surface, _, (H.decode state.2 frame.payload).2,
                Function.update_self _ _ _, ?_, ?_⟩
              · simp [answering]
              · simp only at h ⊢
                rw [h, Option.getD_some]
      · cases h
    · cases h
  | MotionRegion other rect => cases rect <;> simp [ViewerSession.receive] at h
  | VideoConfig config =>
    simp only [ViewerSession.receive] at h
    split at h <;> cases h
  | _ => simp [ViewerSession.receive] at h

/-- The stream is ordered, so a decoder never meets a frame of an earlier encoder, and a token of the
running encoder is in frames of its own only. -/
theorem sound_deliver (h : Sound s) : Sound (s.step E H (.deliver : LinkEvent ε V)) := by
  obtain ⟨hopened, hordered, hdown, hdecoders, hup, hlatest, hrunning⟩ := h
  unfold Link.step
  cases hqueue : s.down with
  | nil => exact ⟨hopened, hordered, hdown, hdecoders, hup, hlatest, hrunning⟩
  | cons p down =>
    obtain ⟨n, message⟩ := p
    rw [hqueue] at hordered
    rw [List.pairwise_cons] at hordered
    have hfirst : n ≤ s.number := hdown (n, message) (by simp [hqueue])
    have hin : ∀ q ∈ down, q ∈ s.down := fun q hq => by simp [hqueue, hq]
    -- a decoder's number is at most that of the message it meets
    have hheld : ∀ {surface number held}, HeldAfter s.viewer n message surface number held →
        number ≤ n ∧ ∀ active, s.sender.state = some active → number = active.encoder.number →
          ∀ t ∈ held, t ∈ active.encoder.tokens := by
      intro surface number held hheld
      cases hheld with
      | opened hnumber => exact ⟨hnumber.le, by simp⟩
      | @grown before state _ hbefore hdecoder hmore =>
        obtain ⟨-, hle⟩ := hdecoders surface before number state hbefore hdecoder
        have hn : number ≤ n := hle (n, message) (by simp [hqueue])
        refine ⟨hn, fun active hactive hnumber t ht => ?_⟩
        have hrun : s.number = active.encoder.number := by simp [Link.number, hactive]
        rcases hmore t ht with ht | ⟨frame, hframe, -, htoken⟩
        · exact (hrunning active hactive).held surface before state hbefore (hnumber ▸ hdecoder) t ht
        · exact (hrunning active hactive).sent (n, message) (by simp [hqueue]) (by omega) frame t
            hframe htoken
    have hanswer : ∀ tokens, (s.viewer.receive (numbered H n) message).2 = some tokens →
        answering (s.viewer.receive (numbered H n) message).1 message ≤ n ∧
          ∀ active, s.sender.state = some active →
            answering (s.viewer.receive (numbered H n) message).1 message = active.encoder.number →
            ∀ t ∈ tokens, t ∈ active.encoder.tokens := by
      intro tokens htokens
      obtain ⟨surface, region, decoder, hregion, hdecoder, rfl⟩ := receive_answer htokens
      exact hheld (receive_held hregion hdecoder)
    constructor
    · exact hopened
    · exact hordered.2
    · exact fun q hq => hdown q (hin q hq)
    · intro surface region number decoder hregion hdecoder
      have hle := (hheld (receive_held hregion hdecoder)).1
      exact ⟨hle.trans hfirst, fun q hq => hle.trans (hordered.1 q hq)⟩
    · intro q hq
      rcases List.mem_append.mp hq with hq | hq
      · exact hup q hq
      · simp at hq
        obtain ⟨tokens, htokens, rfl⟩ := hq
        exact (hanswer tokens htokens).1.trans hfirst
    · exact hlatest
    · intro active hactive
      have hknows := hrunning active hactive
      constructor
      · exact fun q hq => hknows.sent q (hin q hq)
      · intro surface region decoder hregion hdecoder
        exact (hheld (receive_held hregion hdecoder)).2 active hactive rfl
      · intro q hq
        rcases List.mem_append.mp hq with hq | hq
        · exact hknows.up q hq
        · simp at hq
          obtain ⟨tokens, htokens, rfl⟩ := hq
          exact (hanswer tokens htokens).2 active hactive
      · exact hknows.own
      · exact hknows.told

/-- An acknowledgement of the running encoder's decoder names tokens of that encoder. -/
theorem sound_hear (h : Sound s) (hsettled : settled s (.hear : LinkEvent ε V) = true) :
    Sound (s.step E H (.hear : LinkEvent ε V)) := by
  unfold Link.step
  simp only [settled] at hsettled
  cases hqueue : s.up with
  | nil => exact h
  | cons p up =>
    obtain ⟨number, tokens⟩ := p
    simp [hqueue, Option.all_eq_true] at hsettled
    have hin : ∀ q ∈ up, q ∈ s.up := fun q hq => by simp [hqueue, hq]
    refine ⟨h.opened, h.ordered, h.down, h.decoders, fun q hq => h.up q (hin q hq), fun _ => id, ?_⟩
    intro active hactive
    have hknows := h.running active hactive
    refine ⟨hknows.sent, hknows.held, fun q hq => hknows.up q (hin q hq), fun t ht => ?_, hknows.told⟩
    rcases hsettled with rfl | hnumber
    · simp [MotionSender.acknowledge] at ht
    · exact hknows.up (number, tokens) (by simp [hqueue]) (hnumber active hactive).symm t ht

theorem sound_announce (h : Sound s) (surface : UInt32) (rect : Option WireRect) :
    Sound (s.step E H (.announce surface rect : LinkEvent ε V)) := by
  unfold Link.step
  have hnew : ∀ p ∈ s.down ++ [(s.number, HostMessage.MotionRegion surface rect)],
      p ∈ s.down ∨ p = (s.number, .MotionRegion surface rect) := by
    intro p hp
    rwa [List.mem_append, List.mem_singleton] at hp
  refine ⟨h.opened, ?_, fun p hp => ?_, fun surface' region number decoder hregion hdecoder => ?_, h.up,
    h.latest, fun active hactive => ?_⟩
  · rw [List.pairwise_append]
    exact ⟨h.ordered, List.pairwise_singleton _ _, by simpa using h.down⟩
  · rcases hnew p hp with hp | rfl
    · exact h.down p hp
    · exact le_refl s.number
  · obtain ⟨hle, hbefore⟩ := h.decoders surface' region number decoder hregion hdecoder
    refine ⟨hle, fun p hp => ?_⟩
    rcases hnew p hp with hp | rfl
    · exact hbefore p hp
    · exact hle
  · have hknows := h.running active hactive
    refine ⟨fun p hp => ?_, hknows.held, hknows.up, hknows.own, hknows.told⟩
    rcases hnew p hp with hp | rfl
    · exact hknows.sent p hp
    · intro _ frame token hframe
      cases hframe

theorem sound_step (h : Sound s) (e : LinkEvent ε V) (hsettled : settled s e = true) :
    Sound (s.step E H e) := by
  cases e with
  | frame session surface frame opening => exact sound_frame h hsettled
  | set_bitrate | hear_lost => exact ⟨h.opened, h.ordered, h.down, h.decoders, h.up, h.latest,
      fun active hactive => ⟨(h.running active hactive).sent, (h.running active hactive).held,
        (h.running active hactive).up, (h.running active hactive).own, (h.running active hactive).told⟩⟩
  | stop => exact sound_idle h (le_refl s.opened) rfl (by simp [MotionSender.stop])
  | announce surface rect => exact sound_announce h surface rect
  | deliver => exact sound_deliver h
  | hear => exact sound_hear h hsettled

end

/-- An encoder can be told about the references of another. Along the runs where none is opened while
references are remembered, and no acknowledgement of another encoder's decoder is heard, it is told
only about its own, which the viewer named last. -/
theorem encoders_are_told_of_their_own (E : MotionEncoder ε) (H : HevcDecoder δ) (agreed : FeatureSet)
    (events : List (LinkEvent ε V))
    (hsettled : Runs.steps (Link.step E H) settled (.start agreed) events = true) :
    (Runs.run (Link.step E H) (.start agreed) events).OwnReferences := by
  apply Sound.ownReferences
  exact Runs.keeps Sound (fun s e h hsettled => sound_step h e hsettled) (sound_start agreed) hsettled

end

/-! ## One region, two encoders -/

/-- An encoder that gives every frame the next token, and knows its configuration from the first. -/
def countingEncoder : MotionEncoder Nat where
  parameter_sets count := if count = 0 then [] else [0, 0, 1, 64]
  encode count _ request := ([⟨[38, 1], request.keyframe, some (UInt32.ofNat (count + 1))⟩], count + 1)

/-- A decoder that shows one black pixel for every frame. -/
def blackDecoder : HevcDecoder Unit where
  opens payload := if payload.isEmpty then none else some ()
  decode _ _ := (some ⟨1, 1, [0, 0, 0, 255]⟩, ())

theorem motion_side_pos : 0 < 128 := by decide

theorem motion_side_le : 128 ≤ MAX_SURFACE_DIMENSION := by decide

def motionSize : Size :=
  ⟨128, 128, motion_side_pos, motion_side_pos, motion_side_le, motion_side_le⟩

def motionFeatures : FeatureSet :=
  .from_bits (FeatureSet.MOTION_VIDEO ||| FeatureSet.LONG_TERM_REFERENCES)

/-- A session whose only surface is all in motion. -/
def movingSession : HostSession Unit :=
  let encoder := Encoder.new 1 1 motionSize (.with_cache 65536)
  let moving := { encoder with motion := { encoder.motion with region := some (motionSize.bounds, 0) } }
  { HostSession.new [] () .default with
    state := .Open ⟨1, true, true⟩ 65536 motionFeatures
    subscriptions := .insert .empty 1 (.start .Interactive moving 1) }

/-- A frame of the surface, for encoders that always open. -/
def movingFrame (blue : UInt8) : LinkEvent Nat Unit :=
  .frame movingSession 1 ⟨motionSize, fun _ _ => ⟨blue, 0, 0, 255⟩⟩ fun _ _ _ => some 0

/-- The viewer acknowledges the frame that it was sent. -/
def acknowledgedFrame : List (LinkEvent Nat Unit) := [movingFrame 1, .deliver, .deliver, .hear]

/-- The second frame goes to the encoder with the reference that the viewer holds of the first. -/
theorem a_reference_comes_back :
    let s := Runs.run (Link.step countingEncoder blackDecoder) (.start motionFeatures)
      (acknowledgedFrame ++ [movingFrame 2])
    (s.sender.state.map fun active => active.encoder.told) = some [⟨[], [], []⟩, ⟨[1], [1], [1]⟩] ∧
      s.OwnReferences :=
  ⟨by decide +kernel, encoders_are_told_of_their_own countingEncoder blackDecoder motionFeatures
    (acknowledgedFrame ++ [movingFrame 2]) (by decide +kernel)⟩

/-- The rate controller lowers the bitrate, and the new encoder is told of the old one's reference. -/
theorem a_new_encoder_is_told_of_the_old :
    ¬(Runs.run (Link.step countingEncoder blackDecoder) (.start motionFeatures)
      (acknowledgedFrame ++ [.set_bitrate 4000000, movingFrame 2])).OwnReferences := by
  intro h
  have htold : ((Runs.run (Link.step countingEncoder blackDecoder) (.start motionFeatures)
      (acknowledgedFrame ++ [.set_bitrate 4000000, movingFrame 2])).sender.state.map fun active =>
        active.encoder.told) = some [⟨[1], [], [1]⟩] := by decide +kernel
  obtain ⟨active, hactive, htold⟩ := Option.map_eq_some_iff.mp htold
  have hown := (h active hactive ⟨[1], [], [1]⟩ (by simp [htold]) 1 (by simp)).1
  simp at hown

end multiplex_screen_host
