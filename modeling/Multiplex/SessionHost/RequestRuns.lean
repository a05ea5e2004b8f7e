-- What the requests of any number of connections do to one Session Host: a
-- command is carried out once, input comes from the connection that holds the
-- lease, and the lease is free after its connection.
import Multiplex.SessionHost.RequestLaws

open multiplex_host_protocol (WireEnvelope)
open multiplex_store.journal (castagnoli)

namespace multiplex_session_host.requests

section
variable {crc32c : List UInt8 → UInt32} {decode : WireEnvelope → Option Message}

/-! ## A command is carried out once -/

def Seen.applied (now : Seen) : Bool :=
  match now.command with
  | some command => decide (command.verdict = .Applied)
  | none => false

/-- How many commands were carried out. -/
def appliedIn (seen : List Seen) : Nat := seen.countP Seen.applied

/-- What the Host did to the terminal and the process, and who may write. -/
structure SameEffects (s s' : RuntimeState) : Prop where
  written : s'.written = s.written
  signalled : s'.signalled = s.signalled
  master : s'.master = s.master

variable {e : Event} {now : Seen} {Acts : RuntimeState → RuntimeState → Prop} {s : RuntimeState}
  {o : Calls} {h : Handled} {id : List UInt8} {hash : UInt32}

/-- The clock does not go back, and only the handling of a command touches the cache. -/
theorem moves_clock {w w' : World} (h : Moves crc32c w e w' now) : w.clock ≤ w'.clock := by
  cases h with
  | written _ hclock htimes _ => exact Nat.le_trans hclock htimes
  | signalled _ hclock htimes _ => exact Nat.le_trans hclock htimes
  | resized _ hclock htimes _ => exact Nat.le_trans hclock htimes
  | _ => exact le_rfl

/-- Either a command was handled at these times, or nothing happened to the cache, the terminal and
the process. -/
theorem moves_handles {w w' : World} (h : Moves crc32c w e w' now) :
    (∃ (Acts : RuntimeState → RuntimeState → Prop) (o : Calls) (handled : Handled),
      (∀ s s', Acts s s' → Carries s s') ∧ Handles crc32c Acts w.state o handled ∧
      w'.state = handled.state ∧ now = ⟨handled.replies, handled.command⟩ ∧
      e.inspected_at = o.inspected ∧ w.clock ≤ o.inspected ∧ o.inspected ≤ o.recorded ∧
      w'.clock = o.recorded) ∨
    (w'.state.idempotency = w.state.idempotency ∧ SameEffects w.state w'.state ∧
      now.command = none) := by
  cases h with
  | written _ hclock htimes hh =>
    exact .inl ⟨Writes, _, _, fun _ _ => carries_writes, hh, rfl, rfl, rfl, hclock, htimes, rfl⟩
  | signalled _ hclock htimes hh =>
    exact .inl ⟨Signals, _, _, fun _ _ => carries_signals, hh, rfl, rfl, rfl, hclock, htimes, rfl⟩
  | resized _ hclock htimes hh =>
    exact .inl ⟨Sizes _, _, _, fun _ _ => carries_sizes, hh, rfl, rfl, rfl, hclock, htimes, rfl⟩
  | claimed =>
    right
    unfold World.go RuntimeState.claim_writer
    split <;> exact ⟨rfl, ⟨rfl, rfl, rfl⟩, rfl⟩
  | released =>
    right
    unfold World.go RuntimeState.release_writer
    split <;> exact ⟨rfl, ⟨rfl, rfl, rfl⟩, rfl⟩
  | _ => exact .inr ⟨rfl, ⟨rfl, rfl, rfl⟩, rfl⟩

/-- The handling of a command while another one, or the same, is remembered. -/
theorem Handles.remembers {at_ n : Nat} (hacts : ∀ s s', Acts s s' → Carries s s')
    (hh : Handles crc32c Acts s o h) (hs : s.idempotency.Agrees)
    (hr : s.idempotency.Remembers id hash at_ n) (htimes : o.inspected ≤ o.recorded)
    (hfresh : o.recorded < at_ + IDEMPOTENCY_TTL)
    (hroom : (Seen.mk h.replies h.command).applied = true → n + 1 < MAX_IDEMPOTENCY_OUTCOMES) :
    h.state.idempotency.Remembers id hash at_
      (n + if (Seen.mk h.replies h.command).applied then 1 else 0) := by
  have hlive : o.inspected < at_ + IDEMPOTENCY_TTL := by omega
  have hcache : ∀ {other decision cache}, s.idempotency.inspect other (crc32c decision) o.inspected =
      cache → cache.2.Remembers id hash at_ n := by
    rintro other payload cache rfl
    rw [inspect_cache]
    exact hr.prune hlive
  cases hh with
  | malformed => exact hr
  | failed hi hact =>
    rw [(hacts _ _ hact).frame.2]
    exact hcache hi
  | applied hi hact hrecord =>
    obtain ⟨-, hgone⟩ := inspect_apply hi
    exact (hcache hi).record (inspect_agrees hs hi) hgone hfresh (hroom rfl) hrecord
  | replayed hi => exact hcache hi
  | refused hi => exact hcache hi

theorem Handles.answers {command : Command} {at_ n : Nat} (hh : Handles crc32c Acts s o h)
    (hcommand : h.command = some command) (hr : s.idempotency.Remembers command.id hash at_ n)
    (hlive : o.inspected < at_ + IDEMPOTENCY_TTL) : SameEffects s h.state ∧
    (command.verdict = .Replayed ∧ hash = crc32c command.payload ∧
        h.replies = o.send (.CommandResult command.id) ∨
      command.verdict = .Refused ∧ hash ≠ crc32c command.payload ∧
        h.replies = o.send (.ProtocolError .ConflictingDuplicate)) := by
  have hinspect (payload : List UInt8) :
      (s.idempotency.inspect command.id (crc32c payload) o.inspected).1 =
        if hash = crc32c payload then .Replay else .Conflict := hr.inspect hlive
  cases hh with
  | malformed => cases hcommand
  | @failed id payload _ _ _ hi _ =>
    cases hcommand
    have := hinspect payload
    rw [hi] at this
    split at this <;> cases this
  | @applied id payload _ _ _ hi _ _ =>
    cases hcommand
    have := hinspect payload
    rw [hi] at this
    split at this <;> cases this
  | @replayed id payload _ hi =>
    cases hcommand
    have := hinspect payload
    rw [hi] at this
    split at this
    · rename_i heq
      exact ⟨⟨rfl, rfl, rfl⟩, .inl ⟨rfl, heq, rfl⟩⟩
    · cases this
  | @refused id payload _ _ hi =>
    cases hcommand
    have := hinspect payload
    rw [hi] at this
    split at this
    · cases this
    · rename_i hne
      exact ⟨⟨rfl, rfl, rfl⟩, .inr ⟨rfl, hne, rfl⟩⟩

theorem Handles.effect (hh : Handles crc32c Acts s o h) (hchanged : ¬ SameEffects s h.state) :
    ∃ command, h.command = some command ∧
      (command.verdict = .Applied ∨ command.verdict = .Failed) := by
  cases hh with
  | malformed => exact absurd ⟨rfl, rfl, rfl⟩ hchanged
  | failed => exact ⟨_, rfl, .inr rfl⟩
  | applied => exact ⟨_, rfl, .inl rfl⟩
  | replayed => exact absurd ⟨rfl, rfl, rfl⟩ hchanged
  | refused => exact absurd ⟨rfl, rfl, rfl⟩ hchanged

theorem moves_remembers {w w' : World} (hw : Good w) (h : Moves crc32c w e w' now) {at_ n : Nat}
    (hr : w.state.idempotency.Remembers id hash at_ n) (hfresh : w'.clock < at_ + IDEMPOTENCY_TTL)
    (hroom : now.applied = true → n + 1 < MAX_IDEMPOTENCY_OUTCOMES) :
    w'.state.idempotency.Remembers id hash at_ (n + if now.applied then 1 else 0) := by
  rcases moves_handles h with
    ⟨Acts, o, handled, hacts, hh, hstate, rfl, -, -, htimes, hclock⟩ | ⟨hcache, -, hnone⟩
  · rw [hstate]
    exact hh.remembers hacts hw.commands hr htimes (hclock ▸ hfresh) hroom
  · have hzero : now.applied = false := by
      unfold Seen.applied
      rw [hnone]
    rw [hcache, hzero]
    exact hr

/-- While few others follow and its time has not passed, a command stays in the cache. -/
theorem run_remembers {w w' : World} {seen : List Seen} (hw : Good w)
    (h : Run decode crc32c w seen w') {at_ : Nat} (hr : w.state.idempotency.Remembers id hash at_ 0)
    (hfresh : w'.clock < at_ + IDEMPOTENCY_TTL)
    (hroom : appliedIn seen < MAX_IDEMPOTENCY_OUTCOMES) :
    w'.state.idempotency.Remembers id hash at_ (appliedIn seen) := by
  induction h with
  | nil => exact hr
  | @snoc w₁ w₂ seen e now hrun hstep ih =>
    have hmoves := step_moves hstep
    have hle := moves_clock hmoves
    have hcount : appliedIn (seen ++ [now]) = appliedIn seen + if now.applied then 1 else 0 := by
      unfold appliedIn
      rw [List.countP_append, List.countP_singleton]
    rw [hcount] at hroom ⊢
    apply moves_remembers (good_run hw hrun) hmoves (ih (by omega) (by split at hroom <;> omega)) hfresh
    intro happlied
    rw [happlied] at hroom
    simpa using hroom

theorem moves_recorded {w w' : World} (h : Moves crc32c w e w' now) {command : Command}
    (hcommand : now.command = some command) (happlied : command.verdict = .Applied) :
    w'.state.idempotency.Remembers command.id (crc32c command.payload) w'.clock 0 := by
  rcases moves_handles h with
    ⟨Acts, o, handled, hacts, hh, hstate, rfl, -, -, -, hclock⟩ | ⟨-, -, hnone⟩
  · rw [hstate, hclock]
    cases hh with
    | malformed => cases hcommand
    | failed =>
      cases hcommand
      cases happlied
    | applied hi _ hrecord =>
      cases hcommand
      exact remembers_recorded (inspect_apply hi).2 hrecord
    | replayed =>
      cases hcommand
      cases happlied
    | refused =>
      cases hcommand
      cases happlied
  · rw [hnone] at hcommand
    cases hcommand

theorem Handles.written_eq (hacts : ∀ s s', Acts s s' → s'.written = s.written)
    (hh : Handles crc32c Acts s o h) : h.state.written = s.written := by
  cases hh with
  | malformed => rfl
  | failed _ hact =>
    have := hacts _ _ hact
    exact this
  | applied _ hact _ =>
    have := hacts _ _ hact
    exact this
  | replayed _ => rfl
  | refused _ => rfl

theorem moves_written {w w' : World} (h : Moves crc32c w e w' now)
    (hchanged : w'.state.written ≠ w.state.written) :
    ∃ c o request_id command_id payload bytes, e = .Write c o ∧
      w.phases c = .Writing request_id command_id payload bytes := by
  cases h with
  | written hwriting _ _ _ => exact ⟨_, _, _, _, _, _, rfl, hwriting⟩
  | signalled _ _ _ hh =>
    refine absurd (hh.written_eq ?_) hchanged
    rintro s s' ⟨more, rfl⟩
    rfl
  | resized _ _ _ hh =>
    refine absurd (hh.written_eq ?_) hchanged
    rintro s s' (rfl | rfl) <;> rfl
  | claimed =>
    refine absurd ?_ hchanged
    unfold World.go RuntimeState.claim_writer
    split <;> rfl
  | released =>
    refine absurd ?_ hchanged
    unfold World.go RuntimeState.release_writer
    split <;> rfl
  | _ => exact absurd rfl hchanged

theorem mem_send {reply r : Reply} (h : r ∈ o.send reply) : r = reply := by
  unfold Calls.send at h
  split at h
  · exact List.mem_singleton.mp h
  · cases h

theorem retry_is_answered {w w₁ w₂ w₃ : World} {e' : Event} {again : Seen} {later : List Seen}
    {command retry : Command} (hw : Good w) (hstep : w.step decode crc32c e = some (w₁, now))
    (hcommand : now.command = some command) (happlied : command.verdict = .Applied)
    (hlater : Run decode crc32c w₁ later w₂) (hroom : appliedIn later < MAX_IDEMPOTENCY_OUTCOMES)
    (hagain : w₂.step decode crc32c e' = some (w₃, again)) (hretry : again.command = some retry)
    (hid : retry.id = command.id) (hfresh : e'.inspected_at < w₁.clock + IDEMPOTENCY_TTL) :
    SameEffects w₂.state w₃.state ∧
    (retry.verdict = .Replayed ∧ crc32c command.payload = crc32c retry.payload ∧
        (∀ r ∈ again.replies, r = .CommandResult retry.id) ∨
      retry.verdict = .Refused ∧ crc32c command.payload ≠ crc32c retry.payload ∧
        ∀ r ∈ again.replies, r = .ProtocolError .ConflictingDuplicate) := by
  have hfirst := step_moves hstep
  have hgood := good_moves hw hfirst
  rcases moves_handles (step_moves hagain) with
    ⟨Acts, o, handled, hacts, hh, hstate, rfl, hat, hclock, -, -⟩ | ⟨-, -, hnone⟩
  · rw [hat] at hfresh
    have hremembers := run_remembers hgood hlater (moves_recorded hfirst hcommand happlied)
      (Nat.lt_of_le_of_lt hclock hfresh) hroom
    rw [← hid] at hremembers
    obtain ⟨hsame, hanswer⟩ := hh.answers hretry hremembers hfresh
    rw [hstate]
    refine ⟨hsame, ?_⟩
    rcases hanswer with ⟨hverdict, hhash, hreplies⟩ | ⟨hverdict, hhash, hreplies⟩
    · refine .inl ⟨hverdict, hhash, fun r hr => mem_send (o := o) ?_⟩
      rwa [← hreplies]
    · refine .inr ⟨hverdict, hhash, fun r hr => mem_send (o := o) ?_⟩
      rwa [← hreplies]
  · rw [hnone] at hretry
    cases hretry

end

/-- In every run of a Host: the caches agree and never loop, one connection at most holds the lease
and none that is gone, only that connection's input is written, only a command that is carried out
has an effect, and one that was carried out is answered from the cache after that. -/
theorem commands_apply_once_and_input_is_the_writers (decode : WireEnvelope → Option Message)
    (crc32c : List UInt8 → UInt32) (session_id : List UInt8) (rows columns : Nat) {w : World}
    {seen : List Seen} (h : Run decode crc32c (World.launch session_id rows columns) seen w) :
    (w.state.idempotency.Agrees ∧ w.state.handshake_nonces.Agrees ∧
      (∀ id hash now, (w.state.idempotency.record id hash now).isSome) ∧
      ∀ nonce now, (w.state.handshake_nonces.accept nonce now).isSome) ∧
    (∀ c, w.state.writer_lease = some c → w.phases c ≠ .Closed ∧
      ∀ c', w.state.writer_lease = some c' → c' = c) ∧
    ∀ e w₁ now, w.step decode crc32c e = some (w₁, now) →
      (w₁.state.written ≠ w.state.written → ∃ c o, e = .Write c o ∧ w.state.writer_lease = some c) ∧
      (¬ SameEffects w.state w₁.state → ∃ command, now.command = some command ∧
        (command.verdict = .Applied ∨ command.verdict = .Failed)) ∧
      ∀ command, now.command = some command → command.verdict = .Applied →
      ∀ later w₂, Run decode crc32c w₁ later w₂ → appliedIn later < MAX_IDEMPOTENCY_OUTCOMES →
      ∀ e' w₃ again retry, w₂.step decode crc32c e' = some (w₃, again) →
        again.command = some retry → retry.id = command.id →
        e'.inspected_at < w₁.clock + IDEMPOTENCY_TTL → SameEffects w₂.state w₃.state ∧
        (retry.payload = command.payload → retry.verdict = .Replayed ∧
          ∀ r ∈ again.replies, r = .CommandResult retry.id) ∧
        (crc32c retry.payload ≠ crc32c command.payload → retry.verdict = .Refused ∧
          ∀ r ∈ again.replies, r = .ProtocolError .ConflictingDuplicate) := by
  have hgood := good_run (good_launch session_id rows columns) h
  refine ⟨⟨hgood.commands, hgood.nonces, ?_, ?_⟩, ?_, ?_⟩
  · intro id hash now
    obtain ⟨c', hc', -⟩ := hgood.commands.record id hash now
    rw [hc']
    rfl
  · intro nonce now
    obtain ⟨fresh, c', hc', -⟩ := hgood.nonces.accept nonce now
    rw [hc']
    rfl
  · intro c hc
    refine ⟨hgood.held c hc, fun c' hc' => ?_⟩
    rw [hc] at hc'
    exact (Option.some.inj hc').symm
  · intro e w₁ now hstep
    refine ⟨?_, ?_, ?_⟩
    · intro hchanged
      obtain ⟨c, o, request_id, command_id, payload, bytes, he, hwriting⟩ :=
        moves_written (step_moves hstep) hchanged
      exact ⟨c, o, he, hgood.writing _ _ _ _ _ hwriting⟩
    · intro hchanged
      rcases moves_handles (step_moves hstep) with
        ⟨Acts, o, handled, -, hh, hstate, rfl, -⟩ | ⟨-, hsame, -⟩
      · exact hh.effect (hstate ▸ hchanged)
      · exact absurd hsame hchanged
    · intro command hcommand happlied later w₂ hlater hroom e' w₃ again retry hagain hretry hid hfresh
      obtain ⟨hsame, hanswer⟩ := retry_is_answered hgood hstep hcommand happlied hlater hroom hagain
        hretry hid hfresh
      refine ⟨hsame, ?_, ?_⟩
      · intro hpayload
        rcases hanswer with ⟨hverdict, -, hreplies⟩ | ⟨-, hne, -⟩
        · exact ⟨hverdict, hreplies⟩
        · exact absurd (by rw [hpayload]) hne
      · intro hhash
        rcases hanswer with ⟨-, heq, -⟩ | ⟨hverdict, -, hreplies⟩
        · exact absurd heq.symm hhash
        · exact ⟨hverdict, hreplies⟩

/-! ## A letter typed twice -/

def letterPayload : List UInt8 :=
  [0x4A, 0x27, 0x0A, 0x10] ++ sessionId ++ [0x12, 0x10] ++ List.replicate 16 2 ++ [0x1A, 0x01, 0x61]

def letter : WireEnvelope :=
  ⟨1, 0, .InputRequest, 0, ⟨List.replicate 16 2, rfl⟩, letterPayload⟩

def decodeLetter (envelope : WireEnvelope) : Option Message :=
  if envelope.payload = letterPayload then
    some (.InputRequest sessionId (List.replicate 16 2) [0x61])
  else none

/-- The first connection types the letter, and a second one comes. -/
def letterTyped : List Event :=
  comes 1 1 true ++ [.Request 1 letter 65536 .fine, .Write 1 .fine] ++ comes 2 2 false

theorem letter_is_typed : ∃ w seen,
    Run decodeLetter castagnoli (World.launch sessionId 24 80) seen w ∧
    (∃ now ∈ seen, now.command = some ⟨List.replicate 16 2, letterPayload, .Applied⟩) ∧
    appliedIn seen = 1 ∧ w.state.written = [0x61] ∧
    (w.step decodeLetter castagnoli (.Request 2 letter 65536 .fine)).map Prod.snd =
      some ⟨[.ProtocolError .PermissionDenied], none⟩ := by
  have hsome : ((World.launch sessionId 24 80).steps decodeLetter castagnoli letterTyped).isSome := by
    decide +kernel
  have hrun := run_steps Run.nil (Option.some_get hsome).symm
  refine ⟨_, _, hrun, ?_, ?_, ?_, ?_⟩ <;> decide +kernel

/-- The writer sends a letter, which is written, and sends the same envelope again. -/
def letterSent : World × List Seen :=
  ((World.launch sessionId 24 80).steps decodeLetter castagnoli
    (comes 1 1 true ++ [.Request 1 letter 65536 .fine])).get (by decide +kernel)

def letterWritten : World × Seen :=
  (letterSent.1.step decodeLetter castagnoli (.Write 1 .fine)).get (by decide +kernel)

def letterSentAgain : World × List Seen :=
  (letterWritten.1.steps decodeLetter castagnoli [.Request 1 letter 65536 .fine]).get (by decide +kernel)

def letterAnswered : World × Seen :=
  (letterSentAgain.1.step decodeLetter castagnoli (.Write 1 .fine)).get (by decide +kernel)

theorem steps_get {w : World} {events : List Event}
    (h : (w.steps decodeLetter castagnoli events).isSome) :
    Run decodeLetter castagnoli w ((w.steps decodeLetter castagnoli events).get h).2
      ((w.steps decodeLetter castagnoli events).get h).1 :=
  run_steps Run.nil (Option.some_get h).symm

theorem step_get {w : World} {e : Event} (h : (w.step decodeLetter castagnoli e).isSome) :
    w.step decodeLetter castagnoli e = some (((w.step decodeLetter castagnoli e).get h).1,
      ((w.step decodeLetter castagnoli e).get h).2) := (Option.some_get h).symm

theorem the_letter_typed_again_is_replayed : letterWritten.1.state.written = [0x61] ∧
    SameEffects letterSentAgain.1.state letterAnswered.1.state ∧
      letterAnswered.2.replies ≠ [] ∧
      ∀ r ∈ letterAnswered.2.replies, r = .CommandResult (List.replicate 16 2) := by
  have hsent : Run decodeLetter castagnoli (World.launch sessionId 24 80) letterSent.2 letterSent.1 :=
    steps_get _
  have hagain : Run decodeLetter castagnoli letterWritten.1 letterSentAgain.2 letterSentAgain.1 :=
    steps_get _
  have happlied : letterWritten.2.command = some ⟨List.replicate 16 2, letterPayload, .Applied⟩ := by
    decide +kernel
  have hreplayed : letterAnswered.2.command =
      some ⟨List.replicate 16 2, letterPayload, .Replayed⟩ := by decide +kernel
  have hfresh : (Event.Write 1 .fine).inspected_at < letterWritten.1.clock + IDEMPOTENCY_TTL := by
    decide +kernel
  obtain ⟨-, -, hsteps⟩ :=
    commands_apply_once_and_input_is_the_writers decodeLetter castagnoli sessionId 24 80 hsent
  obtain ⟨-, -, hretries⟩ := hsteps (.Write 1 .fine) letterWritten.1 letterWritten.2 (step_get _)
  obtain ⟨hsame, hsamePayload, -⟩ := hretries _ happlied rfl _ _ hagain (by decide +kernel)
    (.Write 1 .fine) letterAnswered.1 letterAnswered.2 _ (step_get _) hreplayed rfl hfresh
  obtain ⟨-, hreplies⟩ := hsamePayload rfl
  exact ⟨by decide +kernel, hsame, by decide +kernel, hreplies⟩

/-- The same envelope on a connection without the lease gets another answer. -/
theorem a_retry_without_the_lease_is_denied :
    ¬ ∀ (decode : WireEnvelope → Option Message) (crc32c : List UInt8 → UInt32)
      (session_id : List UInt8) (rows columns : Nat) (w : World) (seen : List Seen),
      Run decode crc32c (World.launch session_id rows columns) seen w →
      appliedIn seen < MAX_IDEMPOTENCY_OUTCOMES → ∀ now ∈ seen, ∀ command,
      now.command = some command → command.verdict = .Applied →
      ∀ c envelope limit o w' again, envelope.payload = command.payload →
        envelope.request_id.val = command.id → o.inspected < IDEMPOTENCY_TTL →
        w.step decode crc32c (.Request c envelope limit o) = some (w', again) →
        ∀ r ∈ again.replies, r = .CommandResult command.id := by
  intro hclaim
  obtain ⟨w, seen, hrun, ⟨now, hnow, hcommand⟩, hcount, -, hdenied⟩ := letter_is_typed
  obtain ⟨⟨w', again⟩, hstep, hagain⟩ := Option.map_eq_some_iff.mp hdenied
  have hanswer := hclaim _ _ _ _ _ w seen hrun (by rw [hcount]; decide) now hnow _ hcommand rfl
    2 letter 65536 .fine w' again rfl rfl (by decide) hstep
  simp only at hagain
  rw [hagain] at hanswer
  have := hanswer _ (List.mem_singleton_self _)
  cases this

end multiplex_session_host.requests
