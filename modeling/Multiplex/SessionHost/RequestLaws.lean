-- What one step of a Session Host can come to, whichever connection takes it,
-- and what holds after every step: the caches agree, and the lease is with a
-- connection that is still served.
import Multiplex.SessionHost.Requests

open Expiring
open multiplex_host_protocol (WireEnvelope Viewport)

namespace multiplex_session_host.requests

/-! ## The caches -/

/-- The map and the queue hold the same ids, each once. -/
def MutationCache.Agrees (c : MutationCache) : Prop := Agree c.order c.entries

def NonceCache.Agrees (c : NonceCache) : Prop := Agree c.order c.entries

theorem MutationCache.Agrees.prune {c : MutationCache} (h : c.Agrees) (now : Nat) :
    (c.prune now).Agrees := Agree.prune _ h

theorem inspect_cache (c : MutationCache) (id : List UInt8) (hash : UInt32) (now : Nat) :
    (c.inspect id hash now).2 = c.prune now := by
  unfold MutationCache.inspect
  simp only
  split <;> rfl

theorem inspect_apply {c cache : MutationCache} {id : List UInt8} {hash : UInt32} {now : Nat}
    (h : c.inspect id hash now = (.Apply, cache)) : cache = c.prune now ∧ id ∉ cache.entries := by
  have hcache := inspect_cache c id hash now
  rw [h] at hcache
  subst hcache
  refine ⟨rfl, ?_⟩
  unfold MutationCache.inspect at h
  simp only at h
  split at h
  · rename_i hnone
    exact AList.lookup_eq_none.mp hnone
  · split at h <;> cases h

/-- Recording never loops for ever, and keeps the map and the queue alike. -/
theorem MutationCache.Agrees.record {c : MutationCache} (h : c.Agrees) (id : List UInt8)
    (hash : UInt32) (now : Nat) : ∃ c', c.record id hash now = some c' ∧ c'.Agrees := by
  have hpruned : (c.prune now).Agrees := h.prune now
  unfold MutationCache.record
  by_cases hid : id ∈ (c.prune now).entries
  · rw [if_pos hid]
    exact ⟨_, rfl, Agree.replace hpruned hid _⟩
  · rw [if_neg hid]
    obtain ⟨order, entries, he, hagree, -⟩ :=
      Agree.evict (show 0 < MAX_IDEMPOTENCY_OUTCOMES by decide) hpruned
    rw [he]
    exact ⟨_, rfl, hagree.push (notMem_evict he hid) _⟩

theorem NonceCache.Agrees.accept {c : NonceCache} (h : c.Agrees) (nonce : List UInt8) (now : Nat) :
    ∃ fresh c', c.accept nonce now = some (fresh, c') ∧ c'.Agrees := by
  unfold NonceCache.accept
  rcases hp : Expiring.prune (fun recorded => decide (now - recorded ≥ IDEMPOTENCY_TTL)) c.order
    c.entries with ⟨order, entries⟩
  have hpruned : Agree order entries := by
    have := Agree.prune (fun recorded => decide (now - recorded ≥ IDEMPOTENCY_TTL)) h
    rwa [hp] at this
  simp only
  by_cases hn : nonce ∈ entries
  · rw [if_pos hn]
    exact ⟨false, _, rfl, hpruned⟩
  · rw [if_neg hn]
    obtain ⟨order', entries', he, hagree, -⟩ :=
      Agree.evict (show 0 < MAX_IDEMPOTENCY_OUTCOMES by decide) hpruned
    rw [he]
    exact ⟨true, _, rfl, hagree.push (notMem_evict he hn) _⟩

/-- The command was recorded at this time, and at most `n` others after it. -/
def MutationCache.Remembers (c : MutationCache) (id : List UInt8) (hash : UInt32) (at_ n : Nat) :
    Prop :=
  Expiring.Remembers c.order c.entries id ⟨hash, at_⟩ n

variable {c c' : MutationCache} {id other : List UInt8} {hash hash' : UInt32} {at_ n now : Nat}

section
variable (h : c.Remembers id hash at_ n)
include h

theorem MutationCache.Remembers.prune (hnow : now < at_ + IDEMPOTENCY_TTL) :
    (c.prune now).Remembers id hash at_ n := by
  apply Expiring.Remembers.prune h
  unfold MutationEntry.expired
  rw [decide_eq_false_iff_not]
  simp only
  have : 0 < IDEMPOTENCY_TTL := by decide
  omega

theorem MutationCache.Remembers.inspect (hnow : now < at_ + IDEMPOTENCY_TTL) :
    (c.inspect id hash' now).1 = if hash = hash' then .Replay else .Conflict := by
  unfold MutationCache.inspect
  simp only [(h.prune hnow).value]

theorem MutationCache.Remembers.record (hagree : c.Agrees) (hother : other ∉ c.entries)
    (hnow : now < at_ + IDEMPOTENCY_TTL) (hn : n + 1 < MAX_IDEMPOTENCY_OUTCOMES)
    (hr : c.record other hash' now = some c') : c'.Remembers id hash at_ (n + 1) := by
  have hgone : other ∉ (c.prune now).entries := notMem_prune hother
  unfold MutationCache.record at hr
  rw [if_neg hgone] at hr
  obtain ⟨⟨order, entries⟩, he, rfl⟩ := Option.map_eq_some_iff.mp hr
  exact ((h.prune hnow).evict (hagree.prune now) hn he).push (notMem_evict he hgone) _

end

theorem remembers_recorded (hother : id ∉ c.entries) (hr : c.record id hash now = some c') :
    c'.Remembers id hash now 0 := by
  have hgone : id ∉ (c.prune now).entries := notMem_prune hother
  unfold MutationCache.record at hr
  rw [if_neg hgone] at hr
  obtain ⟨⟨order, entries⟩, he, rfl⟩ := Option.map_eq_some_iff.mp hr
  exact remembers_last order entries id _

/-! ## What a command can do -/

section
variable {crc32c : List UInt8 → UInt32}

/-- All that the handling of one command can come to, when carrying it out can do `Acts`. -/
inductive Handles (crc32c : List UInt8 → UInt32) (Acts : RuntimeState → RuntimeState → Prop)
    (s : RuntimeState) (o : Calls) : Handled → Prop
  | malformed : Handles crc32c Acts s o ⟨s, [], none, false⟩
  | failed {id payload : List UInt8} {cache : MutationCache} {s' : RuntimeState}
      {replies : List Reply} :
      s.idempotency.inspect id (crc32c payload) o.inspected = (.Apply, cache) →
      Acts { s with idempotency := cache } s' →
      Handles crc32c Acts s o ⟨s', replies, some ⟨id, payload, .Failed⟩, false⟩
  | applied {id payload : List UInt8} {cache cache' : MutationCache} {s' : RuntimeState} :
      s.idempotency.inspect id (crc32c payload) o.inspected = (.Apply, cache) →
      Acts { s with idempotency := cache } s' →
      cache.record id (crc32c payload) o.recorded = some cache' →
      Handles crc32c Acts s o ⟨{ s' with idempotency := cache' }, o.send (.CommandResult id),
        some ⟨id, payload, .Applied⟩, o.sends⟩
  | replayed {id payload : List UInt8} {cache : MutationCache} :
      s.idempotency.inspect id (crc32c payload) o.inspected = (.Replay, cache) →
      Handles crc32c Acts s o ⟨{ s with idempotency := cache }, o.send (.CommandResult id),
        some ⟨id, payload, .Replayed⟩, o.sends⟩
  | refused {id payload : List UInt8} {cache : MutationCache} {returned : Bool} :
      s.idempotency.inspect id (crc32c payload) o.inspected = (.Conflict, cache) →
      Handles crc32c Acts s o ⟨{ s with idempotency := cache },
        o.send (.ProtocolError .ConflictingDuplicate), some ⟨id, payload, .Refused⟩, returned⟩

def LeavesCache (Acts : RuntimeState → RuntimeState → Prop) : Prop :=
  ∀ s s', Acts s s' → s'.idempotency = s.idempotency

variable {Acts : RuntimeState → RuntimeState → Prop} {s : RuntimeState} {o : Calls} {h : Handled}
  {phase : Phase}

theorem handle_mutation_handles {apply : RuntimeState → Calls → RuntimeState × Bool}
    {request_id command_bytes payload : List UInt8} (hacts : ∀ s, Acts s (apply s o).1)
    (hcache : LeavesCache Acts)
    (hh : s.handle_mutation crc32c request_id command_bytes payload apply o = some h) :
    Handles crc32c Acts s o h := by
  unfold RuntimeState.handle_mutation at hh
  split at hh
  · cases hh
    exact .malformed
  · rcases hi : s.idempotency.inspect command_bytes (crc32c payload) o.inspected with
      ⟨_ | _ | _, cache⟩
    · simp only [hi] at hh
      have hact := hacts { s with idempotency := cache }
      have hkeep := hcache _ _ hact
      rcases ha : apply { s with idempotency := cache } o with ⟨s', _ | _⟩
      · rw [ha] at hh hact
        cases hh
        exact .failed hi hact
      · rw [ha] at hh hact hkeep
        obtain ⟨cache', hr, rfl⟩ := Option.map_eq_some_iff.mp hh
        rw [hkeep] at hr
        exact .applied hi hact hr
    · simp only [hi] at hh
      cases hh
      exact .replayed hi
    · simp only [hi] at hh
      cases hh
      exact .refused hi

def Signals (s s' : RuntimeState) : Prop :=
  ∃ more, s' = { s with signalled := s.signalled ++ more }

theorem Signals.refl (s : RuntimeState) : Signals s s := ⟨[], by rw [List.append_nil]⟩

variable {s' : RuntimeState} {w : World} {e : Event}

theorem Signals.trans {s'' : RuntimeState} (h : Signals s s') (h' : Signals s' s'') :
    Signals s s'' := by
  obtain ⟨more, rfl⟩ := h
  obtain ⟨more', rfl⟩ := h'
  exact ⟨more ++ more', by rw [List.append_assoc]⟩

theorem leavesCache_signals : LeavesCache Signals := by
  rintro s s' ⟨more, rfl⟩
  rfl

theorem signal_owned_signals (s : RuntimeState) (signal : StopSignal) (o : Calls) :
    Signals s (s.signal_owned signal o).1 := by
  unfold RuntimeState.signal_owned
  split
  · exact ⟨[signal], rfl⟩
  · exact Signals.refl s

theorem stop_owned_signals (s : RuntimeState) (force : Bool) (o : Calls) :
    Signals s (s.stop_owned force o).1 := by
  unfold RuntimeState.stop_owned
  have hsignal : ∀ {s s' : RuntimeState} {signal sent}, s.signal_owned signal o = (s', sent) →
      Signals s s' := by
    intro s s' signal sent heq
    have := signal_owned_signals s signal o
    rwa [heq] at this
  split
  · exact Signals.refl s
  · split
    · rcases hk : s.signal_owned .Kill o with ⟨s₁, _ | _⟩ <;> exact hsignal hk
    · rcases hi : s.signal_owned .Interrupt o with ⟨s₁, _ | _⟩
      · exact hsignal hi
      · simp only
        split
        · exact hsignal hi
        · rcases ht : s₁.signal_owned .Terminate o with ⟨s₂, _ | _⟩
          · exact (hsignal hi).trans (hsignal ht)
          · simp only
            split
            · exact (hsignal hi).trans (hsignal ht)
            · rcases hk : s₂.signal_owned .Kill o with ⟨s₃, _ | _⟩ <;>
                exact ((hsignal hi).trans (hsignal ht)).trans (hsignal hk)

theorem handle_stop_handles {request_id command_bytes payload : List UInt8} {force : Bool}
    (hh : s.handle_stop crc32c request_id command_bytes payload force o = some h) :
    Handles crc32c Signals s o h := by
  unfold RuntimeState.handle_stop at hh
  split at hh
  · cases hh
    exact .malformed
  · rcases hi : s.idempotency.inspect command_bytes (crc32c payload) o.inspected with
      ⟨_ | _ | _, cache⟩
    · simp only [hi] at hh
      have hact := stop_owned_signals { s with idempotency := cache } force o
      have hkeep := leavesCache_signals _ _ hact
      rcases ha : RuntimeState.stop_owned { s with idempotency := cache } force o with ⟨s', _ | _⟩
      · rw [ha] at hh hact
        cases hh
        exact .failed hi hact
      · rw [ha] at hh hact hkeep
        obtain ⟨cache', hr, rfl⟩ := Option.map_eq_some_iff.mp hh
        rw [hkeep] at hr
        exact .applied hi hact hr
    · simp only [hi] at hh
      cases hh
      exact .replayed hi
    · simp only [hi] at hh
      cases hh
      exact .refused hi

/-- Input was written, all of it or a part. -/
def Writes (s s' : RuntimeState) : Prop :=
  ∃ bytes, s' = { s with written := s.written ++ bytes }

theorem leavesCache_writes : LeavesCache Writes := by
  rintro s s' ⟨bytes, rfl⟩
  rfl

theorem write_all_writes (s : RuntimeState) (bytes : List UInt8) (o : Calls) :
    Writes s (s.write_all bytes o).1 := by
  unfold RuntimeState.write_all
  split
  · exact ⟨bytes, rfl⟩
  · exact ⟨bytes.take o.partly, rfl⟩

/-- The terminal has its old size or this one. -/
def Sizes (size : PtySize) (s s' : RuntimeState) : Prop := s' = s ∨ s' = { s with master := size }

theorem leavesCache_sizes (size : PtySize) : LeavesCache (Sizes size) := by
  rintro s s' (rfl | rfl) <;> rfl

theorem resize_sizes (s : RuntimeState) (size : PtySize) (o : Calls) :
    Sizes size s (s.resize size o).1 := by
  unfold RuntimeState.resize
  split
  · exact .inl rfl
  · split
    · exact .inl rfl
    · split
      · exact .inl rfl
      · exact .inr rfl

/-! ## What a step can do -/

/-- A phase in which a request can leave its connection at once. -/
def Phase.Plain : Phase → Prop
  | .Idle | .Ended | .Greeted _ => True
  | _ => False

/-- All that a step can come to. -/
inductive Moves (crc32c : List UInt8 → UInt32) (w : World) : Event → World → Seen → Prop
  | opened : Moves crc32c w .Open
      (({ w with state.next_connection := w.state.next_connection + 1 } : World).go
        w.state.next_connection .Opened) .nothing
  /-- Nothing but the phase changes. -/
  | turned {e : Event} {c : Nat} {phase : Phase} {replies : List Reply} :
      w.phases c ≠ .Closed → phase.Plain → (∀ size, w.phases c ≠ .Resized size) →
      Moves crc32c w e (w.go c phase) ⟨replies, none⟩
  | greeted {e : Event} {c now : Nat} {phase : Phase} {nonce : List UInt8} {fresh : Bool}
      {nonces : NonceCache} {replies : List Reply} :
      w.state.handshake_nonces.accept nonce now = some (fresh, nonces) → w.phases c = .Opened →
      phase.Plain →
      Moves crc32c w e (({ w with state.handshake_nonces := nonces } : World).go c phase)
        ⟨replies, none⟩
  | claimed {e : Event} {c : Nat} {phase : Phase} {replies : List Reply} :
      w.phases c ≠ .Closed → phase.Plain → (∀ size, w.phases c ≠ .Resized size) →
      Moves crc32c w e (({ w with state := w.state.claim_writer c } : World).go c phase)
        ⟨replies, none⟩
  | released {e : Event} {c : Nat} {phase : Phase} {replies : List Reply} :
      (w.phases c = .Idle ∧ phase.Plain ∨ w.phases c = .Ended ∧ phase = .Closed) →
      Moves crc32c w e (({ w with state := w.state.release_writer c } : World).go c phase)
        ⟨replies, none⟩
  /-- Input that passed the check of the lease. -/
  | admitted {e : Event} {c : Nat} {request_id command_id payload bytes : List UInt8} :
      w.phases c = .Idle → w.state.writer_lease = some c →
      Moves crc32c w e (w.go c (.Writing request_id command_id payload bytes)) .nothing
  | written {c : Nat} {request_id command_id payload bytes : List UInt8} {o : Calls} {h : Handled} :
      w.phases c = .Writing request_id command_id payload bytes → w.clock ≤ o.inspected →
      o.inspected ≤ o.recorded → Handles crc32c Writes w.state o h →
      Moves crc32c w (.Write c o) (({ w with state := h.state, clock := o.recorded } : World).go c
        (if h.returned then .Idle else .Ended)) ⟨h.replies, h.command⟩
  | signalled {c limit : Nat} {envelope : WireEnvelope} {o : Calls} {h : Handled} :
      w.phases c = .Idle → w.clock ≤ o.inspected → o.inspected ≤ o.recorded →
      Handles crc32c Signals w.state o h →
      Moves crc32c w (.Request c envelope limit o)
        (({ w with state := h.state, clock := o.recorded } : World).go c
          (if h.returned then .Idle else .Ended)) ⟨h.replies, h.command⟩
  | resized {c limit : Nat} {envelope : WireEnvelope} {size : PtySize} {o : Calls} {h : Handled} :
      w.phases c = .Idle → w.clock ≤ o.inspected → o.inspected ≤ o.recorded →
      Handles crc32c (Sizes size) w.state o h →
      Moves crc32c w (.Request c envelope limit o)
        (({ w with state := h.state, clock := o.recorded } : World).go c
          (if h.returned then .Resized size else .Ended)) ⟨h.replies, h.command⟩
  | screened {c : Nat} {size : PtySize} : w.phases c = .Resized size →
      Moves crc32c w (.Screen c) (({ w with state.parser := size } : World).go c .Idle) .nothing

theorem after_eq {w' : World} {c : Nat} {handled : Option Handled} {now : Seen}
    (ha : w.after c phase o handled = some (w', now)) : ∃ h, handled = some h ∧
      w' = ({ w with state := h.state, clock := o.recorded } : World).go c
        (if h.returned then phase else .Ended) ∧ now = ⟨h.replies, h.command⟩ := by
  obtain ⟨h, hh, heq⟩ := Option.map_eq_some_iff.mp ha
  cases heq
  exact ⟨h, hh, rfl, rfl⟩

variable {decode : WireEnvelope → Option Message}

theorem plain_ended : Phase.Ended.Plain := trivial

theorem plain_if (b : Bool) : (if b then Phase.Idle else Phase.Ended).Plain := by
  cases b <;> exact trivial

theorem request_moves {w' : World} {c limit : Nat} {envelope : WireEnvelope} {now : Seen}
    (hidle : w.phases c = .Idle) (hclock : w.clock ≤ o.inspected)
    (htimes : o.inspected ≤ o.recorded)
    (h : w.request decode crc32c c envelope limit o = some (w', now)) :
    Moves crc32c w (.Request c envelope limit o) w' now := by
  have hopen : w.phases c ≠ .Closed := by
    rw [hidle]
    exact nofun
  have hunsized : ∀ size, w.phases c ≠ .Resized size := by
    rw [hidle]
    exact nofun
  have hturned : ∀ phase replies, Phase.Plain phase →
      Moves crc32c w (.Request c envelope limit o) (w.go c phase) ⟨replies, none⟩ :=
    fun phase replies hp => .turned hopen hp hunsized
  unfold World.request at h
  split at h
  · cases h
    exact hturned _ _ plain_ended
  · rename_i message _
    split at h
    · cases h
      exact hturned _ _ plain_ended
    · split at h
      · cases h
        exact hturned _ _ plain_ended
      · cases message with
        | Reading session_id =>
          cases h
          exact hturned _ _ (plain_if _)
        | InputRequest session_id command_id bytes =>
          simp only at h
          split at h
          · cases h
            exact hturned _ _ plain_ended
          · rename_i hholds
            split at h
            · cases h
              exact hturned _ _ plain_ended
            · cases h
              refine .admitted hidle ?_
              unfold RuntimeState.has_writer at hholds
              simpa using hholds
        | ResizeRequest session_id command_id viewport =>
          simp only at h
          split at h
          · cases h
            exact hturned _ _ plain_ended
          · rename_i size _
            obtain ⟨h', hh, rfl, rfl⟩ := after_eq h
            exact .resized hidle hclock htimes
              (handle_mutation_handles (fun s => resize_sizes s size o) (leavesCache_sizes size) hh)
        | InterruptRequest session_id command_id =>
          obtain ⟨h', hh, rfl, rfl⟩ := after_eq h
          exact .signalled hidle hclock htimes
            (handle_mutation_handles (fun s => signal_owned_signals s _ o) leavesCache_signals hh)
        | StopRequest session_id command_id force =>
          obtain ⟨h', hh, rfl, rfl⟩ := after_eq h
          exact .signalled hidle hclock htimes (handle_stop_handles hh)
        | WriterLeaseRequest session_id command_id acquire =>
          simp only at h
          split at h
          · cases h
            exact hturned _ _ plain_ended
          · cases acquire with
            | true =>
              cases h
              exact .claimed hopen (plain_if _) hunsized
            | false =>
              cases h
              exact .released (.inl ⟨hidle, plain_if _⟩)
        | DetachRequest session_id =>
          cases h
          exact hturned _ _ plain_ended

theorem step_moves {w' : World} {now : Seen} (h : w.step decode crc32c e = some (w', now)) :
    Moves crc32c w e w' now := by
  cases e with
  | Open =>
    cases h
    exact .opened
  | Greet c nonce request_writer_lease o =>
    simp only [World.step] at h
    split at h
    · rename_i hopened
      obtain ⟨⟨fresh, nonces⟩, hn, heq⟩ := Option.map_eq_some_iff.mp h
      split at heq
      · cases heq
        exact .greeted hn hopened trivial
      · cases heq
        exact .greeted hn hopened plain_ended
    · cases h
  | Welcome c o =>
    simp only [World.step] at h
    split at h
    · rename_i request_writer_lease hgreeted
      have hopen : w.phases c ≠ .Closed := by
        rw [hgreeted]
        exact nofun
      have hunsized : ∀ size, w.phases c ≠ .Resized size := by
        rw [hgreeted]
        exact nofun
      split at h
      · cases h
        exact .turned hopen plain_ended hunsized
      · cases request_writer_lease with
        | true =>
          cases h
          exact .claimed hopen (plain_if _) hunsized
        | false =>
          cases h
          exact .turned hopen (plain_if _) hunsized
    · cases h
  | Request c envelope limit o =>
    simp only [World.step] at h
    split at h
    · rename_i hready
      exact request_moves hready.1 hready.2.1 hready.2.2 h
    · cases h
  | Write c o =>
    simp only [World.step] at h
    split at h
    · rename_i request_id command_id payload bytes hwriting
      split at h
      · rename_i hclock
        obtain ⟨h', hh, rfl, rfl⟩ := after_eq h
        exact .written hwriting hclock.1 hclock.2
          (handle_mutation_handles (fun s => write_all_writes s bytes o) leavesCache_writes hh)
      · cases h
    · cases h
  | Screen c =>
    simp only [World.step] at h
    split at h
    · rename_i hresized
      cases h
      exact .screened hresized
    · cases h
  | Leave c =>
    simp only [World.step] at h
    split at h
    all_goals first
      | cases h
        done
      | rename_i hphase
        cases h
        exact .turned (by rw [hphase]; exact nofun) plain_ended (by rw [hphase]; exact nofun)
  | Release c =>
    simp only [World.step] at h
    split at h
    · rename_i hended
      cases h
      exact .released (.inr ⟨hended, rfl⟩)
    · cases h

/-! ## What always holds -/

/-- The caches agree, connections are numbered in order, and the lease is with a connection that
is still served. One that is about to write input holds it. -/
structure Good (w : World) : Prop where
  commands : w.state.idempotency.Agrees
  nonces : w.state.handshake_nonces.Agrees
  fresh : ∀ c, w.state.next_connection ≤ c → w.phases c = .Closed
  held : ∀ c, w.state.writer_lease = some c → w.phases c ≠ .Closed
  writing : ∀ c request_id command_id payload bytes,
    w.phases c = .Writing request_id command_id payload bytes → w.state.writer_lease = some c

theorem good_launch (session_id : List UInt8) (rows columns : Nat) :
    Good (World.launch session_id rows columns) where
  commands := agree_empty
  nonces := agree_empty
  fresh _ _ := rfl
  held _ h := by cases h
  writing _ _ _ _ _ h := by cases h

/-- Carrying out a command changes the terminal and the process, and nothing else. -/
def Carries (s s' : RuntimeState) : Prop :=
  s' = { s with master := s'.master, written := s'.written, signalled := s'.signalled }

theorem carries_signals (h : Signals s s') : Carries s s' := by
  obtain ⟨more, rfl⟩ := h
  rfl

theorem carries_writes (h : Writes s s') : Carries s s' := by
  obtain ⟨bytes, rfl⟩ := h
  rfl

theorem carries_sizes {size : PtySize} (h : Sizes size s s') : Carries s s' := by
  rcases h with rfl | rfl <;> rfl

/-- What the handling of a command leaves as it was. -/
structure Frame (s s' : RuntimeState) : Prop where
  connections : s'.next_connection = s.next_connection
  lease : s'.writer_lease = s.writer_lease
  nonces : s'.handshake_nonces = s.handshake_nonces
  parser : s'.parser = s.parser

theorem Frame.recorded (h : Frame s s') (cache : MutationCache) :
    Frame s { s' with idempotency := cache } := ⟨h.connections, h.lease, h.nonces, h.parser⟩

theorem Carries.frame {cache : MutationCache} (h : Carries { s with idempotency := cache } s') :
    Frame s s' ∧ s'.idempotency = cache := by
  rw [h]
  exact ⟨⟨rfl, rfl, rfl, rfl⟩, rfl⟩

theorem Handles.frame (hacts : ∀ s s', Acts s s' → Carries s s') (hh : Handles crc32c Acts s o h) :
    Frame s h.state := by
  cases hh with
  | malformed => exact ⟨rfl, rfl, rfl, rfl⟩
  | failed _ hact => exact (hacts _ _ hact).frame.1
  | applied _ hact _ => exact (hacts _ _ hact).frame.1.recorded _
  | replayed _ => exact ⟨rfl, rfl, rfl, rfl⟩
  | refused _ => exact ⟨rfl, rfl, rfl, rfl⟩

theorem inspect_agrees {c cache : MutationCache} {id : List UInt8} {hash : UInt32} {now : Nat}
    {decision : MutationDecision} (h : c.Agrees)
    (hi : c.inspect id hash now = (decision, cache)) : cache.Agrees := by
  have := inspect_cache c id hash now
  rw [hi] at this
  simp only at this
  rw [this]
  exact h.prune now

theorem Handles.agrees (hacts : ∀ s s', Acts s s' → Carries s s') (hh : Handles crc32c Acts s o h)
    (hs : s.idempotency.Agrees) : h.state.idempotency.Agrees := by
  cases hh with
  | malformed => exact hs
  | failed hi hact =>
    rw [(hacts _ _ hact).frame.2]
    exact inspect_agrees hs hi
  | applied hi _ hr =>
    obtain ⟨c', hc', hagree⟩ := (inspect_agrees hs hi).record _ _ _
    rw [hr] at hc'
    cases hc'
    exact hagree
  | replayed hi => exact inspect_agrees hs hi
  | refused hi => exact inspect_agrees hs hi

@[simp] theorem phases_go_self (w : World) (c : Nat) (phase : Phase) :
    (w.go c phase).phases c = phase := Function.update_self ..

theorem phases_go_ne (w : World) {c c' : Nat} (phase : Phase) (h : c' ≠ c) :
    (w.go c phase).phases c' = w.phases c' := Function.update_of_ne h ..

/-- A step of one connection keeps what always holds when it keeps the lease. -/
theorem Good.go (h : Good w) (clock : Nat) {c : Nat} (hcommands : s.idempotency.Agrees)
    (hnonces : s.handshake_nonces.Agrees) (hnext : s.next_connection = w.state.next_connection)
    (hopen : w.phases c ≠ .Closed)
    (hheld : ∀ c', s.writer_lease = some c' → if c' = c then phase ≠ .Closed else
      w.phases c' ≠ .Closed) (hwriting : ∀ c' request_id command_id payload bytes,
      (if c' = c then phase else w.phases c') = .Writing request_id command_id payload bytes →
      s.writer_lease = some c') :
    Good (({ w with state := s, clock := clock } : World).go c phase) where
  commands := hcommands
  nonces := hnonces
  fresh c' hc' := by
    have hclosed := h.fresh c' (hnext ▸ hc')
    have hne : c' ≠ c := fun heq => hopen (heq ▸ hclosed)
    rw [phases_go_ne _ _ hne]
    exact hclosed
  held c' hc' := by
    have := hheld c' hc'
    by_cases hne : c' = c
    · subst hne
      rw [if_pos rfl] at this
      rwa [phases_go_self]
    · rw [if_neg hne] at this
      rwa [phases_go_ne _ _ hne]
  writing c' request_id command_id payload bytes hc' := by
    apply hwriting c' request_id command_id payload bytes
    by_cases hne : c' = c
    · subst hne
      rw [phases_go_self] at hc'
      rwa [if_pos rfl]
    · rw [phases_go_ne _ _ hne] at hc'
      rwa [if_neg hne]

theorem Good.go_frame (h : Good w) (clock : Nat) {c : Nat} (hcommands : s.idempotency.Agrees)
    (hnonces : s.handshake_nonces.Agrees) (hnext : s.next_connection = w.state.next_connection)
    (hlease : s.writer_lease = w.state.writer_lease) (hopen : w.phases c ≠ .Closed)
    (hphase : phase ≠ .Closed) (hwriting : ∀ request_id command_id payload bytes,
      phase = .Writing request_id command_id payload bytes → w.state.writer_lease = some c) :
    Good (({ w with state := s, clock := clock } : World).go c phase) := by
  apply h.go clock hcommands hnonces hnext hopen
  · intro c' hc'
    rw [hlease] at hc'
    split
    · exact hphase
    · exact h.held c' hc'
  · intro c' request_id command_id payload bytes hc'
    rw [hlease]
    split at hc'
    · rename_i heq
      rw [heq]
      exact hwriting _ _ _ _ hc'
    · exact h.writing _ _ _ _ _ hc'

theorem Phase.Plain.ne_closed (h : phase.Plain) : phase ≠ .Closed := by
  rintro rfl
  exact h

theorem Phase.Plain.not_writing (h : phase.Plain)
    (request_id command_id payload bytes : List UInt8) :
    phase ≠ .Writing request_id command_id payload bytes := by
  rintro rfl
  exact h

theorem Good.handled (hw : Good w) {c : Nat} (hopen : w.phases c ≠ .Closed)
    (hphase : phase ≠ .Closed) (hnot : ∀ request_id command_id payload bytes,
      phase ≠ .Writing request_id command_id payload bytes)
    (hacts : ∀ s s', Acts s s' → Carries s s') (hh : Handles crc32c Acts w.state o h) :
    Good (({ w with state := h.state, clock := o.recorded } : World).go c
      (if h.returned then phase else .Ended)) := by
  have hframe := hh.frame hacts
  apply hw.go_frame o.recorded (hh.agrees hacts hw.commands) (hframe.nonces ▸ hw.nonces)
    hframe.connections hframe.lease hopen
  · split
    · exact hphase
    · exact nofun
  · intro request_id command_id payload bytes heq
    split at heq
    · exact absurd heq (hnot _ _ _ _)
    · cases heq

theorem good_moves {w' : World} {now : Seen} (hw : Good w) (h : Moves crc32c w e w' now) :
    Good w' := by
  cases h with
  | opened =>
    have hclosed := hw.fresh _ le_rfl
    refine ⟨hw.commands, hw.nonces, ?_, ?_, ?_⟩
    · intro c hc
      have hc' : w.state.next_connection + 1 ≤ c := hc
      rw [phases_go_ne _ _ (by omega)]
      exact hw.fresh c (by omega)
    · intro c hc
      have hheld := hw.held c hc
      have hne : c ≠ w.state.next_connection := by
        rintro rfl
        exact hheld hclosed
      rw [phases_go_ne _ _ hne]
      exact hheld
    · intro c request_id command_id payload bytes hc
      apply hw.writing c request_id command_id payload bytes
      by_cases heq : c = w.state.next_connection
      · rw [heq, phases_go_self] at hc
        cases hc
      · rwa [phases_go_ne _ _ heq] at hc
  | turned hopen hplain _ =>
    exact hw.go_frame w.clock hw.commands hw.nonces rfl rfl hopen hplain.ne_closed
      fun _ _ _ _ heq => absurd heq (hplain.not_writing _ _ _ _)
  | greeted hn hopened hplain =>
    obtain ⟨fresh, nonces, hn', hagree⟩ := hw.nonces.accept _ _
    rw [hn] at hn'
    cases hn'
    exact hw.go_frame w.clock hw.commands hagree rfl rfl (by rw [hopened]; exact nofun)
      hplain.ne_closed fun _ _ _ _ heq => absurd heq (hplain.not_writing _ _ _ _)
  | @claimed _ c _ _ hopen hplain _ =>
    -- a free lease goes to the connection, and one that is held stays where it is
    have hclaim : (w.state.claim_writer c).writer_lease = w.state.writer_lease ∧
        w.state.writer_lease ≠ none ∨
        w.state.writer_lease = none ∧ (w.state.claim_writer c).writer_lease = some c := by
      unfold RuntimeState.claim_writer
      cases hlease : w.state.writer_lease with
      | none => exact .inr ⟨rfl, rfl⟩
      | some c' => exact .inl ⟨hlease, nofun⟩
    have hrest : (w.state.claim_writer c).idempotency = w.state.idempotency ∧
        (w.state.claim_writer c).handshake_nonces = w.state.handshake_nonces ∧
        (w.state.claim_writer c).next_connection = w.state.next_connection := by
      unfold RuntimeState.claim_writer
      split <;> exact ⟨rfl, rfl, rfl⟩
    apply hw.go w.clock (hrest.1 ▸ hw.commands) (hrest.2.1 ▸ hw.nonces) hrest.2.2 hopen
    · intro c' hc'
      split
      · exact hplain.ne_closed
      · rename_i hne
        rcases hclaim with ⟨hsame, -⟩ | ⟨-, hnew⟩
        · exact hw.held c' (hsame ▸ hc')
        · rw [hnew] at hc'
          exact absurd (Option.some.inj hc').symm hne
    · intro c' request_id command_id payload bytes hc'
      split at hc'
      · exact absurd hc' (hplain.not_writing _ _ _ _)
      · have hlease := hw.writing _ _ _ _ _ hc'
        rcases hclaim with ⟨hsame, -⟩ | ⟨hnone, -⟩
        · rw [hsame, hlease]
        · rw [hnone] at hlease
          cases hlease
  | @released _ c phase _ hphase =>
    have hopen : w.phases c ≠ .Closed := by
      rcases hphase with ⟨hidle, -⟩ | ⟨hended, -⟩
      · rw [hidle]
        exact nofun
      · rw [hended]
        exact nofun
    have hrelease : ∀ c', (w.state.release_writer c).writer_lease = some c' ↔
        c' ≠ c ∧ w.state.writer_lease = some c' := by
      intro c'
      unfold RuntimeState.release_writer
      split
      · rename_i hmine
        simp [hmine]
        exact fun hne heq => hne heq.symm
      · rename_i hother
        constructor
        · intro hc'
          exact ⟨fun heq => hother (heq ▸ hc'), hc'⟩
        · exact And.right
    have hrest : (w.state.release_writer c).idempotency = w.state.idempotency ∧
        (w.state.release_writer c).handshake_nonces = w.state.handshake_nonces ∧
        (w.state.release_writer c).next_connection = w.state.next_connection := by
      unfold RuntimeState.release_writer
      split <;> exact ⟨rfl, rfl, rfl⟩
    apply hw.go w.clock (hrest.1 ▸ hw.commands) (hrest.2.1 ▸ hw.nonces) hrest.2.2 hopen
    · intro c' hc'
      obtain ⟨hne, hlease⟩ := (hrelease c').mp hc'
      rw [if_neg hne]
      exact hw.held c' hlease
    · intro c' request_id command_id payload bytes hc'
      split at hc'
      · rcases hphase with ⟨-, hplain⟩ | ⟨-, rfl⟩
        · exact absurd hc' (hplain.not_writing _ _ _ _)
        · cases hc'
      · rename_i hne
        exact (hrelease c').mpr ⟨hne, hw.writing _ _ _ _ _ hc'⟩
  | admitted hidle hlease =>
    exact hw.go_frame w.clock hw.commands hw.nonces rfl rfl (by rw [hidle]; exact nofun) nofun
      fun _ _ _ _ _ => hlease
  | written hwriting _ _ hh =>
    exact hw.handled (by rw [hwriting]; exact nofun) nofun (fun _ _ _ _ => nofun)
      (fun _ _ => carries_writes) hh
  | signalled hidle _ _ hh =>
    exact hw.handled (by rw [hidle]; exact nofun) nofun (fun _ _ _ _ => nofun)
      (fun _ _ => carries_signals) hh
  | resized hidle _ _ hh =>
    exact hw.handled (by rw [hidle]; exact nofun) nofun (fun _ _ _ _ => nofun)
      (fun _ _ => carries_sizes) hh
  | screened hresized =>
    exact hw.go_frame w.clock hw.commands hw.nonces rfl rfl (by rw [hresized]; exact nofun) nofun
      fun _ _ _ _ => nofun

theorem good_run {w' : World} {seen : List Seen} (hw : Good w) (h : Run decode crc32c w seen w') :
    Good w' := by
  induction h with
  | nil => exact hw
  | snoc _ hstep ih => exact good_moves ih (step_moves hstep)

end

end multiplex_session_host.requests
