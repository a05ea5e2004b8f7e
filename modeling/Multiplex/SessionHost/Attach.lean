-- An attach, from the replay that the Host picks to the outputs that the client
-- accepts. It continues exactly where the client stopped, unless the snapshot is
-- too large for one frame of the wire.
import Multiplex.SessionHost.Client
import Multiplex.SessionHost.Recording

open multiplex_host_protocol multiplex_store.journal multiplex_client

namespace multiplex_session_host

/-! ## What is sent -/

def outputMessage (session_id : List UInt8) (f : JournalFrame) : Message :=
  .OutputEvent ⟨session_id, f.sequence, f.payload⟩

/-- An output as the client gets it. -/
def sequencedOf (f : JournalFrame) : SequencedOutput := ⟨f.sequence, f.payload⟩

def payloadBytes (frames : List JournalFrame) : Nat :=
  (frames.map fun f => f.payload.length).sum

variable {frames : List JournalFrame}

theorem replaySize_outputs (h : ∀ f ∈ frames, f.kind = .Output) :
    replaySize frames = (payloadBytes frames, frames.length) := by
  have hfold : ∀ size : Nat × Nat, frames.foldl (fun size frame =>
      if frame.kind = .Output then (size.1 + frame.payload.length, size.2 + 1) else size) size =
        (size.1 + payloadBytes frames, size.2 + frames.length) := by
    induction frames with
    | nil => exact fun size => rfl
    | cons f frames ih =>
      intro size
      obtain ⟨hf, hframes⟩ := List.forall_mem_cons.mp h
      rw [List.foldl_cons, if_pos hf, ih hframes]
      unfold payloadBytes
      rw [List.map_cons, List.sum_cons, List.length_cons]
      simp
      omega
  have hzero := hfold (0, 0)
  simp at hzero
  exact hzero

theorem exceededBy_eq_false {request : AttachRequest} {size : Nat × Nat} :
    request.exceededBy size = false ↔
      size.1 ≤ request.maximum_replay_bytes ∧ size.2 ≤ request.maximum_replay_records := by
  unfold AttachRequest.exceededBy
  rw [Bool.or_eq_false_iff, decide_eq_false_iff_not, decide_eq_false_iff_not, not_lt, not_lt]

theorem outputMessages_all (session_id : List UInt8) (request : AttachRequest) :
    ∀ size : Nat × Nat, (∀ f ∈ frames, f.kind = .Output) →
    size.1 + payloadBytes frames ≤ request.maximum_replay_bytes →
    size.2 + frames.length ≤ request.maximum_replay_records →
    outputMessages session_id request frames size =
      (frames.map (outputMessage session_id), true) := by
  induction frames with
  | nil => exact fun _ _ _ _ => rfl
  | cons f frames ih =>
    intro size hkinds hbytes hrecords
    obtain ⟨hf, hframes⟩ := List.forall_mem_cons.mp hkinds
    unfold payloadBytes at hbytes ih
    rw [List.map_cons, List.sum_cons] at hbytes
    rw [List.length_cons] at hrecords
    have hsize : request.exceededBy (size.1 + f.payload.length, size.2 + 1) = false :=
      exceededBy_eq_false.mpr ⟨by simp only; omega, by simp only; omega⟩
    unfold outputMessages
    simp only
    rw [if_neg (not_not.mpr hf), hsize, ih _ hframes (by simp only; omega) (by simp only; omega)]
    rfl

theorem sendAll_all {messages : List Message}
    (h : ∀ m ∈ messages, m.encoded_len ≤ MAX_PAYLOAD_BYTES) : sendAll messages = ⟨messages, .ok ()⟩ := by
  induction messages with
  | nil => rfl
  | cons m messages ih =>
    obtain ⟨hm, hmessages⟩ := List.forall_mem_cons.mp h
    unfold sendAll
    rw [if_neg (not_lt.mpr hm), ih hmessages]

/-! ## Sizes that always fit -/

variable {session_id : List UInt8} {from_sequence : Nat} {state : StateEvent}

theorem ready_fits (hid : session_id.length = 16) {latest : Nat} (hlatest : latest ≤ U64_MAX) :
    (Message.ReadyEvent ⟨session_id, latest⟩).encoded_len ≤ MAX_PAYLOAD_BYTES := by
  have hsession := bytes_len_le session_id (by rw [hid]; decide)
  have hsequence := uint_len_le (n := latest) (by unfold U64_MAX at hlatest; omega)
  have hall : (⟨session_id, latest⟩ : ReadyEvent).encoded_len ≤ 38 := by
    unfold ReadyEvent.encoded_len
    simp only
    omega
  have hmessage := message_len_le 1 (hall.trans_lt (by decide))
  unfold Message.encoded_len MAX_PAYLOAD_BYTES MAX_FRAME_BYTES ENVELOPE_HEADER_BYTES
  simp only
  omega

theorem output_fits (hid : session_id.length = 16) {f : JournalFrame} (hf : f.Fits)
    (hpayload : f.payload.length ≤ MAX_OUTPUT_BYTES) :
    (outputMessage session_id f).encoded_len ≤ MAX_PAYLOAD_BYTES := by
  have hsequence := hf.sequence
  unfold MAX_OUTPUT_BYTES at hpayload
  have hsession := bytes_len_le session_id (by rw [hid]; decide)
  have hnumber := uint_len_le (n := f.sequence) (by unfold U64_MAX at hsequence; omega)
  have hbytes := bytes_len_le f.payload (by omega)
  have hall : (⟨session_id, f.sequence, f.payload⟩ : OutputEvent).encoded_len ≤ 65600 := by
    unfold OutputEvent.encoded_len
    simp only
    omega
  have hmessage := message_len_le 1 (hall.trans_lt (by decide))
  unfold outputMessage Message.encoded_len MAX_PAYLOAD_BYTES MAX_FRAME_BYTES ENVELOPE_HEADER_BYTES
  simp only
  omega

theorem viewport_len_le (v : Viewport) : message_len 1 v.encoded_len ≤ 33 := by
  have hcolumns := uint_len_le (n := v.columns.toNat) (v.columns.toNat_lt.trans (by decide))
  have hrows := uint_len_le (n := v.rows.toNat) (v.rows.toNat_lt.trans (by decide))
  have hall : v.encoded_len ≤ 22 := by
    unfold Viewport.encoded_len
    omega
  have hmessage := message_len_le 1 (hall.trans_lt (by decide))
  omega

theorem state_fits {e : StateEvent} (hid : e.session_id.length = 16)
    (hinstance : e.host_instance_id.length = 16) (hearliest : e.earliest_sequence ≤ U64_MAX)
    (hlatest : e.latest_sequence ≤ U64_MAX) (hdurable : e.durable_sequence < 2 ^ 64) :
    (Message.StateEvent e).encoded_len ≤ MAX_PAYLOAD_BYTES := by
  have hcode : e.lifecycle.code < 2 ^ 64 := by
    cases e.lifecycle <;> decide
  have hlifecycle := uint_len_le hcode
  have hsession := bytes_len_le e.session_id (by rw [hid]; decide)
  have hhost := bytes_len_le e.host_instance_id (by rw [hinstance]; decide)
  have hfirst := uint_len_le (n := e.earliest_sequence) (by unfold U64_MAX at hearliest; omega)
  have hlast := uint_len_le (n := e.latest_sequence) (by unfold U64_MAX at hlatest; omega)
  have hsynced := uint_len_le hdurable
  have hwriter := bool_len_le e.has_writer_lease
  have hpaused := bool_len_le e.recording_paused
  have hviewport := viewport_len_le e.viewport
  have hall : e.encoded_len ≤ 200 := by
    unfold StateEvent.encoded_len
    omega
  have hmessage := message_len_le 1 (hall.trans_lt (by decide))
  unfold Message.encoded_len MAX_PAYLOAD_BYTES MAX_FRAME_BYTES ENVELOPE_HEADER_BYTES
  simp only
  omega

/-! ## What is accepted -/

theorem receive_outputs {crc32c : List UInt8 → UInt32} {client : HostClient}
    (hlimit : MAX_OUTPUT_BYTES ≤ client.maximum_output_bytes)
    (hstate : state.session_id = client.session_id) :
    ∀ {a : Attaching}, a.saw_ready = true → Follow a.tracker.last_sequence frames →
      (∀ f ∈ frames, f.payload.length ≤ MAX_OUTPUT_BYTES) →
      a.bytes + payloadBytes frames ≤ MAX_REPLAY_BYTES →
      a.outputs.length + frames.length ≤ MAX_REPLAY_RECORDS → client.receive crc32c from_sequence
        (frames.map (outputMessage client.session_id) ++ [.StateEvent state]) a =
          .ok ⟨a.outputs ++ frames.map sequencedOf, a.last_snapshot⟩ := by
  induction frames with
  | nil =>
    intro a hready _ _ _ _
    rw [List.map_nil, List.nil_append, HostClient.receive, if_pos hready]
    unfold HostClient.require_session
    rw [if_pos hstate, List.map_nil, List.append_nil]
    rfl
  | cons f frames ih =>
    intro a hready hfollow hpayloads hbytes hrecords
    obtain ⟨hfits, hnext, hrest⟩ := hfollow
    obtain ⟨hpayload, hpayloads⟩ := List.forall_mem_cons.mp hpayloads
    unfold payloadBytes at hbytes ih
    rw [List.map_cons, List.sum_cons] at hbytes
    rw [List.length_cons] at hrecords
    have hlast : a.tracker.last_sequence < U64_MAX := by
      have := hfits.sequence
      omega
    have hobserve : a.tracker.observe crc32c f.sequence f.payload =
        .ok (⟨f.sequence, some (crc32c f.payload)⟩, .Accept) := by
      unfold SequenceTracker.observe
      rw [if_neg (by omega), checked_next_eq hlast]
      simp only
      rw [if_neg (not_not.mpr hnext)]
    have haccept : client.accept_output crc32c a ⟨client.session_id, f.sequence, f.payload⟩ =
        .ok { a with
          tracker := ⟨f.sequence, some (crc32c f.payload)⟩
          bytes := a.bytes + f.payload.length
          outputs := a.outputs ++ [⟨f.sequence, f.payload⟩] } := by
      unfold HostClient.accept_output HostClient.require_session
      rw [if_pos rfl]
      simp only [bind, Except.bind]
      rw [if_neg (by omega), hobserve]
      simp only
      rw [if_neg (by omega)]
    rw [List.map_cons, List.cons_append, outputMessage, HostClient.receive, if_pos hready, haccept]
    refine (ih ?_ ?_ hpayloads ?_ ?_).trans ?_
    · exact hready
    · exact hrest
    · simp only
      omega
    · simp
      omega
    · rw [List.append_assoc, List.map_cons]
      rfl

theorem attach_messages {crc32c : List UInt8 → UInt32} {client : HostClient}
    (hlimit : MAX_OUTPUT_BYTES ≤ client.maximum_output_bytes)
    (hstate : state.session_id = client.session_id) (latest : Nat)
    {snapshot : Option TerminalSnapshot} (hsnapshot : ∀ s, snapshot = some s →
      s.terminal_bytes.length ≤ MAX_REPLAY_BYTES ∧ from_sequence ≤ s.boundary)
    (hfollow : Follow ((snapshot.map TerminalSnapshot.boundary).getD from_sequence) frames)
    (hpayloads : ∀ f ∈ frames, f.payload.length ≤ MAX_OUTPUT_BYTES)
    (hbytes : payloadBytes frames ≤ MAX_REPLAY_BYTES)
    (hrecords : frames.length ≤ MAX_REPLAY_RECORDS) :
    client.attach crc32c from_sequence (.ReadyEvent ⟨client.session_id, latest⟩ ::
        (snapshot.map (snapshotMessage client.session_id)).toList ++
        frames.map (outputMessage client.session_id) ++ [.StateEvent state]) =
      .ok ⟨frames.map sequencedOf, snapshot.map fun s =>
        ⟨client.session_id, s.boundary, ⟨s.columns, s.rows⟩, s.terminal_bytes⟩⟩ := by
  unfold HostClient.attach
  rw [List.cons_append, List.cons_append, HostClient.receive]
  unfold HostClient.require_session
  rw [if_pos rfl]
  cases snapshot with
  | none =>
    refine (receive_outputs hlimit hstate ?_ ?_ hpayloads ?_ ?_).trans ?_
    · rfl
    · exact hfollow
    · rw [Nat.zero_add]
      exact hbytes
    · rw [List.length_nil, Nat.zero_add]
      exact hrecords
    · rfl
  | some s =>
    obtain ⟨hsize, hboundary⟩ := hsnapshot s rfl
    rw [Option.map_some, Option.toList_some, List.singleton_append, List.cons_append,
      snapshotMessage, HostClient.receive]
    unfold HostClient.accept_snapshot HostClient.require_session
    rw [if_pos rfl, if_pos rfl]
    simp only [bind, Except.bind]
    rw [if_neg (by omega)]
    refine (receive_outputs hlimit hstate ?_ ?_ hpayloads ?_ ?_).trans ?_
    · rfl
    · exact hfollow
    · rw [Nat.zero_add]
      exact hbytes
    · rw [List.length_nil, Nat.zero_add]
      exact hrecords
    · rfl

/-! ## The replay -/

section
variable {σ : Type} {vt : Vt100 σ} {crc32c : List UInt8 → UInt32} {windows : Bool}
  {limits : JournalLimits} {first : σ}

variable {host : RuntimeState σ} {outputs : List Output} {l : Layout} {client : HostClient}

theorem read_live_recording (h : Recording vt crc32c windows limits first host outputs l)
    (p : Nat) : (p < host.journal.base_sequence → host.journal.read_live_from crc32c host.disk p =
      .error ⟨.HistoryUnavailable, host.journal.earliest_sequence⟩) ∧
    (host.journal.base_sequence ≤ p → ∃ read,
      host.journal.read_live_from crc32c host.disk p = .ok read ∧
      read.frames = (framesOf windows outputs).drop p ∧
      read.latest = host.journal.sequence_bounds.2) := by
  have hstored := h.alive.same_limits ▸ h.alive.stored
  have hlive := read_live_from_stored h.alive.mirrors hstored p
  rw [read_from_stored h.alive.mirrors hstored] at hlive
  constructor
  · intro hlt
    rw [if_pos hlt] at hlive
    cases hread : host.journal.read_live_from crc32c host.disk p with
    | error e =>
      rw [hread] at hlive
      cases hlive
      rfl
    | ok read =>
      rw [hread] at hlive
      cases hlive
  · intro hle
    rw [if_neg (not_lt.mpr hle)] at hlive
    cases hread : host.journal.read_live_from crc32c host.disk p with
    | error e =>
      rw [hread] at hlive
      cases hlive
    | ok read =>
      rw [hread] at hlive
      simp [Except.map] at hlive
      refine ⟨read, rfl, ?_, hlive.2⟩
      rw [hlive.1, h.alive.frames, List.drop_drop, Nat.add_sub_cancel' hle]

theorem kind_framesOf : ∀ f ∈ framesOf windows outputs, f.kind = .Output := by
  intro f hf
  obtain ⟨i, hi, rfl⟩ := List.mem_mapIdx.mp hf
  rfl

variable (windows) in
/-- The outputs after the first ones are too many to be replayed. -/
def ReplayExceeds (outputs : List Output) (k : Nat) : Prop :=
  MAX_REPLAY_BYTES < payloadBytes ((framesOf windows outputs).drop k) ∨
    MAX_REPLAY_RECORDS < (outputs.drop k).length

variable {p : Nat} {later : RuntimeState σ} {since : List Output} {l' : Layout} {read : JournalRead}

theorem exceededBy_iff {k : Nat} :
    (attachRequest p).exceededBy (replaySize ((framesOf windows outputs).drop k)) = true ↔
      ReplayExceeds windows outputs k := by
  have hlength : ((framesOf windows outputs).drop k).length = (outputs.drop k).length := by
    rw [List.length_drop, List.length_drop, length_framesOf]
  rw [replaySize_outputs fun f hf => kind_framesOf f (List.mem_of_mem_drop hf), hlength]
  unfold AttachRequest.exceededBy ReplayExceeds attachRequest
  rw [Bool.or_eq_true, decide_eq_true_eq, decide_eq_true_eq]

variable (vt windows first) in
/-- What the Host picks: the outputs after the sequence, after its stored snapshot, or its screen. -/
inductive Picks (host : RuntimeState σ) (outputs : List Output) (p : Nat) :
    Except HostErrorCode (Except JournalError (JournalRead × Option TerminalSnapshot)) → Prop where
  | tooLarge (exceeds : ReplayExceeds windows outputs (max p host.journal.base_sequence))
      (large : MAX_REPLAY_BYTES < (snapshotAfter vt first outputs outputs.length).terminal_bytes.length) :
      Picks host outputs p (.error .ResourceLimit)
  | screen (exceeds : ReplayExceeds windows outputs (max p host.journal.base_sequence))
      (size : (snapshotAfter vt first outputs outputs.length).terminal_bytes.length ≤ MAX_REPLAY_BYTES)
      (earliest : Option Nat) :
      Picks host outputs p (.ok (.ok (⟨earliest, host.journal.sequence_bounds.2, [], false⟩,
        some (snapshotAfter vt first outputs outputs.length))))
  | stored (within : ¬ ReplayExceeds windows outputs (max p host.journal.base_sequence))
      (below : p < host.journal.base_sequence) (read : JournalRead)
      (frames : read.frames = (framesOf windows outputs).drop host.journal.base_sequence)
      (latest : read.latest = host.journal.sequence_bounds.2) :
      Picks host outputs p
        (.ok (.ok (read, some (snapshotAfter vt first outputs host.journal.base_sequence))))
  | frames (within : ¬ ReplayExceeds windows outputs (max p host.journal.base_sequence))
      (above : host.journal.base_sequence ≤ p) (read : JournalRead)
      (frames : read.frames = (framesOf windows outputs).drop p)
      (latest : read.latest = host.journal.sequence_bounds.2) :
      Picks host outputs p (.ok (.ok (read, none)))

section
variable (h : Recording vt crc32c windows limits first host outputs l)
include h

theorem snapshotAfter_all :
    snapshotOf vt host.parser host.journal.latest_sequence =
      snapshotAfter vt first outputs outputs.length := by
  have hlatest := h.alive.latest
  rw [length_framesOf] at hlatest
  unfold snapshotAfter
  rw [hlatest, h.parser, List.take_length]

theorem replay_picks (p : Nat) :
    Picks vt windows first host outputs p (host.replay vt crc32c (attachRequest p)) := by
  have hscreen := snapshotAfter_all h
  have hbytes : terminal_snapshot_bytes vt host.parser =
      (snapshotAfter vt first outputs outputs.length).terminal_bytes := by
    rw [← hscreen]
    rfl
  obtain ⟨hbelow, -⟩ := read_live_recording h p
  unfold RuntimeState.replay
  simp only [bind, Except.bind]
  rcases Nat.lt_or_ge p host.journal.base_sequence with hlt | hge
  · obtain ⟨hsnapshot, hfits⟩ := h.shown (by omega)
    obtain ⟨read, hread, hframes, hlatest⟩ := (read_live_recording h host.journal.base_sequence).2 le_rfl
    have hmax : max p host.journal.base_sequence = host.journal.base_sequence := max_eq_right hlt.le
    have hagain : host.journal.read_live_from crc32c host.disk
        (snapshotAfter vt first outputs host.journal.base_sequence).boundary = .ok read := hread
    have hfrom : host.journal.read_live_from crc32c host.disk (attachRequest p).from_sequence =
      .error ⟨.HistoryUnavailable, host.journal.earliest_sequence⟩ := hbelow hlt
    simp [hfrom, load_snapshot_bytes crc32c hfits hsnapshot, hagain]
    rw [hframes]
    split
    · rename_i hexceeds
      rw [exceededBy_iff, ← hmax] at hexceeds
      rw [hbytes, hscreen]
      split
      · rename_i hlarge
        exact .tooLarge hexceeds hlarge
      · rename_i hsmall
        exact .screen hexceeds (not_lt.mp hsmall) _
    · rename_i hwithin
      rw [exceededBy_iff, ← hmax] at hwithin
      exact .stored hwithin hlt read hframes hlatest
  · obtain ⟨read, hread, hframes, hlatest⟩ := (read_live_recording h p).2 hge
    have hmax : max p host.journal.base_sequence = p := max_eq_left hge
    have hfrom : host.journal.read_live_from crc32c host.disk (attachRequest p).from_sequence =
      .ok read := hread
    simp only [hfrom]
    rw [hframes]
    split
    · rename_i hexceeds
      rw [exceededBy_iff, ← hmax] at hexceeds
      rw [hbytes, hscreen]
      split
      · rename_i hlarge
        exact .tooLarge hexceeds hlarge
      · rename_i hsmall
        exact .screen hexceeds (not_lt.mp hsmall) _
    · rename_i hwithin
      rw [exceededBy_iff, ← hmax] at hwithin
      exact .frames hwithin hge read hframes hlatest

end

/-! ## From the Host to the client -/

def SnapshotFits (session_id : List UInt8) (s : TerminalSnapshot) : Prop :=
  (snapshotMessage session_id s).encoded_len ≤ MAX_PAYLOAD_BYTES

variable (vt windows first) in
/-- The snapshot that an attach has to send fits into one frame: the screen when the replay is too
long, and the stored one when the client is behind it. -/
def AttachFits (host : RuntimeState σ) (outputs : List Output) (p : Nat) : Prop :=
  (ReplayExceeds windows outputs (max p host.journal.base_sequence) →
    SnapshotFits host.session_id (snapshotAfter vt first outputs outputs.length)) ∧
  (¬ ReplayExceeds windows outputs (max p host.journal.base_sequence) →
    p < host.journal.base_sequence →
    SnapshotFits host.session_id (snapshotAfter vt first outputs host.journal.base_sequence))

variable (windows) in
def sequenced (outputs : List Output) : List SequencedOutput :=
  outputs.mapIdx fun i o => ⟨i + 1, recorded windows o.bytes⟩

variable (vt windows first) in
/-- The client goes on right after the sequence it asked for, or after a snapshot that is not behind
it and shows the screen of exactly the outputs before. -/
def Continues (outputs : List Output) (p : Nat) (attached : Attached) : Prop :=
  match attached.last_snapshot with
  | none => attached.outputs = (sequenced windows outputs).drop p
  | some s =>
    p ≤ s.boundary_sequence ∧ s.boundary_sequence ≤ outputs.length ∧
    s.viewport = ⟨(snapshotAfter vt first outputs s.boundary_sequence).columns,
      (snapshotAfter vt first outputs s.boundary_sequence).rows⟩ ∧
    s.terminal_bytes = (snapshotAfter vt first outputs s.boundary_sequence).terminal_bytes ∧
    attached.outputs = (sequenced windows outputs).drop s.boundary_sequence

theorem map_sequencedOf (outputs : List Output) :
    (framesOf windows outputs).map sequencedOf = sequenced windows outputs := by
  apply List.ext_getElem?
  intro i
  unfold framesOf sequenced
  rw [List.getElem?_map, List.getElem?_mapIdx, List.getElem?_mapIdx, Option.map_map]
  rfl

theorem bounds_le (h : Recording vt crc32c windows limits first host outputs l) :
    host.journal.sequence_bounds.1.getD 0 ≤ U64_MAX ∧
      host.journal.sequence_bounds.2.getD 0 ≤ U64_MAX := by
  have hlatest := h.alive.latest
  have hbase := h.alive.base_le
  have hlt := h.lt
  rw [length_framesOf] at hlatest hbase
  have hnonzero : ∀ n, n ≤ U64_MAX → (nonzero n).getD 0 ≤ U64_MAX := by
    intro n hn
    unfold nonzero
    split
    · exact hn
    · exact Nat.zero_le _
  refine ⟨?_, hnonzero _ (by omega)⟩
  unfold JournalStore.sequence_bounds
  rw [h.alive.mirrors.earliest]
  have hfollow := h.alive.stored.follow
  cases hframes : l.frames with
  | nil => exact hnonzero _ (by omega)
  | cons f frames =>
    rw [hframes] at hfollow
    exact hfollow.1.sequence

/-- The Host and the client that talk to each other. -/
structure Pair (host later : RuntimeState σ) (client : HostClient) : Prop where
  session : client.session_id = host.session_id
  same : later.session_id = host.session_id
  session_size : host.session_id.length = 16
  instance_size : later.host_instance_id.length = 16
  limit : MAX_OUTPUT_BYTES ≤ client.maximum_output_bytes

theorem attachRequest_ok (p : Nat) : ¬ ((attachRequest p).maximum_replay_bytes = 0 ∨
      (attachRequest p).maximum_replay_bytes > MAX_REPLAY_BYTES ∨
      (attachRequest p).maximum_replay_records = 0 ∨
      (attachRequest p).maximum_replay_records > MAX_REPLAY_RECORDS) := by
  change ¬ (MAX_REPLAY_BYTES = 0 ∨ MAX_REPLAY_BYTES > MAX_REPLAY_BYTES ∨ MAX_REPLAY_RECORDS = 0 ∨
    MAX_REPLAY_RECORDS > MAX_REPLAY_RECORDS)
  decide

theorem attach_served (h : Recording vt crc32c windows limits first host outputs l)
    (hlater : Recording vt crc32c windows limits first later since l')
    (hpair : Pair host later client) (hsizes : ∀ o ∈ outputs, o.bytes.length ≤ MAX_OUTPUT_BYTES)
    (has_writer : Bool) {k : Nat} {snapshot : Option TerminalSnapshot}
    (hreplay : host.replay vt crc32c (attachRequest p) = .ok (.ok (read, snapshot)))
    (hframes : read.frames = (framesOf windows outputs).drop k) (hk : k ≤ outputs.length)
    (hlatest : read.latest = host.journal.sequence_bounds.2)
    (hwithin : ¬ ReplayExceeds windows outputs k)
    (hsnapshot : ∀ s, snapshot = some s → SnapshotFits host.session_id s ∧
      s.terminal_bytes.length ≤ MAX_REPLAY_BYTES ∧ p ≤ s.boundary)
    (hfrom : (snapshot.map TerminalSnapshot.boundary).getD p = k) :
    (host.serve_attach vt crc32c later has_writer (attachRequest p)).result = .ok () ∧
    client.attach crc32c p (host.serve_attach vt crc32c later has_writer (attachRequest p)).sent =
      .ok ⟨(sequenced windows outputs).drop k, snapshot.map fun s =>
        ⟨host.session_id, s.boundary, ⟨s.columns, s.rows⟩, s.terminal_bytes⟩⟩ := by
  obtain ⟨hsession, hsame, hid, hinstance, hlimit⟩ := hpair
  have hkinds : ∀ f ∈ read.frames, f.kind = .Output := by
    intro f hf
    rw [hframes] at hf
    exact kind_framesOf f (List.mem_of_mem_drop hf)
  have hpayloads : ∀ f ∈ read.frames, f.payload.length ≤ MAX_OUTPUT_BYTES := by
    intro f hf
    rw [hframes] at hf
    obtain ⟨i, hi, rfl⟩ := List.mem_mapIdx.mp (List.mem_of_mem_drop hf)
    exact (length_recorded windows _).trans (hsizes _ (List.getElem_mem hi))
  have hfollow : Follow k read.frames := by
    have hdrop := h.follow.drop (n := k) (by rw [length_framesOf]; exact hk)
    rw [hframes]
    rw [Nat.zero_add] at hdrop
    exact hdrop
  unfold ReplayExceeds at hwithin
  rw [not_or, not_lt, not_lt, ← hframes] at hwithin
  have hrecords : read.frames.length ≤ MAX_REPLAY_RECORDS := by
    rw [hframes, List.length_drop, length_framesOf, ← List.length_drop]
    exact hwithin.2
  have hmessages := outputMessages_all host.session_id (attachRequest p) (0, 0) hkinds
    (by rw [Nat.zero_add]; exact hwithin.1) (by rw [Nat.zero_add]; exact hrecords)
  have hserve : host.serve_attach vt crc32c later has_writer (attachRequest p) =
      sendAll (.ReadyEvent ⟨host.session_id, read.latest.getD 0⟩ ::
        (snapshot.map (snapshotMessage host.session_id)).toList ++
        read.frames.map (outputMessage host.session_id) ++ [later.stateMessage vt has_writer]) := by
    unfold RuntimeState.serve_attach
    rw [if_neg (attachRequest_ok p), hreplay]
    simp [hmessages]
  have hfits : ∀ m ∈ Message.ReadyEvent ⟨host.session_id, read.latest.getD 0⟩ ::
      (snapshot.map (snapshotMessage host.session_id)).toList ++
      read.frames.map (outputMessage host.session_id) ++ [later.stateMessage vt has_writer],
      m.encoded_len ≤ MAX_PAYLOAD_BYTES := by
    intro m hm
    rw [List.mem_append, List.mem_append, List.mem_cons, Option.mem_toList] at hm
    rcases hm with ((rfl | hm) | hm) | hm
    · rw [hlatest]
      exact ready_fits hid (bounds_le h).2
    · obtain ⟨s, hs, rfl⟩ := Option.map_eq_some_iff.mp hm
      exact (hsnapshot s hs).1
    · obtain ⟨f, hf, rfl⟩ := List.mem_map.mp hm
      exact output_fits hid (hfollow.fits f hf) (hpayloads f hf)
    · rw [List.mem_singleton.mp hm]
      exact state_fits (hsame ▸ hid) hinstance (bounds_le hlater).1 (bounds_le hlater).2
        later.durable_sequence.toNat_lt
  rw [hserve, sendAll_all hfits]
  refine ⟨rfl, ?_⟩
  rw [← hsession]
  refine (attach_messages hlimit ?_ _ ?_ ?_ hpayloads hwithin.1 hrecords).trans ?_
  · exact hsame.trans hsession.symm
  · exact fun s hs => (hsnapshot s hs).2
  · rw [hfrom]
    exact hfollow
  · rw [hframes, List.map_drop, map_sequencedOf]

theorem attach_unsent (h : Recording vt crc32c windows limits first host outputs l)
    (hpair : Pair host later client) (has_writer : Bool) {snapshot : TerminalSnapshot}
    (hreplay : host.replay vt crc32c (attachRequest p) = .ok (.ok (read, some snapshot)))
    (hlatest : read.latest = host.journal.sequence_bounds.2)
    (hlarge : ¬ SnapshotFits host.session_id snapshot) :
    (host.serve_attach vt crc32c later has_writer (attachRequest p)).result = .error .ResourceLimit ∧
    client.attach crc32c p (host.serve_attach vt crc32c later has_writer (attachRequest p)).sent =
      .error .EndOfStream := by
  have hready := ready_fits hpair.session_size (bounds_le h).2
  rw [← hlatest] at hready
  have hserve : host.serve_attach vt crc32c later has_writer (attachRequest p) =
      ⟨[.ReadyEvent ⟨host.session_id, read.latest.getD 0⟩], .error .ResourceLimit⟩ := by
    unfold RuntimeState.serve_attach
    rw [if_neg (attachRequest_ok p), hreplay]
    simp
    rw [sendAll, if_neg (not_lt.mpr hready), sendAll, if_pos (not_le.mp hlarge)]
  rw [hserve]
  refine ⟨rfl, ?_⟩
  unfold HostClient.attach
  rw [HostClient.receive]
  unfold HostClient.require_session
  rw [if_pos hpair.session.symm]
  rfl

theorem not_fits_of_large {session_id : List UInt8} {s : TerminalSnapshot}
    (h : MAX_PAYLOAD_BYTES < s.terminal_bytes.length) : ¬ SnapshotFits session_id s := by
  have hbytes := le_bytes_len s.terminal_bytes
  unfold SnapshotFits snapshotMessage Message.encoded_len ViewportSnapshotEvent.encoded_len
    message_len
  simp only
  omega

/-- An attach that fits continues, and one that does not fails on both sides. -/
theorem attach_cases (h : Recording vt crc32c windows limits first host outputs l)
    (hlater : Recording vt crc32c windows limits first later since l')
    (hpair : Pair host later client) (hsizes : ∀ o ∈ outputs, o.bytes.length ≤ MAX_OUTPUT_BYTES)
    (has_writer : Bool) (hp : p ≤ outputs.length) : (AttachFits vt windows first host outputs p ∧
      (host.serve_attach vt crc32c later has_writer (attachRequest p)).result = .ok () ∧
      ∃ attached, client.attach crc32c p
          (host.serve_attach vt crc32c later has_writer (attachRequest p)).sent = .ok attached ∧
        Continues vt windows first outputs p attached) ∨
    (¬ AttachFits vt windows first host outputs p ∧
      (host.serve_attach vt crc32c later has_writer (attachRequest p)).result =
        .error .ResourceLimit ∧ client.attach crc32c p
          (host.serve_attach vt crc32c later has_writer (attachRequest p)).sent =
        .error .EndOfStream) := by
  have hbase : host.journal.base_sequence ≤ outputs.length := by
    rw [← length_framesOf windows outputs]
    exact h.alive.base_le
  have hpicks := replay_picks h p
  cases hreplay : host.replay vt crc32c (attachRequest p) with
  | error code =>
    rw [hreplay] at hpicks
    cases hpicks with
    | tooLarge exceeds large =>
      right
      refine ⟨?_, ?_⟩
      · intro hfits
        refine not_fits_of_large (lt_trans ?_ large) (hfits.1 exceeds)
        decide
      · unfold RuntimeState.serve_attach
        rw [if_neg (attachRequest_ok p), hreplay]
        exact ⟨rfl, rfl⟩
  | ok reply =>
    rw [hreplay] at hpicks
    cases hpicks with
    | screen exceeds size earliest =>
      by_cases hfits : SnapshotFits host.session_id (snapshotAfter vt first outputs outputs.length)
      · left
        have hserved := attach_served h hlater hpair hsizes has_writer hreplay (k := outputs.length)
          (by rw [List.drop_eq_nil_of_le (length_framesOf windows outputs).le]) le_rfl rfl ?_ ?_ rfl
        · refine ⟨⟨fun _ => hfits, fun hwithin => absurd exceeds hwithin⟩, hserved.1, _, hserved.2, ?_⟩
          exact ⟨hp, le_rfl, rfl, rfl, rfl⟩
        · unfold ReplayExceeds
          rw [List.drop_eq_nil_of_le (length_framesOf windows outputs).le, List.drop_length]
          decide
        · rintro s ⟨rfl⟩
          exact ⟨hfits, size, hp⟩
      · right
        exact ⟨fun hall => hfits (hall.1 exceeds),
          attach_unsent h hpair has_writer hreplay rfl hfits⟩
    | stored within below read frames latest =>
      by_cases hfits : SnapshotFits host.session_id
          (snapshotAfter vt first outputs host.journal.base_sequence)
      · left
        have hmax : max p host.journal.base_sequence = host.journal.base_sequence :=
          max_eq_right below.le
        have hserved := attach_served h hlater hpair hsizes has_writer hreplay frames hbase latest
          (hmax ▸ within) ?_ rfl
        · refine ⟨⟨fun exceeds => absurd exceeds within, fun _ _ => hfits⟩, hserved.1, _,
            hserved.2, ?_⟩
          exact ⟨below.le, hbase, rfl, rfl, rfl⟩
        · rintro s ⟨rfl⟩
          have hsize := (h.shown (by omega)).2.size
          exact ⟨hfits, hsize, below.le⟩
      · right
        exact ⟨fun hall => hfits (hall.2 within below),
          attach_unsent h hpair has_writer hreplay latest hfits⟩
    | frames within above read frames latest =>
      left
      have hmax : max p host.journal.base_sequence = p := max_eq_left above
      have hserved := attach_served h hlater hpair hsizes has_writer hreplay frames hp latest
        (hmax ▸ within) (fun s hs => by cases hs) rfl
      exact ⟨⟨fun exceeds => absurd exceeds within, fun _ below => absurd above (not_le.mpr below)⟩,
        hserved.1, _, hserved.2, rfl⟩

end

end multiplex_session_host
