-- What a Host has recorded. While it records, its journal holds every output in turn,
-- its screen model has seen them all, and its stored snapshot shows the screen at
-- the boundary.
import Multiplex.SessionHost.Host
import Multiplex.Store.JournalSteps

open multiplex_host_protocol multiplex_store.journal

namespace multiplex_session_host

/-! ## The frames of the outputs -/

def frameOf (windows : Bool) (before : Nat) (o : Output) : JournalFrame :=
  ⟨.Output, before + 1, o.monotonic_nanos, 0, recorded windows o.bytes⟩

def framesOf (windows : Bool) (outputs : List Output) : List JournalFrame :=
  outputs.mapIdx (frameOf windows)

theorem length_framesOf (windows : Bool) (outputs : List Output) :
    (framesOf windows outputs).length = outputs.length := List.length_mapIdx

theorem framesOf_append (windows : Bool) (outputs : List Output) (o : Output) :
    framesOf windows (outputs ++ [o]) =
      framesOf windows outputs ++ [frameOf windows outputs.length o] := List.mapIdx_concat

/-- No frame is larger than this one. -/
def MAX_OUTPUT_FRAME_BYTES : Nat := JOURNAL_HEADER_BYTES + MAX_OUTPUT_BYTES + JOURNAL_CHECKSUM_BYTES

variable {o : Output}

theorem size_frameOf (windows : Bool) (before : Nat) (h : o.bytes.length ≤ MAX_OUTPUT_BYTES) :
    (frameOf windows before o).size ≤ MAX_OUTPUT_FRAME_BYTES := by
  have hlength := length_recorded windows o.bytes
  unfold JournalFrame.size MAX_OUTPUT_FRAME_BYTES frameOf
  simp only
  omega

theorem fits_frameOf (windows : Bool) {before : Nat} (hbefore : before < U64_MAX)
    (h : o.bytes.length ≤ MAX_OUTPUT_BYTES) : (frameOf windows before o).Fits := by
  refine ⟨hbefore, Nat.succ_ne_zero before, (size_frameOf windows before h).trans ?_⟩
  decide

theorem length_le_totalSize (frames : List JournalFrame) : frames.length ≤ totalSize frames := by
  induction frames with
  | nil => exact le_rfl
  | cons f frames ih =>
    have hpos := size_pos f
    unfold totalSize at ih ⊢
    rw [List.length_cons, List.map_cons, List.sum_cons]
    omega

section
variable {σ : Type} (vt : Vt100 σ) (crc32c : List UInt8 → UInt32) (windows : Bool)
  (limits : JournalLimits) (first : σ)

def screenAfter (outputs : List Output) : σ :=
  outputs.foldl (fun screen o => vt.process screen o.bytes) first

theorem screenAfter_append (outputs : List Output) (o : Output) :
    screenAfter vt first (outputs ++ [o]) = vt.process (screenAfter vt first outputs) o.bytes :=
  List.foldl_append

def snapshotAfter (outputs : List Output) (boundary : Nat) : TerminalSnapshot :=
  snapshotOf vt (screenAfter vt first (outputs.take boundary)) boundary

/-! ## The invariant of a Host that records -/

structure Recording (host : RuntimeState σ) (outputs : List Output) (l : Layout) : Prop where
  alive : Alive crc32c limits host.journal host.disk (framesOf windows outputs) l
  follow : Follow 0 (framesOf windows outputs)
  latest : host.latest_sequence = outputs.length
  parser : host.parser = screenAfter vt first outputs
  shown : host.journal.base_sequence ≠ 0 →
    host.disk.snapshot =
        some ((snapshotAfter vt first outputs host.journal.base_sequence).bytes crc32c) ∧
      (snapshotAfter vt first outputs host.journal.base_sequence).Fits
  few : outputs.length + DEFAULT_JOURNAL_BYTES ≤
    l.active * DEFAULT_JOURNAL_BYTES + l.current.length

inductive Outcome (host : RuntimeState σ) (outputs : List Output) (l : Layout) (o : Output)
    (r : RuntimeState σ × Except HostErrorCode Unit) : Prop where
  | paused (flag : r.1.recording_paused = true) (result : r.2 = .ok ())
      (why : host.journal.recording_paused = true ∨
        limits.hard_bytes < totalSize l.frames + (frameOf windows outputs.length o).size)
  | kept (l' : Layout) (flag : r.1.recording_paused = false)
      (was : host.journal.recording_paused = false)
      (grows : Grows limits host.journal l (frameOf windows outputs.length o) r.1.journal l')
      (recording : Recording vt crc32c windows limits first r.1 (outputs ++ [o]) l')
      (ends : (r.2 = .ok () ∧ totalSize l'.frames < limits.segment_bytes * 3) ∨
        (∃ e, r.2 = .error e) ∧ (limits.segment_bytes ≤ totalSize l'.current ∨
          limits.segment_bytes * 3 ≤ totalSize l'.frames))
  | compacted (active : Nat) (flag : r.1.recording_paused = false)
      (was : host.journal.recording_paused = false) (s' : JournalStore) (l' : Layout)
      (grows : Grows limits host.journal l (frameOf windows outputs.length o) s' l')
      (due : limits.segment_bytes ≤ totalSize l'.current ∨
        limits.segment_bytes * 3 ≤ totalSize l'.frames)
      (resumed : r.1.journal.recording_paused = false)
      (recording : Recording vt crc32c windows limits first r.1 (outputs ++ [o]) ⟨[], active, []⟩)

variable {vt crc32c windows limits first}

variable {l : Layout} {host : RuntimeState σ} {outputs : List Output}

variable {s : JournalStore} {history : List JournalFrame} {l' : Layout} {f : JournalFrame}
  {host' : RuntimeState σ} {o : Output}

theorem current_le {d : Disk} (h : Alive crc32c limits s d history l) :
    l.current.length ≤ DEFAULT_JOURNAL_BYTES := by
  have hlast := h.stored.sizes _ (List.mem_append_right _ (List.mem_singleton_self _))
  rw [List.append_nil, length_encodeAll] at hlast
  obtain ⟨-, hsegment, hhard, -⟩ := validate_ok (h.same_limits ▸ h.mirrors.valid)
  have hlength := length_le_totalSize l.current
  omega

/-- Fewer than a million segments hold far fewer than `2 ^ 64` outputs. -/
theorem Recording.lt (h : Recording vt crc32c windows limits first host outputs l) :
    outputs.length < U64_MAX := by
  have hfew := h.few
  have hcurrent := current_le h.alive
  have hsix := h.alive.stored.six
  have hmul : l.active * DEFAULT_JOURNAL_BYTES ≤ 999999 * DEFAULT_JOURNAL_BYTES :=
    Nat.mul_le_mul_right _ hsix
  unfold DEFAULT_JOURNAL_BYTES at hfew hcurrent hmul
  unfold U64_MAX
  omega

theorem snapshotAfter_append {boundary : Nat} (o : Output) (h : boundary ≤ outputs.length) :
    snapshotAfter vt first (outputs ++ [o]) boundary = snapshotAfter vt first outputs boundary := by
  unfold snapshotAfter
  rw [List.take_append_of_le_length h]

theorem current_ne_of_grows {s' : JournalStore} (h : Grows limits s l f s' l') :
    l'.current ≠ [] := by
  cases h with
  | stays room same => exact List.append_ne_nil_of_right_ne_nil _ (List.cons_ne_nil _ _)
  | turns current full paused => exact List.append_ne_nil_of_right_ne_nil _ (List.cons_ne_nil _ _)

theorem size_of_grows {s' : JournalStore} (h : Grows limits s l f s' l') :
    totalSize l'.frames = totalSize l.frames + f.size := by
  cases h with
  | stays room same => simp
  | turns current full paused =>
    simp

theorem totalSize_current_le (l : Layout) : totalSize l.current ≤ totalSize l.frames := by
  unfold Layout.frames
  rw [totalSize_append]
  exact Nat.le_add_left _ _

theorem compaction_due_iff {d : Disk} (h : Alive crc32c limits s d history l) :
    s.compaction_due = true ↔ limits.segment_bytes ≤ totalSize l.current ∨
      limits.segment_bytes * 3 ≤ totalSize l.frames := by
  unfold JournalStore.compaction_due
  rw [Bool.or_eq_true, decide_eq_true_eq, decide_eq_true_eq, h.same_limits, h.mirrors.active_bytes,
    h.mirrors.total_bytes]

theorem Recording.grown (h : Recording vt crc32c windows limits first host outputs l)
    (hbytes : o.bytes.length ≤ MAX_OUTPUT_BYTES)
    (hgrows : Grows limits host.journal l (frameOf windows outputs.length o) host'.journal l')
    (halive : Alive crc32c limits host'.journal host'.disk
      (framesOf windows outputs ++ [frameOf windows outputs.length o]) l')
    (hsnapshot : host'.disk.snapshot = host.disk.snapshot)
    (hbase : host'.journal.base_sequence = host.journal.base_sequence)
    (hlatest : host'.latest_sequence = outputs.length + 1)
    (hparser : host'.parser = vt.process host.parser o.bytes) :
    Recording vt crc32c windows limits first host' (outputs ++ [o]) l' := by
  have hlt := h.lt
  have hle : host.journal.base_sequence ≤ outputs.length := by
    rw [← length_framesOf windows outputs]
    exact h.alive.base_le
  refine ⟨?_, ?_, ?_, ?_, ?_, ?_⟩
  · rw [framesOf_append]
    exact halive
  · rw [framesOf_append, follow_append, length_framesOf]
    exact ⟨h.follow, fits_frameOf windows hlt hbytes, by rw [Nat.zero_add]; rfl, trivial⟩
  · rw [hlatest, List.length_append]
    rfl
  · rw [screenAfter_append, hparser, h.parser]
  · rw [hsnapshot, hbase, snapshotAfter_append o hle]
    exact h.shown
  · have hfew := h.few
    have hcurrent := current_le h.alive
    rw [List.length_append, List.length_singleton]
    cases hgrows with
    | stays room same =>
      change _ ≤ l.active * DEFAULT_JOURNAL_BYTES + (l.current ++ [_]).length
      rw [List.length_append, List.length_singleton]
      omega
    | turns current full paused =>
      change _ ≤ (l.active + 1) * DEFAULT_JOURNAL_BYTES + 1
      rw [Nat.add_mul]
      omega

theorem Recording.compacted (h : Recording vt crc32c windows limits first host outputs l)
    (hfits : (snapshotOf vt host.parser outputs.length).Fits)
    (halive : Alive crc32c limits host'.journal host'.disk (framesOf windows outputs)
      ⟨[], l.active + 1, []⟩) (hsnapshot : host'.disk.snapshot =
      some ((snapshotOf vt host.parser outputs.length).bytes crc32c))
    (hbase : host'.journal.base_sequence = outputs.length)
    (hlatest : host'.latest_sequence = host.latest_sequence)
    (hparser : host'.parser = host.parser) :
    Recording vt crc32c windows limits first host' outputs ⟨[], l.active + 1, []⟩ := by
  have hall : snapshotAfter vt first outputs outputs.length =
      snapshotOf vt host.parser outputs.length := by
    unfold snapshotAfter
    rw [List.take_length, h.parser]
  refine ⟨halive, h.follow, hlatest.trans h.latest, hparser.trans h.parser, ?_, ?_⟩
  · intro _
    rw [hbase, hall]
    exact ⟨hsnapshot, hfits⟩
  · have hfew := h.few
    have hcurrent := current_le h.alive
    rw [Nat.add_mul]
    omega

theorem process_output_outcome (h : Recording vt crc32c windows limits first host outputs l)
    (hpaused : host.recording_paused = false) (hbytes : o.bytes.length ≤ MAX_OUTPUT_BYTES)
    (hsix : (host.process_output vt crc32c windows o.bytes
      o.monotonic_nanos).1.journal.active_index ≤ 999999) :
    Outcome vt crc32c windows limits first host outputs l o
      (host.process_output vt crc32c windows o.bytes o.monotonic_nanos) := by
  have hlt := h.lt
  have hroom : ¬ host.latest_sequence ≥ U64_MAX := by
    rw [h.latest]
    omega
  have hframe : (⟨.Output, host.latest_sequence + 1, o.monotonic_nanos, 0,
      recorded windows o.bytes⟩ : JournalFrame) = frameOf windows outputs.length o := by
    rw [h.latest]
    rfl
  have hfits := fits_frameOf windows hlt hbytes
  unfold RuntimeState.process_output at hsix ⊢
  simp [if_neg hroom, hpaused, hframe] at hsix ⊢
  have hcases := append_next (f := frameOf windows outputs.length o) h.alive hfits
    (by rw [length_framesOf]; rfl)
  generalize hcall : host.journal.append crc32c host.disk (frameOf windows outputs.length o) = call
    at hsix hcases ⊢
  match hresult : call.result with
  | .error e =>
    rw [hresult] at hsix hcases
    rcases hcases hsix with ⟨hne, -⟩ | ⟨l', hne, -⟩ <;> cases hne
  | .ok .RecordingPausedDiskLimit =>
    rw [hresult] at hsix hcases
    rcases hcases hsix with ⟨-, hwhy⟩ | ⟨l', hne, -⟩
    · exact .paused rfl rfl hwhy
    · cases hne
  | .ok .Recorded =>
    rw [hresult] at hsix hcases
    by_cases hdue : call.store.compaction_due = true
    · rw [if_pos hdue] at hsix ⊢
      have hle := (active_compact crc32c call.store (host.disk.applyAll call.ops)
        (snapshotOf vt (vt.process host.parser o.bytes) (host.latest_sequence + 1))).1.trans hsix
      rcases hcases hle with ⟨hne, -⟩ | ⟨l', -, hwas, halive, hgrows, hsnapshot, hbase⟩
      · cases hne
      have hgrown : Recording vt crc32c windows limits first
          { host with
            journal := call.store
            disk := host.disk.applyAll call.ops
            parser := vt.process host.parser o.bytes
            latest_sequence := host.latest_sequence + 1
            recording_paused := false } (outputs ++ [o]) l' :=
        h.grown hbytes hgrows halive hsnapshot hbase (congrArg (· + 1) h.latest) rfl
      have hlength : (outputs ++ [o]).length = host.latest_sequence + 1 := by
        rw [List.length_append, h.latest]
        rfl
      rw [← hlength] at hsix hgrown ⊢
      rcases compact_next halive (current_ne_of_grows hgrows) (by
          rw [← framesOf_append, length_framesOf]
          exact hgrown.lt.le) _ hsix with
        ⟨hstore, hops, e, herror⟩ | ⟨hsnap, -, hafter, hwritten, hboundary, hresumed⟩
      · rw [hstore, hops, herror]
        exact .kept l' rfl hwas hgrows hgrown
          (.inr ⟨⟨_, rfl⟩, (compaction_due_iff halive).mp hdue⟩)
      · rw [← framesOf_append] at hafter
        rw [← framesOf_append, length_framesOf] at hboundary
        exact .compacted (l'.active + 1) rfl hwas call.store l' hgrows
          ((compaction_due_iff halive).mp hdue) hresumed
          (hgrown.compacted hsnap hafter hwritten hboundary rfl rfl)
    · rw [if_neg hdue] at hsix ⊢
      rcases hcases hsix with ⟨hne, -⟩ | ⟨l', -, hwas, halive, hgrows, hsnapshot, hbase⟩
      · cases hne
      refine .kept l' rfl hwas hgrows ?_ (.inl ⟨rfl, ?_⟩)
      · exact h.grown hbytes hgrows halive hsnapshot hbase (congrArg (· + 1) h.latest) rfl
      · rw [compaction_due_iff halive, not_or] at hdue
        exact not_le.mp hdue.2

/-! ## Runs of outputs -/

variable (vt crc32c windows) in
/-- Outputs that are processed in turn, whatever comes of them. -/
def RuntimeState.process_all (host : RuntimeState σ) (outputs : List Output) : RuntimeState σ :=
  outputs.foldl (fun host o =>
    (host.process_output vt crc32c windows o.bytes o.monotonic_nanos).1) host

variable (vt crc32c windows) in
theorem active_process_output (host : RuntimeState σ) (bytes : List UInt8) (nanos : UInt64) :
    host.journal.active_index ≤
        (host.process_output vt crc32c windows bytes nanos).1.journal.active_index ∧
      (host.process_output vt crc32c windows bytes nanos).1.journal.active_index ≤
        host.journal.active_index + 2 := by
  unfold RuntimeState.process_output
  simp only
  split
  · exact ⟨le_rfl, Nat.le_add_right _ _⟩
  split
  · exact ⟨le_rfl, Nat.le_add_right _ _⟩
  obtain ⟨hle, hnext⟩ := active_append crc32c host.journal host.disk
    ⟨.Output, host.latest_sequence + 1, nanos, 0, recorded windows bytes⟩
  split
  · exact ⟨hle, hnext.trans (Nat.le_succ _)⟩
  · exact ⟨hle, hnext.trans (Nat.le_succ _)⟩
  · split
    · obtain ⟨hle', hnext'⟩ := active_compact crc32c _ _ _
      exact ⟨hle.trans hle', hnext'.trans (Nat.succ_le_succ hnext)⟩
    · exact ⟨hle, hnext.trans (Nat.le_succ _)⟩

theorem paused_process_output (h : host.recording_paused = true) (bytes : List UInt8)
    (nanos : UInt64) :
    (host.process_output vt crc32c windows bytes nanos).1.recording_paused = true := by
  unfold RuntimeState.process_output
  simp only
  split
  · exact h
  · exact h

variable (vt crc32c windows) in
theorem le_active_process_all (outputs : List Output) : ∀ host : RuntimeState σ,
    host.journal.active_index ≤
      (host.process_all vt crc32c windows outputs).journal.active_index := by
  induction outputs with
  | nil => exact fun _ => le_rfl
  | cons o outputs ih =>
    exact fun host =>
        (active_process_output vt crc32c windows host o.bytes o.monotonic_nanos).1.trans (ih _)

variable (vt crc32c windows) in
theorem paused_process_all (outputs : List Output) : ∀ {host : RuntimeState σ},
    host.recording_paused = true →
    (host.process_all vt crc32c windows outputs).recording_paused = true := by
  induction outputs with
  | nil => exact fun h => h
  | cons o outputs ih => exact fun h => ih (paused_process_output h o.bytes o.monotonic_nanos)

theorem recording_process_all : ∀ {host : RuntimeState σ} {before : List Output} {l : Layout},
    Recording vt crc32c windows limits first host before l →
    (∀ o ∈ outputs, o.bytes.length ≤ MAX_OUTPUT_BYTES) →
    (host.process_all vt crc32c windows outputs).recording_paused = false →
    (host.process_all vt crc32c windows outputs).journal.active_index ≤ 999999 →
    ∃ l', Recording vt crc32c windows limits first (host.process_all vt crc32c windows outputs)
      (before ++ outputs) l' := by
  induction outputs with
  | nil =>
    intro host before l h _ _ _
    rw [List.append_nil]
    exact ⟨l, h⟩
  | cons o outputs ih =>
    intro host before l h hbytes hpaused hsix
    obtain ⟨ho, hbytes⟩ := List.forall_mem_cons.mp hbytes
    have hrecording : host.recording_paused = false := by
      by_contra hne
      rw [Bool.not_eq_false] at hne
      rw [paused_process_all vt crc32c windows (o :: outputs) hne] at hpaused
      cases hpaused
    have hnext := (le_active_process_all vt crc32c windows outputs _).trans hsix
    have hsplit : before ++ o :: outputs = before ++ [o] ++ outputs := by
      rw [List.append_assoc, List.singleton_append]
    rw [hsplit]
    cases process_output_outcome h hrecording ho hnext with
    | paused flag result why =>
      have hlast : (host.process_all vt crc32c windows (o :: outputs)).recording_paused = true :=
        paused_process_all vt crc32c windows outputs flag
      rw [hlast] at hpaused
      cases hpaused
    | kept l' flag was grows recording ends => exact ih recording hbytes hpaused hsix
    | compacted active flag was s' l' grows due resumed recording =>
        exact ih recording hbytes hpaused hsix

theorem launch_fresh (crc32c : List UInt8 → UInt32) (hvalid : limits.validate = .ok limits)
    (session_id host_instance_id : List UInt8) (first : σ) :
    ∃ host, launch crc32c limits session_id host_instance_id Disk.empty first = .ok host := by
  have hopen : JournalStore.open crc32c Disk.empty limits =
      .ok (opened limits 0 ⟨[], 1, []⟩, [.create 1]) := (open_fresh hvalid rfl rfl).1
  unfold launch
  rw [hopen]
  exact ⟨_, rfl⟩

theorem recording_launch (vt : Vt100 σ) (windows : Bool) (hvalid : limits.validate = .ok limits)
    (session_id host_instance_id : List UInt8)
    (h : launch crc32c limits session_id host_instance_id Disk.empty first = .ok host) :
    Recording vt crc32c windows limits first host [] ⟨[], 1, []⟩ ∧
      host.recording_paused = false ∧ host.journal.recording_paused = false ∧
      host.session_id = session_id ∧ host.host_instance_id = host_instance_id := by
  obtain ⟨hopen, hstored⟩ : JournalStore.open crc32c Disk.empty limits =
        .ok (opened limits 0 ⟨[], 1, []⟩, [.create 1]) ∧
      Stored crc32c limits (Disk.empty.applyAll [.create 1]) 0 ⟨[], 1, []⟩ [] :=
    open_fresh hvalid rfl rfl
  unfold launch at h
  rw [hopen] at h
  cases h
  obtain ⟨hframe, hsegment, -⟩ := validate_ok hvalid
  have hhard : ¬ 0 ≥ limits.hard_bytes := by
    unfold MAX_JOURNAL_FRAME_BYTES at hframe
    omega
  refine ⟨⟨mirrors_alive hvalid hstored le_rfl rfl, trivial, rfl, rfl, fun hne => absurd rfl hne,
    ?_⟩, decide_eq_false hhard, decide_eq_false hhard, rfl, rfl⟩
  change 0 + DEFAULT_JOURNAL_BYTES ≤ 1 * DEFAULT_JOURNAL_BYTES + 0
  omega

end

end multiplex_session_host
