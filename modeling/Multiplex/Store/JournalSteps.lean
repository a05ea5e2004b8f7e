-- One append and one compaction of a store that mirrors its files, case by case.
-- The number of the active segment never goes back.
import Multiplex.Store.JournalRuns

namespace multiplex_store.journal

/-! ## Segments are added one at a time -/

section
variable (crc32c : List UInt8 → UInt32)

theorem active_rotate {s s' : JournalStore} {d : Disk} {ops : List FileOp}
    (h : s.rotate d = .ok (s', ops)) : s'.active_index = s.active_index + 1 := by
  unfold JournalStore.rotate at h
  split at h
  · cases h
  split at h
  · cases h
  cases h
  rfl

theorem active_append (s : JournalStore) (d : Disk) (f : JournalFrame) :
    s.active_index ≤ (s.append crc32c d f).store.active_index ∧
      (s.append crc32c d f).store.active_index ≤ s.active_index + 1 := by
  have hsame : s.active_index ≤ s.active_index ∧ s.active_index ≤ s.active_index + 1 :=
    ⟨le_rfl, Nat.le_succ _⟩
  unfold JournalStore.append
  split
  · exact hsame
  split
  · exact hsame
  split
  · exact hsame
  split
  · exact hsame
  split
  · exact hsame
  simp only
  split
  · exact hsame
  rename_i s' ops hrotated
  change s.active_index ≤ s'.active_index ∧ s'.active_index ≤ s.active_index + 1
  split at hrotated
  · rw [active_rotate hrotated]
    exact ⟨Nat.le_succ _, le_rfl⟩
  · cases hrotated
    exact hsame

theorem active_compact (s : JournalStore) (d : Disk) (snapshot : TerminalSnapshot) :
    s.active_index ≤ (s.compact crc32c d snapshot).store.active_index ∧
      (s.compact crc32c d snapshot).store.active_index ≤ s.active_index + 1 := by
  have hsame : s.active_index ≤ s.active_index ∧ s.active_index ≤ s.active_index + 1 :=
    ⟨le_rfl, Nat.le_succ _⟩
  unfold JournalStore.compact
  split
  · exact hsame
  split
  · exact hsame
  simp only
  split
  · exact hsame
  rename_i s' ops hrotated
  have hturned : s.active_index ≤ s'.active_index ∧ s'.active_index ≤ s.active_index + 1 := by
    split at hrotated
    · rw [active_rotate hrotated]
      exact ⟨Nat.le_succ _, le_rfl⟩
    · cases hrotated
      exact hsame
  split
  · exact hturned
  · exact hturned

end

/-! ## One append, one compaction -/

section
variable {crc32c : List UInt8 → UInt32} {limits : JournalLimits}

inductive Grows (limits : JournalLimits) (s : JournalStore) (l : Layout) (f : JournalFrame)
    (s' : JournalStore) : Layout → Prop where
  | stays (room : totalSize l.current + f.size ≤ limits.segment_bytes)
      (same : s'.recording_paused = s.recording_paused) : Grows limits s l f s' (l.push f)
  | turns (current : l.current ≠ []) (full : limits.segment_bytes < totalSize l.current + f.size)
      (paused : s'.recording_paused = decide (l.closed.length + 2 > limits.retained_segments)) :
      Grows limits s l f s' (l.rotate.push f)

variable {s : JournalStore}

variable {f : JournalFrame} {history : List JournalFrame} {l : Layout}

theorem append_paused (d : Disk) (hf : f.Fits) (hnext : f.sequence = s.latest_sequence + 1)
    (hpaused : s.recording_paused = true ∨ s.limits.hard_bytes < s.total_bytes + f.size) :
    (s.append crc32c d f).result = .ok .RecordingPausedDiskLimit := by
  have hlatest : s.latest_sequence < U64_MAX := by
    have := hf.sequence
    omega
  unfold JournalStore.append
  rw [checked_next_eq hlatest]
  simp only
  rw [if_neg (not_not.mpr hnext), encode_ok crc32c hf]
  split
  · rfl
  · rename_i hrecording
    simp
    rw [if_pos (hpaused.resolve_left hrecording)]

theorem append_next {d : Disk} (h : Alive crc32c limits s d history l) (hf : f.Fits)
    (hnext : f.sequence = history.length + 1)
    (hsix : (s.append crc32c d f).store.active_index ≤ 999999) :
    ((s.append crc32c d f).result = .ok .RecordingPausedDiskLimit ∧
      (s.recording_paused = true ∨ limits.hard_bytes < totalSize l.frames + f.size)) ∨
    ∃ l', (s.append crc32c d f).result = .ok .Recorded ∧ s.recording_paused = false ∧
      Alive crc32c limits (s.append crc32c d f).store (d.applyAll (s.append crc32c d f).ops)
        (history ++ [f]) l' ∧ Grows limits s l f (s.append crc32c d f).store l' ∧
      (d.applyAll (s.append crc32c d f).ops).snapshot = d.snapshot ∧
      (s.append crc32c d f).store.base_sequence = s.base_sequence := by
  have hlatest : f.sequence = s.latest_sequence + 1 := by
    rw [h.latest]
    exact hnext
  by_cases hpaused : s.recording_paused = true ∨ limits.hard_bytes < totalSize l.frames + f.size
  · refine .inl ⟨append_paused d hf hlatest ?_, hpaused⟩
    rw [h.mirrors.total_bytes, h.same_limits]
    exact hpaused
  · right
    rw [not_or, Bool.not_eq_true, not_lt] at hpaused
    have hresult := append_recorded h hf hlatest hpaused.1 (by
      rw [h.mirrors.total_bytes]
      exact hpaused.2)
    rcases append_cases h.mirrors (h.same_limits ▸ h.stored) f with
      ⟨-, hne, -⟩ | ⟨-, -, hsequence, htotal, -, hcases⟩
    · exact absurd hresult hne
    rw [h.same_limits] at htotal hcases
    rcases hcases with ⟨hops, hstore, hsegment⟩ | ⟨paused, hcurrent, hfull, hops, hstore, hcount⟩
    · rw [hops, hstore]
      exact ⟨_, hresult, hpaused.1, h.push hf hsequence hsegment htotal, .stays hsegment rfl, rfl, rfl⟩
    · rw [hstore] at hsix
      have hactive : l.active + 1 ≤ 999999 := by
        rw [← h.mirrors.index]
        exact hsix
      rw [hops, hstore]
      have hturned := h.turn hcurrent hactive paused
      have hpushed := hturned.push hf (by rw [frames_rotate]; exact hsequence)
        (room_after_rotate (h.same_limits ▸ h.mirrors.valid) l hf) (by rw [frames_rotate]; exact htotal)
      exact ⟨_, hresult, hpaused.1, hpushed, .turns hcurrent hfull (hcount hactive), rfl, rfl⟩

/-- A whole compaction, or one that is refused and changes nothing. -/
theorem compact_next {d : Disk} (h : Alive crc32c limits s d history l) (hcurrent : l.current ≠ [])
    (hle : history.length ≤ U64_MAX) (snapshot : TerminalSnapshot)
    (hsix : (s.compact crc32c d snapshot).store.active_index ≤ 999999) :
    ((s.compact crc32c d snapshot).store = s ∧ (s.compact crc32c d snapshot).ops = [] ∧
      ∃ e, (s.compact crc32c d snapshot).result = .error e) ∨
    (snapshot.Fits ∧ (s.compact crc32c d snapshot).result = .ok () ∧
      Alive crc32c limits (s.compact crc32c d snapshot).store
        (d.applyAll (s.compact crc32c d snapshot).ops) history ⟨[], l.active + 1, []⟩ ∧
      (d.applyAll (s.compact crc32c d snapshot).ops).snapshot = some (snapshot.bytes crc32c) ∧
      (s.compact crc32c d snapshot).store.base_sequence = history.length ∧
      (s.compact crc32c d snapshot).store.recording_paused = false) := by
  have hlatest := h.latest
  rcases compact_cases h.mirrors (h.same_limits ▸ h.stored) (hlatest ▸ hle) snapshot with
    ⟨hops, hstore, hresult, -⟩ | ⟨turn, s', l', hturns, hfits, hbound, hresult, hops, hstore⟩
  · exact .inl ⟨hstore, hops, hresult⟩
  right
  have hmirrors := hturns.mirrors h.mirrors
  have hsame := hturns.same.1.trans h.same_limits
  have hactive : l'.active = l.active + 1 := by
    cases hturns with
    | empty current => exact absurd current hcurrent
    | full current paused => rfl
  have hindex : l'.active ≤ 999999 := by
    rw [← hmirrors.index]
    rw [hstore] at hsix
    exact hsix
  have halive := h.compacted hturns hfits hbound hindex
  have hsnapshot : (d.applyAll (.write_snapshot (snapshot.bytes crc32c) :: turn ++
      l'.closed.map fun g => FileOp.remove g.1)).snapshot = some (snapshot.bytes crc32c) := by
    obtain ⟨hentries, hkept⟩ := hturns.entries
      (d := d.apply (.write_snapshot (snapshot.bytes crc32c))) h.stored.entries
    have hremoved := (applyAll_remove hentries).2
    rw [applyAll_append]
    exact hremoved.trans hkept
  rw [hactive] at halive
  rw [hops, hstore]
  refine ⟨hfits, hresult, halive, hsnapshot, hlatest, ?_⟩
  obtain ⟨hframe, hsegment, -⟩ := validate_ok (h.same_limits ▸ h.mirrors.valid)
  have hhard : 0 < limits.hard_bytes := by
    unfold MAX_JOURNAL_FRAME_BYTES at hframe
    omega
  unfold JournalStore.restart
  rw [hmirrors.no_gap, hsame, decide_eq_true hhard]
  rfl

end

end multiplex_store.journal
