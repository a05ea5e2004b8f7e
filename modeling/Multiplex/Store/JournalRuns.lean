-- Runs of a session journal. What was appended is what the next process finds,
-- whenever the one before it was killed, but for one moment of `compact`.
import Multiplex.Store.JournalRecovery

open Checks

namespace multiplex_store.journal

section
variable {crc32c : List UInt8 → UInt32} {limits : JournalLimits}

/-! ## Runs -/

variable {store : JournalStore} {d : Disk} {history : List JournalFrame} {l : Layout} {m : Session}

theorem follow_written (h : Alive crc32c limits store d history l) (hfollow : Follow 0 history)
    (f : JournalFrame) {c : Prop} [Decidable c] (hc : c → (store.append crc32c d f).ops ≠ []) :
    Follow 0 (history ++ if c then [f] else []) := by
  split
  · rename_i hc'
    obtain ⟨hfits, hnext⟩ := append_follows h (hc hc')
    refine follow_append.mpr ⟨hfollow, hfits, ?_, trivial⟩
    rw [Nat.zero_add]
    exact hnext
  · rw [List.append_nil]
    exact hfollow

theorem Safe.idle (h : Safe crc32c limits m) :
    Safe crc32c limits ⟨m.disk, none, m.history ++ []⟩ := by
  rw [List.append_nil]
  exact ⟨h.follow, h.recoverable, fun store hnone => by cases hnone⟩

theorem safe_killed (hfollow : Follow 0 history) (h : Recoverable crc32c limits d history) :
    Safe crc32c limits ⟨d, none, history⟩ :=
  ⟨hfollow, h, fun store hnone => by cases hnone⟩

theorem safe_alive (hfollow : Follow 0 history) (h : Alive crc32c limits store d history l) :
    Safe crc32c limits ⟨d, some store, history⟩ := by
  refine ⟨hfollow, h.recoverable, ?_⟩
  rintro _ ⟨rfl⟩
  exact ⟨l, h⟩

section
variable (hvalid : limits.validate = .ok limits) (h : Safe crc32c limits m)
include hvalid h

theorem safe_perform (action : Action)
    (hsix : SixDigits (m.step crc32c limits (.perform action)).disk) :
    Safe crc32c limits (m.step crc32c limits (.perform action)) := by
  unfold Session.step Session.changes Session.plan at hsix ⊢
  cases action with
  | «open» =>
    obtain ⟨store, ops, l, hopen, hopens⟩ := open_recoverable hvalid h.recoverable
    simp [hopen]
    exact safe_alive h.follow hopens.alive
  | append f =>
    cases hstore : m.store with
    | none => exact h.idle
    | some store =>
      obtain ⟨l, halive⟩ := h.alive store hstore
      simp only [hstore] at hsix ⊢
      obtain ⟨l', hdone⟩ := append_done halive f hsix
      refine safe_alive (follow_written halive h.follow f ?_) hdone
      intro hrecorded hnil
      have hbytes := append_writes halive (recorded_iff.mp hrecorded)
      rw [hnil] at hbytes
      exact bytes_ne_nil f hbytes.symm
  | compact snapshot =>
    cases hstore : m.store with
    | none => exact h.idle
    | some store =>
      obtain ⟨l, halive⟩ := h.alive store hstore
      simp [hstore] at hsix ⊢
      obtain ⟨l', hdone⟩ := compact_done halive h.follow snapshot hsix
      exact safe_alive h.follow hdone

theorem safe_crash (action : Action) (done part : Nat)
    (hsix : SixDigits (m.step crc32c limits (.crash action done part)).disk)
    (hsettled : Settled crc32c limits m (.crash action done part)) :
    Safe crc32c limits (m.step crc32c limits (.crash action done part)) := by
  cases action with
  | «open» =>
    obtain ⟨store, ops, l, hopen, hopens⟩ := open_recoverable hvalid h.recoverable
    unfold Session.step Session.changes Session.plan whole
    simp [hopen]
    rw [cutShort_quiet hopens.quiet]
    exact safe_killed h.follow (hopens.between done)
  | append f =>
    unfold Session.step Session.changes Session.plan at hsix ⊢
    cases hstore : m.store with
    | none =>
      simp only [cutShort_nil]
      exact h.idle
    | some store =>
      obtain ⟨l, halive⟩ := h.alive store hstore
      simp only [hstore] at hsix ⊢
      refine safe_killed (follow_written halive h.follow f ?_) (append_cut halive f done part hsix)
      intro hwritten hnil
      rw [hnil, cutShort_nil] at hwritten
      exact bytes_ne_nil f hwritten.symm
  | compact snapshot =>
    unfold Settled at hsettled
    unfold Session.step Session.changes Session.plan whole at hsix hsettled ⊢
    cases hstore : m.store with
    | none =>
      simp only [cutShort_nil]
      exact h.idle
    | some store =>
      obtain ⟨l, halive⟩ := h.alive store hstore
      simp [hstore] at hsix hsettled ⊢
      exact safe_killed h.follow (compact_cut halive h.follow snapshot done part hsix hsettled)

theorem safe_step (event : Event) (hsix : SixDigits (m.step crc32c limits event).disk)
    (hsettled : Settled crc32c limits m event) :
    Safe crc32c limits (m.step crc32c limits event) := by
  cases event with
  | perform action => exact safe_perform hvalid h action hsix
  | crash action done part => exact safe_crash hvalid h action done part hsix hsettled

end

theorem safe_run (hvalid : limits.validate = .ok limits) {events : List Event} :
    ∀ {m : Session} {n : Nat}, Safe crc32c limits m → 1 ≤ n → NumberedTo n m →
      n + m.rotations crc32c limits events ≤ 999999 → SettledRun crc32c limits m events →
      Safe crc32c limits (m.run crc32c limits events) := by
  induction events with
  | nil => exact fun h _ _ _ _ => h
  | cons event events ih =>
    intro m n h hn hnumbered hrotations hsettled
    unfold Session.rotations at hrotations
    have hnext := numbered_step crc32c limits hn hnumbered event
    have hsix : SixDigits (m.step crc32c limits event).disk :=
      fun e he => (hnext.segments e he).trans (by omega)
    exact ih (safe_step hvalid h event hsix hsettled.1) (by omega) hnext (by omega) hsettled.2

theorem safe_start : Safe crc32c limits Session.start :=
  ⟨trivial, .fresh rfl rfl rfl, fun store hnone => by cases hnone⟩

theorem numbered_start : NumberedTo 1 Session.start :=
  ⟨fun e he => absurd he List.not_mem_nil, fun store hnone => by cases hnone⟩

/-! ## What the next process finds -/

theorem append_recorded (h : Alive crc32c limits store d history l) {f : JournalFrame} (hf : f.Fits)
    (hnext : f.sequence = store.latest_sequence + 1) (hpaused : store.recording_paused = false)
    (htotal : store.total_bytes + f.size ≤ limits.hard_bytes) :
    (store.append crc32c d f).result = .ok .Recorded := by
  have hroom : store.latest_sequence < U64_MAX := by
    have := hf.sequence
    omega
  unfold JournalStore.append
  rw [checked_next_eq hroom]
  simp only
  rw [if_neg (not_not.mpr hnext), hpaused, encode_ok crc32c hf]
  simp only [Bool.false_eq_true, if_false]
  rw [length_bytes, h.same_limits, if_neg (not_lt.mpr htotal)]
  obtain ⟨paused, hrotate, -⟩ := rotate_layout h.mirrors h.stored.entries h.stored.six
  split
  · rename_i code hrotated
    split at hrotated
    · rw [hrotate] at hrotated
      cases hrotated
    · cases hrotated
  · rfl

theorem segmentBytes_stored {base : Nat} (h : Stored crc32c limits d base l []) :
    d.segmentBytes = totalSize l.frames := by
  unfold Disk.segmentBytes
  rw [h.entries]
  unfold Layout.entries Layout.frames totalSize
  rw [List.map_append, List.sum_append, List.map_append, List.sum_append, List.map_map]
  congr 1
  · rw [List.map_flatMap, List.flatMap_def, List.sum_flatten, List.map_map]
    congr 1
    apply List.map_congr_left
    intro g _
    exact length_encodeAll crc32c g.2
  · rw [List.append_nil, List.map_singleton, List.sum_singleton]
    exact length_encodeAll crc32c l.current

theorem last_history (h : Follow 0 history) : last_sequence history 0 = history.length := by
  rw [h.last, Nat.zero_add]

variable (crc32c limits) in
/-- What `open` makes of the files: everything that was appended, and a store that goes on. -/
structure Recovered (m : Session) (store : JournalStore) (ops : List FileOp) : Prop where
  no_gap : store.has_gap = false
  paused : store.recording_paused = true → limits.hard_bytes ≤ (m.disk.applyAll ops).segmentBytes
  latest : store.latest_sequence = last_sequence m.history 0
  base : ∃ snapshot, load_snapshot crc32c m.disk = .ok snapshot ∧
    store.base_sequence = (snapshot.map TerminalSnapshot.boundary).getD 0
  frames : ∃ read, store.read_from crc32c (m.disk.applyAll ops) store.base_sequence = .ok read ∧
    read.frames = m.history.filter (fun f => decide (f.sequence > store.base_sequence)) ∧
    read.has_gap = false
  continues : ∀ f : JournalFrame, f.Fits → f.sequence = store.latest_sequence + 1 →
    (m.disk.applyAll ops).segmentBytes + f.size ≤ limits.hard_bytes →
    (store.append crc32c (m.disk.applyAll ops) f).result = .ok .Recorded

theorem base_of_open {ops : List FileOp}
    (h : JournalStore.open crc32c d limits = .ok (store, ops)) :
    ∃ snapshot, load_snapshot crc32c d = .ok snapshot ∧
      store.base_sequence = (snapshot.map TerminalSnapshot.boundary).getD 0 := by
  obtain ⟨limits', -, h⟩ := bind_ok_iff.mp h
  obtain ⟨snapshot, hload, h⟩ := bind_ok_iff.mp h
  obtain ⟨o, -, h⟩ := bind_ok_iff.mp h
  cases h
  exact ⟨snapshot, hload, rfl⟩

theorem recovered_of_opens {ops : List FileOp} (hfollow : Follow 0 m.history)
    (hopen : JournalStore.open crc32c m.disk limits = .ok (store, ops))
    (h : Opens crc32c limits m.disk m.history store ops l) :
    Recovered crc32c limits m store ops := by
  have halive := h.alive
  have hbytes := segmentBytes_stored halive.stored
  rw [← halive.mirrors.total_bytes] at hbytes
  refine ⟨halive.mirrors.no_gap, ?_, ?_, base_of_open hopen, ?_, ?_⟩
  · intro hpaused
    rw [h.paused, decide_eq_true_eq] at hpaused
    rw [hbytes]
    exact hpaused
  · rw [halive.latest, last_history hfollow]
  · have hread := read_from_stored halive.mirrors (halive.same_limits ▸ halive.stored)
      store.base_sequence
    rw [if_neg (lt_irrefl _)] at hread
    refine ⟨_, hread, ?_, rfl⟩
    rw [hfollow.filter_gt (Nat.zero_le _), Nat.sub_zero, Nat.sub_self]
    exact halive.frames
  · intro f hf hnext htotal
    rw [hbytes] at htotal
    have hpos := size_pos f
    refine append_recorded halive hf hnext ?_ htotal
    rw [h.paused, decide_eq_false_iff_not]
    omega

/-- A process that was killed leaves everything that was appended to the next one, as long as none is
killed in `compact` between its snapshot and its last removal. -/
theorem journal_survives_a_crash (hvalid : limits.validate = .ok limits) (events : List Event)
    (hrotations : Session.start.rotations crc32c limits events < 999999)
    (hsettled : SettledRun crc32c limits Session.start events) :
    ∃ store ops, JournalStore.open crc32c (Session.start.run crc32c limits events).disk limits =
        .ok (store, ops) ∧
      Recovered crc32c limits (Session.start.run crc32c limits events) store ops := by
  have hsafe := safe_run hvalid safe_start le_rfl numbered_start (by omega) hsettled
  obtain ⟨store, ops, l, hopen, hopens⟩ := open_recoverable hvalid hsafe.recoverable
  exact ⟨store, ops, hopen, recovered_of_opens hsafe.follow hopen hopens⟩

end

/-! ## Killed at the wrong moment -/

def letterFrame (sequence : Nat) : JournalFrame := ⟨.Output, sequence, 0, 0, [65]⟩

def letterSnapshot (boundary : Nat) : TerminalSnapshot := ⟨boundary, 80, 24, [65]⟩

/-- One append is cut off, and then one `compact` with its snapshot written. -/
def twoKills : List Event :=
  [.perform .open, .perform (.append (letterFrame 1)), .crash (.append (letterFrame 2)) 0 10,
    .perform .open, .perform (.append (letterFrame 2)), .crash (.compact (letterSnapshot 2)) 1 0]

theorem journal_survives_two_kills :
    ∃ store ops, JournalStore.open castagnoli (Session.start.run castagnoli .default twoKills).disk
        .default = .ok (store, ops) ∧
      Recovered castagnoli .default (Session.start.run castagnoli .default twoKills) store ops := by
  refine journal_survives_a_crash rfl twoKills (by decide +kernel) ?_
  refine ⟨trivial, trivial, trivial, trivial, trivial, Or.inr ?_, trivial⟩
  decide +kernel

def killedInCompact : List Event :=
  [.perform .open, .perform (.append (letterFrame 1)), .crash (.compact (letterSnapshot 1)) 2 0]

/-- The journal that is there opens with a gap, does not record, though it is short, and records
nothing more. -/
def opens_stuck (d : Disk) : Bool :=
  match JournalStore.open castagnoli d .default with
  | .ok (store, ops) =>
    store.has_gap && store.recording_paused &&
      decide ((d.applyAll ops).segmentBytes < JournalLimits.default.hard_bytes) &&
      !(store.append castagnoli (d.applyAll ops) (letterFrame 2)).recorded
  | .error _ => false

/-- Killed between the new segment of `compact` and the removal of the old one: the frames that the
snapshot covers are taken for a gap, and nothing is recorded any more. -/
theorem compact_killed_before_its_removals :
    Session.start.rotations castagnoli .default killedInCompact < 999999 ∧
    ∃ store ops, JournalStore.open castagnoli
        (Session.start.run castagnoli .default killedInCompact).disk .default = .ok (store, ops) ∧
      store.has_gap = true ∧ store.recording_paused = true ∧
      ((Session.start.run castagnoli .default killedInCompact).disk.applyAll ops).segmentBytes <
        JournalLimits.default.hard_bytes ∧
      (store.append castagnoli ((Session.start.run castagnoli .default killedInCompact).disk.applyAll
        ops) (letterFrame 2)).recorded = false := by
  refine ⟨by decide +kernel, ?_⟩
  have hcheck : opens_stuck (Session.start.run castagnoli .default killedInCompact).disk = true := by
    decide +kernel
  unfold opens_stuck at hcheck
  split at hcheck
  · rename_i store ops hopen
    simp only [Bool.and_eq_true, decide_eq_true_eq, Bool.not_eq_true'] at hcheck
    obtain ⟨⟨⟨hgap, hpaused⟩, hbytes⟩, happend⟩ := hcheck
    exact ⟨store, ops, hopen, hgap, hpaused, hbytes, happend⟩
  · cases hcheck

end multiplex_store.journal
