-- The live frames of a store and its files tell the same. A million segments are
-- too many: the file of the last one has a name that is not read back.
import Multiplex.Store.JournalRuns

namespace multiplex_store.journal

section
variable {crc32c : List UInt8 → UInt32} {limits : JournalLimits}

/-- A run without a kill. -/
def performed (actions : List Action) : List Event := actions.map Event.perform

variable (crc32c limits) in
theorem settled_performed (actions : List Action) :
    ∀ {m : Session}, SettledRun crc32c limits m (performed actions) := by
  induction actions with
  | nil => exact trivial
  | cons action actions ih => exact ⟨trivial, ih⟩

variable (crc32c limits) in
/-- The two ways to read agree, and the counters are those of the files. -/
structure Agrees (store : JournalStore) (d : Disk) : Prop where
  reads : ∀ from_,
    (store.read_live_from crc32c d from_).map (fun read => (read.frames, read.latest)) =
      (store.read_from crc32c d from_).map fun read => (read.frames, read.latest)
  bounds : ∃ read, store.read_from crc32c d store.base_sequence = .ok read ∧
    store.sequence_bounds = (read.earliest, read.latest)
  total : store.total_bytes = d.segmentBytes
  within : store.total_bytes ≤ limits.hard_bytes
  segments : ∀ e ∈ d.segments.entries, e.2.length ≤ limits.segment_bytes

theorem Alive.agrees {store : JournalStore} {d : Disk} {history : List JournalFrame} {l : Layout}
    (h : Alive crc32c limits store d history l) : Agrees crc32c limits store d := by
  have hstored : Stored crc32c store.limits d store.base_sequence l [] := h.same_limits ▸ h.stored
  have htotal := h.mirrors.total_bytes
  refine ⟨read_live_from_stored h.mirrors hstored, ?_, ?_, ?_, ?_⟩
  · have hread := read_from_stored h.mirrors hstored store.base_sequence
    rw [if_neg (lt_irrefl _)] at hread
    exact ⟨_, hread, rfl⟩
  · rw [segmentBytes_stored h.stored, htotal]
  · rw [htotal]
    exact h.stored.total
  · intro e he
    rw [h.stored.entries] at he
    exact h.stored.sizes e he

/-- After every run of appends, compactions and openings the live frames and the files agree, as long
as no segment needs a seventh digit. -/
theorem live_tail_and_disk_agree (hvalid : limits.validate = .ok limits) (actions : List Action)
    (hrotations : Session.start.rotations crc32c limits (performed actions) < 999999)
    {store : JournalStore}
    (hstore : (Session.start.run crc32c limits (performed actions)).store = some store) :
    Agrees crc32c limits store (Session.start.run crc32c limits (performed actions)).disk := by
  have hsafe := safe_run hvalid safe_start le_rfl numbered_start (by omega)
    (settled_performed crc32c limits actions)
  obtain ⟨l, halive⟩ := hsafe.alive store hstore
  exact halive.agrees

end

def threeLetters : List Action :=
  [.open, .append (letterFrame 1), .compact (letterSnapshot 1), .append (letterFrame 2), .open,
    .append (letterFrame 3)]

theorem live_tail_and_disk_agree_on_three_letters :
    ∃ store, (Session.start.run castagnoli .default (performed threeLetters)).store = some store ∧
      Agrees castagnoli .default store
        (Session.start.run castagnoli .default (performed threeLetters)).disk := by
  have hsome : (Session.start.run castagnoli .default (performed threeLetters)).store.isSome :=
    by decide +kernel
  obtain ⟨store, hstore⟩ := Option.isSome_iff_exists.mp hsome
  exact ⟨store, hstore, live_tail_and_disk_agree rfl threeLetters (by decide +kernel) hstore⟩

/-! ## A million segments -/

theorem fits_letterFrame {n : Nat} (hpos : 0 < n) (hle : n ≤ 1000000) : (letterFrame n).Fits := by
  refine ⟨?_, hpos.ne', ?_⟩
  · change n ≤ U64_MAX
    unfold U64_MAX
    omega
  · change 37 ≤ MAX_JOURNAL_FRAME_BYTES
    decide

theorem fits_letterSnapshot {n : Nat} (hpos : 0 < n) (hle : n ≤ 1000000) :
    (letterSnapshot n).Fits := by
  refine ⟨?_, hpos.ne', ?_, ?_, ?_⟩
  · change n ≤ U64_MAX
    unfold U64_MAX
    omega
  · change (80 : UInt32) ≠ 0
    decide
  · change (24 : UInt32) ≠ 0
    decide
  · change 1 ≤ MAX_SNAPSHOT_BYTES
    decide

/-- One frame for each segment. -/
def rounds (n : Nat) : List Action :=
  (List.range n).flatMap fun i => [.append (letterFrame (i + 1)), .compact (letterSnapshot (i + 1))]

/-- Before a round: one empty segment after the snapshot. The last one may have seven digits. -/
structure Blank (i : Nat) (m : Session) (store : JournalStore) : Prop where
  running : m.store = some store
  entries : m.disk.segments.entries = [(i + 1, [])]
  mirrors : Mirrors store ⟨[], i + 1, []⟩
  base : store.base_sequence = i
  same_limits : store.limits = .default
  recording : store.recording_paused = false
  alive : i + 1 ≤ 999999 → Alive castagnoli .default store m.disk m.history ⟨[], i + 1, []⟩

theorem blank_open : ∃ store,
    Blank 0 (Session.start.step castagnoli .default (.perform .open)) store := by
  obtain ⟨hopen, hstored⟩ : JournalStore.open castagnoli Disk.empty .default =
        .ok (opened .default 0 ⟨[], 1, []⟩, [.create 1]) ∧
      Stored castagnoli .default (Disk.empty.applyAll [.create 1]) 0 ⟨[], 1, []⟩ [] :=
    open_fresh rfl rfl rfl
  have halive : Alive castagnoli .default (opened .default 0 ⟨[], 1, []⟩)
      (Disk.empty.applyAll [.create 1]) [] ⟨[], 1, []⟩ := mirrors_alive rfl hstored le_rfl rfl
  exact ⟨_, rfl, rfl, halive.mirrors, rfl, rfl, rfl, fun _ => halive⟩

variable {m : Session} {store : JournalStore}

theorem Blank.latest {i : Nat} (h : Blank i m store) : store.latest_sequence = i := by
  rw [h.mirrors.latest, h.base]
  rfl

theorem Blank.append_letter {i : Nat} (h : Blank i m store) (hi : i + 1 ≤ 1000000) :
    store.append castagnoli m.disk (letterFrame (i + 1)) = ⟨store.record (letterFrame (i + 1)) 37,
        [.append (i + 1) ((letterFrame (i + 1)).bytes castagnoli)], .ok .Recorded⟩ := by
  have hindex := h.mirrors.index
  rw [append_stays m.disk (fits_letterFrame (Nat.succ_pos i) hi) ?_ h.recording ?_
    (.inl h.mirrors.active_bytes), hindex]
  · rfl
  · rw [h.latest]
    rfl
  · rw [h.mirrors.total_bytes, h.same_limits]
    change 0 + 37 ≤ DEFAULT_JOURNAL_BYTES
    decide

theorem letter_written {i : Nat} (hi : i + 1 ≤ 999999) (h : Blank i m store) :
    m.step castagnoli .default (.perform (.append (letterFrame (i + 1)))) =
      ⟨m.disk.apply (.append (i + 1) ((letterFrame (i + 1)).bytes castagnoli)),
        some (store.record (letterFrame (i + 1)) 37), m.history ++ [letterFrame (i + 1)]⟩ ∧
    Alive castagnoli .default (store.record (letterFrame (i + 1)) 37)
      (m.disk.apply (.append (i + 1) ((letterFrame (i + 1)).bytes castagnoli)))
      (m.history ++ [letterFrame (i + 1)]) ⟨[], i + 1, [letterFrame (i + 1)]⟩ := by
  have halive := h.alive hi
  have hfits : (letterFrame (i + 1)).Fits := fits_letterFrame (Nat.succ_pos i) (by omega)
  have happend := h.append_letter (by omega)
  constructor
  · unfold Session.step Session.changes Session.plan
    simp only [h.running, happend]
    rfl
  · refine halive.push hfits ?_ ?_ ?_
    · rw [h.base]
      rfl
    · change 0 + 37 ≤ DEFAULT_SEGMENT_BYTES
      decide
    · change 0 + 37 ≤ DEFAULT_JOURNAL_BYTES
      decide

theorem blank_round {i : Nat} (hi : i + 1 ≤ 999999) (h : Blank i m store) :
    ∃ store', Blank (i + 1) (m.run castagnoli .default
      (performed [.append (letterFrame (i + 1)), .compact (letterSnapshot (i + 1))])) store' := by
  obtain ⟨hstep, hpushed⟩ := letter_written hi h
  unfold performed Session.run
  rw [List.map_cons, List.foldl_cons, hstep]
  generalize hstored : store.record (letterFrame (i + 1)) 37 = stored at hpushed ⊢
  generalize m.disk.apply (.append (i + 1) ((letterFrame (i + 1)).bytes castagnoli)) = d at hpushed ⊢
  have hlast : stored.latest_sequence = i + 1 := by
    rw [← hstored]
    rfl
  have hsnapshot : (letterSnapshot (i + 1)).Fits := fits_letterSnapshot (Nat.succ_pos i) (by omega)
  rcases compact_cases hpushed.mirrors (hpushed.same_limits ▸ hpushed.stored)
    (by rw [hlast]; unfold U64_MAX; omega) (letterSnapshot (i + 1)) with
    ⟨-, -, -, hrefused⟩ | ⟨turn, s', l', hturns, -, hboundary, -, hops, hstore⟩
  · exact absurd ⟨hsnapshot, hlast.symm⟩ hrefused
  have hentries := entries_compacted hpushed.stored.entries hturns
    ((letterSnapshot (i + 1)).bytes castagnoli)
  have hmirrors := mirrors_compacted hpushed.mirrors hturns (by rw [hlast]; exact Nat.succ_ne_zero i)
  have hcompacted := fun hsix => hpushed.compacted hturns hsnapshot hboundary hsix
  have hgap := (hturns.mirrors hpushed.mirrors).no_gap
  have hsame := hturns.same.1.trans hpushed.same_limits
  have hactive : l'.active = i + 1 + 1 := by
    cases hturns with
    | empty current => exact absurd current (List.cons_ne_nil _ _)
    | full current paused => rfl
  rw [hactive] at hentries hmirrors hcompacted
  have hdone : Session.step castagnoli .default
      ⟨d, some stored, m.history ++ [letterFrame (i + 1)]⟩
        (.perform (.compact (letterSnapshot (i + 1)))) =
      ⟨d.applyAll (.write_snapshot ((letterSnapshot (i + 1)).bytes castagnoli) :: turn ++
          l'.closed.map fun g => FileOp.remove g.1),
        some (s'.restart stored.latest_sequence 0), m.history ++ [letterFrame (i + 1)]⟩ := by
    unfold Session.step Session.changes Session.plan
    simp [hops, hstore]
  rw [List.map_singleton, List.foldl_cons, List.foldl_nil, hdone]
  refine ⟨_, rfl, hentries, hmirrors, hlast, hsame, ?_, hcompacted⟩
  unfold JournalStore.restart
  rw [hgap, hsame]
  rfl

theorem blank_rounds {n : Nat} (hn : n ≤ 999999) (h : Blank 0 m store) :
    ∃ store', Blank n (m.run castagnoli .default (performed (rounds n))) store' := by
  induction n with
  | zero => exact ⟨store, h⟩
  | succ n ih =>
    obtain ⟨store', h'⟩ := ih (by omega)
    have hrounds : rounds (n + 1) =
        rounds n ++ [.append (letterFrame (n + 1)), .compact (letterSnapshot (n + 1))] := by
      unfold rounds
      rw [List.range_succ, List.flatMap_append, List.flatMap_singleton]
    unfold performed Session.run at h' ⊢
    rw [hrounds, List.map_append, List.foldl_append]
    exact blank_round hn h'

/-- After the last round a frame is written that only the live frames have. -/
theorem letter_lost (h : Blank 999999 m store) :
    ∃ store', (m.step castagnoli .default (.perform (.append (letterFrame 1000000)))).store =
        some store' ∧ (store'.read_live_from castagnoli
        (m.step castagnoli .default (.perform (.append (letterFrame 1000000)))).disk 999999).map
          JournalRead.frames = .ok [letterFrame 1000000] ∧ (store'.read_from castagnoli
        (m.step castagnoli .default (.perform (.append (letterFrame 1000000)))).disk 999999).map
          JournalRead.frames = .ok [] := by
  have hmirrors := h.mirrors
  have hboundary : store.live_boundary = 999999 := by
    have hbase := hmirrors.base_le_live
    have hlive := hmirrors.live_le
    have hlatest := h.latest
    rw [h.base] at hbase
    omega
  have hframes : store.live_frames = [] := by
    rw [hmirrors.live]
    exact List.drop_nil
  have hbytes : store.live_bytes = 0 := by
    rw [hmirrors.live_bytes, hframes]
    rfl
  have hstep : m.step castagnoli .default (.perform (.append (letterFrame 1000000))) =
      ⟨m.disk.apply (.append 1000000 ((letterFrame 1000000).bytes castagnoli)),
        some (store.record (letterFrame 1000000) 37), m.history ++ [letterFrame 1000000]⟩ := by
    have happend := h.append_letter le_rfl
    unfold Session.step Session.changes Session.plan
    simp only [h.running, happend]
    rfl
  have hpaths : (m.disk.apply (.append 1000000
      ((letterFrame 1000000).bytes castagnoli))).segment_paths = [] := by
    unfold Disk.segment_paths Disk.apply
    rw [SortedMap.entries_insert_last (l := []) h.entries]
    rfl
  have hgap : (store.record (letterFrame 1000000) 37).has_gap = false := hmirrors.no_gap
  have hbase : (store.record (letterFrame 1000000) 37).base_sequence = 999999 := h.base
  rw [hstep]
  refine ⟨_, rfl, ?_, ?_⟩
  · have hlive : (store.record (letterFrame 1000000) 37).live_frames = [letterFrame 1000000] ∧
        (store.record (letterFrame 1000000) 37).live_boundary = 999999 := by
      unfold JournalStore.record
      rw [hframes, hbytes, hboundary]
      exact ⟨rfl, rfl⟩
    unfold JournalStore.read_live_from
    rw [hlive.1, hlive.2, hgap, hbase]
    rfl
  · unfold JournalStore.read_from
    rw [hpaths, hbase]
    rfl

/-- The segment with number 1000000 is written, and not read back. -/
theorem millionth_segment_is_not_read :
    ∃ store, (Session.start.run castagnoli .default (performed (.open :: rounds 999999 ++
        [.append (letterFrame 1000000)]))).store = some store ∧
      (store.read_live_from castagnoli (Session.start.run castagnoli .default
        (performed (.open :: rounds 999999 ++ [.append (letterFrame 1000000)]))).disk 999999).map
          JournalRead.frames = .ok [letterFrame 1000000] ∧
      (store.read_from castagnoli (Session.start.run castagnoli .default
        (performed (.open :: rounds 999999 ++ [.append (letterFrame 1000000)]))).disk 999999).map
          JournalRead.frames = .ok [] := by
  obtain ⟨store, hopen⟩ := blank_open
  obtain ⟨store', hrounds⟩ := blank_rounds le_rfl hopen
  have hrun : Session.start.run castagnoli .default (performed (.open :: rounds 999999 ++
      [.append (letterFrame 1000000)])) =
    ((Session.start.step castagnoli .default (.perform .open)).run castagnoli .default
      (performed (rounds 999999))).step castagnoli .default
        (.perform (.append (letterFrame 1000000))) := by
    unfold Session.run performed
    rw [List.map_append, List.map_cons, List.foldl_append, List.foldl_cons, List.map_singleton,
      List.foldl_cons, List.foldl_nil]
  rw [hrun]
  exact letter_lost hrounds

end multiplex_store.journal
