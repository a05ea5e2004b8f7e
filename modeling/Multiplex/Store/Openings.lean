-- What `open` and `read_from` make of a directory, when it is known what a scan
-- finds in each of its segments. Nothing is asked of the bytes themselves.
import Multiplex.Store.JournalLaws

open Checks

namespace multiplex_store.journal

variable (crc32c : List UInt8 → UInt32)

/-- Segments that are scanned to their ends, one after the other, and the frames found in them. -/
inductive Scans : Nat → List (Nat × List UInt8) → List JournalFrame → Prop where
  | nil (previous : Nat) : Scans previous [] []
  | cons {previous index : Nat} {file : List UInt8} {frames later : List JournalFrame}
      {rest : List (Nat × List UInt8)}
      (scan : scan_journal_bytes crc32c file previous = .ok ⟨frames, file.length, none⟩)
      (after : Scans (last_sequence frames previous) rest later) :
      Scans previous ((index, file) :: rest) (frames ++ later)

def filesSize (files : List (Nat × List UInt8)) : Nat := (files.map fun e => e.2.length).sum

variable {crc32c}

theorem last_sequence_append (a b : List JournalFrame) (p : Nat) :
    last_sequence (a ++ b) p = last_sequence b (last_sequence a p) := by
  rcases List.eq_nil_or_concat b with rfl | ⟨b, f, rfl⟩
  · rw [List.append_nil]
    rfl
  · unfold last_sequence
    simp

variable (crc32c) in
theorem scans_closed {closed : List (Nat × List JournalFrame)} :
    ∀ {p : Nat}, Follow p (closed.flatMap Prod.snd) →
      Scans crc32c p (closed.map fun g => (g.1, encodeAll crc32c g.2)) (closed.flatMap Prod.snd) := by
  induction closed with
  | nil => exact fun _ => .nil _
  | cons g closed ih =>
    intro p h
    rw [List.flatMap_cons, follow_append] at h
    refine .cons (scan_encodeAll crc32c h.1) (ih ?_)
    rw [h.1.last]
    exact h.2

/-! ## The files of a directory -/

/-- Less than a million files of a bounded size hold less than `2 ^ 64` bytes. -/
theorem filesSize_le {files : SortedMap Nat (List UInt8)} {limit : Nat}
    (hsix : ∀ e ∈ files.entries, e.1 ≤ 999999) (hsizes : ∀ e ∈ files.entries, e.2.length ≤ limit) :
    filesSize files.entries ≤ 1000000 * limit := by
  have hcount : files.entries.length ≤ 1000000 := by
    have hkeys : (files.entries.map Prod.fst).Nodup :=
      List.pairwise_map.mpr (files.sorted.imp fun hlt => hlt.ne)
    have hbelow : (files.entries.map Prod.fst).toFinset ⊆ Finset.range 1000000 := by
      intro k hk
      rw [List.mem_toFinset, List.mem_map] at hk
      obtain ⟨e, he, rfl⟩ := hk
      exact Finset.mem_range.mpr (Nat.lt_succ_of_le (hsix e he))
    have hcard := Finset.card_le_card hbelow
    rwa [List.toFinset_card_of_nodup hkeys, List.length_map, Finset.card_range] at hcard
  have hsum : filesSize files.entries ≤ files.entries.length * limit := by
    refine (List.sum_le_card_nsmul _ limit ?_).trans ?_
    · intro n hn
      obtain ⟨e, he, rfl⟩ := List.mem_map.mp hn
      exact hsizes e he
    · simp
  exact hsum.trans (Nat.mul_le_mul_right limit hcount)

variable (crc32c) in
/-- The segments of a directory, of which new frames go to the last one. -/
structure Segments (limits : JournalLimits) (d : Disk) (base : Nat)
    (closed : List (Nat × List UInt8)) (active : Nat) (file : List UInt8) : Prop where
  valid : limits.validate = .ok limits
  entries : d.segments.entries = closed ++ [(active, file)]
  six : active ≤ 999999
  snapshot : SnapshotAt crc32c d base
  sizes : ∀ e ∈ d.segments.entries, e.2.length ≤ limits.segment_bytes

section
variable {limits : JournalLimits} {d : Disk} {base active : Nat} {closed : List (Nat × List UInt8)}
  {file : List UInt8}

theorem segment_paths_eq (h : d.segments.entries = closed ++ [(active, file)])
    (hsix : active ≤ 999999) : d.segment_paths = closed ++ [(active, file)] := by
  have hbelow := SortedMap.lt_last h
  unfold Disk.segment_paths
  rw [h, List.filter_eq_self]
  intro e he
  rw [decide_eq_true_eq]
  rcases List.mem_append.mp he with he | he
  · exact (hbelow e he).le.trans hsix
  · rw [List.mem_singleton.mp he]
    exact hsix

theorem Segments.paths (h : Segments crc32c limits d base closed active file) :
    d.segment_paths = closed ++ [(active, file)] := segment_paths_eq h.entries h.six

theorem Segments.total (h : Segments crc32c limits d base closed active file) :
    filesSize closed + file.length ≤ U64_MAX := by
  obtain ⟨-, hsegment, hhard, -⟩ := validate_ok h.valid
  have hbelow := SortedMap.lt_last h.entries
  have hsix : ∀ e ∈ d.segments.entries, e.1 ≤ 999999 := by
    intro e he
    rw [h.entries] at he
    rcases List.mem_append.mp he with he | he
    · exact (hbelow e he).le.trans h.six
    · rw [List.mem_singleton.mp he]
      exact h.six
  have hall := filesSize_le hsix h.sizes
  rw [h.entries] at hall
  unfold filesSize at hall ⊢
  rw [List.map_append, List.sum_append, List.map_singleton, List.sum_singleton] at hall
  simp only at hall
  unfold DEFAULT_JOURNAL_BYTES at hhard
  unfold U64_MAX
  omega

/-! ## The loop of `open` -/

/-- What is found in the segments so far. -/
def Opening.found (o : Opening) (bytes : Nat) (frames : List JournalFrame) : Opening :=
  { o with
    total_bytes := o.total_bytes + bytes
    earliest_sequence := o.earliest_sequence.or (frames.head?.map JournalFrame.sequence)
    latest_sequence := last_sequence frames o.latest_sequence }

theorem found_found (o : Opening) (m n : Nat) (a b : List JournalFrame) :
    (o.found m a).found n b = o.found (m + n) (a ++ b) := by
  unfold Opening.found
  simp only [Nat.add_assoc, last_sequence_append, Option.or_assoc]
  cases a <;> simp

theorem open_segments_cons {limit index : Nat} {rest : List (Nat × List UInt8)} {o : Opening}
    (hsize : file.length ≤ limit) (htotal : o.total_bytes + file.length ≤ U64_MAX) :
    open_segments crc32c limit ((index, file) :: rest) o =
      (scan_journal_bytes crc32c file o.latest_sequence).bind fun scan =>
        if scan.issue.isSome then
          if rest = [] then
            .ok { o.found file.length scan.frames with
              total_bytes := o.total_bytes + file.length - (file.length - scan.valid_bytes)
              ops := preserve_and_truncate_tail index file scan.valid_bytes }
          else .ok { o.found file.length scan.frames with has_gap := true }
        else open_segments crc32c limit rest (o.found file.length scan.frames) := by
  rw [open_segments, read_regular_bounded_ok hsize]
  simp only [bind, Except.bind]
  rw [show refuseIf JournalErrorCode.ResourceLimit (o.total_bytes + file.length > U64_MAX) =
    .ok () from if_neg (not_lt.mpr htotal)]
  rfl

variable {frames : List JournalFrame}

theorem open_segments_scans {limit p : Nat} (h : Scans crc32c p closed frames)
    (rest : List (Nat × List UInt8)) :
    ∀ {o : Opening}, o.latest_sequence = p → (∀ e ∈ closed, e.2.length ≤ limit) →
      o.total_bytes + filesSize closed ≤ U64_MAX → open_segments crc32c limit (closed ++ rest) o =
        open_segments crc32c limit rest (o.found (filesSize closed) frames) := by
  induction h with
  | nil p =>
    unfold Opening.found filesSize
    simp [last_sequence]
  | @cons p index file frames later closed hscan hafter ih =>
    intro o hlatest hsizes htotal
    obtain ⟨hsize, hsizes⟩ := List.forall_mem_cons.mp hsizes
    simp only at hsize
    have hsum : filesSize ((index, file) :: closed) = file.length + filesSize closed := by
      unfold filesSize
      rw [List.map_cons, List.sum_cons]
    rw [hsum] at htotal ⊢
    rw [List.cons_append, open_segments_cons hsize (by omega), hlatest, hscan]
    simp [Except.bind]
    rw [ih, found_found]
    · rw [← hlatest]
      rfl
    · exact hsizes
    · unfold Opening.found
      simp only
      omega

/-! ## What `open` gives -/

/-- What `open` does to the last segment. -/
def cutTail (active : Nat) (file : List UInt8) (scan : JournalScan) : List FileOp :=
  if scan.issue.isSome then preserve_and_truncate_tail active file scan.valid_bytes else []

/-- The store that `open` makes of segments that are read up to the last one. -/
def openedAt (limits : JournalLimits) (base active active_bytes total_bytes : Nat)
    (frames : List JournalFrame) : JournalStore where
  limits
  active_index := active
  active_bytes
  total_bytes
  latest_sequence := last_sequence frames base
  earliest_sequence := (frames.head?.map JournalFrame.sequence).or (nonzero base)
  base_sequence := base
  recording_paused := decide (total_bytes > limits.hard_bytes) ||
    decide (total_bytes ≥ limits.hard_bytes)
  has_gap := decide (total_bytes > limits.hard_bytes)
  live_frames := []
  live_bytes := 0
  live_boundary := last_sequence frames base

theorem entries_applyAll_cutTail (h : d.segments.entries = closed ++ [(active, file)])
    (scan : JournalScan) (hwhole : scan.issue = none → scan.valid_bytes = file.length) :
    (d.applyAll (cutTail active file scan ++ [.create active])).segments.entries =
      closed ++ [(active, file.take scan.valid_bytes)] := by
  have hcreate : ∀ (d' : Disk) (bytes : List UInt8),
      d'.segments.entries = closed ++ [(active, bytes)] →
      (d'.apply (.create active)).segments.entries = closed ++ [(active, bytes)] := by
    intro d' bytes h'
    unfold Disk.apply
    simp only
    rw [SortedMap.get?_last h', Option.getD_some]
    exact SortedMap.entries_insert_last h'
  have hset : ∀ d' : Disk, d'.segments = d.segments →
      (d'.apply (.set_len active scan.valid_bytes)).segments.entries =
        closed ++ [(active, file.take scan.valid_bytes)] := by
    intro d' h'
    unfold Disk.apply
    simp only
    rw [h', SortedMap.get?_last h, Option.getD_some]
    exact SortedMap.entries_insert_last h
  rw [applyAll_append]
  apply hcreate
  unfold cutTail Disk.applyAll
  cases hissue : scan.issue with
  | none =>
    rw [hwhole hissue, List.take_length]
    exact h
  | some issue =>
    unfold preserve_and_truncate_tail
    simp
    split
    · exact hset d rfl
    · exact hset _ rfl

section
variable (h : Segments crc32c limits d base closed active file)
  (hclosed : Scans crc32c base closed frames)
include h hclosed

theorem Segments.loop :
    open_segments crc32c limits.segment_bytes d.segment_paths ⟨0, base, none, false, []⟩ =
      (scan_journal_bytes crc32c file (last_sequence frames base)).map fun scan =>
        { Opening.found ⟨0, base, none, false, []⟩ (filesSize closed + file.length)
            (frames ++ scan.frames) with
          total_bytes := filesSize closed + file.length -
            if scan.issue.isSome then file.length - scan.valid_bytes else 0
          ops := cutTail active file scan } := by
  have htotal := h.total
  have hsizes := h.sizes
  rw [h.entries, List.forall_mem_append, List.forall_mem_singleton] at hsizes
  rw [h.paths, open_segments_scans hclosed _ rfl hsizes.1 (by simp only; omega),
    open_segments_cons hsizes.2 (by unfold Opening.found; simp only; omega)]
  change (scan_journal_bytes crc32c file (last_sequence frames base)).bind _ = _
  cases scan_journal_bytes crc32c file (last_sequence frames base) with
  | error code => rfl
  | ok scan =>
    simp only [Except.bind, Except.map]
    rw [found_found]
    unfold cutTail
    cases scan.issue with
    | none =>
      rw [open_segments]
      unfold Opening.found
      simp
    | some issue =>
      unfold Opening.found
      simp

theorem Segments.open_error {code : JournalErrorCode}
    (hscan : scan_journal_bytes crc32c file (last_sequence frames base) = .error code) :
    JournalStore.open crc32c d limits = .error code := by
  obtain ⟨snapshot, hload, hbase⟩ := load_snapshot_at crc32c h.snapshot
  have hloop := h.loop hclosed
  rw [hscan] at hloop
  unfold JournalStore.open
  simp only [h.valid, hload, hbase, hloop, bind, Except.bind, Except.map]

theorem Segments.open_eq {scan : JournalScan}
    (hscan : scan_journal_bytes crc32c file (last_sequence frames base) = .ok scan)
    (hle : scan.valid_bytes ≤ file.length)
    (hwhole : scan.issue = none → scan.valid_bytes = file.length) :
    JournalStore.open crc32c d limits =
      .ok (openedAt limits base active scan.valid_bytes (filesSize closed + scan.valid_bytes)
        (frames ++ scan.frames), cutTail active file scan ++ [.create active]) := by
  obtain ⟨snapshot, hload, hbase⟩ := load_snapshot_at crc32c h.snapshot
  have hloop := h.loop hclosed
  rw [hscan] at hloop
  simp only [Except.map] at hloop
  have htotal : filesSize closed + file.length -
      (if scan.issue.isSome then file.length - scan.valid_bytes else 0) =
        filesSize closed + scan.valid_bytes := by
    cases hissue : scan.issue with
    | none =>
      rw [hwhole hissue]
      rfl
    | some issue =>
      simp
      omega
  rw [htotal] at hloop
  have hlast : (d.segment_paths.getLast?.map Prod.fst).getD 1 = active := by
    rw [h.paths]
    simp
  have hactive : (((d.applyAll (cutTail active file scan ++ [.create active])).segments.get?
      active).getD []).length = scan.valid_bytes := by
    rw [SortedMap.get?_last (entries_applyAll_cutTail h.entries scan hwhole), Option.getD_some,
      List.length_take, Nat.min_eq_left hle]
  unfold JournalStore.open
  simp only [h.valid, hload, hbase, hloop, hlast, bind, Except.bind, hactive]
  unfold openedAt Opening.found
  simp

end

/-! ## What `read_from` gives -/

theorem read_segments_append {limit p : Nat} (h : Scans crc32c p closed frames)
    (hsizes : ∀ e ∈ closed, e.2.length ≤ limit) (rest : List (Nat × List UInt8)) :
    read_segments crc32c limit (closed ++ rest) p =
      (read_segments crc32c limit rest (last_sequence frames p)).map fun later =>
        (frames ++ later.1, later.2) := by
  induction h with
  | nil p =>
    change read_segments crc32c limit rest p = (read_segments crc32c limit rest p).map id
    cases read_segments crc32c limit rest p with
    | error code => rfl
    | ok later => rfl
  | @cons p index file frames later closed hscan hafter ih =>
    obtain ⟨hsize, hsizes⟩ := List.forall_mem_cons.mp hsizes
    rw [List.cons_append, read_segments, read_regular_bounded_ok hsize, last_sequence_append]
    simp only [bind, Except.bind]
    rw [hscan]
    simp
    rw [ih hsizes]
    cases read_segments crc32c limit rest (last_sequence later (last_sequence frames p)) with
    | error code => rfl
    | ok found => simp [Except.map, pure, Except.pure]

theorem read_segments_scans {limit p : Nat} (h : Scans crc32c p closed frames)
    (hsizes : ∀ e ∈ closed, e.2.length ≤ limit) :
    read_segments crc32c limit closed p = .ok (frames, false) := by
  have happend := read_segments_append h hsizes []
  rw [List.append_nil] at happend
  rw [happend, read_segments]
  simp [Except.map]

/-- From the base on, all frames are read, when the first one has the number after it. -/
theorem read_from_base {s : JournalStore} {gap : Bool}
    (hread : read_segments crc32c s.limits.segment_bytes d.segment_paths s.base_sequence =
      .ok (frames, gap)) (hfirst : ∀ f, frames.head? = some f → f.sequence = s.base_sequence + 1)
    (hall : ∀ f ∈ frames, s.base_sequence < f.sequence) :
    ∃ read, s.read_from crc32c d s.base_sequence = .ok read ∧ read.frames = frames ∧
      read.has_gap = (s.has_gap || gap) := by
  have hearliest : ¬ (s.base_sequence < s.base_sequence ∨
      (((frames.head?.map JournalFrame.sequence).or (nonzero s.base_sequence)).any fun earliest =>
        (checked_next s.base_sequence).any fun requested =>
          decide (requested < earliest)) = true) := by
    rintro (hlt | hany)
    · exact lt_irrefl _ hlt
    rw [Option.any_eq_true] at hany
    obtain ⟨earliest, hsome, hany⟩ := hany
    rw [Option.any_eq_true] at hany
    obtain ⟨requested, hrequested, hlt⟩ := hany
    obtain ⟨-, rfl⟩ := checked_next_some hrequested
    rw [decide_eq_true_eq] at hlt
    cases hhead : frames.head? with
    | none =>
      rw [hhead] at hsome
      unfold nonzero at hsome
      split at hsome
      · cases hsome
        omega
      · cases hsome
    | some f =>
      rw [hhead] at hsome
      simp at hsome
      have := hfirst f hhead
      omega
  have hfilter : (frames.filter fun f => decide (f.sequence > s.base_sequence)) = frames :=
    List.filter_eq_self.mpr fun f hf => decide_eq_true (hall f hf)
  unfold JournalStore.read_from
  rw [hread]
  simp only [Except.mapError, bind, Except.bind]
  rw [if_neg hearliest, hfilter]
  exact ⟨_, rfl, rfl, rfl⟩

end

end multiplex_store.journal
