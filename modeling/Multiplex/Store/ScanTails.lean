-- What follows the frames of a segment. A scan keeps the frames in front of it,
-- unless it looks like the header of a record that is larger than any record may
-- be: its length is believed before its checksum is seen.
import Multiplex.Store.Openings

open Bytes

namespace multiplex_store.journal

/-! ## What a tail begins with -/

/-- The length of the record that a header announces. -/
def headerLength (bytes : List UInt8) : Nat :=
  JOURNAL_HEADER_BYTES + beNat (slice bytes 24 28) + JOURNAL_CHECKSUM_BYTES

def BeginsHeader (bytes : List UInt8) : Prop :=
  JOURNAL_HEADER_BYTES + JOURNAL_CHECKSUM_BYTES ≤ bytes.length ∧ slice bytes 0 4 = JOURNAL_MAGIC ∧
    beNat (slice bytes 4 6) = FORMAT_VERSION

/-- A header that announces more than a record may hold. -/
def BeginsOversized (bytes : List UInt8) : Prop :=
  BeginsHeader bytes ∧ MAX_JOURNAL_FRAME_BYTES < headerLength bytes

def BeginsRecord (crc32c : List UInt8 → UInt32) (bytes : List UInt8) : Prop :=
  BeginsHeader bytes ∧ headerLength bytes ≤ MAX_JOURNAL_FRAME_BYTES ∧
    headerLength bytes ≤ bytes.length ∧
    (crc32c (slice bytes 0 (headerLength bytes - JOURNAL_CHECKSUM_BYTES))).toNat =
      beNat (slice bytes (headerLength bytes - JOURNAL_CHECKSUM_BYTES) (headerLength bytes))

instance (bytes : List UInt8) : Decidable (BeginsHeader bytes) :=
  inferInstanceAs (Decidable (_ ∧ _))

instance (bytes : List UInt8) : Decidable (BeginsOversized bytes) :=
  inferInstanceAs (Decidable (_ ∧ _))

instance (crc32c : List UInt8 → UInt32) (bytes : List UInt8) :
    Decidable (BeginsRecord crc32c bytes) :=
  inferInstanceAs (Decidable (_ ∧ _))

section
variable {crc32c : List UInt8 → UInt32}

theorem scan_frame_tail {tail : List UInt8} (h : ¬ BeginsRecord crc32c tail) (previous : Nat) :
    (BeginsOversized tail ∧ scan_frame crc32c tail previous = .Fail .FrameTooLarge) ∨
      (¬ BeginsOversized tail ∧ ∃ issue, scan_frame crc32c tail previous = .Stop issue) := by
  unfold BeginsRecord BeginsOversized BeginsHeader headerLength at *
  unfold scan_frame
  by_cases hshort : tail.length < JOURNAL_HEADER_BYTES + JOURNAL_CHECKSUM_BYTES
  · right
    rw [if_pos hshort]
    exact ⟨fun hover => absurd hover.1.1 (not_le.mpr hshort), _, rfl⟩
  rw [if_neg hshort]
  by_cases hheader : slice tail 0 4 ≠ JOURNAL_MAGIC ∨ beNat (slice tail 4 6) ≠ FORMAT_VERSION
  · right
    rw [if_pos hheader]
    refine ⟨fun hover => ?_, _, rfl⟩
    rcases hheader with hmagic | hversion
    · exact hmagic hover.1.2.1
    · exact hversion hover.1.2.2
  rw [if_neg hheader]
  simp at hheader
  simp only [not_lt.mp hshort, hheader, and_self, true_and] at h ⊢
  by_cases hlarge : JOURNAL_HEADER_BYTES + beNat (slice tail 24 28) + JOURNAL_CHECKSUM_BYTES >
      MAX_JOURNAL_FRAME_BYTES
  · left
    exact ⟨hlarge, if_pos hlarge⟩
  right
  refine ⟨hlarge, ?_⟩
  rw [if_neg hlarge]
  by_cases htorn : tail.length < JOURNAL_HEADER_BYTES + beNat (slice tail 24 28) +
      JOURNAL_CHECKSUM_BYTES
  · exact ⟨_, if_pos htorn⟩
  rw [if_neg htorn, if_pos]
  · exact ⟨_, rfl⟩
  · exact fun hcrc => h ⟨not_lt.mp hlarge, not_lt.mp htorn, hcrc⟩

theorem not_oversized_nil : ¬ BeginsOversized [] := by decide

theorem scan_with_tail {frames : List JournalFrame} {p : Nat} (h : Follow p frames)
    {tail : List UInt8} (htail : ¬ BeginsRecord crc32c tail) :
    (BeginsOversized tail ∧ scan_journal_bytes crc32c (encodeAll crc32c frames ++ tail) p =
      .error .FrameTooLarge) ∨
    (¬ BeginsOversized tail ∧ ∃ issue : Option ScanIssue, (issue.isSome ↔ tail ≠ []) ∧
      scan_journal_bytes crc32c (encodeAll crc32c frames ++ tail) p =
        .ok ⟨frames, (encodeAll crc32c frames).length, issue⟩) := by
  by_cases hnil : tail = []
  · right
    rw [hnil, List.append_nil]
    exact ⟨not_oversized_nil, none, by simp, scan_encodeAll crc32c h⟩
  have hle := length_le_encodeAll crc32c frames
  have hpos := List.length_pos_iff.mpr hnil
  obtain ⟨turns, hturns⟩ : ∃ turns, (encodeAll crc32c frames ++ tail).length - frames.length =
      turns + 1 := by
    refine ⟨(encodeAll crc32c frames ++ tail).length - frames.length - 1, ?_⟩
    rw [List.length_append]
    omega
  have hscan : scan_journal_bytes crc32c (encodeAll crc32c frames ++ tail) p =
      (scan_loop crc32c (turns + 1) tail (p + frames.length)).map fun scan =>
        { scan with
          frames := frames ++ scan.frames
          valid_bytes := (encodeAll crc32c frames).length + scan.valid_bytes } := by
    unfold scan_journal_bytes
    rw [scan_loop_encodeAll crc32c h (by rw [List.length_append]; omega), hturns]
  rw [hscan, scan_loop_succ crc32c turns hnil]
  rcases scan_frame_tail htail (p + frames.length) with ⟨hover, hfail⟩ | ⟨hover, issue, hstop⟩
  · left
    rw [hfail]
    exact ⟨hover, rfl⟩
  · right
    rw [hstop]
    refine ⟨hover, some issue, by simp [hnil], ?_⟩
    simp [Except.map]

/-! ## A last segment with a tail -/

/-- A directory whose segments hold frames that follow the snapshot, with some bytes after the
last one. -/
structure Tailed (crc32c : List UInt8 → UInt32) (limits : JournalLimits) (d : Disk) (base : Nat)
    (l : Layout) (tail : List UInt8) : Prop where
  valid : limits.validate = .ok limits
  entries : d.segments.entries = l.entries crc32c tail
  six : l.active ≤ 999999
  snapshot : SnapshotAt crc32c d base
  sizes : ∀ e ∈ l.entries crc32c tail, e.2.length ≤ limits.segment_bytes
  follow : Follow base l.frames

variable {limits : JournalLimits} {d : Disk} {base : Nat} {l : Layout} {tail : List UInt8}

theorem Tailed.segments (h : Tailed crc32c limits d base l tail) :
    Segments crc32c limits d base (l.closed.map fun g => (g.1, encodeAll crc32c g.2)) l.active
      (encodeAll crc32c l.current ++ tail) :=
  ⟨h.valid, h.entries, h.six, h.snapshot, by rw [h.entries]; exact h.sizes⟩

/-- `open` succeeds with the frames of the layout, or fails with the scan. -/
theorem open_with_tail (h : Tailed crc32c limits d base l tail)
    (htail : ¬ BeginsRecord crc32c tail) :
    (BeginsOversized tail ∧ JournalStore.open crc32c d limits = .error .FrameTooLarge) ∨
    (¬ BeginsOversized tail ∧ ∃ store ops, JournalStore.open crc32c d limits = .ok (store, ops) ∧
      store.latest_sequence = base + l.frames.length ∧
      (d.applyAll ops).segments.entries = l.entries crc32c [] ∧
      ∃ read, store.read_from crc32c (d.applyAll ops) base = .ok read ∧ read.frames = l.frames) := by
  have hfollow := h.follow
  unfold Layout.frames at hfollow
  rw [follow_append] at hfollow
  obtain ⟨hclosed, hcurrent⟩ := hfollow
  have hscans := scans_closed crc32c hclosed
  have hstart := hclosed.last
  rw [← hstart] at hcurrent
  rcases scan_with_tail hcurrent htail with ⟨hover, hscan⟩ | ⟨hover, issue, hissue, hscan⟩
  · exact .inl ⟨hover, h.segments.open_error hscans hscan⟩
  right
  have hwhole : issue = none → (encodeAll crc32c l.current).length =
      (encodeAll crc32c l.current ++ tail).length := by
    intro hnone
    have hnil : tail = [] := by
      by_contra hne
      rw [hnone] at hissue
      exact absurd (hissue.mpr hne) (by simp)
    rw [hnil, List.append_nil]
  have hentries := entries_applyAll_cutTail h.segments.entries
    ⟨l.current, (encodeAll crc32c l.current).length, issue⟩ hwhole
  have hcut : (encodeAll crc32c l.current ++ tail).take (encodeAll crc32c l.current).length =
      encodeAll crc32c l.current ++ [] := by
    rw [List.take_left' rfl, List.append_nil]
  simp only [hcut] at hentries
  refine ⟨hover, _, _, h.segments.open_eq hscans hscan ?_ hwhole, ?_, hentries, ?_⟩
  · rw [List.length_append]
    exact Nat.le_add_right _ _
  · exact h.follow.last
  · have hread : read_segments crc32c limits.segment_bytes (d.applyAll (cutTail l.active
        (encodeAll crc32c l.current ++ tail)
        ⟨l.current, (encodeAll crc32c l.current).length, issue⟩ ++ [.create l.active])).segment_paths
          base = .ok (l.frames, false) := by
      rw [segment_paths_eq hentries h.six]
      apply read_segments_layout h.follow
      intro e he
      rcases List.mem_append.mp he with he | he
      · exact h.sizes e (List.mem_append_left _ he)
      · have hlast := h.sizes _ (List.mem_append_right _ (List.mem_singleton_self _))
        rw [List.mem_singleton.mp he, List.append_nil]
        rw [List.length_append] at hlast
        exact (Nat.le_add_right _ _).trans hlast
    have hfirst : ∀ f, l.frames.head? = some f → f.sequence = base + 1 := by
      intro f hf
      have hfollow := h.follow
      obtain ⟨rest, hrest⟩ := List.head?_eq_some_iff.mp hf
      rw [hrest] at hfollow
      exact hfollow.2.1
    obtain ⟨read, hok, hframes, -⟩ := read_from_base (s := openedAt limits base l.active
      (encodeAll crc32c l.current).length
      (filesSize (l.closed.map fun g => (g.1, encodeAll crc32c g.2)) +
        (encodeAll crc32c l.current).length) l.frames) hread hfirst h.follow.gt
    exact ⟨read, hok, hframes⟩

/-- Whatever follows the frames, a scan keeps exactly them, and so does `open` for the last segment.
It is only a header with a length above the limit that makes both of them fail. -/
theorem scan_keeps_the_valid_prefix (crc32c : List UInt8 → UInt32) :
    (∀ (p : Nat) (frames : List JournalFrame) (tail : List UInt8), Follow p frames →
      ¬ BeginsRecord crc32c tail → ((∃ issue : Option ScanIssue, (issue.isSome ↔ tail ≠ []) ∧
        scan_journal_bytes crc32c (encodeAll crc32c frames ++ tail) p =
          .ok ⟨frames, (encodeAll crc32c frames).length, issue⟩) ↔ ¬ BeginsOversized tail)) ∧
    (∀ (limits : JournalLimits) (d : Disk) (base : Nat) (l : Layout) (tail : List UInt8),
      Tailed crc32c limits d base l tail → ¬ BeginsRecord crc32c tail →
      ((∃ store ops, JournalStore.open crc32c d limits = .ok (store, ops) ∧
        store.latest_sequence = base + l.frames.length ∧
        (d.applyAll ops).segments.entries = l.entries crc32c [] ∧
        ∃ read, store.read_from crc32c (d.applyAll ops) base = .ok read ∧
          read.frames = l.frames) ↔ ¬ BeginsOversized tail)) := by
  constructor
  · intro p frames tail h htail
    rcases scan_with_tail h htail with ⟨hover, hscan⟩ | ⟨hover, hscan⟩
    · refine ⟨?_, fun hnot => absurd hover hnot⟩
      rintro ⟨issue, -, hok⟩
      rw [hscan] at hok
      cases hok
    · exact ⟨fun _ => hover, fun _ => hscan⟩
  · intro limits d base l tail h htail
    rcases open_with_tail h htail with ⟨hover, hopen⟩ | ⟨hover, hopen⟩
    · refine ⟨?_, fun hnot => absurd hover hnot⟩
      rintro ⟨store, ops, hok, -⟩
      rw [hopen] at hok
      cases hok
    · exact ⟨fun _ => hover, fun _ => hopen⟩

end

def halfFrame : List UInt8 := JOURNAL_MAGIC ++ List.replicate 20 0

/-- A header that claims 2^32 - 1 bytes of payload. -/
def oversizedHeader : List UInt8 :=
  JOURNAL_MAGIC ++ (beBytes 2 FORMAT_VERSION ++ (beBytes 2 1 ++ (beBytes 8 2 ++ (beBytes 8 0 ++
    (beBytes 4 4294967295 ++ beBytes 4 0))))) ++ [0, 0, 0, 0]

def firstFrame : JournalFrame := ⟨.Output, 1, 0, 0, [0x61]⟩

theorem follow_firstFrame : Follow 0 [firstFrame] :=
  ⟨⟨by decide, by decide, by decide⟩, rfl, trivial⟩

/-- A directory with one segment, in which some bytes follow the first frame. -/
def oneSegment (tail : List UInt8) : Disk where
  snapshot := none
  segments := ⟨[(1, encodeAll castagnoli [firstFrame] ++ tail)], List.pairwise_singleton _ _⟩
  recovery := none

theorem tailed_oneSegment {tail : List UInt8} (h : tail.length ≤ 100) :
    Tailed castagnoli .default (oneSegment tail) 0 ⟨[], 1, [firstFrame]⟩ tail where
  valid := rfl
  entries := rfl
  six := by decide
  snapshot := .inl ⟨rfl, rfl⟩
  sizes e he := by
    rw [List.mem_singleton.mp he, List.length_append, length_encodeAll]
    have hsize : totalSize [firstFrame] = 37 := rfl
    simp only [hsize]
    have hlimit : JournalLimits.default.segment_bytes = 67108864 := rfl
    omega
  follow := follow_firstFrame

theorem half_frame_is_cut : (∃ issue : Option ScanIssue, (issue.isSome ↔ halfFrame ≠ []) ∧
      scan_journal_bytes castagnoli (encodeAll castagnoli [firstFrame] ++ halfFrame) 0 =
        .ok ⟨[firstFrame], (encodeAll castagnoli [firstFrame]).length, issue⟩) ∧
    ∃ store ops, JournalStore.open castagnoli (oneSegment halfFrame) .default = .ok (store, ops) ∧
      store.latest_sequence = 1 := by
  obtain ⟨hscan, hopen⟩ := scan_keeps_the_valid_prefix castagnoli
  refine ⟨(hscan 0 [firstFrame] halfFrame follow_firstFrame (by decide)).mpr (by decide), ?_⟩
  obtain ⟨store, ops, hok, hlatest, -⟩ := (hopen .default (oneSegment halfFrame) 0 _ halfFrame
    (tailed_oneSegment (by decide)) (by decide)).mpr (by decide)
  exact ⟨store, ops, hok, hlatest⟩

/-- The length of the second record is damaged, and the first one is lost with it. -/
theorem damaged_length_fails_the_scan : ¬ BeginsRecord castagnoli oversizedHeader ∧
    scan_journal_bytes castagnoli (encodeAll castagnoli [firstFrame] ++ oversizedHeader) 0 =
      .error .FrameTooLarge ∧
    JournalStore.open castagnoli (oneSegment oversizedHeader) .default = .error .FrameTooLarge := by
  have hrecord : ¬ BeginsRecord castagnoli oversizedHeader := by decide
  have hover : BeginsOversized oversizedHeader := by decide
  refine ⟨hrecord, ?_, ?_⟩
  · rcases scan_with_tail follow_firstFrame hrecord with ⟨-, hscan⟩ | ⟨hnot, -⟩
    · exact hscan
    · exact absurd hover hnot
  · rcases open_with_tail (tailed_oneSegment (by decide)) hrecord with ⟨-, hopen⟩ | ⟨hnot, -⟩
    · exact hopen
    · exact absurd hover hnot

end multiplex_store.journal
