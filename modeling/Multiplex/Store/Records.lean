-- Segments with records of unknown kinds among the frames. A scan skips them and
-- counts them, but `open` and `read_from` go on from the last frame that the scan
-- gives back, so that a skipped record at the end of a segment is forgotten.
import Multiplex.Store.Openings

open Bytes

namespace multiplex_store.journal

/-- A scan takes the record for a frame or skips it. -/
def Record.Readable (r : Record) : Prop := r.frame? = none → r.flags &&& 1 ≠ 0

instance (r : Record) : Decidable r.Readable := inferInstanceAs (Decidable (_ → _))

/-- Records of any kinds that are numbered one after the other. -/
def FollowRecords : Nat → List Record → Prop
  | _, [] => True
  | previous, r :: records =>
    r.Fits ∧ r.Readable ∧ r.sequence = previous + 1 ∧ FollowRecords r.sequence records

/-- The frames among some records. -/
def known (records : List Record) : List JournalFrame := records.filterMap Record.frame?

/-- The last record, if there is one, is of a known kind. -/
def EndsKnown (records : List Record) : Prop := ∀ r, records.getLast? = some r → r.frame?.isSome

/-- The first record, if there is one, is of a known kind. -/
def BeginsKnown (records : List Record) : Prop := ∀ r, records.head? = some r → r.frame?.isSome

variable {r : Record} {p : Nat}

theorem frame?_sequence {f : JournalFrame} (h : r.frame? = some f) : f.sequence = r.sequence := by
  obtain ⟨kind, -, rfl⟩ := Option.map_eq_some_iff.mp h
  rfl

theorem followRecords_append {a b : List Record} :
    FollowRecords p (a ++ b) ↔ FollowRecords p a ∧ FollowRecords (p + a.length) b := by
  induction a generalizing p with
  | nil => simp [FollowRecords]
  | cons r a ih =>
    rw [List.cons_append, FollowRecords, FollowRecords, ih, List.length_cons]
    constructor
    · rintro ⟨hfits, hreadable, hnext, ha, hb⟩
      rw [hnext, show p + 1 + a.length = p + (a.length + 1) by omega] at hb
      exact ⟨⟨hfits, hreadable, hnext, ha⟩, hb⟩
    · rintro ⟨⟨hfits, hreadable, hnext, ha⟩, hb⟩
      rw [show p + (a.length + 1) = r.sequence + a.length by omega] at hb
      exact ⟨hfits, hreadable, hnext, ha, hb⟩

variable {records : List Record}

theorem FollowRecords.known_between (h : FollowRecords p records) :
    ∀ f ∈ known records, p < f.sequence ∧ f.sequence ≤ p + records.length := by
  induction records generalizing p with
  | nil => exact fun f hf => absurd hf List.not_mem_nil
  | cons r records ih =>
    obtain ⟨-, -, hnext, hrest⟩ := h
    intro f hf
    rw [List.length_cons]
    obtain ⟨x, hx, hframe⟩ := List.mem_filterMap.mp hf
    rcases List.mem_cons.mp hx with rfl | hx
    · have := frame?_sequence hframe
      omega
    · have := ih hrest f (List.mem_filterMap.mpr ⟨x, hx, hframe⟩)
      omega

theorem FollowRecords.last_number (h : FollowRecords p (records ++ [r])) :
    r.sequence = p + records.length + 1 := by
  rw [followRecords_append] at h
  exact h.2.2.2.1

theorem FollowRecords.last (h : FollowRecords p records) :
    (EndsKnown records → last_sequence (known records) p = p + records.length) ∧
      (¬ EndsKnown records → last_sequence (known records) p < p + records.length) := by
  rcases List.eq_nil_or_concat records with rfl | ⟨init, r, rfl⟩
  · refine ⟨fun _ => rfl, fun hnot => absurd ?_ hnot⟩
    exact fun r hr => by cases hr
  · rw [List.concat_eq_append] at h ⊢
    have hnumber := h.last_number
    have hlength : (init ++ [r]).length = init.length + 1 := by simp
    have hends : EndsKnown (init ++ [r]) ↔ r.frame?.isSome := by
      unfold EndsKnown
      simp
    rw [hends, hlength]
    unfold known
    rw [List.filterMap_append]
    cases hframe : r.frame? with
    | some f =>
      refine ⟨fun _ => ?_, fun hnot => absurd rfl hnot⟩
      have hsequence := frame?_sequence hframe
      rw [last_sequence_append]
      simp [last_sequence, hframe]
      omega
    | none =>
      refine ⟨fun hsome => by simp at hsome, fun _ => ?_⟩
      have hinit := (followRecords_append.mp h).1
      simp [hframe]
      unfold last_sequence
      cases hlast : (init.filterMap Record.frame?).getLast? with
      | none =>
        rw [Option.map_none, Option.getD_none]
        omega
      | some f =>
        have := (hinit.known_between f (List.mem_of_getLast? hlast)).2
        rw [Option.map_some, Option.getD_some]
        omega

/-! ## Whole segments -/

section
variable (crc32c : List UInt8 → UInt32)

def encodeRecords (records : List Record) : List UInt8 := records.flatMap (Record.bytes crc32c)

def encodeSegments (segments : List (Nat × List Record)) : List (Nat × List UInt8) :=
  segments.map fun g => (g.1, encodeRecords crc32c g.2)

theorem encodeRecords_cons (r : Record) (records : List Record) :
    encodeRecords crc32c (r :: records) = r.bytes crc32c ++ encodeRecords crc32c records := by
  unfold encodeRecords
  rw [List.flatMap_cons]

theorem record_bytes_ne (r : Record) (rest : List UInt8) : r.bytes crc32c ++ rest ≠ [] := by
  intro hnil
  have hlength := congrArg List.length hnil
  rw [List.length_append, length_record_bytes, List.length_nil] at hlength
  unfold Record.size JOURNAL_CHECKSUM_BYTES at hlength
  omega

variable {records : List Record}

theorem scan_loop_records : ∀ {p turns : Nat}, FollowRecords p records → records.length ≤ turns →
      scan_loop crc32c turns (encodeRecords crc32c records) p =
        .ok ⟨known records, (encodeRecords crc32c records).length, none⟩ := by
  induction records with
  | nil =>
    intro p turns _ _
    cases turns <;> rfl
  | cons r records ih =>
    intro p turns h hturns
    obtain ⟨hfits, hreadable, hnext, hrest⟩ := h
    have hlt : p < U64_MAX := by
      have := hfits.sequence
      omega
    cases turns with
    | zero =>
      rw [List.length_cons] at hturns
      omega
    | succ turns =>
      rw [List.length_cons, Nat.succ_le_succ_iff] at hturns
      rw [encodeRecords_cons, scan_loop_succ crc32c turns (record_bytes_ne crc32c r _),
        scan_frame_record crc32c hfits _ hlt, if_pos hnext]
      cases hframe : r.frame? with
      | none =>
        simp only [if_pos (hreadable hframe)]
        rw [List.drop_left' (length_record_bytes crc32c r), ih hrest hturns]
        simp [bind, Except.bind, pure, Except.pure, hframe, known]
      | some f =>
        simp only
        rw [List.drop_left' (length_record_bytes crc32c r), frame?_sequence hframe,
          ih hrest hturns]
        simp [bind, Except.bind, pure, Except.pure, hframe, known]

variable {p limit : Nat} {r : Record} {store : JournalStore} {ops : List FileOp}

theorem scan_records (h : FollowRecords p records) :
    scan_journal_bytes crc32c (encodeRecords crc32c records) p =
      .ok ⟨known records, (encodeRecords crc32c records).length, none⟩ := by
  apply scan_loop_records crc32c h
  clear h
  induction records generalizing p with
  | nil => exact Nat.zero_le _
  | cons r records ih =>
    have hpos := List.length_pos_iff.mpr (record_bytes_ne crc32c r [])
    rw [List.append_nil] at hpos
    rw [encodeRecords_cons, List.length_append, List.length_cons]
    have := ih (p := p)
    omega

theorem scan_behind (hfits : r.Fits) (hp : p + 1 < r.sequence) :
    scan_journal_bytes crc32c (encodeRecords crc32c (r :: records)) p =
      .ok ⟨[], 0, some .SequenceGap⟩ := by
  have hsequence := hfits.sequence
  have hnil := record_bytes_ne crc32c r (encodeRecords crc32c records)
  rw [encodeRecords_cons]
  unfold scan_journal_bytes
  obtain ⟨turns, hturns⟩ := Nat.exists_eq_add_one_of_ne_zero (List.length_pos_iff.mpr hnil).ne'
  rw [hturns, scan_loop_succ crc32c turns hnil,
    scan_frame_record crc32c hfits _ (by omega), if_neg (by omega)]

variable {crc32c}

theorem known_append (a b : List Record) : known (a ++ b) = known a ++ known b := by
  unfold known
  rw [List.filterMap_append]

theorem scans_records {segments : List (Nat × List Record)} :
    ∀ {p : Nat}, FollowRecords p (segments.flatMap Prod.snd) → (∀ g ∈ segments, EndsKnown g.2) →
      Scans crc32c p (encodeSegments crc32c segments) (known (segments.flatMap Prod.snd)) := by
  induction segments with
  | nil => exact fun _ _ => .nil _
  | cons g segments ih =>
    intro p h hends
    obtain ⟨hend, hends⟩ := List.forall_mem_cons.mp hends
    rw [List.flatMap_cons, followRecords_append] at h
    rw [List.flatMap_cons, known_append]
    refine .cons (scan_records crc32c h.1) (ih ?_ hends)
    rw [h.1.last.1 hend]
    exact h.2

/-! ## A directory of records -/

def recordsOf (segments : List (Nat × List Record)) : List Record := segments.flatMap Prod.snd

variable (crc32c) in
/-- A directory whose segments hold records that follow the snapshot, within the limits. -/
structure Recorded (limits : JournalLimits) (d : Disk) (base : Nat)
    (closed : List (Nat × List Record)) (active : Nat) (current : List Record) : Prop where
  valid : limits.validate = .ok limits
  entries : d.segments.entries = encodeSegments crc32c (closed ++ [(active, current)])
  six : active ≤ 999999
  snapshot : SnapshotAt crc32c d base
  sizes : ∀ e ∈ d.segments.entries, e.2.length ≤ limits.segment_bytes
  total : filesSize d.segments.entries ≤ limits.hard_bytes
  follow : FollowRecords base (recordsOf (closed ++ [(active, current)]))

variable {limits : JournalLimits} {d : Disk} {base active : Nat}
  {closed segments : List (Nat × List Record)} {current : List Record}

theorem encodeSegments_snoc (closed : List (Nat × List Record)) (active : Nat)
    (current : List Record) : encodeSegments crc32c (closed ++ [(active, current)]) =
      encodeSegments crc32c closed ++ [(active, encodeRecords crc32c current)] := by
  unfold encodeSegments
  rw [List.map_append, List.map_singleton]

theorem Recorded.toSegments (h : Recorded crc32c limits d base closed active current) :
    Segments crc32c limits d base (encodeSegments crc32c closed) active
      (encodeRecords crc32c current) :=
  ⟨h.valid, by rw [h.entries, encodeSegments_snoc], h.six, h.snapshot, h.sizes⟩

theorem filesSize_cons (e : Nat × List UInt8) (files : List (Nat × List UInt8)) :
    filesSize (e :: files) = e.2.length + filesSize files := by
  unfold filesSize
  rw [List.map_cons, List.sum_cons]

theorem latest_of_behind :
    ∀ {o o' : Opening} {q : Nat}, o.latest_sequence < q → FollowRecords q (recordsOf segments) →
      (∀ e ∈ encodeSegments crc32c segments, e.2.length ≤ limit) →
      o.total_bytes + filesSize (encodeSegments crc32c segments) ≤ U64_MAX →
      open_segments crc32c limit (encodeSegments crc32c segments) o = .ok o' →
      o'.latest_sequence = o.latest_sequence := by
  induction segments with
  | nil =>
    intro o o' q _ _ _ _ hopen
    cases hopen
    rfl
  | cons g segments ih =>
    obtain ⟨index, records⟩ := g
    intro o o' q hbehind hfollow hsizes htotal hopen
    have hcons : encodeSegments crc32c ((index, records) :: segments) =
      (index, encodeRecords crc32c records) :: encodeSegments crc32c segments := rfl
    rw [hcons] at hsizes htotal hopen
    rw [filesSize_cons] at htotal
    obtain ⟨hsize, hlater⟩ := List.forall_mem_cons.mp hsizes
    simp only at hsize htotal
    rw [open_segments_cons hsize (by omega)] at hopen
    unfold recordsOf at hfollow ih
    rw [List.flatMap_cons, followRecords_append] at hfollow
    cases records with
    | nil =>
      refine (ih ?_ hfollow.2 hlater ?_ hopen).trans rfl
      · exact hbehind.trans_le (Nat.le_add_right _ _)
      · unfold Opening.found
        simp only
        omega
    | cons r records =>
      obtain ⟨hfits, -, hnext, -⟩ := hfollow.1
      rw [scan_behind crc32c hfits (by omega)] at hopen
      split at hopen
      · cases hopen
        rfl
      · cases hopen
        rfl

/-- A loop that ends with the last number saw a known record at the end of each segment. -/
theorem ends_known_of_latest :
    ∀ {o o' : Opening}, FollowRecords o.latest_sequence (recordsOf segments) →
      (∀ e ∈ encodeSegments crc32c segments, e.2.length ≤ limit) →
      o.total_bytes + filesSize (encodeSegments crc32c segments) ≤ U64_MAX →
      open_segments crc32c limit (encodeSegments crc32c segments) o = .ok o' →
      o'.latest_sequence = o.latest_sequence + (recordsOf segments).length →
      ∀ g ∈ segments, EndsKnown g.2 := by
  induction segments with
  | nil => exact fun _ _ _ _ _ g hg => absurd hg List.not_mem_nil
  | cons g segments ih =>
    obtain ⟨index, records⟩ := g
    intro o o' hfollow hsizes htotal hopen hlatest
    have hcons : encodeSegments crc32c ((index, records) :: segments) =
      (index, encodeRecords crc32c records) :: encodeSegments crc32c segments := rfl
    rw [hcons] at hsizes htotal hopen
    rw [filesSize_cons] at htotal
    obtain ⟨hsize, hsizes⟩ := List.forall_mem_cons.mp hsizes
    simp only at hsize htotal
    rw [open_segments_cons hsize (by omega)] at hopen
    unfold recordsOf at hfollow hlatest ih
    rw [List.flatMap_cons, followRecords_append] at hfollow
    rw [List.flatMap_cons, List.length_append] at hlatest
    simp only at hfollow hlatest
    rw [scan_records crc32c hfollow.1] at hopen
    have hbytes : (o.found (encodeRecords crc32c records).length (known records)).total_bytes +
        filesSize (encodeSegments crc32c segments) ≤ U64_MAX := by
      unfold Opening.found
      simp only
      omega
    have hfound : (o.found (encodeRecords crc32c records).length (known records)).latest_sequence =
      last_sequence (known records) o.latest_sequence := rfl
    by_cases hend : EndsKnown records
    · have hnumber := hfollow.1.last.1 hend
      refine List.forall_mem_cons.mpr ⟨hend, ih ?_ hsizes hbytes hopen ?_⟩
      · rw [hfound, hnumber]
        exact hfollow.2
      · omega
    · have hless := hfollow.1.last.2 hend
      have hstays := latest_of_behind (by rw [hfound]; exact hless) hfollow.2 hsizes hbytes hopen
      omega

/-! ## The numbering -/

theorem open_latest (h : Segments crc32c limits d base (encodeSegments crc32c closed) active
      (encodeRecords crc32c current))
    (hopen : JournalStore.open crc32c d limits = .ok (store, ops)) :
    ∃ o, open_segments crc32c limits.segment_bytes
        (encodeSegments crc32c (closed ++ [(active, current)])) ⟨0, base, none, false, []⟩ = .ok o ∧
      store.latest_sequence = o.latest_sequence ∧ store.base_sequence = base := by
  obtain ⟨snapshot, hload, hbase⟩ := load_snapshot_at crc32c h.snapshot
  unfold JournalStore.open at hopen
  simp only [h.valid, hload, hbase, h.paths, ← encodeSegments_snoc, bind, Except.bind] at hopen
  cases hloop : open_segments crc32c limits.segment_bytes
      (encodeSegments crc32c (closed ++ [(active, current)])) ⟨0, base, none, false, []⟩ with
  | error code =>
    rw [hloop] at hopen
    cases hopen
  | ok o =>
    rw [hloop] at hopen
    cases hopen
    exact ⟨o, rfl, rfl, rfl⟩

theorem open_limits (hopen : JournalStore.open crc32c d limits = .ok (store, ops)) :
    store.limits = limits := by
  unfold JournalStore.open at hopen
  simp only [Checks.bind_ok_iff] at hopen
  obtain ⟨checked, hchecked, snapshot, -, o, -, hopen⟩ := hopen
  unfold JournalLimits.validate at hchecked
  split at hchecked
  · cases hchecked
  · cases hchecked
    cases hopen
    rfl

variable (crc32c) in
/-- The directory opens without a gap and with all of its bytes, in memory it has the number of the
last record, every frame is read, and the next frame has the next number. -/
def KeepsNumbers (limits : JournalLimits) (d : Disk) (base : Nat) (records : List Record) : Prop :=
  ∃ store ops, JournalStore.open crc32c d limits = .ok (store, ops) ∧ store.has_gap = false ∧
    (d.applyAll ops).segments = d.segments ∧
    store.latest_sequence = base + records.length ∧
    (∃ read, store.read_from crc32c (d.applyAll ops) base = .ok read ∧
      read.frames = known records ∧ read.has_gap = false) ∧
    (base + records.length < U64_MAX → ∀ frame : JournalFrame,
      (store.append crc32c (d.applyAll ops) frame).result =
          .error ⟨.Sequence, some (base + records.length + 1)⟩ ↔
        frame.sequence ≠ base + records.length + 1)

theorem append_sequence_iff (store : JournalStore) (d : Disk) (frame : JournalFrame)
    (hlt : store.latest_sequence < U64_MAX) : (store.append crc32c d frame).result =
        .error ⟨.Sequence, some (store.latest_sequence + 1)⟩ ↔
      frame.sequence ≠ store.latest_sequence + 1 := by
  unfold JournalStore.append
  rw [checked_next_eq hlt]
  simp only
  by_cases hne : frame.sequence ≠ store.latest_sequence + 1
  · rw [if_pos hne]
    exact ⟨fun _ => hne, fun _ => rfl⟩
  · refine ⟨fun h => ?_, fun h => absurd h hne⟩
    rw [if_neg hne] at h
    split at h
    · cases h
    split at h
    · cases h
    split at h
    · cases h
    split at h
    · cases h
    · cases h

theorem read_segments_records (h : Recorded crc32c limits d base closed active current)
    (hends : ∀ g ∈ closed ++ [(active, current)], EndsKnown g.2) {d' : Disk}
    (hsame : d'.segments = d.segments) :
    read_segments crc32c limits.segment_bytes d'.segment_paths base =
      .ok (known (recordsOf (closed ++ [(active, current)])), false) := by
  have hpaths := h.toSegments.paths
  unfold Disk.segment_paths at hpaths ⊢
  rw [hsame, hpaths, ← encodeSegments_snoc]
  apply read_segments_scans (scans_records h.follow hends)
  rw [← h.entries]
  exact h.sizes

/-- Where the first frame is not the first record, the frames cannot be read from the base on. -/
theorem read_from_late {s : JournalStore} {frames : List JournalFrame} {gap : Bool}
    {f : JournalFrame}
    (hread : read_segments crc32c s.limits.segment_bytes d.segment_paths s.base_sequence =
      .ok (frames, gap)) (hhead : frames.head? = some f) (hlate : s.base_sequence + 1 < f.sequence)
    (hlt : s.base_sequence < U64_MAX) :
    s.read_from crc32c d s.base_sequence = .error ⟨.HistoryUnavailable, some f.sequence⟩ := by
  unfold JournalStore.read_from
  rw [hread]
  simp only [Except.mapError, bind, Except.bind, hhead, Option.map_some, Option.some_or,
    Option.any_some, checked_next_eq hlt]
  rw [if_pos (.inr (decide_eq_true hlate))]

/-- After a first record that is skipped, the first frame comes late. -/
theorem known_late (h : FollowRecords p records) (hr : records.head? = some r)
    (hframe : r.frame? = none) : ∀ f ∈ known records, p + 1 < f.sequence := by
  obtain ⟨rest, rfl⟩ := List.head?_eq_some_iff.mp hr
  obtain ⟨-, -, hnext, hrest⟩ := h
  intro f hf
  unfold known at hf
  rw [List.filterMap_cons, hframe] at hf
  rw [← hnext]
  exact (hrest.known_between f hf).1

/-- Where each segment ends with a frame, there are frames if there are records. -/
theorem known_ne_nil (hends : ∀ g ∈ segments, EndsKnown g.2) (hne : recordsOf segments ≠ []) :
    known (recordsOf segments) ≠ [] := by
  obtain ⟨r, hr⟩ := List.exists_mem_of_ne_nil _ hne
  obtain ⟨g, hg, hmem⟩ := List.mem_flatMap.mp hr
  have hlast := List.getLast?_eq_some_getLast (List.ne_nil_of_mem hmem)
  obtain ⟨f, hf⟩ := Option.isSome_iff_exists.mp (hends g hg _ hlast)
  refine List.ne_nil_of_mem (a := f) (List.mem_filterMap.mpr ⟨_, ?_, hf⟩)
  exact List.mem_flatMap.mpr ⟨g, hg, List.mem_of_getLast? hlast⟩

theorem last_known (hfollow : FollowRecords base (recordsOf segments))
    (hends : ∀ g ∈ segments, EndsKnown g.2) :
    last_sequence (known (recordsOf segments)) base = base + (recordsOf segments).length := by
  apply hfollow.last.1
  intro r hr
  induction segments using List.reverseRecOn with
  | nil => cases hr
  | append_singleton segments g ih =>
    rw [List.forall_mem_append, List.forall_mem_singleton] at hends
    unfold recordsOf at hr hfollow ih
    rw [List.flatMap_append, List.flatMap_singleton] at hr hfollow
    rw [List.getLast?_append] at hr
    cases hlast : g.2.getLast? with
    | some r' =>
      rw [hlast] at hr
      cases hr
      exact hends.2 r hlast
    | none =>
      rw [hlast, Option.none_or] at hr
      exact ih (followRecords_append.mp hfollow).1 hends.1 hr

theorem filesSize_snoc (closed : List (Nat × List Record)) (active : Nat) (current : List Record) :
    filesSize (encodeSegments crc32c (closed ++ [(active, current)])) =
      filesSize (encodeSegments crc32c closed) + (encodeRecords crc32c current).length := by
  rw [encodeSegments_snoc]
  unfold filesSize
  rw [List.map_append, List.sum_append, List.map_singleton, List.sum_singleton]

section
variable (h : Recorded crc32c limits d base closed active current)
  (hkeeps : KeepsNumbers crc32c limits d base (recordsOf (closed ++ [(active, current)])))
include h hkeeps

theorem ends_known_of_keeps : ∀ g ∈ closed ++ [(active, current)], EndsKnown g.2 := by
  obtain ⟨store, ops, hopen, -, -, hlatest, -⟩ := hkeeps
  obtain ⟨o, hloop, hnumber, -⟩ := open_latest h.toSegments hopen
  have htotal := h.toSegments.total
  refine ends_known_of_latest h.follow ?_ ?_ hloop (hnumber.symm.trans hlatest)
  · rw [← h.entries]
    exact h.sizes
  · rw [filesSize_snoc]
    simp only
    omega

theorem begins_known_of_keeps : BeginsKnown (recordsOf (closed ++ [(active, current)])) := by
  have hends := ends_known_of_keeps h hkeeps
  have hfollow := h.follow
  obtain ⟨store, ops, hopen, -, hsame, -, ⟨read, hread, -⟩, -⟩ := hkeeps
  obtain ⟨-, -, -, hbase⟩ := open_latest h.toSegments hopen
  intro r hr
  by_contra hunknown
  rw [Option.not_isSome_iff_eq_none] at hunknown
  have hlimits : store.limits = limits := open_limits hopen
  have hsegments : read_segments crc32c store.limits.segment_bytes (d.applyAll ops).segment_paths
      store.base_sequence = .ok (known (recordsOf (closed ++ [(active, current)])), false) := by
    rw [hlimits, hbase]
    exact read_segments_records h hends hsame
  have hne : recordsOf (closed ++ [(active, current)]) ≠ [] := by
    intro hnil
    rw [hnil] at hr
    cases hr
  obtain ⟨g, hg⟩ := Option.isSome_iff_exists.mp (List.isSome_head?.mpr (known_ne_nil hends hne))
  have hlate := known_late hfollow hr hunknown g (List.mem_of_head? hg)
  have hmax : base < U64_MAX := by
    obtain ⟨rest, hrest⟩ := List.head?_eq_some_iff.mp hr
    rw [hrest] at hfollow
    have := hfollow.1.sequence
    have := hfollow.2.2.1
    omega
  have herror := read_from_late hsegments hg (by rw [hbase]; exact hlate) (by rw [hbase]; exact hmax)
  rw [hbase] at herror
  exact absurd (herror.symm.trans hread) (by simp)

end

theorem known_first (h : FollowRecords p records) (hbegins : BeginsKnown records) :
    ∀ f, (known records).head? = some f → f.sequence = p + 1 := by
  intro f hf
  cases records with
  | nil => cases hf
  | cons r records =>
    obtain ⟨g, hg⟩ := Option.isSome_iff_exists.mp (hbegins r rfl)
    unfold known at hf
    rw [List.filterMap_cons, hg] at hf
    cases hf
    exact (frame?_sequence hg).trans h.2.2.1

theorem keeps_of_known (h : Recorded crc32c limits d base closed active current)
    (hends : ∀ g ∈ closed ++ [(active, current)], EndsKnown g.2)
    (hbegins : BeginsKnown (recordsOf (closed ++ [(active, current)]))) :
    KeepsNumbers crc32c limits d base (recordsOf (closed ++ [(active, current)])) := by
  have hfollow := h.follow
  have hall : recordsOf (closed ++ [(active, current)]) = recordsOf closed ++ current := by
    unfold recordsOf
    rw [List.flatMap_append, List.flatMap_singleton]
  have hboth := hfollow
  rw [hall, followRecords_append] at hboth
  have hclosed : ∀ g ∈ closed, EndsKnown g.2 := fun g hg => hends g (List.mem_append_left _ hg)
  have hscans : Scans crc32c base (encodeSegments crc32c closed) (known (recordsOf closed)) :=
    scans_records hboth.1 hclosed
  have hscan := scan_records crc32c hboth.2
  rw [← last_known hboth.1 hclosed] at hscan
  have hopen := h.toSegments.open_eq hscans hscan le_rfl (fun _ => rfl)
  have hentries := entries_applyAll_cutTail h.toSegments.entries
    ⟨known current, (encodeRecords crc32c current).length, none⟩ (fun _ => rfl)
  simp [← h.toSegments.entries] at hentries
  have hsame := SortedMap.ext hentries
  have htotal := h.total
  rw [h.entries, filesSize_snoc] at htotal
  have hframes : known (recordsOf closed) ++ known current =
      known (recordsOf (closed ++ [(active, current)])) := by
    rw [hall, known_append]
  simp only [hframes] at hopen
  have hlatest := last_known hfollow hends
  refine ⟨_, _, hopen, ?_, hsame, hlatest, ?_, ?_⟩
  · exact decide_eq_false (not_lt.mpr htotal)
  · have hfirst := known_first hfollow hbegins
    obtain ⟨read, hread, hreads, hgap⟩ := read_from_base (s := openedAt limits base active
      (encodeRecords crc32c current).length (filesSize (encodeSegments crc32c closed) +
        (encodeRecords crc32c current).length) (known (recordsOf (closed ++ [(active, current)]))))
      (read_segments_records h hends hsame) hfirst fun f hf => (hfollow.known_between f hf).1
    refine ⟨read, hread, hreads, ?_⟩
    rw [hgap, Bool.or_false]
    exact decide_eq_false (not_lt.mpr htotal)
  · intro hlt frame
    rw [← hlatest] at hlt ⊢
    exact append_sequence_iff (openedAt limits base active _ _ _) _ frame hlt

/-- Records of unknown kinds keep their places in the numbering just where every segment ends with
a known one, and the first of all records is known as well. -/
theorem numbers_are_kept_iff (h : Recorded crc32c limits d base closed active current) :
    KeepsNumbers crc32c limits d base (recordsOf (closed ++ [(active, current)])) ↔
      (∀ g ∈ closed ++ [(active, current)], EndsKnown g.2) ∧
        BeginsKnown (recordsOf (closed ++ [(active, current)])) :=
  ⟨fun hkeeps => ⟨ends_known_of_keeps h hkeeps, begins_known_of_keeps h hkeeps⟩,
    fun ⟨hends, hbegins⟩ => keeps_of_known h hends hbegins⟩

end

/-! ## A record of a later version -/

/-- An output of one byte. -/
def outputRecord (sequence : Nat) : Record := ⟨1, sequence, 0, 0, [0x61]⟩

/-- A record of a kind that is not known, with the flag that it is not critical. -/
def laterRecord (sequence : Nat) : Record := ⟨99, sequence, 0, 1, []⟩

def oneRecorded (records : List Record) : Disk where
  snapshot := none
  segments := ⟨[(1, encodeRecords castagnoli records)], List.pairwise_singleton _ _⟩
  recovery := none

theorem recorded_one {records : List Record} (hfollow : FollowRecords 0 records)
    (hsize : (encodeRecords castagnoli records).length ≤ 1000) :
    Recorded castagnoli .default (oneRecorded records) 0 [] 1 records where
  valid := rfl
  entries := rfl
  six := by decide
  snapshot := .inl ⟨rfl, rfl⟩
  sizes e he := by
    rw [List.mem_singleton.mp he]
    exact hsize.trans (by decide)
  total := by
    exact hsize.trans (by decide)
  follow := by
    unfold recordsOf
    rw [List.nil_append, List.flatMap_singleton]
    exact hfollow

theorem fits_small {r : Record} (hpositive : r.sequence ≠ 0) (hsequence : r.sequence ≤ 100)
    (hpayload : r.payload.length ≤ 100) : r.Fits := by
  refine ⟨hsequence.trans (by decide), hpositive, ?_⟩
  unfold Record.size JOURNAL_HEADER_BYTES JOURNAL_CHECKSUM_BYTES MAX_JOURNAL_FRAME_BYTES
  omega

theorem later_record_between_outputs : KeepsNumbers castagnoli .default
      (oneRecorded [outputRecord 1, laterRecord 2, outputRecord 3]) 0
      [outputRecord 1, laterRecord 2, outputRecord 3] := by
  have hfollow : FollowRecords 0 [outputRecord 1, laterRecord 2, outputRecord 3] := by
    refine ⟨fits_small ?_ ?_ ?_, ?_, rfl, fits_small ?_ ?_ ?_, ?_, rfl, fits_small ?_ ?_ ?_, ?_, rfl,
      trivial⟩
    all_goals decide
  refine (numbers_are_kept_iff (recorded_one hfollow (by decide +kernel))).mpr ⟨?_, ?_⟩
  · intro g hg r hr
    rw [List.mem_singleton.mp hg] at hr
    cases hr
    decide
  · intro r hr
    cases hr
    decide

/-- The number of a skipped record at the end is given out again. -/
theorem later_record_at_the_end_is_forgotten :
    Recorded castagnoli .default (oneRecorded [outputRecord 1, laterRecord 2]) 0 [] 1
      [outputRecord 1, laterRecord 2] ∧
    ¬ KeepsNumbers castagnoli .default (oneRecorded [outputRecord 1, laterRecord 2]) 0
      [outputRecord 1, laterRecord 2] := by
  have hfollow : FollowRecords 0 [outputRecord 1, laterRecord 2] := by
    refine ⟨fits_small ?_ ?_ ?_, ?_, rfl, fits_small ?_ ?_ ?_, ?_, rfl, trivial⟩
    all_goals decide
  have hrecorded := recorded_one hfollow (by decide +kernel)
  refine ⟨hrecorded, fun hkeeps => ?_⟩
  have hends := ends_known_of_keeps hrecorded hkeeps _ (List.mem_singleton_self _)
  exact absurd (hends _ rfl) (by decide)

end multiplex_store.journal
