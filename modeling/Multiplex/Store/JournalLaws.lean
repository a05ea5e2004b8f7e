-- What the journal keeps. A layout says which frames each segment holds. The
-- files are the encoded layout, the store counts it, and every operation turns
-- one layout into another.
import Multiplex.Store.Journal

open Bytes Checks

namespace multiplex_store.journal

/-! ## Frames in a row -/

def totalSize (frames : List JournalFrame) : Nat := (frames.map JournalFrame.size).sum

@[simp] theorem totalSize_nil : totalSize [] = 0 := rfl

@[simp] theorem totalSize_cons (f : JournalFrame) (frames : List JournalFrame) :
    totalSize (f :: frames) = f.size + totalSize frames := rfl

@[simp] theorem totalSize_append (a b : List JournalFrame) :
    totalSize (a ++ b) = totalSize a + totalSize b := by
  simp [totalSize]

@[simp] theorem length_encodeAll (crc32c : List UInt8 → UInt32) (frames : List JournalFrame) :
    (encodeAll crc32c frames).length = totalSize frames := by
  induction frames with
  | nil => rfl
  | cons f frames ih =>
    unfold encodeAll at ih ⊢
    rw [List.flatMap_cons, List.length_append, length_bytes, ih]
    rfl

theorem encodeAll_append (crc32c : List UInt8 → UInt32) (a b : List JournalFrame) :
    encodeAll crc32c (a ++ b) = encodeAll crc32c a ++ encodeAll crc32c b := by
  unfold encodeAll
  rw [List.flatMap_append]

theorem totalSize_pos {frames : List JournalFrame} (h : frames ≠ []) : 0 < totalSize frames := by
  cases frames with
  | nil => exact absurd rfl h
  | cons f frames =>
    have := size_pos f
    rw [totalSize_cons]
    omega

variable {p : Nat}

theorem follow_cons {f : JournalFrame} {frames : List JournalFrame} :
    Follow p (f :: frames) ↔ f.Fits ∧ f.sequence = p + 1 ∧ Follow f.sequence frames := Iff.rfl

theorem follow_append {a b : List JournalFrame} :
    Follow p (a ++ b) ↔ Follow p a ∧ Follow (p + a.length) b := by
  induction a generalizing p with
  | nil => simp [Follow]
  | cons f a ih =>
    rw [List.cons_append, follow_cons, follow_cons, ih, List.length_cons]
    constructor
    · rintro ⟨hfits, hnext, ha, hb⟩
      rw [hnext, show p + 1 + a.length = p + (a.length + 1) by omega] at hb
      exact ⟨⟨hfits, hnext, ha⟩, hb⟩
    · rintro ⟨⟨hfits, hnext, ha⟩, hb⟩
      rw [show p + (a.length + 1) = f.sequence + a.length by omega] at hb
      exact ⟨hfits, hnext, ha, hb⟩

theorem Follow.gt {frames : List JournalFrame} (h : Follow p frames) :
    ∀ f ∈ frames, p < f.sequence := by
  induction frames generalizing p with
  | nil => exact fun f hf => absurd hf List.not_mem_nil
  | cons f frames ih =>
    obtain ⟨-, hnext, hrest⟩ := h
    intro g hg
    rcases List.mem_cons.mp hg with rfl | hg
    · omega
    · have := ih hrest g hg
      omega

theorem Follow.fits {previous : Nat} {frames : List JournalFrame} (h : Follow previous frames) :
    ∀ f ∈ frames, f.Fits := by
  induction frames generalizing previous with
  | nil => exact fun f hf => absurd hf List.not_mem_nil
  | cons f frames ih => exact List.forall_mem_cons.mpr ⟨h.1, ih h.2.2⟩

variable {n : Nat}

theorem Follow.drop {frames : List JournalFrame} (h : Follow p frames) (hn : n ≤ frames.length) :
    Follow (p + n) (frames.drop n) := by
  rw [← List.take_append_drop n frames, follow_append, List.length_take,
    Nat.min_eq_left hn] at h
  exact h.2

theorem Follow.last {frames : List JournalFrame} (h : Follow p frames) :
    last_sequence frames p = p + frames.length := by
  rcases List.eq_nil_or_concat frames with rfl | ⟨init, f, rfl⟩
  · rfl
  · rw [List.concat_eq_append, follow_append] at h
    unfold last_sequence
    rw [List.concat_eq_append, List.getLast?_append_of_ne_nil _ (List.cons_ne_nil _ _),
      List.length_append]
    exact h.2.2.1

theorem Follow.filter_gt {frames : List JournalFrame} (h : Follow p frames) (hn : p ≤ n) :
    (frames.filter fun f => decide (f.sequence > n)) = frames.drop (n - p) := by
  induction frames generalizing p with
  | nil => simp
  | cons f frames ih =>
    by_cases hpn : p = n
    · rw [hpn, Nat.sub_self, List.drop_zero, List.filter_eq_self]
      intro g hg
      exact decide_eq_true (hpn ▸ h.gt g hg)
    · obtain ⟨-, hnext, hrest⟩ := h
      have hle : ¬ decide (f.sequence > n) = true := by
        rw [decide_eq_true_eq]
        omega
      rw [List.filter_cons, if_neg hle, ih hrest (by omega),
        show n - p = (n - f.sequence) + 1 by omega, List.drop_succ_cons]

theorem Follow.takeWhile_gt {frames : List JournalFrame} (h : Follow p frames) (hn : p ≤ n) :
    (frames.reverse.takeWhile fun f => decide (f.sequence > n)).reverse = frames.drop (n - p) := by
  rw [← h.filter_gt hn]
  induction frames using List.reverseRecOn with
  | nil => rfl
  | append_singleton frames f ih =>
    obtain ⟨hframes, -, hnext, -⟩ := follow_append.mp h
    rw [List.reverse_append, List.reverse_singleton, List.singleton_append, List.filter_append,
      List.takeWhile_cons, List.filter_cons, List.filter_nil]
    by_cases hgt : f.sequence > n
    · rw [if_pos (decide_eq_true hgt), if_pos (decide_eq_true hgt), List.reverse_cons, ih hframes]
    · rw [if_neg (by simpa using hgt), if_neg (by simpa using hgt), List.reverse_nil,
        List.append_nil, hframes.filter_gt hn, List.drop_eq_nil_of_le (by omega)]

/-! ## Layouts -/

/-- The frames of each segment. New frames go to the active one. -/
structure Layout where
  closed : List (Nat × List JournalFrame)
  active : Nat
  current : List JournalFrame

def Layout.frames (l : Layout) : List JournalFrame := l.closed.flatMap Prod.snd ++ l.current

def Layout.push (l : Layout) (f : JournalFrame) : Layout := { l with current := l.current ++ [f] }

/-- The active segment is closed, and a new one begins. -/
def Layout.rotate (l : Layout) : Layout := ⟨l.closed ++ [(l.active, l.current)], l.active + 1, []⟩

@[simp] theorem frames_push (l : Layout) (f : JournalFrame) : (l.push f).frames = l.frames ++ [f] :=
  (List.append_assoc _ _ _).symm

@[simp] theorem frames_rotate (l : Layout) : l.rotate.frames = l.frames := by
  unfold Layout.frames Layout.rotate
  rw [List.flatMap_append, List.flatMap_singleton, List.append_nil]

section
variable (crc32c : List UInt8 → UInt32)

/-- The files of a layout, where some bytes may follow the last frame. -/
def Layout.entries (l : Layout) (tail : List UInt8) : List (Nat × List UInt8) :=
  l.closed.map (fun g => (g.1, encodeAll crc32c g.2)) ++
    [(l.active, encodeAll crc32c l.current ++ tail)]

/-- Nothing, or a part of a frame. -/
def Torn (tail : List UInt8) : Prop :=
  tail = [] ∨ ∃ (f : JournalFrame) (n : Nat), f.Fits ∧ 0 < n ∧ n < f.size ∧
    tail = (f.bytes crc32c).take n

variable {l : Layout} {d : Disk} {limits : JournalLimits} {tail : List UInt8} {s : JournalStore}
  {closed : List (Nat × List JournalFrame)} {turn : List FileOp} {base segment_bytes : Nat}
  {f : JournalFrame}

theorem scan_tail {frames : List JournalFrame} {previous : Nat} (h : Follow previous frames)
    (htail : Torn crc32c tail) :
    scan_journal_bytes crc32c (encodeAll crc32c frames ++ tail) previous =
      .ok ⟨frames, totalSize frames, if tail = [] then none else some .TornTail⟩ := by
  rcases htail with rfl | ⟨f, n, hf, hpos, hn, rfl⟩
  · rw [List.append_nil, scan_encodeAll crc32c h, length_encodeAll, if_pos rfl]
  · rw [scan_torn crc32c h hf hpos hn, length_encodeAll, if_neg]
    intro hnil
    have := congrArg List.length hnil
    rw [List.length_take, length_bytes, List.length_nil] at this
    omega

/-- The snapshot on disk, if any, ends at `base`. -/
def SnapshotAt (d : Disk) (base : Nat) : Prop :=
  (base = 0 ∧ d.snapshot = none) ∨
    ∃ snapshot : TerminalSnapshot, snapshot.Fits ∧ snapshot.boundary = base ∧
      d.snapshot = some (snapshot.bytes crc32c)

variable {s' : JournalStore} {l' : Layout} {rest : List (Nat × List UInt8)}
  {snapshot : TerminalSnapshot} {active : Nat}

theorem load_snapshot_bytes (hfits : snapshot.Fits)
    (h : d.snapshot = some (snapshot.bytes crc32c)) :
    load_snapshot crc32c d = .ok (some snapshot) := by
  have hsize := hfits.size
  unfold load_snapshot
  rw [h]
  simp only
  rw [if_neg (by rw [length_snapshot]; omega), decode_encode_snapshot crc32c hfits]
  rfl

theorem load_snapshot_at (h : SnapshotAt crc32c d base) :
    ∃ snapshot, load_snapshot crc32c d = .ok snapshot ∧
      (snapshot.map TerminalSnapshot.boundary).getD 0 = base := by
  rcases h with ⟨rfl, hnone⟩ | ⟨snapshot, hfits, hbase, hsome⟩
  · unfold load_snapshot
    rw [hnone]
    exact ⟨none, rfl, rfl⟩
  · exact ⟨some snapshot, load_snapshot_bytes crc32c hfits hsome, hbase⟩

/-- The files hold a layout from `base` on, within the limits. -/
structure Stored (limits : JournalLimits) (d : Disk) (base : Nat) (l : Layout)
    (tail : List UInt8) : Prop where
  entries : d.segments.entries = l.entries crc32c tail
  follow : Follow base l.frames
  snapshot : SnapshotAt crc32c d base
  six : l.active ≤ 999999
  sizes : ∀ e ∈ l.entries crc32c tail, e.2.length ≤ limits.segment_bytes
  total : totalSize l.frames + tail.length ≤ limits.hard_bytes
  filled : ∀ g ∈ l.closed, g.2 ≠ []

variable {crc32c}

theorem segment_paths_layout (h : d.segments.entries = l.entries crc32c tail)
    (hsix : l.active ≤ 999999) : d.segment_paths = l.entries crc32c tail := by
  unfold Disk.segment_paths
  have hbelow := SortedMap.lt_last h
  rw [h, List.filter_eq_self]
  intro e he
  rw [decide_eq_true_eq]
  rcases List.mem_append.mp he with he | he
  · exact (hbelow e he).le.trans hsix
  · rw [List.mem_singleton.mp he]
    exact hsix

theorem Stored.segment_paths (h : Stored crc32c limits d base l tail) :
    d.segment_paths = l.entries crc32c tail := segment_paths_layout h.entries h.six

theorem no_next (h : d.segments.entries = l.entries crc32c tail) :
    ∀ e ∈ d.segments.entries, e.1 < l.active + 1 := by
  have hbelow := SortedMap.lt_last h
  intro e he
  rw [h] at he
  rcases List.mem_append.mp he with he | he
  · exact Nat.lt_succ_of_lt (hbelow e he)
  · rw [List.mem_singleton.mp he]
    exact Nat.lt_succ_self _

theorem get?_next (h : d.segments.entries = l.entries crc32c tail) :
    d.segments.get? (l.active + 1) = none := by
  rw [SortedMap.get?_eq_none_iff]
  intro bytes hmem
  exact absurd (no_next h _ hmem) (lt_irrefl _)

/-! ### Reading the segments -/

theorem read_regular_bounded_ok {bytes : List UInt8} {limit : Nat} (h : bytes.length ≤ limit) :
    read_regular_bounded bytes limit = .ok bytes := if_neg (not_lt.mpr h)

theorem read_segments_layout {current : List JournalFrame} :
    ∀ {expected : Nat}, Follow expected (closed.flatMap Prod.snd ++ current) →
      (∀ e ∈ Layout.entries crc32c ⟨closed, active, current⟩ [], e.2.length ≤ segment_bytes) →
      read_segments crc32c segment_bytes (Layout.entries crc32c ⟨closed, active, current⟩ []) expected =
        .ok (closed.flatMap Prod.snd ++ current, false) := by
  induction closed with
  | nil =>
    intro expected h hsizes
    have hsize := hsizes _ (List.mem_singleton_self _)
    have hscan := scan_tail crc32c h (.inl rfl)
    change read_segments crc32c segment_bytes [(active, encodeAll crc32c current ++ [])] expected = _
    rw [read_segments, read_regular_bounded_ok hsize]
    simp only [bind, Except.bind]
    rw [List.flatMap_nil, List.nil_append] at hscan ⊢
    rw [hscan]
    simp [read_segments, pure, Except.pure]
  | cons g closed ih =>
    intro expected h hsizes
    rw [List.flatMap_cons, List.append_assoc, follow_append] at h
    have hsize := hsizes _ List.mem_cons_self
    have hscan := scan_encodeAll crc32c h.1
    have hafter := h.2
    rw [← h.1.last] at hafter
    have hrest := ih hafter
      fun e he => hsizes e (List.mem_cons_of_mem _ he)
    change read_segments crc32c segment_bytes ((g.1, encodeAll crc32c g.2) ::
      Layout.entries crc32c ⟨closed, active, current⟩ []) expected = _
    rw [read_segments, read_regular_bounded_ok hsize]
    simp only [bind, Except.bind]
    rw [hscan]
    simp
    rw [hrest]
    simp [pure, Except.pure]

/-- What `open` cuts off the last segment. -/
def cutOps (crc32c : List UInt8 → UInt32) (l : Layout) (tail : List UInt8) : List FileOp :=
  if tail = [] then []
  else preserve_and_truncate_tail l.active (encodeAll crc32c l.current ++ tail) (totalSize l.current)

theorem open_segments_layout {current : List JournalFrame} (htail : Torn crc32c tail) :
    ∀ {o : Opening}, Follow o.latest_sequence (closed.flatMap Prod.snd ++ current) → o.ops = [] →
      (∀ e ∈ Layout.entries crc32c ⟨closed, active, current⟩ tail, e.2.length ≤ segment_bytes) →
      o.total_bytes + totalSize (closed.flatMap Prod.snd ++ current) + tail.length ≤ U64_MAX →
      open_segments crc32c segment_bytes (Layout.entries crc32c ⟨closed, active, current⟩ tail) o =
        .ok
          { total_bytes := o.total_bytes + totalSize (closed.flatMap Prod.snd ++ current)
            latest_sequence :=
              o.latest_sequence + (closed.flatMap Prod.snd ++ current).length
            earliest_sequence := o.earliest_sequence.or
              ((closed.flatMap Prod.snd ++ current).head?.map JournalFrame.sequence)
            has_gap := o.has_gap
            ops := cutOps crc32c ⟨closed, active, current⟩ tail } := by
  induction closed with
  | nil =>
    intro o h hops hsizes htotal
    have hsize := hsizes _ (List.mem_singleton_self _)
    rw [List.flatMap_nil, List.nil_append] at h htotal ⊢
    have hscan := scan_tail crc32c h htail
    have hlen : (encodeAll crc32c current ++ tail).length = totalSize current + tail.length := by
      rw [List.length_append, length_encodeAll]
    change open_segments crc32c segment_bytes [(active, encodeAll crc32c current ++ tail)] o = _
    rw [open_segments, read_regular_bounded_ok hsize]
    simp only [bind, Except.bind]
    rw [show refuseIf JournalErrorCode.ResourceLimit
      (o.total_bytes + (encodeAll crc32c current ++ tail).length > U64_MAX) = .ok () from
        if_neg (by rw [hlen]; omega), hscan]
    simp only [h.last, hlen]
    unfold cutOps
    by_cases hnil : tail = []
    · simp [hnil, open_segments, hops]
    · simp only [hnil, if_false, Option.isSome_some, if_true, pure, Except.pure]
      rw [show o.total_bytes + (totalSize current + tail.length) -
        (totalSize current + tail.length - totalSize current) = o.total_bytes + totalSize current by
          omega]
  | cons g closed ih =>
    intro o h hops hsizes htotal
    rw [List.flatMap_cons, List.append_assoc] at h htotal ⊢
    rw [follow_append] at h
    rw [totalSize_append] at htotal ⊢
    have hsize := hsizes _ List.mem_cons_self
    have hscan := scan_encodeAll crc32c h.1
    change open_segments crc32c segment_bytes ((g.1, encodeAll crc32c g.2) ::
      Layout.entries crc32c ⟨closed, active, current⟩ tail) o = _
    rw [open_segments, read_regular_bounded_ok hsize]
    simp only [bind, Except.bind]
    rw [show refuseIf JournalErrorCode.ResourceLimit
      (o.total_bytes + (encodeAll crc32c g.2).length > U64_MAX) = .ok () from
        if_neg (by rw [length_encodeAll]; omega), hscan]
    simp only [Option.isSome_none, Bool.false_eq_true, if_false, h.1.last, length_encodeAll]
    refine (ih ?_ ?_ (fun e he => hsizes e (List.mem_cons_of_mem _ he)) ?_).trans ?_
    · exact h.2
    · exact hops
    · change o.total_bytes + totalSize g.2 + totalSize _ + tail.length ≤ U64_MAX
      omega
    · have hhead : ∀ a b : List JournalFrame, (a ++ b).head?.map JournalFrame.sequence =
          (a.head?.map JournalFrame.sequence).or (b.head?.map JournalFrame.sequence) := by
        intro a b
        cases a <;> simp
      simp only [hhead g.2, List.length_append, Option.or_assoc, Nat.add_assoc]
      rfl

/-! ## Files that change -/

theorem validate_ok (h : limits.validate = .ok limits) :
    MAX_JOURNAL_FRAME_BYTES ≤ limits.segment_bytes ∧ limits.segment_bytes ≤ limits.hard_bytes ∧
      limits.hard_bytes ≤ DEFAULT_JOURNAL_BYTES ∧ 1 ≤ limits.retained_segments ∧
      limits.retained_segments ≤ DEFAULT_RETAINED_SEGMENTS := by
  unfold JournalLimits.validate at h
  split at h
  · cases h
  · rename_i hok
    simp at hok
    exact hok

theorem entries_tail_ne :
    (l.push f).entries crc32c tail = l.entries crc32c (f.bytes crc32c ++ tail) := by
  unfold Layout.entries Layout.push
  rw [encodeAll_append]
  unfold encodeAll
  rw [List.flatMap_singleton, List.append_assoc]

theorem apply_append (h : d.segments.entries = l.entries crc32c []) (bytes : List UInt8) :
    (d.apply (.append l.active bytes)).segments.entries = l.entries crc32c bytes := by
  have hget := SortedMap.get?_last h
  unfold Disk.apply
  simp only
  rw [hget, Option.getD_some, List.append_nil]
  exact SortedMap.entries_insert_last h

theorem apply_create (h : d.segments.entries = l.entries crc32c []) :
    (d.apply (.create (l.active + 1))).segments.entries = l.rotate.entries crc32c [] := by
  unfold Disk.apply
  simp only
  rw [get?_next h, Option.getD_none, SortedMap.entries_insert_new (no_next h), h]
  unfold Layout.entries Layout.rotate encodeAll
  simp

theorem SnapshotAt.of_eq {d' : Disk} (h : SnapshotAt crc32c d base)
    (heq : d'.snapshot = d.snapshot) : SnapshotAt crc32c d' base := by
  unfold SnapshotAt
  rw [heq]
  exact h

section
variable (h : Stored crc32c limits d base l [])
include h

theorem Stored.create (hcurrent : l.current ≠ []) (hsix : l.active + 1 ≤ 999999) :
    Stored crc32c limits (d.apply (.create (l.active + 1))) base l.rotate [] := by
  refine ⟨apply_create h.entries, ?_, h.snapshot.of_eq rfl, hsix, ?_, ?_, ?_⟩
  · rw [frames_rotate]
    exact h.follow
  · intro e he
    rcases List.mem_append.mp he with hclosed | hactive
    · refine h.sizes e ?_
      unfold Layout.entries Layout.rotate at *
      simp only [List.map_append, List.map_cons, List.map_nil, List.append_nil] at hclosed ⊢
      exact hclosed
    · rw [List.mem_singleton.mp hactive]
      exact Nat.zero_le _
  · rw [frames_rotate]
    exact h.total
  · intro g hg
    rcases List.mem_append.mp hg with hg | hg
    · exact h.filled g hg
    · rw [List.mem_singleton.mp hg]
      exact hcurrent

theorem Stored.append (hf : f.Fits) (hnext : f.sequence = base + l.frames.length + 1)
    (hsegment : totalSize l.current + f.size ≤ limits.segment_bytes)
    (htotal : totalSize l.frames + f.size ≤ limits.hard_bytes) :
    Stored crc32c limits (d.apply (.append l.active (f.bytes crc32c))) base (l.push f) [] ∧
      ∀ n < f.size, Torn crc32c ((f.bytes crc32c).take n) ∧
        Stored crc32c limits (d.apply (.append l.active ((f.bytes crc32c).take n))) base l
          ((f.bytes crc32c).take n) := by
  have hclosed : ∀ bytes, bytes.length ≤ f.size → ∀ e ∈ l.entries crc32c bytes,
      e.2.length ≤ limits.segment_bytes := by
    intro bytes hbytes e he
    rcases List.mem_append.mp he with he | he
    · exact h.sizes e (List.mem_append_left _ he)
    · rw [List.mem_singleton.mp he, List.length_append, length_encodeAll]
      omega
  refine ⟨⟨?_, ?_, h.snapshot.of_eq rfl, h.six, ?_, ?_, h.filled⟩, ?_⟩
  · rw [apply_append h.entries, entries_tail_ne, List.append_nil]
  · rw [frames_push, follow_append]
    exact ⟨h.follow, hf, hnext, trivial⟩
  · rw [entries_tail_ne, List.append_nil]
    exact hclosed _ (length_bytes crc32c f).le
  · rw [frames_push, totalSize_append, totalSize_cons, totalSize_nil, List.length_nil]
    omega
  · intro n hn
    have hlen : ((f.bytes crc32c).take n).length = n := by
      rw [List.length_take, length_bytes]
      omega
    refine ⟨?_, ⟨apply_append h.entries _, h.follow, h.snapshot.of_eq rfl, h.six, ?_, ?_, h.filled⟩⟩
    · rcases Nat.eq_zero_or_pos n with rfl | hpos
      · exact .inl (List.take_zero)
      · exact .inr ⟨f, n, hf, hpos, hn, rfl⟩
    · exact hclosed _ (by omega)
    · omega

theorem Stored.create_active : Stored crc32c limits (d.apply (.create l.active)) base l [] := by
  refine ⟨?_, h.follow, h.snapshot.of_eq rfl, h.six, h.sizes, h.total, h.filled⟩
  unfold Disk.apply
  simp only
  rw [SortedMap.get?_last h.entries, Option.getD_some]
  exact SortedMap.entries_insert_last h.entries

end

theorem Stored.cut (h : Stored crc32c limits d base l tail) :
    Stored crc32c limits (d.applyAll (cutOps crc32c l tail)) base l [] := by
  have hset : ∀ d' : Disk, d'.segments = d.segments →
      (d'.apply (.set_len l.active (totalSize l.current))).segments.entries =
        l.entries crc32c [] := by
    intro d' h'
    unfold Disk.apply
    simp only
    rw [h', SortedMap.get?_last h.entries, Option.getD_some,
      List.take_left' (length_encodeAll crc32c l.current), SortedMap.entries_insert_last h.entries]
    unfold Layout.entries
    rw [List.append_nil]
  have hentries : (d.applyAll (cutOps crc32c l tail)).segments.entries = l.entries crc32c [] := by
    unfold Disk.applyAll cutOps
    split
    · rename_i hnil
      change d.segments.entries = _
      rw [h.entries, hnil]
    · unfold preserve_and_truncate_tail
      simp only
      split
      · exact hset d rfl
      · exact hset _ rfl
  have hsnapshot : (d.applyAll (cutOps crc32c l tail)).snapshot = d.snapshot := by
    unfold Disk.applyAll cutOps preserve_and_truncate_tail
    simp only
    split
    · rfl
    · split <;> rfl
  refine ⟨hentries, h.follow, h.snapshot.of_eq hsnapshot, h.six, ?_, ?_, h.filled⟩
  · intro e he
    rcases List.mem_append.mp he with he | he
    · exact h.sizes e (List.mem_append_left _ he)
    · have hlast := h.sizes _ (List.mem_append_right _ (List.mem_singleton_self _))
      rw [List.mem_singleton.mp he]
      change (encodeAll crc32c l.current ++ []).length ≤ limits.segment_bytes
      rw [List.append_nil]
      rw [List.length_append] at hlast
      omega
  · have := h.total
    rw [List.length_nil]
    omega

theorem applyAll_append (d : Disk) (a b : List FileOp) :
    d.applyAll (a ++ b) = (d.applyAll a).applyAll b := List.foldl_append

theorem Stored.reopen (h : Stored crc32c limits d base l tail) :
    Stored crc32c limits (d.applyAll (cutOps crc32c l tail ++ [.create l.active])) base l [] := by
  rw [applyAll_append]
  exact h.cut.create_active

/-! ## The store in memory -/

/-- The store counts the layout, and its live frames are the last ones. -/
structure Mirrors (s : JournalStore) (l : Layout) : Prop where
  valid : s.limits.validate = .ok s.limits
  index : s.active_index = l.active
  active_bytes : s.active_bytes = totalSize l.current
  total_bytes : s.total_bytes = totalSize l.frames
  latest : s.latest_sequence = s.base_sequence + l.frames.length
  earliest : s.earliest_sequence =
    (l.frames.head?.map JournalFrame.sequence).or (nonzero s.base_sequence)
  no_gap : s.has_gap = false
  base_le_live : s.base_sequence ≤ s.live_boundary
  live_le : s.live_boundary ≤ s.latest_sequence
  live : s.live_frames = l.frames.drop (s.live_boundary - s.base_sequence)
  live_bytes : s.live_bytes = totalSize s.live_frames

def opened (limits : JournalLimits) (base : Nat) (l : Layout) : JournalStore where
  limits
  active_index := l.active
  active_bytes := totalSize l.current
  total_bytes := totalSize l.frames
  latest_sequence := base + l.frames.length
  earliest_sequence := (l.frames.head?.map JournalFrame.sequence).or (nonzero base)
  base_sequence := base
  recording_paused := decide (totalSize l.frames ≥ limits.hard_bytes)
  has_gap := false
  live_frames := []
  live_bytes := 0
  live_boundary := base + l.frames.length

section
variable (hvalid : limits.validate = .ok limits)
include hvalid

theorem mirrors_opened (base : Nat) (l : Layout) : Mirrors (opened limits base l) l := by
  refine ⟨hvalid, rfl, rfl, rfl, rfl, rfl, rfl, Nat.le_add_right _ _, le_rfl, ?_, rfl⟩
  change [] = l.frames.drop (base + l.frames.length - base)
  rw [Nat.add_sub_cancel_left, List.drop_length]

theorem open_stored (h : Stored crc32c limits d base l tail) (htail : Torn crc32c tail) :
    JournalStore.open crc32c d limits =
      .ok (opened limits base l, cutOps crc32c l tail ++ [.create l.active]) := by
  obtain ⟨snapshot, hload, hbase⟩ := load_snapshot_at crc32c h.snapshot
  obtain ⟨-, -, hhard, -, -⟩ := validate_ok hvalid
  have htotal := h.total
  have hU64 : totalSize l.frames + tail.length ≤ U64_MAX := by
    unfold DEFAULT_JOURNAL_BYTES at hhard
    unfold U64_MAX
    omega
  have hsegments : open_segments crc32c limits.segment_bytes d.segment_paths
      ⟨0, base, none, false, []⟩ = .ok ⟨0 + totalSize l.frames, base + l.frames.length,
        none.or (l.frames.head?.map JournalFrame.sequence), false, cutOps crc32c l tail⟩ := by
    rw [h.segment_paths]
    exact open_segments_layout htail h.follow rfl h.sizes (by rw [Nat.zero_add]; exact hU64)
  have hlast : (d.segment_paths.getLast?.map Prod.fst).getD 1 = l.active := by
    rw [h.segment_paths]
    unfold Layout.entries
    rw [List.getLast?_append_of_ne_nil _ (List.cons_ne_nil _ _)]
    rfl
  have hactive : (((d.applyAll (cutOps crc32c l tail ++ [.create l.active])).segments.get?
      l.active).getD []).length = totalSize l.current := by
    rw [SortedMap.get?_last h.reopen.entries, Option.getD_some, List.append_nil, length_encodeAll]
  unfold JournalStore.open
  simp only [hvalid, hload, hbase, hsegments, hlast, bind, Except.bind, hactive]
  simp
  rw [decide_eq_false (by omega : ¬ totalSize l.frames > limits.hard_bytes)]
  rfl

theorem open_fresh (hsegments : d.segments.entries = []) (hsnapshot : d.snapshot = none) :
    JournalStore.open crc32c d limits = .ok (opened limits 0 ⟨[], 1, []⟩, [.create 1]) ∧
      Stored crc32c limits (d.applyAll [.create 1]) 0 ⟨[], 1, []⟩ [] := by
  obtain ⟨hframe, hsegment, hhard, -, -⟩ := validate_ok hvalid
  have hpaths : d.segment_paths = [] := by
    unfold Disk.segment_paths
    rw [hsegments]
    rfl
  have hentries : (d.applyAll [.create 1]).segments.entries = [(1, [])] := by
    have hnone : d.segments.get? 1 = none := by
      unfold SortedMap.get?
      rw [hsegments]
      rfl
    have hbelow : ∀ e ∈ d.segments.entries, e.1 < 1 := by
      rw [hsegments]
      exact fun e he => absurd he List.not_mem_nil
    change (d.segments.insert 1 _).entries = _
    rw [hnone, SortedMap.entries_insert_new hbelow, hsegments]
    rfl
  constructor
  · unfold JournalStore.open load_snapshot
    have hget : (d.applyAll [.create 1]).segments.get? 1 = some [] :=
      SortedMap.get?_last (l := []) hentries
    have hzero : ¬ (0 ≥ limits.hard_bytes) := by
      unfold MAX_JOURNAL_FRAME_BYTES at hframe
      omega
    simp only [hvalid, hsnapshot, hpaths, open_segments, bind, Except.bind, Option.map_none,
      Option.getD_none, List.getLast?_nil, List.nil_append, hget, Option.getD_some]
    unfold opened
    simp [Layout.frames, hzero]
  · refine ⟨hentries, trivial, .inl ⟨rfl, hsnapshot⟩, by decide, ?_, Nat.zero_le _, ?_⟩
    · intro e he
      rw [List.mem_singleton.mp he]
      exact Nat.zero_le _
    · exact fun g hg => absurd hg List.not_mem_nil

end

section
variable (hm : Mirrors s l) (h : Stored crc32c s.limits d s.base_sequence l []) (from_ : Nat)
include hm h

theorem read_from_stored : s.read_from crc32c d from_ =
      if from_ < s.base_sequence then .error ⟨.HistoryUnavailable, s.earliest_sequence⟩
      else .ok ⟨s.earliest_sequence, s.sequence_bounds.2,
        l.frames.drop (from_ - s.base_sequence), false⟩ := by
  have hread : read_segments crc32c s.limits.segment_bytes d.segment_paths s.base_sequence =
      .ok (l.frames, false) := by
    rw [h.segment_paths]
    exact read_segments_layout h.follow h.sizes
  have hlatest : (l.frames.getLast?.map JournalFrame.sequence).or (nonzero s.base_sequence) =
      s.sequence_bounds.2 := by
    unfold JournalStore.sequence_bounds nonzero
    have hlast := h.follow.last
    unfold last_sequence at hlast
    rw [hm.latest]
    cases hl : l.frames.getLast? with
    | none =>
      have hnil := List.getLast?_eq_none_iff.mp hl
      rw [hnil]
      rfl
    | some f =>
      rw [hl] at hlast
      have hne : l.frames ≠ [] := by
        intro hnil
        rw [hnil] at hl
        cases hl
      have := List.length_pos_iff.mpr hne
      simp only [Option.map_some, Option.some_or, Option.getD_some] at hlast ⊢
      rw [hlast, if_pos (by omega)]
  have hbound : from_ < s.base_sequence ∨ (s.earliest_sequence.any fun earliest =>
      (checked_next from_).any fun requested => decide (requested < earliest)) = true ↔
        from_ < s.base_sequence := by
    refine ⟨?_, .inl⟩
    rintro (hlt | hany)
    · exact hlt
    · rw [hm.earliest, Option.any_eq_true] at hany
      obtain ⟨earliest, hearliest, hany⟩ := hany
      rw [Option.any_eq_true] at hany
      obtain ⟨requested, hrequested, hlt⟩ := hany
      obtain ⟨-, rfl⟩ := checked_next_some hrequested
      rw [decide_eq_true_eq] at hlt
      -- the first frame has the number after the base
      have hle : earliest ≤ s.base_sequence + 1 := by
        have hfollow := h.follow
        cases hframes : l.frames with
        | nil =>
          rw [hframes] at hearliest
          unfold nonzero at hearliest
          split at hearliest
          · cases hearliest
            omega
          · cases hearliest
        | cons f frames =>
          rw [hframes] at hearliest hfollow
          cases hearliest
          exact hfollow.2.1.le
      omega
  unfold JournalStore.read_from
  rw [hread]
  simp [Except.mapError, bind, Except.bind, hm.no_gap, hlatest, ← hm.earliest]
  by_cases hlt : from_ < s.base_sequence
  · rw [if_pos (hbound.mpr hlt), if_pos hlt]
  · rw [if_neg (fun hbad => hlt (hbound.mp hbad)), if_neg hlt, h.follow.filter_gt (not_lt.mp hlt)]

theorem read_live_from_stored :
    (s.read_live_from crc32c d from_).map (fun read => (read.frames, read.latest)) =
      (s.read_from crc32c d from_).map fun read => (read.frames, read.latest) := by
  have hlive := hm.base_le_live
  have hle := hm.live_le
  have hlatest := hm.latest
  unfold JournalStore.read_live_from
  split
  · rfl
  · rename_i hbelow
    simp [hm.no_gap] at hbelow
    rw [read_from_stored hm h, if_neg (not_lt.mpr hbelow.2)]
    have hfollow : Follow s.live_boundary s.live_frames := by
      have := h.follow.drop (n := s.live_boundary - s.base_sequence) (by omega)
      rw [← hm.live, Nat.add_sub_cancel' hlive] at this
      exact this
    rw [hfollow.takeWhile_gt hbelow.1, hm.live, List.drop_drop,
      show s.live_boundary - s.base_sequence + (from_ - s.live_boundary) = from_ - s.base_sequence by
        omega]
    rfl

end

/-! ## Append -/

/-- The store after its active segment was closed. -/
def JournalStore.turned (s : JournalStore) (paused : Bool) : JournalStore :=
  { s with active_index := s.active_index + 1, active_bytes := 0, recording_paused := paused }

theorem rotate_layout (hm : Mirrors s l) (h : d.segments.entries = l.entries crc32c [])
    (hsix : l.active ≤ 999999) :
    ∃ paused, s.rotate d = .ok (s.turned paused, [.create (l.active + 1)]) ∧
      (l.active + 1 ≤ 999999 → paused = (s.recording_paused ||
        decide (l.closed.length + 2 > s.limits.retained_segments))) := by
  have hindex : ¬ s.active_index ≥ U32_MAX := by
    rw [hm.index]
    unfold U32_MAX
    omega
  have hfree : d.segments.contains (s.active_index + 1) = false := by
    unfold SortedMap.contains
    rw [hm.index, get?_next h]
    rfl
  unfold JournalStore.rotate
  rw [if_neg hindex, hfree]
  simp only [Bool.false_eq_true, if_false, hm.index]
  refine ⟨_, by unfold JournalStore.turned; rw [hm.index], ?_⟩
  intro hnext
  rw [segment_paths_layout (apply_create h) hnext]
  unfold Layout.entries Layout.rotate
  simp

theorem mirrors_turned (hm : Mirrors s l) (paused : Bool) : Mirrors (s.turned paused) l.rotate := by
  refine ⟨hm.valid, congrArg (· + 1) hm.index, rfl, ?_, ?_, ?_, hm.no_gap, hm.base_le_live,
    hm.live_le, ?_, hm.live_bytes⟩
  · rw [frames_rotate]
    exact hm.total_bytes
  · rw [frames_rotate]
    exact hm.latest
  · rw [frames_rotate]
    exact hm.earliest
  · rw [frames_rotate]
    exact hm.live

/-- The live frames are trimmed from the front, and their boundary moves along. -/
theorem trim_live_eq {frames : List JournalFrame} : ∀ {boundary : Nat}, Follow boundary frames →
      ∃ k ≤ frames.length, trim_live frames (totalSize frames) boundary =
        (frames.drop k, totalSize (frames.drop k), boundary + k) := by
  induction frames with
  | nil => exact fun _ => ⟨0, le_rfl, rfl⟩
  | cons f frames ih =>
    intro boundary h
    obtain ⟨-, hnext, hrest⟩ := h
    unfold trim_live
    split
    · obtain ⟨k, hk, heq⟩ := ih hrest
      refine ⟨k + 1, Nat.succ_le_succ hk, ?_⟩
      rw [totalSize_cons, Nat.add_sub_cancel_left, heq, hnext, List.drop_succ_cons, Nat.add_assoc,
        Nat.add_comm 1 k]
    · exact ⟨0, Nat.zero_le _, rfl⟩

theorem mirrors_record (hm : Mirrors s l) (hfollow : Follow s.base_sequence (l.push f).frames) :
    Mirrors (s.record f f.size) (l.push f) := by
  have hbase := hm.base_le_live
  have hlive_le := hm.live_le
  have hlatest := hm.latest
  rw [frames_push] at hfollow
  have hnext : f.sequence = s.base_sequence + l.frames.length + 1 := (follow_append.mp hfollow).2.2.1
  have hframes : s.live_frames ++ [f] =
      (l.frames ++ [f]).drop (s.live_boundary - s.base_sequence) := by
    rw [List.drop_append_of_le_length (by omega), hm.live]
  have htail : Follow s.live_boundary (s.live_frames ++ [f]) := by
    have hdrop := hfollow.drop (n := s.live_boundary - s.base_sequence)
      (by rw [List.length_append]; omega)
    rw [← hframes, Nat.add_sub_cancel' hbase] at hdrop
    exact hdrop
  have hbytes : s.live_bytes + f.size = totalSize (s.live_frames ++ [f]) := by
    rw [hm.live_bytes, totalSize_append, totalSize_cons, totalSize_nil, Nat.add_zero]
  obtain ⟨k, hk, htrim⟩ := trim_live_eq htail
  have hlength : (s.live_frames ++ [f]).length = s.latest_sequence - s.live_boundary + 1 := by
    rw [hframes, List.length_drop, List.length_append, List.length_singleton]
    omega
  unfold JournalStore.record
  rw [hbytes, htrim]
  refine ⟨hm.valid, hm.index, ?_, ?_, ?_, ?_, hm.no_gap, ?_, ?_, ?_, rfl⟩
  · change s.active_bytes + f.size = totalSize (l.current ++ [f])
    rw [hm.active_bytes, totalSize_append, totalSize_cons, totalSize_nil, Nat.add_zero]
  · rw [hm.total_bytes, frames_push, totalSize_append, totalSize_cons, totalSize_nil, Nat.add_zero]
  · rw [frames_push, List.length_append, List.length_singleton]
    omega
  · rw [hm.earliest, frames_push]
    cases hl : l.frames with
    | nil =>
      rw [hl, List.length_nil, Nat.add_zero] at hlatest
      rw [if_pos (.inr hlatest)]
      rfl
    | cons g frames =>
      rw [hl] at hlatest
      rw [if_neg]
      · rfl
      · rintro (hnone | heq)
        · cases hnone
        · rw [List.length_cons] at hlatest
          omega
  · change s.base_sequence ≤ s.live_boundary + k
    omega
  · change s.live_boundary + k ≤ f.sequence
    omega
  · rw [hframes, frames_push, List.drop_drop,
      show s.live_boundary - s.base_sequence + k = s.live_boundary + k - s.base_sequence by omega]

theorem append_cases (hm : Mirrors s l) (h : Stored crc32c s.limits d s.base_sequence l [])
    (f : JournalFrame) :
    ((s.append crc32c d f).ops = [] ∧ (s.append crc32c d f).result ≠ .ok .Recorded ∧
      ((s.append crc32c d f).store = s ∨
        (s.append crc32c d f).store = { s with recording_paused := true })) ∨
    ((s.append crc32c d f).result = .ok .Recorded ∧ f.Fits ∧
      f.sequence = s.base_sequence + l.frames.length + 1 ∧
      totalSize l.frames + f.size ≤ s.limits.hard_bytes ∧ s.recording_paused = false ∧
      (((s.append crc32c d f).ops = [.append l.active (f.bytes crc32c)] ∧
          (s.append crc32c d f).store = s.record f f.size ∧
          totalSize l.current + f.size ≤ s.limits.segment_bytes) ∨
        ∃ paused, l.current ≠ [] ∧ s.limits.segment_bytes < totalSize l.current + f.size ∧
          (s.append crc32c d f).ops =
            [.create (l.active + 1), .append (l.active + 1) (f.bytes crc32c)] ∧
          (s.append crc32c d f).store = (s.turned paused).record f f.size ∧
          (l.active + 1 ≤ 999999 →
            paused = decide (l.closed.length + 2 > s.limits.retained_segments)))) := by
  obtain ⟨hframe, -⟩ := validate_ok hm.valid
  unfold JournalStore.append
  split
  · exact .inl ⟨rfl, by simp, .inl rfl⟩
  rename_i expected hexpected
  obtain ⟨hmax, rfl⟩ := checked_next_some hexpected
  split
  · exact .inl ⟨rfl, by simp, .inl rfl⟩
  rename_i hsequence
  rw [not_not, hm.latest] at hsequence
  split
  · exact .inl ⟨rfl, by simp, .inl rfl⟩
  rename_i hpaused
  split
  · exact .inl ⟨rfl, by simp, .inl rfl⟩
  rename_i bytes hencode
  obtain ⟨rfl, hpositive, hsize⟩ := bytes_of_encode crc32c hencode
  have hfits : f.Fits := ⟨by rw [hsequence, ← hm.latest]; exact hmax, hpositive, hsize⟩
  rw [length_bytes]
  split
  · exact .inl ⟨rfl, by simp, .inr rfl⟩
  rename_i hhard
  rw [hm.total_bytes] at hhard
  rw [Bool.not_eq_true] at hpaused
  by_cases hturn : s.active_bytes > 0 ∧ s.active_bytes + f.size > s.limits.segment_bytes
  · obtain ⟨paused, hrotate, hcount⟩ := rotate_layout hm h.entries h.six
    rw [if_pos hturn, hrotate]
    rw [hm.active_bytes] at hturn
    have hcurrent : l.current ≠ [] := by
      intro hnil
      rw [hnil] at hturn
      exact absurd hturn.1 (lt_irrefl 0)
    refine .inr ⟨rfl, hfits, hsequence, not_lt.mp hhard, hpaused,
      .inr ⟨paused, hcurrent, hturn.2, ?_, rfl, ?_⟩⟩
    · change [FileOp.create (l.active + 1)] ++ [.append (s.active_index + 1) _] = _
      rw [hm.index]
      rfl
    · intro hsix
      rw [hcount hsix, hpaused, Bool.false_or]
  · rw [if_neg hturn]
    rw [hm.active_bytes] at hturn
    refine .inr ⟨rfl, hfits, hsequence, not_lt.mp hhard, hpaused, .inl ⟨?_, rfl, ?_⟩⟩
    · change [] ++ [FileOp.append s.active_index _] = _
      rw [hm.index]
      rfl
    · by_contra hlt
      rw [not_le] at hlt
      -- an empty segment holds any frame
      rcases Nat.eq_zero_or_pos (totalSize l.current) with hzero | hpos
      · omega
      · exact hturn ⟨hpos, hlt⟩

theorem append_stays (d : Disk) (hf : f.Fits) (hnext : f.sequence = s.latest_sequence + 1)
    (hpaused : s.recording_paused = false) (htotal : s.total_bytes + f.size ≤ s.limits.hard_bytes)
    (hroom : s.active_bytes = 0 ∨ s.active_bytes + f.size ≤ s.limits.segment_bytes) :
    s.append crc32c d f =
      ⟨s.record f f.size, [.append s.active_index (f.bytes crc32c)], .ok .Recorded⟩ := by
  have hlatest : s.latest_sequence < U64_MAX := by
    have := hf.sequence
    omega
  have hstays : ¬ (s.active_bytes > 0 ∧ s.active_bytes + f.size > s.limits.segment_bytes) := by
    omega
  unfold JournalStore.append
  rw [checked_next_eq hlatest]
  simp only
  rw [if_neg (not_not.mpr hnext), hpaused, encode_ok crc32c hf]
  simp only [Bool.false_eq_true, if_false]
  rw [length_bytes, if_neg (not_lt.mpr htotal), if_neg hstays]
  rfl

/-! ## Compact -/

/-- Every closed segment is read, found to end before the boundary, and removed. -/
theorem remove_segments_layout {boundary : Nat} (hrest : ∀ e ∈ rest, e.1 = active) :
    ∀ {previous total : Nat}, Follow previous (closed.flatMap Prod.snd) →
      (∀ g ∈ closed, g.2 ≠ [] ∧ totalSize g.2 ≤ segment_bytes ∧ g.1 ≠ active) →
      previous + (closed.flatMap Prod.snd).length ≤ boundary →
      remove_segments crc32c segment_bytes active boundary
          (closed.map (fun g => (g.1, encodeAll crc32c g.2)) ++ rest) previous total =
        (closed.map fun g => .remove g.1, total - totalSize (closed.flatMap Prod.snd), .ok ()) := by
  induction closed with
  | nil =>
    intro previous total _ _ _
    change remove_segments crc32c segment_bytes active boundary rest previous total =
      ([], total, .ok ())
    induction rest with
    | nil => rfl
    | cons e rest ih =>
      rw [remove_segments, if_pos (hrest e List.mem_cons_self)]
      exact ih fun e' he' => hrest e' (List.mem_cons_of_mem _ he')
  | cons g closed ih =>
    intro previous total h hclosed hboundary
    rw [List.flatMap_cons] at h hboundary ⊢
    rw [follow_append] at h
    rw [List.length_append] at hboundary
    obtain ⟨hne, hsize, hindex⟩ := hclosed g List.mem_cons_self
    have hscan := scan_encodeAll crc32c h.1
    have hlast : (g.2.getLast?.any fun frame => decide (frame.sequence ≤ boundary)) = true := by
      have hsequence := h.1.last
      unfold last_sequence at hsequence
      cases hl : g.2.getLast? with
      | none => exact absurd (List.getLast?_eq_none_iff.mp hl) hne
      | some f =>
        rw [hl] at hsequence
        simp at hsequence
        exact decide_eq_true (by omega)
    change remove_segments crc32c segment_bytes active boundary ((g.1, encodeAll crc32c g.2) ::
      (closed.map (fun g => (g.1, encodeAll crc32c g.2)) ++ rest)) previous total = _
    rw [remove_segments, if_neg hindex,
      read_regular_bounded_ok (by rw [length_encodeAll]; exact hsize)]
    simp only [bind, Except.bind, hscan, hlast, and_self, if_true, h.1.last, length_encodeAll]
    rw [ih h.2 (fun g' hg' => hclosed g' (List.mem_cons_of_mem _ hg')) (by omega), totalSize_append,
      Nat.sub_sub]
    rfl

theorem applyAll_remove :
    ∀ {d : Disk}, d.segments.entries = closed.map (fun g => (g.1, encodeAll crc32c g.2)) ++ rest →
      (d.applyAll (closed.map fun g => .remove g.1)).segments.entries = rest ∧
        (d.applyAll (closed.map fun g => .remove g.1)).snapshot = d.snapshot := by
  induction closed with
  | nil => exact fun h => ⟨h, rfl⟩
  | cons g closed ih =>
    intro d h
    have hrest : (d.apply (.remove g.1)).segments.entries =
        closed.map (fun g => (g.1, encodeAll crc32c g.2)) ++ rest :=
      SortedMap.entries_erase_first h
    exact ih hrest

/-- How `compact` leaves the active segment empty: it is, or a new one is made. -/
inductive Turns (s : JournalStore) (l : Layout) : List FileOp → JournalStore → Layout → Prop where
  | empty (current : l.current = []) : Turns s l [] s l
  | full (current : l.current ≠ []) (paused : Bool) :
      Turns s l [.create (l.active + 1)] (s.turned paused) l.rotate

section
variable (h : Turns s l turn s' l')
include h

theorem Turns.frames : l'.frames = l.frames := by
  cases h with
  | empty current => rfl
  | full current paused => exact frames_rotate l

theorem Turns.current : l'.current = [] := by
  cases h with
  | empty current => exact current
  | full current paused => rfl

theorem Turns.mirrors (hm : Mirrors s l) : Mirrors s' l' := by
  cases h with
  | empty current => exact hm
  | full current paused => exact mirrors_turned hm paused

theorem Turns.same :
    s'.limits = s.limits ∧ s'.base_sequence = s.base_sequence ∧
      s'.latest_sequence = s.latest_sequence := by
  cases h <;> exact ⟨rfl, rfl, rfl⟩

/-- The files after the turn, with the new snapshot already in place. -/
theorem Turns.entries (hd : d.segments.entries = l.entries crc32c []) :
    (d.applyAll turn).segments.entries = l'.entries crc32c [] ∧
      (d.applyAll turn).snapshot = d.snapshot := by
  cases h with
  | empty current => exact ⟨hd, rfl⟩
  | full current paused => exact ⟨apply_create hd, rfl⟩

/-- Every closed segment is of the files before, or is the one that was turned. -/
theorem Turns.closed_mem (hg : g ∈ l'.closed) :
    g ∈ l.closed ∨ l.current ≠ [] ∧ g = (l.active, l.current) := by
  cases h with
  | empty current => exact .inl hg
  | full current paused =>
    exact (List.mem_append.mp hg).imp_right fun hg => ⟨current, List.mem_singleton.mp hg⟩

theorem Turns.closed_frames : l'.closed.flatMap Prod.snd = l.frames := by
  rw [← h.frames]
  unfold Layout.frames
  rw [h.current, List.append_nil]

variable (hstored : Stored crc32c s.limits d s.base_sequence l [])
include hstored

theorem Turns.closed_le : ∀ g ∈ l'.closed, g.1 ≤ 999999 := by
  intro g hg
  rcases h.closed_mem hg with hg | ⟨-, rfl⟩
  · exact (SortedMap.lt_last hstored.entries _ (List.mem_map_of_mem hg)).le.trans hstored.six
  · exact hstored.six

theorem Turns.closed_filled (hg : g ∈ l'.closed) :
    g.2 ≠ [] ∧ totalSize g.2 ≤ s.limits.segment_bytes := by
  rw [← length_encodeAll crc32c]
  rcases h.closed_mem hg with hg | ⟨hcurrent, rfl⟩
  · exact ⟨hstored.filled g hg,
      hstored.sizes (g.1, encodeAll crc32c g.2) (List.mem_append_left _ (List.mem_map_of_mem hg))⟩
  · have hlast := hstored.sizes _ (List.mem_append_right _ (List.mem_singleton_self _))
    rw [List.append_nil] at hlast
    exact ⟨hcurrent, hlast⟩

/-- The segments that are read back. The active one may have a number that is not. -/
theorem Turns.segment_paths (bytes : List UInt8) :
    ((d.apply (.write_snapshot bytes)).applyAll turn).segment_paths =
      l'.closed.map (fun g => (g.1, encodeAll crc32c g.2)) ++
        [(l'.active, encodeAll crc32c l'.current ++ [])].filter fun e => decide (e.1 ≤ 999999) := by
  unfold Disk.segment_paths
  rw [(h.entries (d := d.apply (.write_snapshot bytes)) hstored.entries).1]
  unfold Layout.entries
  rw [List.filter_append]
  congr 1
  rw [List.filter_eq_self]
  intro e he
  obtain ⟨g, hg, rfl⟩ := List.mem_map.mp he
  exact decide_eq_true (h.closed_le hstored g hg)

theorem Turns.removes (hm : Mirrors s l) (bytes : List UInt8) :
    remove_segments crc32c s'.limits.segment_bytes s'.active_index s.latest_sequence
      (d.applyAll (.write_snapshot bytes :: turn)).segment_paths s'.base_sequence s'.total_bytes =
        (l'.closed.map fun g => .remove g.1, 0, .ok ()) := by
  obtain ⟨hlimits, hbase, -⟩ := h.same
  have hmirrors := h.mirrors hm
  have hrest : ∀ e ∈ ([(l'.active, encodeAll crc32c l'.current ++ [])].filter fun e =>
      decide (e.1 ≤ 999999)), e.1 = l'.active := by
    intro e he
    rw [List.mem_singleton.mp (List.mem_of_mem_filter he)]
  have hfollow : Follow s.base_sequence (l'.closed.flatMap Prod.snd) := by
    rw [h.closed_frames]
    exact hstored.follow
  have hclosed : ∀ g ∈ l'.closed, g.2 ≠ [] ∧ totalSize g.2 ≤ s.limits.segment_bytes ∧
      g.1 ≠ l'.active := by
    intro g hg
    obtain ⟨hfilled, hsize⟩ := h.closed_filled hstored hg
    have hbelow := SortedMap.lt_last (h.entries (d := d) hstored.entries).1
    exact ⟨hfilled, hsize, (hbelow _ (List.mem_map_of_mem hg)).ne⟩
  change remove_segments crc32c s'.limits.segment_bytes s'.active_index s.latest_sequence
    ((d.apply (.write_snapshot bytes)).applyAll turn).segment_paths s'.base_sequence
    s'.total_bytes = _
  rw [h.segment_paths hstored, hlimits, hmirrors.index, hbase,
    remove_segments_layout hrest hfollow hclosed, hmirrors.total_bytes, h.frames, h.closed_frames,
    Nat.sub_self]
  rw [h.closed_frames, hm.latest]

end

/-- An active segment that holds frames is turned, once the snapshot is in place. -/
theorem turns_before_removal (hm : Mirrors s l) (h : Stored crc32c s.limits d s.base_sequence l [])
    (bytes : List UInt8) : ∃ turn s' l', Turns s l turn s' l' ∧
      (if s.active_bytes > 0 then s.rotate (d.apply (.write_snapshot bytes)) else .ok (s, [])) =
        .ok (s', turn) := by
  by_cases hactive : s.active_bytes > 0
  · obtain ⟨paused, hrotate, -⟩ :=
      rotate_layout hm (d := d.apply (.write_snapshot bytes)) h.entries h.six
    rw [if_pos hactive, hrotate]
    refine ⟨_, _, _, .full ?_ paused, rfl⟩
    intro hnil
    rw [hm.active_bytes, hnil] at hactive
    exact absurd hactive (lt_irrefl 0)
  · rw [if_neg hactive]
    refine ⟨_, _, _, .empty ?_, rfl⟩
    by_contra hne
    have := totalSize_pos hne
    rw [hm.active_bytes] at hactive
    exact hactive this

theorem compact_cases (hm : Mirrors s l) (h : Stored crc32c s.limits d s.base_sequence l [])
    (hle : s.latest_sequence ≤ U64_MAX) (snapshot : TerminalSnapshot) :
    ((s.compact crc32c d snapshot).ops = [] ∧ (s.compact crc32c d snapshot).store = s ∧
      (∃ e, (s.compact crc32c d snapshot).result = .error e) ∧
      ¬ (snapshot.Fits ∧ snapshot.boundary = s.latest_sequence)) ∨
    ∃ turn s' l', Turns s l turn s' l' ∧ snapshot.Fits ∧ snapshot.boundary = s.latest_sequence ∧
      (s.compact crc32c d snapshot).result = .ok () ∧
      (s.compact crc32c d snapshot).ops = .write_snapshot (snapshot.bytes crc32c) :: turn ++
        l'.closed.map (fun g => .remove g.1) ∧
      (s.compact crc32c d snapshot).store = s'.restart s.latest_sequence 0 := by
  unfold JournalStore.compact
  split
  · rename_i hbad
    refine .inl ⟨rfl, rfl, ⟨_, rfl⟩, ?_⟩
    rintro ⟨hfits, hboundary⟩
    rcases hbad with hzero | hne | hcolumns | hrows
    · exact hfits.positive hzero
    · exact hne hboundary
    · exact hfits.columns hcolumns
    · exact hfits.rows hrows
  rename_i hok
  simp at hok
  split
  · rename_i code hencode
    refine .inl ⟨rfl, rfl, ⟨_, rfl⟩, ?_⟩
    rintro ⟨hfits, -⟩
    rw [encode_snapshot_ok crc32c hfits] at hencode
    cases hencode
  rename_i bytes hencode
  obtain ⟨hfits, rfl⟩ := fits_of_encode_snapshot crc32c hencode (hok.2.1.trans_le hle)
  simp only
  obtain ⟨turn, s', l', hturns, hrotated⟩ :=
    turns_before_removal hm h (snapshot.bytes crc32c)
  rw [hrotated]
  simp only
  rw [hok.2.1, hturns.removes h hm]
  exact .inr ⟨turn, s', l', hturns, hfits, rfl, rfl, rfl, rfl⟩

/-- The files after a whole compaction: the snapshot and one empty segment. -/
theorem stored_compacted (h : Stored crc32c s.limits d s.base_sequence l [])
    (hturns : Turns s l turn s' l') (hsix : l'.active ≤ 999999) (hfits : snapshot.Fits)
    (hboundary : snapshot.boundary = s.latest_sequence) :
    Stored crc32c s.limits (d.applyAll (.write_snapshot (snapshot.bytes crc32c) :: turn ++
      l'.closed.map (fun g => .remove g.1))) s.latest_sequence ⟨[], l'.active, []⟩ [] := by
  obtain ⟨hentries, hsnapshot⟩ := hturns.entries
    (d := d.apply (.write_snapshot (snapshot.bytes crc32c))) h.entries
  have hremoved := applyAll_remove
    (d := (d.apply (.write_snapshot (snapshot.bytes crc32c))).applyAll turn) hentries
  have hfold : d.applyAll (.write_snapshot (snapshot.bytes crc32c) :: turn ++
      l'.closed.map (fun g => .remove g.1)) =
        ((d.apply (.write_snapshot (snapshot.bytes crc32c))).applyAll turn).applyAll
          (l'.closed.map fun g => .remove g.1) := by
    rw [applyAll_append]
    rfl
  rw [hfold]
  refine ⟨?_, trivial, ?_, hsix, ?_, Nat.zero_le _, fun g hg => absurd hg List.not_mem_nil⟩
  · rw [hremoved.1, hturns.current]
    rfl
  · refine .inr ⟨snapshot, hfits, hboundary, ?_⟩
    rw [hremoved.2, hsnapshot]
    rfl
  · intro e he
    rw [List.mem_singleton.mp he]
    exact Nat.zero_le _

theorem mirrors_compacted (hm : Mirrors s l) (hturns : Turns s l turn s' l')
    (hpositive : s.latest_sequence ≠ 0) :
    Mirrors (s'.restart s.latest_sequence 0) ⟨[], l'.active, []⟩ := by
  obtain ⟨hlimits, hbase, hlatest⟩ := hturns.same
  have hmirrors := hturns.mirrors hm
  refine ⟨hmirrors.valid, hmirrors.index, ?_, rfl, hlatest, ?_, hmirrors.no_gap, le_rfl,
    hlatest.ge, ?_, rfl⟩
  · change s'.active_bytes = 0
    rw [hmirrors.active_bytes, hturns.current]
    rfl
  · change some s.latest_sequence = nonzero s.latest_sequence
    unfold nonzero
    rw [if_pos hpositive]
  · change [] = List.drop _ []
    rw [List.drop_nil]

end

end multiplex_store.journal
