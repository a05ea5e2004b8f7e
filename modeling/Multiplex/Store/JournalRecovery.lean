-- The files that a killed process leaves behind. `Recoverable` files are opened
-- with everything that was appended, and each call that is cut off leaves such
-- files again.
import Multiplex.Store.JournalSessions

open Bytes Checks

namespace multiplex_store.journal

section
variable (crc32c : List UInt8 → UInt32) (limits : JournalLimits)

/-! ## What the files must hold -/

/-- Every segment has a number of at most six digits. -/
def SixDigits (d : Disk) : Prop := ∀ e ∈ d.segments.entries, e.1 ≤ 999999

/-- A process that is killed in `compact` has not written its snapshot yet, or leaves one segment. -/
def Settled (m : Session) : Event → Prop
  | .crash (.compact snapshot) done part =>
    done = 0 ∨ (m.step crc32c limits (.crash (.compact snapshot) done part)).disk.segments.size ≤ 1 ∧
      m.history.length < U64_MAX
  | _ => True

def SettledRun (m : Session) : List Event → Prop
  | [] => True
  | event :: events =>
    Settled crc32c limits m event ∧ SettledRun (m.step crc32c limits event) events

/-- The files from which the history can be found again. -/
inductive Recoverable (d : Disk) (history : List JournalFrame) : Prop where
  | fresh (segments : d.segments.entries = []) (snapshot : d.snapshot = none)
      (nothing : history = [])
  | kept (base : Nat) (l : Layout) (tail : List UInt8) (stored : Stored crc32c limits d base l tail)
      (torn : Torn crc32c tail) (base_le : base ≤ history.length)
      (frames : l.frames = history.drop base)
  /-- The snapshot is there, and the one segment still holds what it covers. -/
  | covered (active previous : Nat) (current : List JournalFrame)
      (entries : d.segments.entries = [(active, encodeAll crc32c current)]) (nonempty : current ≠ [])
      (follow : Follow previous current) (ends : previous + current.length = history.length)
      (snapshot : SnapshotAt crc32c d history.length) (room : history.length < U64_MAX)
      (six : active ≤ 999999) (size : totalSize current ≤ limits.segment_bytes)
      (total : totalSize current ≤ limits.hard_bytes)

def FileOp.isAppend : FileOp → Bool
  | .append _ _ => true
  | _ => false

/-- A running process mirrors the files, and its frames are those of the history. -/
structure Alive (store : JournalStore) (d : Disk) (history : List JournalFrame) (l : Layout) :
    Prop where
  same_limits : store.limits = limits
  mirrors : Mirrors store l
  stored : Stored crc32c limits d store.base_sequence l []
  base_le : store.base_sequence ≤ history.length
  frames : l.frames = history.drop store.base_sequence

structure Safe (m : Session) : Prop where
  follow : Follow 0 m.history
  recoverable : Recoverable crc32c limits m.disk m.history
  alive : ∀ store, m.store = some store → ∃ l, Alive crc32c limits store m.disk m.history l

/-- What the changes of `open` leave, each of them made or not. -/
structure Opens (d : Disk) (history : List JournalFrame) (store : JournalStore) (ops : List FileOp)
    (l : Layout) : Prop where
  alive : Alive crc32c limits store (d.applyAll ops) history l
  paused : store.recording_paused = decide (store.total_bytes ≥ limits.hard_bytes)
  quiet : ∀ op ∈ ops, op.isAppend = false
  between : ∀ done, Recoverable crc32c limits (d.applyAll (ops.take done)) history

variable {crc32c limits}

variable {store : JournalStore} {d : Disk} {history : List JournalFrame} {l : Layout}

theorem Alive.latest (h : Alive crc32c limits store d history l) :
    store.latest_sequence = history.length := by
  have hbase := h.base_le
  rw [h.mirrors.latest, h.frames, List.length_drop]
  omega

theorem Alive.recoverable (h : Alive crc32c limits store d history l) :
    Recoverable crc32c limits d history :=
  .kept _ l [] h.stored (.inl rfl) h.base_le h.frames

theorem follow_length_le (h : Follow 0 history) : history.length ≤ U64_MAX := by
  rcases h.sequence_le with hle | rfl
  · omega
  · exact Nat.zero_le _

/-! ## Open -/

variable {base active : Nat} {current : List JournalFrame} {s' : JournalStore} {l' : Layout}

theorem mirrors_alive (hvalid : limits.validate = .ok limits) (h : Stored crc32c limits d base l [])
    (hbase : base ≤ history.length) (hframes : l.frames = history.drop base) :
    Alive crc32c limits (opened limits base l) d history l :=
  ⟨rfl, mirrors_opened hvalid base l, h, hbase, hframes⟩

theorem open_covered {previous : Nat} (hvalid : limits.validate = .ok limits)
    (hentries : d.segments.entries = [(active, encodeAll crc32c current)]) (hne : current ≠ [])
    (hfollow : Follow previous current) (hends : previous + current.length = base)
    (hsnapshot : SnapshotAt crc32c d base) (hroom : base < U64_MAX) (hsix : active ≤ 999999)
    (hsize : totalSize current ≤ limits.segment_bytes) :
    JournalStore.open crc32c d limits = .ok (opened limits base ⟨[], active, []⟩,
      preserve_and_truncate_tail active (encodeAll crc32c current) 0 ++ [.create active]) := by
  obtain ⟨snapshot, hload, hbase⟩ := load_snapshot_at crc32c hsnapshot
  obtain ⟨hframe, hsegment, hhard, -, -⟩ := validate_ok hvalid
  have hlen : (encodeAll crc32c current).length = totalSize current := length_encodeAll crc32c current
  have hpos := totalSize_pos hne
  have hpaths : d.segment_paths = [(active, encodeAll crc32c current)] := by
    unfold Disk.segment_paths
    rw [hentries, List.filter_cons, if_pos (decide_eq_true hsix), List.filter_nil]
  have hscan : scan_journal_bytes crc32c (encodeAll crc32c current) base =
      .ok ⟨[], 0, some .SequenceGap⟩ := by
    cases current with
    | nil => exact absurd rfl hne
    | cons f frames =>
      obtain ⟨hfits, hnext, -⟩ := hfollow
      rw [List.length_cons] at hends
      exact scan_stale crc32c hfits hroom (by omega)
  have hsegments : open_segments crc32c limits.segment_bytes d.segment_paths
      ⟨0, base, none, false, []⟩ = .ok ⟨0, base, none, false,
        preserve_and_truncate_tail active (encodeAll crc32c current) 0⟩ := by
    rw [hpaths, open_segments, read_regular_bounded_ok (hlen.trans_le hsize)]
    simp only [bind, Except.bind]
    rw [show refuseIf JournalErrorCode.ResourceLimit
      (0 + (encodeAll crc32c current).length > U64_MAX) = .ok () from if_neg (by
        unfold DEFAULT_JOURNAL_BYTES at hhard
        unfold U64_MAX
        omega), hscan]
    simp [last_sequence, pure, Except.pure]
  have hlast : (d.segment_paths.getLast?.map Prod.fst).getD 1 = active := by
    rw [hpaths]
    rfl
  have hactive : (d.applyAll (preserve_and_truncate_tail active (encodeAll crc32c current) 0 ++
      [.create active])).segments.get? active = some [] := by
    have hcreate : ∀ d' : Disk, ((d'.apply (.set_len active 0)).apply
        (.create active)).segments.get? active = some [] := by
      intro d'
      unfold Disk.apply
      simp
    unfold preserve_and_truncate_tail Disk.applyAll
    simp only
    split
    · exact hcreate d
    · exact hcreate _
  unfold JournalStore.open
  simp only [hvalid, hload, hbase, hsegments, hlast, bind, Except.bind, hactive]
  have hzero : ¬ (0 ≥ limits.hard_bytes) := by
    omega
  unfold opened
  simp [Layout.frames, hzero]

theorem recoverable_recovery (bytes : List UInt8) (h : Recoverable crc32c limits d history) :
    Recoverable crc32c limits (d.apply (.write_recovery bytes)) history := by
  cases h with
  | fresh segments snapshot nothing => exact .fresh segments snapshot nothing
  | kept base l tail stored torn base_le frames =>
    exact .kept base l tail ⟨stored.entries, stored.follow, stored.snapshot, stored.six,
      stored.sizes, stored.total, stored.filled⟩ torn base_le frames
  | covered active previous current entries nonempty follow ends snapshot room six size total =>
    exact .covered active previous current entries nonempty follow ends snapshot room six size total

/-- Changes other than writes of frames are made as a whole. -/
theorem cutShort_quiet {ops : List FileOp} (h : ∀ op ∈ ops, op.isAppend = false) (done part : Nat) :
    cutShort ops done part = ops.take done := by
  unfold cutShort
  split
  · rename_i index bytes hget
    have := h _ (List.mem_of_getElem? hget)
    cases this
  · rw [List.append_nil]

theorem opens_fresh (hvalid : limits.validate = .ok limits) (hsegments : d.segments.entries = [])
    (hsnapshot : d.snapshot = none) :
    Opens crc32c limits d [] (opened limits 0 ⟨[], 1, []⟩) [.create 1] ⟨[], 1, []⟩ := by
  obtain ⟨-, hstored⟩ := open_fresh hvalid hsegments hsnapshot
  have halive : Alive crc32c limits (opened limits 0 ⟨[], 1, []⟩) (d.applyAll [.create 1]) []
      ⟨[], 1, []⟩ := mirrors_alive hvalid hstored le_rfl rfl
  refine ⟨halive, rfl, ?_, ?_⟩
  · intro op hop
    rw [List.mem_singleton.mp hop]
    rfl
  · intro done
    cases done with
    | zero => exact .fresh hsegments hsnapshot rfl
    | succ done =>
      rw [List.take_succ_cons, List.take_nil]
      exact halive.recoverable

variable {bytes : List UInt8}

theorem opens_cut {valid : Nat} (hbefore : Recoverable crc32c limits d history)
    (hcut : Recoverable crc32c limits ((d.apply (.write_recovery bytes)).apply
      (.set_len active valid)) history)
    (halive : Alive crc32c limits store (d.applyAll [.write_recovery bytes, .set_len active valid,
      .create active]) history l)
    (hpaused : store.recording_paused = decide (store.total_bytes ≥ limits.hard_bytes)) :
    Opens crc32c limits d history store [.write_recovery bytes, .set_len active valid,
      .create active] l := by
  refine ⟨halive, hpaused, ?_, ?_⟩
  · intro op hop
    simp at hop
    rcases hop with rfl | rfl | rfl <;> rfl
  · intro done
    match done with
    | 0 => exact hbefore
    | 1 => exact recoverable_recovery bytes hbefore
    | 2 => exact hcut
    | done + 3 =>
      rw [List.take_succ_cons, List.take_succ_cons, List.take_succ_cons, List.take_nil]
      exact halive.recoverable

section
variable (hvalid : limits.validate = .ok limits)
include hvalid

theorem opens_kept {tail : List UInt8} (stored : Stored crc32c limits d base l tail)
    (torn : Torn crc32c tail) (base_le : base ≤ history.length)
    (frames : l.frames = history.drop base) :
    Opens crc32c limits d history (opened limits base l)
      (cutOps crc32c l tail ++ [.create l.active]) l := by
  have halive := mirrors_alive hvalid stored.reopen base_le frames
  have hbefore : Recoverable crc32c limits d history := .kept base l tail stored torn base_le frames
  have hcut : Recoverable crc32c limits (d.applyAll (cutOps crc32c l tail)) history :=
    .kept base l [] stored.cut (.inl rfl) base_le frames
  by_cases hnil : tail = []
  · have hops : cutOps crc32c l tail = [] := if_pos hnil
    rw [hops, List.nil_append] at halive ⊢
    refine ⟨halive, rfl, ?_, ?_⟩
    · intro op hop
      rw [List.mem_singleton.mp hop]
      rfl
    · intro done
      cases done with
      | zero => exact hbefore
      | succ done =>
        rw [List.take_succ_cons, List.take_nil]
        exact halive.recoverable
  · have hops : cutOps crc32c l tail = [.write_recovery (tail.take MAX_JOURNAL_FRAME_BYTES),
        .set_len l.active (totalSize l.current)] := by
      unfold cutOps preserve_and_truncate_tail
      simp only
      rw [if_neg hnil, List.drop_left' (length_encodeAll crc32c l.current), if_neg hnil]
      rfl
    rw [hops] at halive hcut ⊢
    exact opens_cut hbefore hcut halive rfl

theorem opens_covered {previous : Nat}
    (entries : d.segments.entries = [(active, encodeAll crc32c current)]) (nonempty : current ≠ [])
    (follow : Follow previous current) (ends : previous + current.length = history.length)
    (snapshot : SnapshotAt crc32c d history.length) (room : history.length < U64_MAX)
    (six : active ≤ 999999) (size : totalSize current ≤ limits.segment_bytes)
    (total : totalSize current ≤ limits.hard_bytes) :
    Opens crc32c limits d history (opened limits history.length ⟨[], active, []⟩)
      (preserve_and_truncate_tail active (encodeAll crc32c current) 0 ++ [.create active])
      ⟨[], active, []⟩ := by
  have hne : encodeAll crc32c current ≠ [] := by
    intro hnil
    have hlen := length_encodeAll crc32c current
    have hpos := totalSize_pos nonempty
    rw [hnil, List.length_nil] at hlen
    omega
  have hops : preserve_and_truncate_tail active (encodeAll crc32c current) 0 =
      [.write_recovery ((encodeAll crc32c current).take MAX_JOURNAL_FRAME_BYTES),
        .set_len active 0] := by
    unfold preserve_and_truncate_tail
    simp
    rw [if_neg hne]
    rfl
  have hstored : Stored crc32c limits ((d.apply (.write_recovery
      ((encodeAll crc32c current).take MAX_JOURNAL_FRAME_BYTES))).apply (.set_len active 0))
      history.length ⟨[], active, []⟩ [] := by
    refine ⟨?_, trivial, snapshot.of_eq rfl, six, ?_, Nat.zero_le _,
      fun g hg => absurd hg List.not_mem_nil⟩
    · exact SortedMap.entries_insert_last (l := []) entries
    · intro e he
      rw [List.mem_singleton.mp he]
      exact Nat.zero_le _
  have hframes : Layout.frames ⟨[], active, []⟩ = history.drop history.length :=
    List.drop_length.symm
  have halive := mirrors_alive hvalid hstored.create_active le_rfl hframes
  rw [hops]
  exact opens_cut
    (.covered active previous current entries nonempty follow ends snapshot room six size total)
    (.kept _ _ [] hstored (.inl rfl) le_rfl hframes) halive rfl

theorem open_recoverable (h : Recoverable crc32c limits d history) :
    ∃ store ops l, JournalStore.open crc32c d limits = .ok (store, ops) ∧
      Opens crc32c limits d history store ops l := by
  cases h with
  | fresh segments snapshot nothing =>
    subst nothing
    exact ⟨_, _, _, (open_fresh hvalid segments snapshot).1, opens_fresh hvalid segments snapshot⟩
  | kept base l tail stored torn base_le frames =>
    exact ⟨_, _, _, open_stored hvalid stored torn, opens_kept hvalid stored torn base_le frames⟩
  | covered active previous current entries nonempty follow ends snapshot room six size total =>
    exact ⟨_, _, _, open_covered hvalid entries nonempty follow ends snapshot room six size,
      opens_covered hvalid entries nonempty follow ends snapshot room six size total⟩

end

/-! ## Append -/

theorem Alive.pause (h : Alive crc32c limits store d history l) :
    Alive crc32c limits { store with recording_paused := true } d history l :=
  ⟨h.same_limits, ⟨h.mirrors.valid, h.mirrors.index, h.mirrors.active_bytes, h.mirrors.total_bytes,
    h.mirrors.latest, h.mirrors.earliest, h.mirrors.no_gap, h.mirrors.base_le_live, h.mirrors.live_le,
    h.mirrors.live, h.mirrors.live_bytes⟩, h.stored, h.base_le, h.frames⟩

theorem bytes_ne_nil (f : JournalFrame) : f.bytes crc32c ≠ [] := by
  intro hnil
  have hlen := length_bytes crc32c f
  have hpos := size_pos f
  rw [hnil, List.length_nil] at hlen
  omega

variable {f : JournalFrame}

/-- Some bytes of a frame are written: it counts when they are all there. -/
theorem recoverable_write (h : Stored crc32c limits d base l []) (hbase : base ≤ history.length)
    (hframes : l.frames = history.drop base) (hf : f.Fits)
    (hnext : f.sequence = base + l.frames.length + 1)
    (hsegment : totalSize l.current + f.size ≤ limits.segment_bytes)
    (htotal : totalSize l.frames + f.size ≤ limits.hard_bytes) (part : Nat) :
    Recoverable crc32c limits (d.apply (.append l.active ((f.bytes crc32c).take part)))
      (history ++ if (f.bytes crc32c).take part = f.bytes crc32c then [f] else []) := by
  obtain ⟨hwhole, hpart⟩ := h.append hf hnext hsegment htotal
  rcases Nat.lt_or_ge part f.size with hlt | hge
  · have hne : (f.bytes crc32c).take part ≠ f.bytes crc32c := by
      intro heq
      have hlen := congrArg List.length heq
      rw [List.length_take, length_bytes] at hlen
      omega
    rw [if_neg hne, List.append_nil]
    exact .kept base l _ (hpart part hlt).2 (hpart part hlt).1 hbase hframes
  · have hall : (f.bytes crc32c).take part = f.bytes crc32c :=
      List.take_of_length_le (by rw [length_bytes]; exact hge)
    rw [hall, if_pos rfl]
    refine .kept base (l.push f) [] hwhole (.inl rfl) ?_ ?_
    · rw [List.length_append]
      omega
    · rw [frames_push, hframes, List.drop_append_of_le_length hbase]

variable (index : Nat)

theorem cutShort_append (bytes : List UInt8) (done part : Nat) :
    ∃ part', cutShort [.append index bytes] done part = [.append index (bytes.take part')] := by
  cases done with
  | zero => exact ⟨part, rfl⟩
  | succ done =>
    refine ⟨bytes.length, ?_⟩
    unfold cutShort
    rw [List.take_succ_cons, List.take_nil, List.take_length]
    rfl

theorem cutShort_create_append (bytes : List UInt8) (done part : Nat) :
    cutShort [.create index, .append index bytes] done part = [] ∨
      ∃ part', cutShort [.create index, .append index bytes] done part =
        [.create index, .append index (bytes.take part')] := by
  match done with
  | 0 => exact .inl rfl
  | 1 => exact .inr ⟨part, rfl⟩
  | done + 2 =>
    refine .inr ⟨bytes.length, ?_⟩
    unfold cutShort
    rw [List.take_succ_cons, List.take_succ_cons, List.take_nil, List.take_length]
    rfl

theorem cutShort_nil (done part : Nat) : cutShort [] done part = [] := by
  rw [cutShort_quiet (fun op hop => absurd hop List.not_mem_nil), List.take_nil]

theorem sixDigits_append {index : Nat} (h : SixDigits (d.apply (.append index bytes))) :
    index ≤ 999999 := by
  have hget : (d.apply (.append index bytes)).segments.get? index =
      some ((d.segments.get? index).getD [] ++ bytes) := SortedMap.get?_insert_self
  exact h _ (SortedMap.get?_eq_some_iff.mp hget)

theorem written_singleton (bytes : List UInt8) :
    written [.append index bytes] = bytes := List.append_nil bytes

theorem written_create (bytes : List UInt8) :
    written [.create index, .append index bytes] = bytes := List.append_nil bytes

theorem room_after_rotate (hvalid : limits.validate = .ok limits) (l : Layout) (hf : f.Fits) :
    totalSize l.rotate.current + f.size ≤ limits.segment_bytes := by
  obtain ⟨hframe, -⟩ := validate_ok hvalid
  have hsize := hf.size
  change 0 + f.size ≤ limits.segment_bytes
  omega

theorem whole_nil (f : JournalFrame) : whole crc32c (.append f) [] = [] := by
  unfold whole
  exact if_neg fun heq => bytes_ne_nil f heq.symm

theorem append_cut (h : Alive crc32c limits store d history l) (f : JournalFrame) (done part : Nat)
    (hsix : SixDigits (d.applyAll (cutShort (store.append crc32c d f).ops done part))) :
    Recoverable crc32c limits (d.applyAll (cutShort (store.append crc32c d f).ops done part))
      (history ++ whole crc32c (.append f) (cutShort (store.append crc32c d f).ops done part)) := by
  obtain ⟨hsame, hm, hstored, hbase, hframes⟩ := h
  have hbefore : Recoverable crc32c limits d history := .kept _ l [] hstored (.inl rfl) hbase hframes
  have hnothing : Recoverable crc32c limits d (history ++ whole crc32c (.append f) []) := by
    rw [whole_nil, List.append_nil]
    exact hbefore
  rcases append_cases hm (hsame ▸ hstored) f with
    ⟨hops, -, -⟩ | ⟨-, hfits, hnext, htotal, -, hcases⟩
  · rw [hops, cutShort_nil]
    exact hnothing
  rw [hsame] at htotal hcases
  rcases hcases with ⟨hops, -, hsegment⟩ | ⟨paused, hcurrent, -, hops, -, -⟩
  · obtain ⟨part', hcut⟩ := cutShort_append l.active (f.bytes crc32c) done part
    rw [hops, hcut]
    unfold whole
    simp only [written_singleton]
    exact recoverable_write hstored hbase hframes hfits hnext hsegment htotal part'
  · rw [hops] at hsix ⊢
    rcases cutShort_create_append (l.active + 1) (f.bytes crc32c) done part with
      hcut | ⟨part', hcut⟩
    · rw [hcut]
      exact hnothing
    · rw [hcut] at hsix ⊢
      unfold whole
      simp only [written_create]
      have hcreated := hstored.create hcurrent (sixDigits_append hsix)
      refine recoverable_write hcreated hbase ?_ hfits ?_
        (room_after_rotate (hsame ▸ hm.valid) l hfits) ?_ part'
      · rw [frames_rotate]
        exact hframes
      · rw [frames_rotate]
        exact hnext
      · rw [frames_rotate]
        exact htotal

theorem recorded_iff {call : Call AppendOutcome} :
    call.recorded = true ↔ call.result = .ok .Recorded := by
  unfold Call.recorded
  split
  · rename_i heq
    exact ⟨fun _ => heq, fun _ => rfl⟩
  · rename_i hne
    exact ⟨fun h => absurd h Bool.false_ne_true, fun h => absurd h hne⟩

theorem Alive.push (h : Alive crc32c limits store d history l) (hf : f.Fits)
    (hnext : f.sequence = store.base_sequence + l.frames.length + 1)
    (hsegment : totalSize l.current + f.size ≤ limits.segment_bytes)
    (htotal : totalSize l.frames + f.size ≤ limits.hard_bytes) :
    Alive crc32c limits (store.record f f.size) (d.apply (.append l.active (f.bytes crc32c)))
      (history ++ [f]) (l.push f) := by
  obtain ⟨hsame, hm, hstored, hbase, hframes⟩ := h
  obtain ⟨hwhole, -⟩ := hstored.append hf hnext hsegment htotal
  refine ⟨hsame, mirrors_record hm hwhole.follow, hwhole, ?_, ?_⟩
  · rw [List.length_append]
    exact hbase.trans (Nat.le_add_right _ _)
  · rw [frames_push, hframes]
    exact (List.drop_append_of_le_length hbase).symm

theorem Alive.turn (h : Alive crc32c limits store d history l) (hcurrent : l.current ≠ [])
    (hsix : l.active + 1 ≤ 999999) (paused : Bool) :
    Alive crc32c limits (store.turned paused) (d.apply (.create (l.active + 1))) history l.rotate := by
  obtain ⟨hsame, hm, hstored, hbase, hframes⟩ := h
  refine ⟨hsame, mirrors_turned hm paused, hstored.create hcurrent hsix, hbase, ?_⟩
  rw [frames_rotate]
  exact hframes

theorem append_done (h : Alive crc32c limits store d history l) (f : JournalFrame)
    (hsix : SixDigits (d.applyAll (store.append crc32c d f).ops)) :
    ∃ l', Alive crc32c limits (store.append crc32c d f).store
      (d.applyAll (store.append crc32c d f).ops)
      (history ++ if (store.append crc32c d f).recorded then [f] else []) l' := by
  obtain ⟨hsame, hm, hstored, hbase, hframes⟩ := h
  rcases append_cases hm (hsame ▸ hstored) f with
    ⟨hops, hresult, hstore⟩ | ⟨hresult, hfits, hnext, htotal, -, hcases⟩
  · have halive : Alive crc32c limits store d history l := ⟨hsame, hm, hstored, hbase, hframes⟩
    rw [hops, if_neg (mt recorded_iff.mp hresult), List.append_nil]
    refine ⟨l, ?_⟩
    rcases hstore with heq | heq
    · rw [heq]
      exact halive
    · rw [heq]
      exact halive.pause
  rw [hsame] at htotal hcases
  have halive : Alive crc32c limits store d history l := ⟨hsame, hm, hstored, hbase, hframes⟩
  rw [if_pos (recorded_iff.mpr hresult)]
  rcases hcases with ⟨hops, hstore, hsegment⟩ | ⟨paused, hcurrent, -, hops, hstore, -⟩
  · rw [hops, hstore]
    exact ⟨l.push f, halive.push hfits hnext hsegment htotal⟩
  · rw [hops] at hsix ⊢
    rw [hstore]
    have hturned := halive.turn hcurrent (sixDigits_append hsix) paused
    refine ⟨l.rotate.push f, hturned.push hfits ?_ (room_after_rotate (hsame ▸ hm.valid) l hfits) ?_⟩
    · rw [frames_rotate]
      exact hnext
    · rw [frames_rotate]
      exact htotal

theorem append_writes (h : Alive crc32c limits store d history l)
    (hresult : (store.append crc32c d f).result = .ok .Recorded) :
    written (store.append crc32c d f).ops = f.bytes crc32c := by
  rcases append_cases h.mirrors (h.same_limits ▸ h.stored) f with
    ⟨-, hne, -⟩ | ⟨-, -, -, -, -, ⟨hops, -, -⟩ | ⟨paused, -, -, hops, -, -⟩⟩
  · exact absurd hresult hne
  · rw [hops, written_singleton]
  · rw [hops, written_create]

theorem append_follows (h : Alive crc32c limits store d history l)
    (hops : (store.append crc32c d f).ops ≠ []) : f.Fits ∧ f.sequence = history.length + 1 := by
  obtain ⟨hsame, hm, hstored, hbase, hframes⟩ := h
  rcases append_cases hm (hsame ▸ hstored) f with ⟨hnone, -, -⟩ | ⟨-, hfits, hnext, -⟩
  · exact absurd hnone hops
  · rw [hframes, List.length_drop] at hnext
    exact ⟨hfits, by omega⟩

/-! ## Compact -/

variable {turn : List FileOp}

theorem quiet_compact {s : JournalStore} (hturns : Turns s l turn s' l') :
    ∀ op ∈ FileOp.write_snapshot bytes :: turn ++ l'.closed.map (fun g => .remove g.1),
      op.isAppend = false := by
  intro op hop
  rw [List.mem_append, List.mem_cons] at hop
  rcases hop with (rfl | hop) | hop
  · rfl
  · cases hturns with
    | empty current => exact absurd hop List.not_mem_nil
    | full current paused =>
      rw [List.mem_singleton.mp hop]
      rfl
  · obtain ⟨g, -, rfl⟩ := List.mem_map.mp hop
    rfl

theorem recoverable_compacted (hentries : d.segments.entries = [(active, [])])
    (hsnapshot : SnapshotAt crc32c d history.length) (hsix : active ≤ 999999) :
    Recoverable crc32c limits d history := by
  refine .kept history.length ⟨[], active, []⟩ [] ⟨hentries, trivial, hsnapshot, hsix, ?_,
    Nat.zero_le _, fun g hg => absurd hg List.not_mem_nil⟩ (.inl rfl) le_rfl List.drop_length.symm
  intro e he
  rw [List.mem_singleton.mp he]
  exact Nat.zero_le _

theorem entries_removed (h : d.segments.entries = l.entries crc32c []) (k : Nat) :
    (d.applyAll ((l.closed.map fun g => FileOp.remove g.1).take k)).segments.entries =
        (l.closed.drop k).map (fun g => (g.1, encodeAll crc32c g.2)) ++
          [(l.active, encodeAll crc32c l.current)] ∧
      (d.applyAll ((l.closed.map fun g => FileOp.remove g.1).take k)).snapshot = d.snapshot := by
  rw [← List.map_take]
  apply applyAll_remove
  rw [h, ← List.append_assoc, ← List.map_append, List.take_append_drop]
  unfold Layout.entries
  rw [List.append_nil]

theorem compact_cut (h : Alive crc32c limits store d history l) (hfollow : Follow 0 history)
    (snapshot : TerminalSnapshot) (done part : Nat)
    (hsix : SixDigits (d.applyAll (cutShort (store.compact crc32c d snapshot).ops done part)))
    (hsettled : done = 0 ∨
      (d.applyAll (cutShort (store.compact crc32c d snapshot).ops done part)).segments.size ≤ 1 ∧
        history.length < U64_MAX) :
    Recoverable crc32c limits (d.applyAll (cutShort (store.compact crc32c d snapshot).ops done part))
      history := by
  have hlatest := h.latest
  have hbefore := h.recoverable
  have hle : store.latest_sequence ≤ U64_MAX := hlatest ▸ follow_length_le hfollow
  obtain ⟨hsame, hm, hstored, hbase, hframes⟩ := h
  rcases compact_cases hm (hsame ▸ hstored) hle snapshot with
    ⟨hops, -, -⟩ | ⟨turn, s', l', hturns, hfits, hboundary, -, hops, -⟩
  · rw [hops, cutShort_nil]
    exact hbefore
  rw [hops, cutShort_quiet (quiet_compact hturns)] at hsix hsettled ⊢
  cases done with
  | zero => exact hbefore
  | succ k =>
    obtain ⟨hsize, hroom⟩ := hsettled.resolve_left (Nat.succ_ne_zero k)
    change Recoverable crc32c limits ((d.apply (.write_snapshot (snapshot.bytes crc32c))).applyAll
      ((turn ++ l'.closed.map fun g => FileOp.remove g.1).take k)) history
    change SixDigits ((d.apply (.write_snapshot (snapshot.bytes crc32c))).applyAll
      ((turn ++ l'.closed.map fun g => FileOp.remove g.1).take k)) at hsix
    change ((d.apply (.write_snapshot (snapshot.bytes crc32c))).applyAll
      ((turn ++ l'.closed.map fun g => FileOp.remove g.1).take k)).segments.size ≤ 1 at hsize
    have hentries : (d.apply (.write_snapshot (snapshot.bytes crc32c))).segments.entries =
        l.entries crc32c [] := hstored.entries
    have hsnapshot : SnapshotAt crc32c (d.apply (.write_snapshot (snapshot.bytes crc32c)))
        history.length := .inr ⟨snapshot, hfits, hboundary.trans hlatest, rfl⟩
    generalize d.apply (.write_snapshot (snapshot.bytes crc32c)) = d₁ at hentries hsnapshot hsix hsize ⊢
    -- all closed segments are gone when one is left
    have hone : ∀ (d₂ : Disk) {l₂ : Layout} {j : Nat}, d₂.segments.entries = l₂.entries crc32c [] →
        SnapshotAt crc32c d₂ history.length → l₂.current = [] →
        SixDigits (d₂.applyAll ((l₂.closed.map fun g => FileOp.remove g.1).take j)) →
        (d₂.applyAll ((l₂.closed.map fun g => FileOp.remove g.1).take j)).segments.size ≤ 1 →
        Recoverable crc32c limits
          (d₂.applyAll ((l₂.closed.map fun g => FileOp.remove g.1).take j)) history := by
      intro d₂ l₂ j h₂ hsnap hcurrent hdigits hsmall
      obtain ⟨hleft, hsame₂⟩ := entries_removed h₂ j
      unfold SortedMap.size at hsmall
      rw [hleft, List.length_append, List.length_map, List.length_singleton] at hsmall
      have hnil : l₂.closed.drop j = [] := List.length_eq_zero_iff.mp (by omega)
      rw [hnil, hcurrent] at hleft
      refine recoverable_compacted hleft (hsnap.of_eq hsame₂) (hdigits (l₂.active, []) ?_)
      rw [hleft]
      exact List.mem_singleton_self _
    cases hturns with
    | empty current => exact hone _ hentries hsnapshot current hsix hsize
    | full current paused =>
      cases k with
      | zero =>
        -- the snapshot is written and nothing else: the segment holds what it covers
        change d₁.segments.entries.length ≤ 1 at hsize
        rw [hentries] at hsize
        unfold Layout.entries at hsize hentries
        rw [List.length_append, List.length_map, List.length_singleton] at hsize
        have hnil : l.closed = [] := List.length_eq_zero_iff.mp (by omega)
        rw [hnil] at hentries
        have hcurrent : l.frames = l.current := by
          unfold Layout.frames
          rw [hnil]
          rfl
        have hlast := hstored.sizes _ (List.mem_append_right _ (List.mem_singleton_self _))
        have htotal := hstored.total
        rw [List.append_nil, length_encodeAll] at hlast
        rw [hcurrent, List.length_nil, Nat.add_zero] at htotal
        have hall := hstored.follow
        rw [hcurrent] at hall hframes
        refine .covered l.active store.base_sequence l.current ?_ current hall ?_ hsnapshot hroom
          hstored.six hlast htotal
        · rw [List.append_nil] at hentries
          exact hentries
        · rw [hframes, List.length_drop]
          omega
      | succ j =>
        exact hone (d₁.apply (.create (l.active + 1))) (apply_create hentries)
          (hsnapshot.of_eq rfl) rfl hsix hsize

theorem entries_compacted (h : d.segments.entries = l.entries crc32c [])
    (hturns : Turns store l turn s' l') (snapshot : List UInt8) :
    (d.applyAll (.write_snapshot snapshot :: turn ++
      l'.closed.map fun g => FileOp.remove g.1)).segments.entries = [(l'.active, [])] := by
  have hturned := (hturns.entries (d := d.apply (.write_snapshot snapshot)) h).1
  have hremoved := (applyAll_remove hturned).1
  rw [hturns.current] at hremoved
  rw [applyAll_append]
  exact hremoved

theorem Alive.compacted (h : Alive crc32c limits store d history l)
    (hturns : Turns store l turn s' l') {snapshot : TerminalSnapshot} (hfits : snapshot.Fits)
    (hboundary : snapshot.boundary = store.latest_sequence) (hsix : l'.active ≤ 999999) :
    Alive crc32c limits (s'.restart store.latest_sequence 0) (d.applyAll (.write_snapshot
      (snapshot.bytes crc32c) :: turn ++ l'.closed.map fun g => FileOp.remove g.1)) history
      ⟨[], l'.active, []⟩ := by
  have hlatest := h.latest
  obtain ⟨hsame, hm, hstored, hbase, hframes⟩ := h
  have hcompacted := stored_compacted (hsame ▸ hstored) hturns hsix hfits hboundary
  have hpositive : store.latest_sequence ≠ 0 := by
    have := hfits.positive
    omega
  refine ⟨?_, mirrors_compacted hm hturns hpositive, ?_, hlatest.le, ?_⟩
  · exact hturns.same.1.trans hsame
  · rw [hsame] at hcompacted
    exact hcompacted
  · change [] = history.drop store.latest_sequence
    rw [hlatest, List.drop_length]

theorem compact_done (h : Alive crc32c limits store d history l) (hfollow : Follow 0 history)
    (snapshot : TerminalSnapshot)
    (hsix : SixDigits (d.applyAll (store.compact crc32c d snapshot).ops)) :
    ∃ l', Alive crc32c limits (store.compact crc32c d snapshot).store
      (d.applyAll (store.compact crc32c d snapshot).ops) history l' := by
  have hle : store.latest_sequence ≤ U64_MAX := h.latest ▸ follow_length_le hfollow
  rcases compact_cases h.mirrors (h.same_limits ▸ h.stored) hle snapshot with
    ⟨hops, hstore, -⟩ | ⟨turn, s', l', hturns, hfits, hboundary, -, hops, hstore⟩
  · rw [hops, hstore]
    exact ⟨l, h⟩
  · rw [hops] at hsix ⊢
    rw [hstore]
    have hactive : l'.active ≤ 999999 := by
      refine hsix (l'.active, []) ?_
      rw [entries_compacted h.stored.entries hturns]
      exact List.mem_singleton_self _
    exact ⟨_, h.compacted hturns hfits hboundary hactive⟩

end

end multiplex_store.journal
