-- The quota of the journal against the compactions of the Host. With four segments
-- and room for three of them and one frame, the compaction always comes first.
import Multiplex.SessionHost.Attach

open multiplex_host_protocol multiplex_store.journal multiplex_client

namespace multiplex_session_host

/-- Four segments, and room for one more frame when a compaction is not due yet. -/
def Roomy (limits : JournalLimits) : Prop :=
  limits.retained_segments = 4 ∧
    3 * limits.segment_bytes + (MAX_OUTPUT_FRAME_BYTES - 1) ≤ limits.hard_bytes

/-- Segments that were closed because they were nearly full, and a compaction that is not due. -/
structure Calm (limits : JournalLimits) (l : Layout) : Prop where
  closed : ∀ g ∈ l.closed, limits.segment_bytes < totalSize g.2 + MAX_OUTPUT_FRAME_BYTES
  total : totalSize l.frames < limits.segment_bytes * 3

section
variable {limits : JournalLimits}

theorem closed_total {closed : List (Nat × List JournalFrame)}
    (h : ∀ g ∈ closed, limits.segment_bytes < totalSize g.2 + MAX_OUTPUT_FRAME_BYTES) :
    closed.length * (limits.segment_bytes - MAX_OUTPUT_FRAME_BYTES) ≤
      totalSize (closed.flatMap Prod.snd) := by
  induction closed with
  | nil => exact le_of_eq (Nat.zero_mul _)
  | cons g closed ih =>
    obtain ⟨hg, hclosed⟩ := List.forall_mem_cons.mp h
    have hrest := ih hclosed
    rw [List.flatMap_cons, totalSize_append, List.length_cons, Nat.succ_mul]
    omega

section
variable (hvalid : limits.validate = .ok limits)
include hvalid

/-- There are never five segments: four that are nearly full hold more than three. -/
theorem closed_le {l : Layout} (h : Calm limits l) {f : JournalFrame}
    (hsize : f.size ≤ MAX_OUTPUT_FRAME_BYTES)
    (hfull : limits.segment_bytes < totalSize l.current + f.size) : l.closed.length ≤ 2 := by
  obtain ⟨hframe, -⟩ := validate_ok hvalid
  by_contra hlt
  have hthree : 3 ≤ l.closed.length := by omega
  have hclosed := closed_total h.closed
  have hmul := Nat.mul_le_mul_right (limits.segment_bytes - MAX_OUTPUT_FRAME_BYTES) hthree
  have htotal := h.total
  unfold Layout.frames at htotal
  rw [totalSize_append] at htotal
  have hmax : MAX_OUTPUT_FRAME_BYTES = 65572 := rfl
  unfold MAX_JOURNAL_FRAME_BYTES at hframe
  omega

end

end

section
variable {σ : Type} {vt : Vt100 σ} {crc32c : List UInt8 → UInt32} {windows : Bool}
  {limits : JournalLimits} {first : σ}

variable {outputs : List Output}

variable (windows) in
theorem totalSize_framesOf (h : ∀ o ∈ outputs, o.bytes.length ≤ MAX_OUTPUT_BYTES) :
    totalSize (framesOf windows outputs) ≤ outputs.length * MAX_OUTPUT_FRAME_BYTES := by
  induction outputs using List.reverseRecOn with
  | nil => exact Nat.zero_le _
  | append_singleton outputs o ih =>
    have ho := size_frameOf windows outputs.length (h o List.mem_concat_self)
    have hrest := ih fun o' ho' => h o' (List.mem_append_left _ ho')
    rw [framesOf_append, totalSize_append, totalSize_cons, totalSize_nil, List.length_append,
      List.length_singleton, Nat.succ_mul]
    omega

theorem output_loop_append (o : Output) : ∀ {host final : RuntimeState σ},
    host.output_loop vt crc32c windows outputs = (final, .ok ()) →
    host.output_loop vt crc32c windows (outputs ++ [o]) =
      final.process_output vt crc32c windows o.bytes o.monotonic_nanos := by
  induction outputs with
  | nil =>
    rintro host _ ⟨rfl⟩
    rw [List.nil_append]
    unfold RuntimeState.output_loop
    split
    · rename_i heq
      rw [heq]
    · rename_i heq
      rw [heq]
      rfl
  | cons o' outputs ih =>
    intro host final h
    unfold RuntimeState.output_loop at h
    rw [List.cons_append, RuntimeState.output_loop]
    split at h
    · cases h
    · exact ih h

theorem short_run (hvalid : limits.validate = .ok limits) {host : RuntimeState σ}
    (hstart : Recording vt crc32c windows limits first host [] ⟨[], 1, []⟩)
    (hflag : host.recording_paused = false) (hstore : host.journal.recording_paused = false)
    (hsizes : ∀ o ∈ outputs, o.bytes.length ≤ MAX_OUTPUT_BYTES)
    (hshort : outputs.length * MAX_OUTPUT_FRAME_BYTES < limits.segment_bytes) :
    ∃ final, host.output_loop vt crc32c windows outputs = (final, .ok ()) ∧
      Recording vt crc32c windows limits first final outputs ⟨[], 1, framesOf windows outputs⟩ ∧
      final.recording_paused = false ∧ final.journal.recording_paused = false := by
  induction outputs using List.reverseRecOn with
  | nil => exact ⟨host, rfl, hstart, hflag, hstore⟩
  | append_singleton outputs o ih =>
    have ho := hsizes o List.mem_concat_self
    have hbefore := fun o' ho' => hsizes o' (List.mem_append_left [o] ho')
    rw [List.length_append, List.length_singleton, Nat.succ_mul] at hshort
    obtain ⟨final, hloop, hrecording, hpaused, hjournal⟩ := ih hbefore (by omega)
    have hsix : (final.process_output vt crc32c windows o.bytes
        o.monotonic_nanos).1.journal.active_index ≤ 999999 := by
      refine (active_process_output vt crc32c windows _ _ _).2.trans ?_
      rw [hrecording.alive.mirrors.index]
      change 1 + 2 ≤ 999999
      decide
    have hsize := size_frameOf windows outputs.length ho
    have htotal := totalSize_framesOf windows hbefore
    have hframes : Layout.frames ⟨[], 1, framesOf windows outputs⟩ = framesOf windows outputs := rfl
    obtain ⟨-, hsegment, -⟩ := validate_ok hvalid
    rw [output_loop_append o hloop, framesOf_append]
    cases process_output_outcome hrecording hpaused ho hsix with
    | paused flag ok why =>
      rw [hjournal, hframes] at why
      rcases why with hfalse | hlt
      · cases hfalse
      · omega
    | kept l' flag was grows recording ends =>
      have hgrown := size_of_grows grows
      have hcurrent := totalSize_current_le l'
      rw [hframes] at hgrown
      cases grows with
      | stays room same =>
        rcases ends with ⟨hok, -⟩ | ⟨-, hdue⟩
        · exact ⟨_, Prod.ext rfl hok, recording, flag, same.trans hjournal⟩
        · omega
      | turns current full paused =>
        simp only at full
        omega
    | compacted active flag was s' l' grows due resumed recording =>
      have hgrown := size_of_grows grows
      have hcurrent := totalSize_current_le l'
      rw [hframes] at hgrown
      omega

end

/-! ## A quota of one segment -/

/-- What an emulator shows of one long line of two-byte letters: as many full rows as there are, and
the last one as far as it goes. -/
def visibleLetters (columns rows letters : Nat) : Nat :=
  if letters ≤ columns * rows then letters else columns * (rows - 1) + ((letters - 1) % columns + 1)

/-- An emulator that has only seen such letters. It has 1000 rows of 1000 columns. -/
def lettersOnly : Vt100 (List UInt8) where
  process := fun text bytes => text ++ bytes
  rows := fun _ => 1000
  columns := fun _ => 1000
  alternate_screen := fun _ => false
  bracketed_paste := fun _ => false
  state_formatted := fun text =>
    [0x1b, 0x5b, 0x3f, 0x32, 0x35, 0x68, 0x1b, 0x5b, 0x6d, 0x1b, 0x5b, 0x48, 0x1b, 0x5b, 0x4a] ++
      text.drop (text.length - 2 * visibleLetters 1000 1000 (text.length / 2))

def lettersOutput : Output := ⟨(List.replicate 32768 [0xc3, 0xa9]).flatten, 0⟩

theorem length_lettersOutput : lettersOutput.bytes.length = 65536 := by
  unfold lettersOutput
  simp only [List.length_flatten, List.map_replicate, List.sum_replicate, List.length_cons,
    List.length_nil, smul_eq_mul]

def oneSegment : JournalLimits := ⟨MAX_JOURNAL_FRAME_BYTES, DEFAULT_JOURNAL_BYTES, 1⟩

theorem letters_le {n : Nat} :
    ∀ o ∈ List.replicate n lettersOutput, o.bytes.length ≤ MAX_OUTPUT_BYTES := by
  intro o ho
  rw [List.eq_of_mem_replicate ho, length_lettersOutput]
  decide

end multiplex_session_host
