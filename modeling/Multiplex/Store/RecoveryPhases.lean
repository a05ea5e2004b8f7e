-- A restore phase by phase: its folder and marker, the backups, the journal, the
-- last good files put in place. Each phase is done exactly when the calls it
-- makes go through, and what it leaves when one of them does not can be rolled
-- back.
import Multiplex.Store.RecoverySteps

open Crashes

namespace multiplex_store.recovery

section
variable {codec : Codec} {D s : Disk} {plan : RecoveryPlan} {fates : Fates}

/-! ## The recovery folder -/

/-- The folder is made, though the call that makes it may not return. -/
def FolderMade (fates : Fates) : Prop :=
  match fates .create_root with
  | .goes => True
  | .fails _ _ => False
  | .ends part => part ≠ 0

/-- The marker has all of its bytes, though the call that writes them may not return. -/
def MarkerFilled (fates : Fates) : Prop :=
  match fates .create_marker with
  | .goes => True
  | .fails _ part => MARKER_BYTES.length < part
  | .ends part => MARKER_BYTES.length < part

/-- The restore stops with a recovery folder that is not marked. -/
def StopsUnmarked (D : Disk) (plan : RecoveryPlan) (fates : Fates) : Prop :=
  match D.recovery_root with
  | .absent =>
    plan.files ≠ [] ∧ AllGo fates [.is_cancelled 0, .inspect_root] ∧ FolderMade fates ∧
      ¬ (AllGo fates [.create_root, .protect_root, .inspect_marker] ∧ MarkerFilled fates)
  | .foreign => True
  | .folder r =>
    r.marker ≠ .file MARKER_BYTES ∧
      ¬ (r.marker = .absent ∧ plan.files ≠ [] ∧
        AllGo fates [.is_cancelled 0, .inspect_root, .inspect_marker] ∧ MarkerFilled fates)

/-- Nothing has changed, and the folder has its marker. -/
structure Kept (D s : Disk) : Prop where
  untouched : Untouched D s
  marked : s.marker = .file MARKER_BYTES
  active : s.active = D.active

structure Ready (D s : Disk) : Prop extends Kept D s where
  plan : s.plan = D.plan

structure Bare (D s : Disk) : Prop where
  untouched : Untouched D s
  hasFolder : s.hasFolder = true
  marker : s.marker = .absent
  active : s.active = D.active
  plan : s.plan = D.plan

theorem Kept.before (h : Kept D s) : Before D s := 
  ⟨h.untouched, .inr h.marked, .inr h.active⟩

theorem untouched_refl : Untouched D D := ⟨rfl, rfl, rfl⟩

theorem Bare.marked (h : Bare D s) : Ready D (s.setMarker (.file MARKER_BYTES)) := by
  have hfolder := h.hasFolder
  obtain ⟨⟨hformat, hprimary, hgood⟩, -, -, hactive, hplan⟩ := h
  unfold Disk.hasFolder at hfolder
  cases hroot : s.recovery_root with
  | absent => simp [hroot] at hfolder
  | foreign => simp [hroot] at hfolder
  | folder r =>
    constructor
    · constructor
      · constructor <;> simp [Disk.setMarker, hformat, hprimary, hgood]
      · simp [Disk.setMarker, Disk.inFolder, hroot, Disk.marker]
      · rw [← hactive]
        simp [Disk.setMarker, Disk.inFolder, hroot, Disk.active]
    · rw [← hplan]
      funext id
      simp [Disk.setMarker, Disk.inFolder, hroot, Disk.plan]

theorem create_marker_completes (hfilled : MarkerFilled fates) :
    Completes fates (Bare D) create_marker [.create_marker] (fun _ => Ready D) (Before D) := by
  have hpart : ∀ n s, MARKER_BYTES.length < n → Bare D s → Before D (create_marker.partly n s) := by
    intro n s hn hs
    cases n with
    | zero => omega
    | succ n =>
      rw [create_marker.partly, List.take_of_length_le (by omega)]
      exact hs.marked.before
  unfold MarkerFilled at hfilled
  apply Completes.call
  · exact fun _ s hs => hs.marked
  · intro e n hfails s hs
    rw [hfails] at hfilled
    exact hpart n s hfilled hs
  · intro n hends s hs
    rw [hends] at hfilled
    exact hpart n s hfilled hs

theorem ensure_marker_bare (hgoes : fates .inspect_marker = .goes) (hfilled : MarkerFilled fates) :
    Completes fates (Bare D) ensure_marker [.inspect_marker, .create_marker] (fun _ => Ready D)
      (Before D) := by
  refine Completes.next (c := [Call.inspect_marker]) (Q := fun entry s => Bare D s ∧ entry = Entry.absent)
    ?_ fun entry => ?_
  · apply Completes.read
    · exact fun _ s hs => ⟨s.marker, rfl, hs, hs.marker⟩
    · exact fun hnot => absurd hgoes hnot
  · refine Completes.given (fun s hs => hs.2) ?_
    rintro rfl
    exact Completes.weaken (create_marker_completes hfilled) (fun s hs => hs.1) (fun _ _ => id)
      fun _ => id

theorem ensure_marker_ready :
    Completes fates (Ready D) ensure_marker [.inspect_marker, .read_marker] (fun _ => Ready D)
      (Before D) := by
  refine Completes.next (c := [Call.inspect_marker])
    (Q := fun entry s => Ready D s ∧ entry = Entry.file MARKER_BYTES) ?_ fun entry => ?_
  · apply Completes.read
    · exact fun _ s hs => ⟨s.marker, rfl, hs, hs.marked⟩
    · exact fun _ s hs => hs.before
  · refine Completes.given (fun s hs => hs.2) ?_
    rintro rfl
    apply Completes.read
    · exact fun _ s hs => ⟨(), if_pos hs.1.marked, hs.1⟩
    · exact fun _ s hs => hs.1.before

/-- The calls that see to the folder and its marker. -/
def ensureCalls (D : Disk) : List Call :=
  match D.recovery_root with
  | .absent => [.inspect_root, .create_root, .protect_root, .inspect_marker, .create_marker]
  | _ =>
    if D.marker = .absent then [.inspect_root, .inspect_marker, .create_marker]
    else [.inspect_root, .inspect_marker, .read_marker]

theorem bare_createRoot (hroot : D.recovery_root = .absent) : Bare D D.createRoot where
  untouched := ⟨rfl, rfl, rfl⟩
  hasFolder := rfl
  marker := rfl
  active := by simp [Disk.active, Disk.createRoot, hroot]
  plan := by
    funext id
    simp [Disk.plan, Disk.createRoot, hroot]

theorem before_absent (hroot : D.recovery_root = .absent) : Before D D where
  untouched := untouched_refl
  marked := .inl hroot
  active := .inr rfl

/-- The folder is made, and every call after it goes through up to the marker. -/
theorem ensure_folder_absent (hroot : D.recovery_root = .absent)
    (hmarks : fates .inspect_root = .goes → FolderMade fates →
      AllGo fates [.create_root, .protect_root, .inspect_marker] ∧ MarkerFilled fates) :
    Completes fates (· = D) ensure_folder [.inspect_root, .create_root, .protect_root]
      (fun _ s => Bare D s ∧ fates .inspect_marker = .goes ∧ MarkerFilled fates) (Before D) := by
  refine Completes.next (c := [Call.inspect_root])
    (Q := fun root s => (s = D ∧ root = RecoveryRoot.absent) ∧ AllGo fates [Call.inspect_root])
      (Completes.went ?_)
    fun root => ?_
  · apply Completes.read
    · rintro - s rfl
      exact ⟨s.recovery_root, rfl, rfl, hroot⟩
    · rintro - s rfl
      exact before_absent hroot
  refine Completes.given (q := root = .absent ∧ AllGo fates [.inspect_root])
    (fun s hs => ⟨hs.1.2, hs.2⟩) ?_
  rintro ⟨rfl, hinspect⟩
  have hmarks' := hmarks (by simpa using hinspect)
  refine Completes.next (c := [Call.create_root])
    (Q := fun _ s => Bare D s ∧ AllGo fates [.create_root, .protect_root, .inspect_marker] ∧
      MarkerFilled fates) ?_ fun _ => ?_
  · apply Completes.call
    · rintro hgoes s ⟨⟨rfl, -⟩, -⟩
      exact ⟨bare_createRoot hroot, hmarks' (by simp [FolderMade, hgoes])⟩
    · rintro e n - s ⟨⟨rfl, -⟩, -⟩
      exact before_absent hroot
    · rintro n hends s ⟨⟨rfl, -⟩, -⟩
      cases n with
      | zero => exact before_absent hroot
      | succ n =>
        have hall := (hmarks' (by simp [FolderMade, hends])).1
        simp [hends] at hall
  · refine Completes.given (fun s hs => hs.2) ?_
    rintro ⟨hall, hfilled⟩
    simp at hall
    apply Completes.call
    · exact fun _ s hs => ⟨hs.1, hall.2.2, hfilled⟩
    · exact fun e n hfails => absurd hall.2.1 (by simp [hfails])
    · exact fun n hends => absurd hall.2.1 (by simp [hends])

theorem ensure_folder_there {r : RecoveryFolder} (hroot : D.recovery_root = .folder r)
    (hstop : fates .inspect_root ≠ .goes → Before D D) :
    Completes fates (· = D) ensure_folder [.inspect_root] (fun _ s => s = D) (Before D) := by
  refine Completes.next (c := [Call.inspect_root])
    (Q := fun root s => s = D ∧ root = RecoveryRoot.folder r) ?_
    fun root => ?_
  · apply Completes.read
    · rintro - s rfl
      exact ⟨s.recovery_root, rfl, rfl, hroot⟩
    · rintro hnot s rfl
      exact hstop hnot
  · refine Completes.given (fun s hs => hs.2) ?_
    rintro rfl
    exact Completes.done () fun s hs => hs.1

theorem ensure_recovery_root_completes (hfiles : plan.files ≠ [])
    (hcancel : fates (.is_cancelled 0) = .goes) (hmarks : ¬ StopsUnmarked D plan fates) :
    Completes fates (· = D) ensure_recovery_root (ensureCalls D) (fun _ => Ready D) (Before D) := by
  unfold ensureCalls
  unfold StopsUnmarked at hmarks
  cases hroot : D.recovery_root with
  | absent =>
    simp [hroot, hcancel, hfiles] at hmarks
    refine Completes.next (ensure_folder_absent hroot ?_) fun _ => ?_
    · intro hinspect hmade
      simpa [and_assoc] using hmarks hinspect hmade
    · refine Completes.given (fun s hs => hs.2) ?_
      rintro ⟨hgoes, hfilled⟩
      exact Completes.weaken (ensure_marker_bare hgoes hfilled) (fun s hs => hs.1) (fun _ _ => id)
        fun _ => id
  | foreign => simp [hroot] at hmarks
  | folder r =>
    have hmarker : D.marker = r.marker := by simp [Disk.marker, hroot]
    simp only [hroot] at hmarks
    have hwritten := fun hne => not_not.mp fun hnot => hmarks ⟨hne, hnot⟩
    simp only [hmarker]
    by_cases hbare : r.marker = .absent
    · obtain ⟨-, -, hall, hfilled⟩ := hwritten (by simp [hbare])
      simp at hall
      rw [if_pos hbare]
      refine Completes.next (c := [Call.inspect_root]) (ensure_folder_there hroot
        fun hnot => absurd hall.2.1 hnot) fun _ => ?_
      refine Completes.weaken (ensure_marker_bare hall.2.2 hfilled) ?_ (fun _ _ => id)
        fun _ => id
      rintro s rfl
      exact ⟨untouched_refl, by simp [Disk.hasFolder, hroot], hmarker.trans hbare, rfl, rfl⟩
    · have hwhole : r.marker = .file MARKER_BYTES := by
        by_contra hnot
        exact hbare (hwritten hnot).1
      have hready : Ready D D := ⟨⟨untouched_refl, hmarker.trans hwhole, rfl⟩, rfl⟩
      rw [if_neg hbare]
      refine Completes.next (c := [Call.inspect_root]) (ensure_folder_there hroot
        fun _ => hready.before) fun _ => ?_
      refine Completes.weaken ensure_marker_ready ?_ (fun _ _ => id) fun _ => id
      rintro s rfl
      exact hready

/-! ## Up to the journal -/

structure Backing (D : Disk) (plan : RecoveryPlan) (behind : List RecoveryFilePlan) (s : Disk) : Prop
    extends Kept D s where
  folder : (s.plan plan.id).isSome
  sound : ∀ kind, ∃ current, s.backup plan.id kind = entryOf current
  backups : ∀ file ∈ behind, s.backup plan.id file.kind = .file (file.current.getD [])

theorem Kept.inFolder {f : RecoveryFolder → RecoveryFolder} (h : Kept D s)
    (hmarker : (s.inFolder f).marker = s.marker) (hactive : (s.inFolder f).active = s.active) :
    Kept D (s.inFolder f) where
  untouched := ⟨by simpa using h.untouched.format, by simpa using h.untouched.primary,
    by simpa using h.untouched.last_good⟩
  marked := hmarker.trans h.marked
  active := hactive.trans h.active

theorem create_plan_root_completes (hfresh : D.plan plan.id = none) :
    Completes fates (Ready D) (create_plan_root plan.id) [.create_plan_root, .protect_plan_root]
      (fun _ => Backing D plan []) (Before D) := by
  have hcreate : ∀ s, Ready D s → Backing D plan [] (s.createPlan plan.id) := by
    intro s hs
    have hfolder := Disk.hasFolder_of_marker hs.marked
    refine ⟨hs.toKept.inFolder ?_ ?_, ?_, ?_, by simp⟩
    · exact Disk.marker_createPlan
    · exact Disk.active_createPlan
    · exact Disk.plan_createPlan hfolder
    · intro kind
      rw [Disk.backup_createPlan]
      exact ⟨none, rfl⟩
  refine Completes.next (c := []) (Q := fun _ => Ready D) (Completes.see ?_) fun _ => ?_
  · intro s hs
    exact ⟨(), if_neg (by simp [hs.plan, hfresh]), hs⟩
  refine Completes.next (c := [Call.create_plan_root]) (Q := fun _ => Backing D plan []) ?_
    fun _ => keep_completes fun s hs => hs.before
  exact change_completes hcreate (fun s hs => hs.before) fun s hs => (hcreate s hs).before

theorem create_plan_root_taken (htaken : D.plan plan.id ≠ none) :
    Leaves fates (Ready D) (create_plan_root plan.id) (fun _ _ => False) (Before D) := by
  intro s hs
  have hsome : (s.plan plan.id).isSome = true := by
    rw [hs.plan]
    exact Option.isSome_iff_ne_none.mpr htaken
  have hrefused : create_plan_root plan.id fates s = (.failed .StorageUnavailable, s) := by
    simp [create_plan_root, bind, Script.bind, Script.see, Script.ofExcept, Script.throw, hsome]
  rw [hrefused]
  exact hs.before

def recheckCalls (plan : RecoveryPlan) : List Call :=
  .read_format :: plan.files.flatMap fun file =>
    [.read_current file.kind, .read_last_good file.kind]

variable {file : RecoveryFilePlan} {behind : List RecoveryFilePlan}

theorem recheck_file_completes {P : Disk → Prop} (hkept : ∀ s, P s → Kept D s)
    (h : FilePlanned codec D file) :
    Completes fates P (recheck_file codec file) [.read_current file.kind, .read_last_good file.kind]
      (fun _ => P) (Before D) := by
  refine Completes.next (c := [Call.read_current file.kind]) (Q := fun _ => P) ?_ fun _ => ?_
  · apply Completes.read
    · intro _ s hs
      refine ⟨(), ?_, hs⟩
      have hcurrent : read_current (s.primary file.kind) = .ok file.current := by
        rw [(hkept s hs).untouched.primary, read_current_ok]
        exact ⟨h.current, h.current_fits⟩
      simp [hcurrent, bind, Except.bind, h.current_sha256, pure, Except.pure]
    · exact fun _ s hs => (hkept s hs).before
  · apply Completes.read
    · intro _ s hs
      refine ⟨(), ?_, hs⟩
      have hgood : read_regular_bounded (s.last_good file.kind) MAX_METADATA_BYTES =
          .ok file.last_good := by
        rw [(hkept s hs).untouched.last_good, read_regular_bounded_ok]
        exact ⟨h.last_good, h.last_good_fits⟩
      simp [hgood, bind, Except.bind, Except.mapError, h.last_good_sha256, h.last_good_valid, pure,
        Except.pure]
    · exact fun _ s hs => (hkept s hs).before

theorem recheck_plan_completes {P : Disk → Prop} (hkept : ∀ s, P s → Kept D s)
    (hplanned : Planned codec D plan) :
    Completes fates P (recheck_plan codec plan) (recheckCalls plan) (fun _ => P) (Before D) := by
  refine Completes.next (c := [Call.read_format]) (Q := fun _ => P) ?_ fun _ => ?_
  · apply Completes.read
    · intro _ s hs
      refine ⟨(), ?_, hs⟩
      rw [(hkept s hs).untouched.format]
      exact hplanned.format
    · exact fun _ s hs => (hkept s hs).before
  · refine Completes.each (fun _ => P) fun before file after h => ?_
    exact recheck_file_completes hkept (hplanned.files file (by simp [h]))

theorem Backing.saved (hs : Backing D plan behind s)
    (hplanned : ∀ other ∈ behind, FilePlanned codec D other) (h : FilePlanned codec D file) :
    Backing D plan (behind ++ [file])
      (s.setBackup plan.id file.kind (.file (file.current.getD []))) := by
  refine ⟨hs.toKept.inFolder ?_ ?_, ?_, ?_, ?_⟩
  · exact Disk.marker_setBackup
  · exact Disk.active_setBackup
  · rw [Disk.plan_setBackup]
    exact hs.folder
  · intro kind
    rw [Disk.backup_setBackup hs.folder]
    by_cases heq : kind = file.kind
    · exact ⟨some (file.current.getD []), by simp [heq, entryOf]⟩
    · simpa [heq] using hs.sound kind
  · intro other hother
    rw [Disk.backup_setBackup hs.folder]
    rw [List.mem_append, List.mem_singleton] at hother
    by_cases heq : other.kind = file.kind
    · rw [heq, Function.update_self]
      rcases hother with hother | rfl
      · have hsame := (hplanned other hother).current
        rw [heq, h.current, entryOf_inj] at hsame
        rw [hsame]
      · rfl
    · rw [Function.update_of_ne heq]
      rcases hother with hother | rfl
      · exact hs.backups other hother
      · exact absurd rfl heq

theorem back_up_completes (hplanned : ∀ other ∈ behind, FilePlanned codec D other)
    (h : FilePlanned codec D file) :
    Completes fates (Backing D plan behind) (back_up codec plan.id file)
      [.write_backup file.kind, .read_backup file.kind] (fun _ => Backing D plan (behind ++ [file]))
      (Before D) := by
  refine Completes.next (c := [Call.write_backup file.kind])
    (Q := fun _ => Backing D plan (behind ++ [file])) ?_ fun _ => ?_
  · apply write_completes
    · intro s hs
      obtain ⟨current, hcurrent⟩ := hs.sound file.kind
      rw [hcurrent]
      exact entryOf_ne current
    · exact fun s hs => hs.folder
    · exact fun s hs => hs.saved hplanned h
    · exact fun s hs => hs.before
    · exact fun s hs => (hs.saved hplanned h).before
  · refine Completes.next (c := [Call.read_backup file.kind])
      (Q := fun saved s => Backing D plan (behind ++ [file]) s ∧ saved = file.current.getD []) ?_
      fun saved => ?_
    · apply Completes.read
      · intro _ s hs
        refine ⟨file.current.getD [], ?_, hs, rfl⟩
        rw [mapError_ok_iff, read_regular_bounded_ok]
        exact ⟨hs.backups file (by simp), saved_fits h⟩
      · exact fun _ s hs => hs.before
    · refine Completes.given (fun s hs => hs.2) ?_
      rintro rfl
      exact Completes.passes (by simp [h.current_sha256]) fun s hs => hs.1

/-! ## From the journal on -/

theorem pending_of_backing (hs : Backing D plan plan.files s) :
    Pending D plan (s.setActive (.file (some (plan.journal 0)))) where
  format := by simpa [Disk.setActive] using hs.untouched.format
  last_good := by simpa [Disk.setActive] using hs.untouched.last_good
  primary := by
    simp [Disk.setActive, hs.untouched.primary]
  marked := by simpa using hs.marked
  files := by
    simp [Disk.setActive, hs.untouched.primary]
  journal :=
    ⟨0, Nat.zero_le _, Disk.active_setActive (Disk.hasFolder_of_marker hs.marked)⟩
  backups := by simpa using hs.backups

theorem write_first_journal_completes (hactive : D.active ≠ .link ∧ D.active ≠ .folder) :
    Completes fates (Backing D plan plan.files) (write_journal (plan.journal 0)) [.write_journal 0]
      (fun _ => Pending D plan) (Safe D plan) := by
  apply write_completes
  · intro s hs
    rwa [hs.active]
  · exact fun s hs => Disk.hasFolder_of_marker hs.marked
  · exact fun s hs => pending_of_backing hs
  · exact fun s hs => .inl hs.before
  · exact fun s hs => .inr (pending_of_backing hs)

/-- The journal is in place, and so are the last good files behind. -/
structure Published (D : Disk) (plan : RecoveryPlan) (behind : List RecoveryFilePlan) (s : Disk) :
    Prop extends Pending D plan s where
  out : ∀ file ∈ behind, s.primary file.kind = .file file.last_good

theorem Published.put (hs : Published D plan behind s)
    (hplanned : ∀ other ∈ behind, FilePlanned codec D other) (hfile : file ∈ plan.files)
    (h : FilePlanned codec D file) :
    Published D plan (behind ++ [file]) (s.setPrimary file.kind (.file file.last_good)) where
  toPending := hs.toPending.setPrimary hfile (.inr h.last_good.symm)
  out := by
    intro other hother
    rw [List.mem_append, List.mem_singleton] at hother
    by_cases heq : other.kind = file.kind
    · rcases hother with hother | rfl
      · have hsame := (hplanned other hother).last_good
        rw [heq, h.last_good] at hsame
        simp [heq, hsame]
      · simp
    · rcases hother with hother | rfl
      · simpa [heq] using hs.out other hother
      · exact absurd rfl heq

theorem Published.journaled (hs : Published D plan behind s) {n : Nat}
    (hn : n ≤ plan.files.length) :
    Published D plan behind (s.setActive (.file (some (plan.journal n)))) where
  format := by simpa [Disk.setActive] using hs.format
  last_good := by simpa [Disk.setActive] using hs.last_good
  primary := by simpa [Disk.setActive] using hs.primary
  marked := by simpa using hs.marked
  files := by simpa [Disk.setActive] using hs.files
  journal := ⟨n, hn, Disk.active_setActive hs.hasFolder⟩
  backups := by simpa using hs.backups
  out := by simpa [Disk.setActive] using hs.out

section
variable (hplanned : Planned codec D plan) (hfiles : plan.files ≠ [])
include hplanned hfiles

theorem publish_completes {index : Nat} (hbehind : ∀ other ∈ behind, FilePlanned codec D other)
    (hfile : file ∈ plan.files) (hindex : index < plan.files.length) :
    Completes fates (Published D plan behind) (publish codec plan (file, index))
      [.publish file.kind, .write_journal (index + 1)] (fun _ => Published D plan (behind ++ [file]))
      (Safe D plan) := by
  have hput : ∀ s, Published D plan behind s →
      Published D plan (behind ++ [file]) (s.setPrimary file.kind (.file file.last_good)) :=
    fun s hs => hs.put hbehind hfile (hplanned.files file hfile)
  refine Completes.next (c := [Call.publish file.kind])
    (Q := fun _ => Published D plan (behind ++ [file])) ?_ fun _ => ?_
  · refine Completes.orElse (T := Pending D plan) ?_ (fun s hs => .inr hs)
      (rollback_or_required_leaves hplanned hfiles (Nat.le_of_lt hindex))
    apply write_completes
    · intro s hs
      obtain ⟨current, hcurrent⟩ := hs.sound hfile (hplanned.files file hfile)
      rw [hcurrent]
      exact entryOf_ne current
    · exact fun _ _ => rfl
    · exact hput
    · exact fun s hs => hs.toPending
    · exact fun s hs => (hput s hs).toPending
  · refine Completes.orElse (T := Pending D plan) ?_ (fun s hs => .inr hs)
      (rollback_or_required_leaves hplanned hfiles hindex)
    apply write_completes
    · intro s hs
      obtain ⟨n, -, hactive⟩ := hs.journal
      simp [hactive]
    · exact fun s hs => hs.hasFolder
    · exact fun s hs => hs.journaled hindex
    · exact fun s hs => hs.toPending
    · exact fun s hs => (hs.journaled hindex).toPending

theorem verify_completes (hfile : file ∈ plan.files) : Completes fates (Published D plan plan.files)
      (Script.orElse (verify codec file)
        (rollback_or_required codec (plan.journal plan.files.length)))
      [.read_published file.kind] (fun _ => Published D plan plan.files) (Safe D plan) := by
  have h := hplanned.files file hfile
  refine Completes.orElse (T := Pending D plan) ?_ (fun s hs => .inr hs)
    (rollback_or_required_leaves hplanned hfiles le_rfl)
  refine Completes.next (c := [Call.read_published file.kind])
    (Q := fun restored s => Published D plan plan.files s ∧ restored = file.last_good) ?_
    fun restored => ?_
  · apply Completes.read
    · intro _ s hs
      refine ⟨file.last_good, ?_, hs, rfl⟩
      rw [mapError_ok_iff, read_regular_bounded_ok]
      exact ⟨hs.out file hfile, h.last_good_fits⟩
    · exact fun _ s hs => hs.toPending
  · refine Completes.given (fun s hs => hs.2) ?_
    rintro rfl
    exact Completes.passes (by simp [h.last_good_sha256, h.last_good_valid]) fun s hs => hs.1

theorem undo_leaves {α : Type} (value : RecoveryErrorCode) :
    Leaves fates (Pending D plan) (undo codec plan value : Recover α) (fun _ _ => False)
      (Safe D plan) := by
  refine Leaves.next (Q := fun _ => Pending D plan) ?_ fun _ =>
    rollback_or_required_leaves hplanned hfiles le_rfl value
  exact Leaves.weaken (Completes.leaves (keep_completes fun s hs => hs)) (fun _ => id)
    (fun _ _ => id) fun s hs => .inr hs

theorem rebuild_completes :
    Completes fates (Published D plan plan.files) (Script.orElse rebuild_indexes (undo codec plan))
      [.rebuild_indexes] (fun _ => Published D plan plan.files) (Safe D plan) :=
  Completes.orElse (T := Pending D plan) (keep_completes fun _ hs => hs.toPending)
    (fun _ hs => .inr hs) (undo_leaves hplanned hfiles)

end

/-- The calls that a restore makes under the lock when nothing stops it. -/
def lockedCalls (plan : RecoveryPlan) : List Call :=
  [.lock] ++ recheckCalls plan ++ [.is_cancelled 1] ++
    plan.files.flatMap (fun file => [.write_backup file.kind, .read_backup file.kind]) ++
    [.is_cancelled 2, .write_journal 0] ++
    plan.files.zipIdx.flatMap
      (fun numbered => [.publish numbered.1.kind, .write_journal (numbered.2 + 1)]) ++
    plan.files.flatMap (fun file => [.read_published file.kind])

theorem check_cancelled_completes {boundary : Nat} {P S : Disk → Prop} (h : ∀ s, P s → S s) :
    Completes fates P (check_cancelled boundary) [.is_cancelled boundary] (fun _ => P) S :=
  Completes.call (fun _ _ => id) (fun _ _ _ => h) fun _ _ => h

theorem place_completes (hactive : D.active ≠ .link ∧ D.active ≠ .folder)
    (hplanned : Planned codec D plan) (hfiles : plan.files ≠ []) :
    Completes fates (Backing D plan []) (place codec plan) (lockedCalls plan)
      (fun _ => Published D plan plan.files) (Safe D plan) := by
  have hsafe : ∀ {α : Type} {P : Disk → Prop} {x : Recover α} {c : List Call} {Q : α → Disk → Prop},
      Completes fates P x c Q (Before D) → Completes fates P x c Q (Safe D plan) :=
    fun hx => Completes.weaken hx (fun _ => id) (fun _ _ => id) fun _ => .inl
  have hkept : ∀ {behind s}, Backing D plan behind s → Safe D plan s :=
    fun hs => .inl hs.before
  refine Completes.listed (c := [Call.lock] ++ (recheckCalls plan ++
    ([Call.is_cancelled 1] ++ (plan.files.flatMap
      (fun file => [.write_backup file.kind, .read_backup file.kind]) ++ ([Call.is_cancelled 2] ++
    ([Call.write_journal 0] ++ (plan.files.zipIdx.flatMap
      (fun numbered => [.publish numbered.1.kind, .write_journal (numbered.2 + 1)]) ++
    plan.files.flatMap (fun file => [.read_published file.kind]))))))))
    ?_ (by simp [lockedCalls])
  refine Completes.next (keep_completes fun s hs => hkept hs) fun _ => ?_
  refine Completes.next
    (hsafe (recheck_plan_completes (fun s hs => hs.toKept) hplanned)) fun _ => ?_
  refine Completes.next (check_cancelled_completes fun s hs => hkept hs) fun _ => ?_
  refine Completes.next (hsafe (Completes.each (Backing D plan) ?_)) fun _ => ?_
  · intro before file after hsplit
    apply back_up_completes
    · exact fun other hother => hplanned.files other (by simp [hsplit, hother])
    · exact hplanned.files file (by simp [hsplit])
  refine Completes.next (check_cancelled_completes fun s hs => hkept hs) fun _ => ?_
  refine Completes.next (write_first_journal_completes hactive) fun _ => ?_
  refine Completes.next (Q := fun _ => Published D plan plan.files) ?_ fun _ => ?_
  · refine Completes.weaken (Completes.each (fun behind => Published D plan (behind.map Prod.fst)) ?_)
      (fun s hs => ⟨hs, by simp⟩) ?_ fun _ => id
    · rintro before ⟨file, index⟩ after hsplit
      have hmem : ∀ numbered ∈ before ++ (file, index) :: after,
          numbered.1 ∈ plan.files ∧ numbered.2 < plan.files.length := by
        rintro ⟨other, place⟩ hother
        rw [← hsplit] at hother
        exact ⟨List.fst_mem_of_mem_zipIdx hother, List.snd_lt_of_mem_zipIdx hother⟩
      have hhere := hmem (file, index) (by simp)
      rw [List.map_append, List.map_singleton]
      refine publish_completes hplanned hfiles ?_ hhere.1 hhere.2
      intro other hother
      obtain ⟨numbered, hnumbered, rfl⟩ := List.mem_map.mp hother
      exact hplanned.files _ (hmem numbered (by simp [hnumbered])).1
    · intro _ s hs
      rwa [List.zipIdx_map_fst] at hs
  · refine Completes.each (fun _ => Published D plan plan.files) ?_
    intro before file after hsplit
    exact verify_completes hplanned hfiles (by simp [hsplit])

end

end multiplex_store.recovery
