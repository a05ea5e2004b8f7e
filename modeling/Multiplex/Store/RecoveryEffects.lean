-- What each part of a restore or a recovery can do to a store that others use
-- too, however it ends: which folders it leaves alone, and what it can put in a
-- file's place.
import Multiplex.Store.RecoveryActors

open Crashes Checks

namespace multiplex_store.recovery

section
variable {codec : Codec} {D s : Disk} {plan : RecoveryPlan} {fates : Fates}

/-! ## Before the lock -/

/-- The files and the journal are the same, and so is every plan folder that was there. -/
structure SameFiles (D s : Disk) : Prop where
  primary : s.primary = D.primary
  last_good : s.last_good = D.last_good
  active : s.active = D.active
  plans : ∀ id, (D.plan id).isSome → s.plan id = D.plan id
  marked : D.marker = .file MARKER_BYTES → s.marker = .file MARKER_BYTES

theorem sameFiles_refl : SameFiles D D := ⟨rfl, rfl, rfl, fun _ _ => rfl, id⟩

structure SameFolders (D s : Disk) : Prop extends SameFiles D s where
  plan : s.plan = D.plan

theorem ensure_folder_leaves :
    Leaves fates (· = D) ensure_folder (fun _ s => SameFolders D s ∧ s.hasFolder = true)
      (SameFolders D) := by
  have hsame : SameFolders D D := ⟨sameFiles_refl, rfl⟩
  have hcreate : D.recovery_root = .absent → SameFolders D D.createRoot := by
    intro hroot
    have hplan : D.createRoot.plan = D.plan := by
      funext id
      simp [Disk.plan, Disk.createRoot, hroot]
    refine ⟨⟨rfl, rfl, ?_, fun id _ => congrFun hplan id, ?_⟩, hplan⟩
    · simp [Disk.active, Disk.createRoot, hroot]
    · intro hmarker
      simp [Disk.marker, hroot] at hmarker
  refine Leaves.next (Q := fun root s => s = D ∧ D.recovery_root = root) (Leaves.read ?_ ?_)
    fun root => ?_
  · rintro s root rfl ⟨rfl⟩
    exact ⟨rfl, rfl⟩
  · rintro s rfl
    exact hsame
  refine Leaves.given (fun s hs => hs.2) fun hroot => ?_
  cases root with
  | foreign => exact Leaves.thrown _ fun s hs => hs.1 ▸ hsame
  | folder r =>
    rintro s ⟨rfl, -⟩
    exact ⟨hsame, by simp [Disk.hasFolder, hroot]⟩
  | absent =>
    refine Leaves.next (Q := fun _ s => s = D.createRoot) (Completes.leaves (change_completes ?_ ?_ ?_))
      fun _ => ?_
    · rintro s ⟨rfl, -⟩
      rfl
    · rintro s ⟨rfl, -⟩
      exact hsame
    · rintro s ⟨rfl, -⟩
      exact hcreate hroot
    · refine Leaves.weaken (Completes.leaves (keep_completes (S := SameFolders D) ?_)) (fun _ => id) ?_
        fun _ => id
      · rintro s rfl
        exact hcreate hroot
      · rintro - s rfl
        exact ⟨hcreate hroot, rfl⟩

variable {e : Entry Bytes} {call : Call} {I : Disk → Prop}

theorem SameFolders.setMarker (h : SameFolders D s)
    (he : D.marker ≠ .file MARKER_BYTES ∨ e = .file MARKER_BYTES) (hfolder : s.hasFolder = true) :
    SameFolders D (s.setMarker e) := by
  have hplan : (s.setMarker e).plan = D.plan := by
    rw [← h.plan]
    unfold Disk.setMarker Disk.inFolder Disk.plan
    cases hroot : s.recovery_root <;> simp [hroot]
  refine ⟨⟨?_, ?_, ?_, fun id _ => congrFun hplan id, ?_⟩, hplan⟩
  · simpa [Disk.setMarker] using h.primary
  · simpa [Disk.setMarker] using h.last_good
  · rw [← h.active]
    unfold Disk.setMarker Disk.inFolder Disk.active
    cases hroot : s.recovery_root <;> simp [hroot]
  · intro hmarker
    rcases he with hne | rfl
    · exact absurd hmarker hne
    · exact Disk.marker_setMarker hfolder

theorem create_marker_leaves (hmarker : D.marker ≠ .file MARKER_BYTES) :
    Leaves fates (fun s => SameFolders D s ∧ s.hasFolder = true) create_marker
      (fun _ s => SameFolders D s ∧ s.marker = .file MARKER_BYTES) (SameFolders D) := by
  have hpart : ∀ n s, SameFolders D s ∧ s.hasFolder = true →
      SameFolders D (create_marker.partly n s) := by
    rintro n s ⟨hs, hfolder⟩
    cases n with
    | zero => exact hs
    | succ n => exact hs.setMarker (.inl hmarker) hfolder
  refine Completes.leaves (c := [Call.create_marker]) (Completes.call ?_ ?_ ?_)
  · rintro - s ⟨hs, hfolder⟩
    exact ⟨hs.setMarker (.inl hmarker) hfolder, Disk.marker_setMarker hfolder⟩
  · exact fun e n _ s hs => hpart n s hs
  · exact fun n _ s hs => hpart n s hs

theorem ensure_marker_leaves :
    Leaves fates (fun s => SameFolders D s ∧ s.hasFolder = true) ensure_marker
      (fun _ s => SameFolders D s ∧ s.marker = .file MARKER_BYTES) (SameFolders D) := by
  refine Leaves.next (Q := fun entry s => (SameFolders D s ∧ s.hasFolder = true) ∧ s.marker = entry)
    (Leaves.read ?_ fun s hs => hs.1) fun entry => ?_
  · rintro s entry hs ⟨rfl⟩
    exact ⟨hs, rfl⟩
  cases entry with
  | link => exact Leaves.thrown _ fun s hs => hs.1.1
  | folder => exact Leaves.thrown _ fun s hs => hs.1.1
  | absent =>
    by_cases hmarker : D.marker = .file MARKER_BYTES
    · rintro s ⟨hs, habsent⟩
      rw [hs.1.marked hmarker] at habsent
      cases habsent
    · exact Leaves.weaken (create_marker_leaves hmarker) (fun s hs => hs.1) (fun _ _ => id)
        fun _ => id
  | file content =>
    refine Leaves.read ?_ fun s hs => hs.1.1
    intro s _ hs hread
    split at hread
    · rename_i hwhole
      exact ⟨hs.1.1, hwhole⟩
    · cases hread

/-- A restore that may go on has a folder of its own, and that folder is empty. -/
structure Opened (D : Disk) (plan : RecoveryPlan) (s : Disk) : Prop extends SameFiles D s where
  fresh : D.plan plan.id = none
  whole : s.marker = .file MARKER_BYTES
  folder : (s.plan plan.id).isSome
  empty : s.backup plan.id = fun _ => .absent

theorem SameFolders.opened (h : SameFolders D s) (hmarker : s.marker = .file MARKER_BYTES)
    (hfresh : D.plan plan.id = none) : Opened D plan (s.createPlan plan.id) := by
  have hfolder := Disk.hasFolder_of_marker hmarker
  refine ⟨⟨?_, ?_, ?_, ?_, ?_⟩, hfresh, ?_, ?_, ?_⟩
  · simpa [Disk.createPlan] using h.primary
  · simpa [Disk.createPlan] using h.last_good
  · rw [Disk.active_createPlan, h.active]
  · intro id hid
    have hne : id ≠ plan.id := by
      rintro rfl
      simp [hfresh] at hid
    rw [← h.plan]
    unfold Disk.createPlan Disk.inFolder Disk.plan
    cases hroot : s.recovery_root <;> simp [hroot, hne]
  · intro _
    rw [Disk.marker_createPlan, hmarker]
  · rw [Disk.marker_createPlan, hmarker]
  · exact Disk.plan_createPlan hfolder
  · exact Disk.backup_createPlan

theorem prepare_leaves :
    Leaves fates (· = D) (prepare plan) (fun _ => Opened D plan) (SameFiles D) := by
  refine Leaves.next (Q := fun _ => (· = D)) (Completes.leaves (check_cancelled_completes ?_))
    fun _ => ?_
  · rintro s rfl
    exact sameFiles_refl
  refine Leaves.next (Q := fun _ s => SameFolders D s ∧ s.marker = .file MARKER_BYTES) ?_ fun _ => ?_
  · refine Leaves.weaken (Leaves.next ensure_folder_leaves fun _ => ensure_marker_leaves)
      (fun _ => id) (fun _ _ => id) fun s hs => hs.toSameFiles
  refine Leaves.next (Q := fun _ s =>
    (SameFolders D s ∧ s.marker = .file MARKER_BYTES) ∧ D.plan plan.id = none) ?_ fun _ => ?_
  · refine Leaves.see ?_ fun s hs => hs.1.toSameFiles
    intro s _ hs hfresh
    rw [hs.1.plan] at hfresh
    split at hfresh
    · cases hfresh
    · rename_i hnone
      exact ⟨hs, by simpa using hnone⟩
  refine Leaves.next (Q := fun _ => Opened D plan) (Completes.leaves (change_completes ?_ ?_ ?_))
    fun _ => Completes.leaves (keep_completes fun s hs => hs.toSameFiles)
  · exact fun s hs => hs.1.1.opened hs.1.2 hs.2
  · exact fun s hs => hs.1.1.toSameFiles
  · exact fun s hs => (hs.1.1.opened hs.1.2 hs.2).toSameFiles

/-! ## Rolling back -/

/-- What a journal's entry puts in its file's place. -/
def savedOf (d : Disk) (plan_id : Uuid) (entry : JournalEntry) : Entry Bytes :=
  if entry.current_present then d.backup plan_id entry.kind else .absent

/-- A rollback puts nothing in a file's place but what its journal says. -/
structure RollsBack (journal : RecoveryJournal) (D s : Disk) : Prop where
  last_good : s.last_good = D.last_good
  active : s.active = D.active ∨ s.active = .absent
  plan : s.plan = D.plan
  marker : s.marker = D.marker
  primary : ∀ kind, s.primary kind = D.primary kind ∨
    ∃ entry ∈ journal.entries, entry.kind = kind ∧
      s.primary kind = savedOf D journal.plan_id entry

theorem rollsBack_refl (journal : RecoveryJournal) : RollsBack journal D D :=
  ⟨rfl, .inl rfl, rfl, rfl, fun _ => .inl rfl⟩

variable {journal : RecoveryJournal} {entry : JournalEntry}

theorem RollsBack.setPrimary (h : RollsBack journal D s) (hentry : entry ∈ journal.entries)
    (he : e = savedOf D journal.plan_id entry) :
    RollsBack journal D (s.setPrimary entry.kind e) where
  last_good := by simpa using h.last_good
  active := by simpa using h.active
  plan := by
    rw [← h.plan]
    rfl
  marker := by simpa using h.marker
  primary := by
    intro kind
    by_cases hkind : kind = entry.kind
    · exact .inr ⟨entry, hentry, hkind.symm, by simp [hkind, he]⟩
    · simpa [hkind] using h.primary kind

theorem RollsBack.setActive (h : RollsBack journal D s) :
    RollsBack journal D (s.setActive .absent) where
  last_good := by simpa [Disk.setActive] using h.last_good
  active := by
    by_cases hfolder : s.hasFolder = true
    · exact .inr (Disk.active_setActive hfolder)
    · have hsame : s.setActive .absent = s := by
        unfold Disk.hasFolder at hfolder
        unfold Disk.setActive Disk.inFolder
        cases hroot : s.recovery_root <;> simp_all
      rw [hsame]
      exact h.active
  plan := by simpa using h.plan
  marker := by simpa using h.marker
  primary := by simpa [Disk.setActive] using h.primary

variable {f : Disk → Disk} {kind : MetadataFileKind} {D₀ : Disk}

theorem write_keeps {α : Type} {target : Disk → Entry α} {parent : Disk → Bool}
    (h : ∀ s, I s → I (f s)) : Keeps fates I (write call target parent f) := by
  have hatomic : ∀ n s, I s → I (atomic f n s) := by
    intro n s hs
    rcases atomic_cases f n s with hcut | hcut
    · rwa [hcut]
    · rw [hcut]
      exact h s hs
  exact Keeps.next Keeps.see fun _ => Keeps.call h hatomic hatomic

theorem change_keeps (h : ∀ s, I s → I (f s)) : Keeps fates I (change call f) := by
  refine Keeps.call h (fun _ _ => id) fun n s hs => ?_
  rcases atomic_cases f n s with hcut | hcut
  · rwa [hcut]
  · rw [hcut]
    exact h s hs

theorem keep_keeps : Keeps fates I (keep call) :=
  Keeps.call (fun _ => id) (fun _ _ => id) fun _ _ => id

theorem remove_keeps (h : ∀ s, I s → I (s.setActive .absent)) :
    Keeps fates I (remove_active_journal call) :=
  Keeps.next Keeps.see fun _ => change_keeps h

theorem roll_back_entry_keeps (hentry : entry ∈ journal.entries) :
    Keeps fates (RollsBack journal D) (roll_back_entry codec journal.plan_id entry) := by
  refine Leaves.next (Q := fun bytes s => RollsBack journal D s ∧
    D.backup journal.plan_id entry.kind = .file bytes) (Leaves.read ?_ fun _ => id) fun bytes => ?_
  · intro s bytes hs hread
    rw [mapError_ok_iff, read_regular_bounded_ok] at hread
    refine ⟨hs, ?_⟩
    have hbackup : s.backup journal.plan_id = D.backup journal.plan_id := by
      funext kind
      simp [Disk.backup, hs.plan]
    rw [← hbackup]
    exact hread.1
  refine Leaves.given (fun s hs => hs.2) fun hbackup => ?_
  refine Leaves.weaken (P := RollsBack journal D) ?_ (fun s hs => hs.1) (fun _ _ => id) fun _ => id
  refine Keeps.next Keeps.refuseIf fun _ => ?_
  cases hpresent : entry.current_present with
  | true =>
    refine Keeps.next (write_keeps fun s hs => hs.setPrimary hentry ?_) fun _ =>
      Keeps.next Keeps.read fun _ => Keeps.refuseIf
    simp [savedOf, hpresent, hbackup]
  | false =>
    refine Keeps.next Keeps.read fun target => ?_
    cases target with
    | absent => exact Keeps.done ()
    | link => exact Keeps.thrown _
    | folder => exact Keeps.thrown _
    | file content =>
      refine change_keeps fun s hs => hs.setPrimary hentry ?_
      simp [savedOf, hpresent]

theorem rollback_journal_keeps :
    Keeps fates (RollsBack journal D) (rollback_journal codec journal) :=
  Keeps.next Keeps.ofExcept fun _ => Keeps.each fun _ hentry => roll_back_entry_keeps hentry

theorem roll_back_locked_keeps :
    Keeps fates (RollsBack journal D) (roll_back_locked codec journal) :=
  Keeps.next keep_keeps fun _ => Keeps.next rollback_journal_keeps fun _ =>
    remove_keeps fun _ hs => hs.setActive

theorem rollback_or_required_keeps {α : Type} (e : RecoveryErrorCode) :
    Keeps fates (RollsBack journal D) (rollback_or_required codec journal e : Recover α) := by
  refine Keeps.next (Keeps.attempt rollback_journal_keeps) ?_
  rintro (e' | ⟨⟩)
  · exact Keeps.thrown _
  · exact Keeps.next (Keeps.attempt (remove_keeps fun _ hs => hs.setActive)) fun _ => Keeps.thrown _

theorem undo_keeps {α : Type} (value : RecoveryErrorCode) :
    Keeps fates (RollsBack (plan.journal plan.files.length) D)
      (undo codec plan value : Recover α) :=
  Keeps.next keep_keeps fun _ => rollback_or_required_keeps value

/-! ## Under the lock -/

structure Beside (D : Disk) (plan : RecoveryPlan) (s : Disk) : Prop where
  plans : ∀ id, id ≠ plan.id → s.plan id = D.plan id
  folder : (s.plan plan.id).isSome

theorem Beside.setPrimary (h : Beside D plan s) : Beside D plan (s.setPrimary kind e) :=
  ⟨h.plans, h.folder⟩

theorem Beside.setActive {e : Entry (Option RecoveryJournal)} (h : Beside D plan s) :
    Beside D plan (s.setActive e) := by
  refine ⟨fun id hid => ?_, ?_⟩
  · rw [Disk.plan_setActive]
    exact h.plans id hid
  · rw [Disk.plan_setActive]
    exact h.folder

theorem Beside.setBackup (h : Beside D plan s) : Beside D plan (s.setBackup plan.id kind e) := by
  refine ⟨fun id hid => ?_, ?_⟩
  · rw [← h.plans id hid]
    unfold Disk.setBackup Disk.inFolder Disk.plan
    cases hroot : s.recovery_root <;> simp [hroot, hid]
  · rw [Disk.plan_setBackup]
    exact h.folder

theorem rollback_or_required_beside {α : Type} (e : RecoveryErrorCode) :
    Keeps fates (Beside D plan) (rollback_or_required codec journal e : Recover α) := by
  have hentry : ∀ entry, Keeps fates (Beside D plan) (roll_back_entry codec journal.plan_id entry) := by
    intro entry
    refine Keeps.next Keeps.read fun bytes => Keeps.next Keeps.refuseIf fun _ => ?_
    split
    · exact Keeps.next (write_keeps fun _ hs => hs.setPrimary) fun _ =>
        Keeps.next Keeps.read fun _ => Keeps.refuseIf
    · refine Keeps.next Keeps.read fun target => ?_
      cases target with
      | absent => exact Keeps.done ()
      | link => exact Keeps.thrown _
      | folder => exact Keeps.thrown _
      | file content => exact change_keeps fun _ hs => hs.setPrimary
  refine Keeps.next (Keeps.attempt
    (Keeps.next Keeps.ofExcept fun _ => Keeps.each fun entry _ => hentry entry)) ?_
  rintro (e' | ⟨⟩)
  · exact Keeps.thrown _
  · exact Keeps.next (Keeps.attempt (remove_keeps fun _ hs => hs.setActive)) fun _ => Keeps.thrown _

theorem place_beside : Keeps fates (Beside D plan) (place codec plan) := by
  have hcancelled : ∀ boundary, Keeps fates (Beside D plan) (check_cancelled boundary) :=
    fun _ => Keeps.call (fun _ => id) (fun _ _ => id) fun _ _ => id
  refine Keeps.next keep_keeps fun _ => ?_
  refine Keeps.next (Keeps.next Keeps.read fun _ => Keeps.each fun _ _ =>
    Keeps.next Keeps.read fun _ => Keeps.read) fun _ => ?_
  refine Keeps.next (hcancelled 1) fun _ => ?_
  refine Keeps.next (Keeps.each fun _ _ => Keeps.next (write_keeps fun _ hs => hs.setBackup) fun _ =>
    Keeps.next Keeps.read fun _ => Keeps.refuseIf) fun _ => ?_
  refine Keeps.next (hcancelled 2) fun _ => ?_
  refine Keeps.next (write_keeps fun _ hs => hs.setActive) fun _ => ?_
  refine Keeps.next (Keeps.each fun _ _ => Keeps.next (Keeps.orElse (write_keeps fun _ hs =>
    hs.setPrimary) rollback_or_required_beside) fun _ => Keeps.orElse (write_keeps fun _ hs =>
    hs.setActive) rollback_or_required_beside) fun _ => ?_
  exact Keeps.each fun _ _ => Keeps.orElse (Keeps.next Keeps.read fun _ => Keeps.refuseIf)
    rollback_or_required_beside

/-- A file that passes the check under the lock is the one the plan was made of. -/
theorem recheck_file_leaves {file : RecoveryFilePlan} (h : FilePlanned codec D₀ file)
    (hfile : file ∈ plan.files) (htells : System.tellsApart codec plan D = true) :
    Leaves fates (· = D) (recheck_file codec file) (fun _ s => s = D ∧ FilePlanned codec D file)
      (· = D) := by
  have happart := List.all_eq_true.mp htells file hfile
  rw [Bool.and_eq_true] at happart
  refine Leaves.next (Q := fun _ s => s = D ∧ D.primary file.kind = entryOf file.current)
    (Leaves.read ?_ fun s hs => hs) fun _ => ?_
  · rintro s _ rfl hread
    refine ⟨rfl, ?_⟩
    simp only [bind_ok_iff, read_current_ok] at hread
    obtain ⟨current, ⟨hcurrent, -⟩, hsame⟩ := hread
    have hsha : current.map codec.sha256_hex = file.current_sha256 := by
      by_contra hne
      rw [if_pos hne] at hsame
      cases hsame
    rw [hcurrent, entryOf_inj]
    cases current with
    | none =>
      rw [h.current_sha256] at hsha
      exact (Option.map_eq_none_iff.mp hsha.symm).symm
    | some bytes =>
      have hbytes := happart.1
      rw [hcurrent] at hbytes
      simp [entryOf] at hbytes
      rcases hbytes with hbytes | hbytes
      · exact hbytes.symm
      · exact absurd hsha.symm hbytes
  refine Leaves.given (fun s hs => hs.2) fun hcurrent => ?_
  refine Leaves.read ?_ fun s hs => hs.1
  rintro s _ ⟨rfl, -⟩ hread
  simp [mapError_ok_iff, read_regular_bounded_ok] at hread
  obtain ⟨last_good, ⟨hgood, -⟩, hsame⟩ := hread
  have hsha : codec.sha256_hex last_good = file.last_good_sha256 := by
    by_contra hne
    rw [if_pos (.inl hne)] at hsame
    cases hsame
  have hbytes := happart.2
  rw [hgood] at hbytes
  simp at hbytes
  rcases hbytes with hbytes | hbytes
  · exact ⟨rfl, { h with current := hcurrent, last_good := hbytes ▸ hgood }⟩
  · exact absurd hsha.symm hbytes

theorem recheck_plan_leaves (h : Planned codec D₀ plan)
    (htells : System.tellsApart codec plan D = true) :
    Leaves fates (· = D) (recheck_plan codec plan) (fun _ s => s = D ∧ Planned codec D plan)
      (· = D) := by
  refine Leaves.next (Q := fun _ s => s = D ∧ validate_format codec D.format = .ok ())
    (Leaves.read ?_ fun s hs => hs) fun _ => ?_
  · rintro s ⟨⟩ rfl hread
    exact ⟨rfl, hread⟩
  refine Leaves.given (fun s hs => hs.2) fun hformat => ?_
  refine Leaves.weaken (Leaves.each
    (fun behind s => s = D ∧ ∀ file ∈ behind, FilePlanned codec D file) ?_) ?_ ?_ fun _ => id
  · intro before file after hsplit
    have hfile : file ∈ plan.files := by simp [hsplit]
    refine Leaves.given (fun s hs => hs.2) fun hbefore => ?_
    refine Leaves.weaken (recheck_file_leaves (h.files file hfile) hfile htells) (fun s hs => hs.1)
      ?_ fun _ => id
    rintro - s ⟨hs, hplan⟩
    refine ⟨hs, ?_⟩
    intro other hother
    rw [List.mem_append, List.mem_singleton] at hother
    rcases hother with hother | rfl
    · exact hbefore other hother
    · exact hplan
  · rintro s ⟨rfl, -⟩
    exact ⟨rfl, by simp⟩
  · rintro - s ⟨rfl, hfiles⟩
    exact ⟨rfl, h.kind, hformat, hfiles, h.few⟩

/-- What a restore has done once it gives the lock up: nothing, or a journal with all its backups. -/
def Placed (codec : Codec) (D : Disk) (plan : RecoveryPlan) (s : Disk) : Prop :=
  Before D s ∨ Planned codec D plan ∧ Pending D plan s

theorem place_leaves (h : Planned codec D₀ plan) (hfiles : plan.files ≠ [])
    (hactive : D.active ≠ .link ∧ D.active ≠ .folder) (hmarker : D.marker = .file MARKER_BYTES)
    (hfolder : (D.plan plan.id).isSome) (hempty : D.backup plan.id = fun _ => .absent)
    (htells : System.tellsApart codec plan D = true) : Leaves fates (· = D) (place codec plan)
      (fun _ s => Planned codec D plan ∧ Published D plan plan.files s) (Placed codec D plan) := by
  have hbefore : Before D D := ⟨untouched_refl, .inr hmarker, .inr rfl⟩
  have hbacking : Backing D plan [] D :=
    ⟨⟨untouched_refl, hmarker, rfl⟩, hfolder, fun kind => ⟨none, by simp [hempty, entryOf]⟩, by simp⟩
  by_cases hplanned : Planned codec D plan
  · refine Leaves.weaken (place_completes hactive hplanned hfiles).leaves ?_ ?_ ?_
    · rintro s rfl
      exact hbacking
    · exact fun _ s hs => ⟨hplanned, hs⟩
    · exact fun s hs => hs.imp_right fun hs => ⟨hplanned, hs⟩
  · refine Leaves.next (Q := fun _ => (· = D)) (Completes.leaves (keep_completes ?_)) fun _ => ?_
    · rintro s rfl
      exact .inl hbefore
    refine Leaves.next (Q := fun _ _ => False) ?_ fun _ => Leaves.impossible fun _ => id
    refine Leaves.weaken (recheck_plan_leaves h htells) (fun _ => id) ?_ ?_
    · exact fun _ s hs => hplanned hs.2
    · rintro s rfl
      exact .inl hbefore

/-! ## Reading the journal -/

theorem read_active_journal_found : Leaves fates (· = D) read_active_journal
      (fun found s => s = D ∧ ∀ journal, found = some journal → D.active = .file (some journal))
      (· = D) := by
  refine Leaves.next (Q := fun _ => (· = D)) (Leaves.read (fun s _ hs _ => hs) fun s hs => hs)
    fun root => ?_
  cases root with
  | absent => exact Leaves.done none fun s hs => ⟨hs, nofun⟩
  | foreign => exact Leaves.thrown _ fun s hs => hs
  | folder r =>
    refine Leaves.next (Q := fun _ => (· = D)) (Leaves.read (fun s _ hs _ => hs) fun s hs => hs)
      fun marker => ?_
    refine Leaves.next (Q := fun _ => (· = D)) (Leaves.weaken (Leaves.refuses fun s hs => hs)
      (fun _ => id) (fun _ _ => And.left) fun _ => id) fun _ => ?_
    refine Leaves.read ?_ fun s hs => hs
    rintro s found rfl hread
    refine ⟨rfl, ?_⟩
    rintro journal rfl
    cases hactive : s.active with
    | absent => simp [hactive] at hread
    | link => simp [hactive] at hread
    | folder => simp [hactive] at hread
    | file content =>
      cases content with
      | none => simp [hactive] at hread
      | some active =>
        simp only [hactive] at hread
        cases hvalid : validate_journal active with
        | error e => simp [hvalid, Except.map] at hread
        | ok u =>
          simp [hvalid, Except.map] at hread
          rw [hread]

theorem remove_active_journal_done {d : Disk} {u : Unit}
    (h : remove_active_journal call fates D = (.done u, d)) : d = D.setActive .absent := by
  have hends : Ends (fun _ s => s = D.setActive .absent) (fun _ => True)
      (remove_active_journal call fates D) := by
    refine Leaves.next (P := (· = D)) (Q := fun _ => (· = D))
      (Leaves.see (fun s _ hs _ => hs) fun _ _ => trivial) (fun _ => ?_) D rfl
    refine Completes.leaves (change_completes ?_ (fun _ _ => trivial) fun _ _ => trivial)
    rintro s rfl
    rfl
  rw [h] at hends
  exact hends

end

end multiplex_store.recovery
