-- What each part of a restore leaves on the disk, wherever it is stopped: the
-- files as they were, or a journal with a backup for every file it names.
import Multiplex.Store.Recovery

open Crashes Checks

namespace multiplex_store.recovery

section
variable {codec : Codec} {D s : Disk} {plan : RecoveryPlan} {fates : Fates}

/-! ## Plans -/

def entryOf {α : Type} : Option α → Entry α
  | none => .absent
  | some content => .file content

theorem entryOf_ne {α : Type} (current : Option α) :
    entryOf current ≠ .link ∧ entryOf current ≠ .folder := by
  cases current <;> simp [entryOf]

theorem entryOf_inj {α : Type} {a b : Option α} : entryOf a = entryOf b ↔ a = b := by
  cases a <;> cases b <;> simp [entryOf]

/-- What a plan says of a file is so on the disk it was made on. -/
structure FilePlanned (codec : Codec) (D : Disk) (file : RecoveryFilePlan) : Prop where
  current : D.primary file.kind = entryOf file.current
  current_fits : ∀ bytes, file.current = some bytes → bytes.length ≤ MAX_METADATA_BYTES
  current_sha256 : file.current_sha256 = file.current.map codec.sha256_hex
  current_invalid : file.current.bind (codec.validate_kind file.kind) = none
  last_good : D.last_good file.kind = .file file.last_good
  last_good_fits : file.last_good.length ≤ MAX_METADATA_BYTES
  last_good_sha256 : file.last_good_sha256 = codec.sha256_hex file.last_good
  last_good_valid :
    codec.validate_kind file.kind file.last_good = some file.last_good_revision

structure Planned (codec : Codec) (D : Disk) (plan : RecoveryPlan) : Prop where
  kind : plan.kind = .RestoreLastGoodMetadata
  format : validate_format codec D.format = .ok ()
  files : ∀ file ∈ plan.files, FilePlanned codec D file
  few : plan.files.length ≤ MetadataFileKind.ALL.length

variable {entry : Entry Bytes} {bytes : Bytes} {f : Disk → Disk} {P Q : Disk → Prop} {n : Nat}

theorem read_regular_bounded_ok {limit : Nat} :
    read_regular_bounded entry limit = .ok bytes ↔ entry = .file bytes ∧ bytes.length ≤ limit := by
  unfold read_regular_bounded
  cases entry with
  | absent => simp
  | link => simp
  | folder => simp
  | file content =>
    simp
    split
    · constructor
      · exact nofun
      · rintro ⟨rfl, hfits⟩
        omega
    · constructor
      · rintro ⟨rfl⟩
        exact ⟨rfl, by omega⟩
      · rintro ⟨rfl, -⟩
        rfl

theorem mapError_ok_iff {ε ε' α : Type} {f : ε → ε'} {x : Except ε α} {a : α} :
    x.mapError f = .ok a ↔ x = .ok a := by
  cases x with
  | error e => simp [Except.mapError]
  | ok b => simp [Except.mapError]

theorem read_current_ok {current : Option Bytes} : read_current entry = .ok current ↔
      entry = entryOf current ∧ ∀ bytes, current = some bytes → bytes.length ≤ MAX_METADATA_BYTES := by
  unfold read_current
  cases entry with
  | absent => cases current <;> simp [read_regular_bounded, entryOf]
  | link => cases current <;> simp [read_regular_bounded, entryOf]
  | folder => cases current <;> simp [read_regular_bounded, entryOf]
  | file content =>
    by_cases hlong : MAX_METADATA_BYTES < content.length
    · cases current with
      | none => simp [read_regular_bounded, entryOf, hlong]
      | some bytes =>
        simp only [read_regular_bounded, hlong, if_true, entryOf, Entry.file.injEq]
        constructor
        · exact nofun
        · rintro ⟨rfl, hfits⟩
          exact absurd (hfits content rfl) (by omega)
    · cases current with
      | none => simp [read_regular_bounded, entryOf, hlong]
      | some bytes =>
        simp only [read_regular_bounded, hlong, if_false, entryOf, Entry.file.injEq]
        constructor
        · rintro ⟨rfl⟩
          refine ⟨rfl, ?_⟩
          rintro _ ⟨rfl⟩
          omega
        · rintro ⟨rfl, -⟩
          rfl

variable {file : RecoveryFilePlan} {call : Call} {behind : List JournalEntry}

theorem plan_file_ok {kind : MetadataFileKind} (h : plan_file codec D kind = .ok (some file)) :
    FilePlanned codec D file := by
  unfold plan_file at h
  simp at h
  obtain ⟨current, hcurrent, h⟩ := h
  obtain ⟨hprimary, hfits⟩ := read_current_ok.mp hcurrent
  split at h
  · cases h
  · rename_i hinvalid
    simp [mapError_ok_iff, read_regular_bounded_ok] at h
    obtain ⟨last_good, ⟨hgood, hgoodfits⟩, h⟩ := h
    cases hvalid : codec.validate_kind kind last_good with
    | none => simp [hvalid] at h
    | some revision =>
      simp [hvalid] at h
      subst h
      exact
        { current := hprimary
          current_fits := hfits
          current_sha256 := rfl
          current_invalid := by simpa using hinvalid
          last_good := hgood
          last_good_fits := hgoodfits
          last_good_sha256 := rfl
          last_good_valid := hvalid }

theorem mem_of_mapM {ε α β : Type} {f : α → Except ε β} {l : List α} {l' : List β}
    (h : l.mapM f = .ok l') : l'.length = l.length ∧ ∀ b ∈ l', ∃ a ∈ l, f a = .ok b := by
  induction l generalizing l' with
  | nil =>
    simp at h
    subst h
    simp
  | cons a l ih =>
    simp only [List.mapM_cons, bind_ok_iff, pure_ok_iff] at h
    obtain ⟨b, hb, rest, hrest, rfl⟩ := h
    obtain ⟨hlength, hmem⟩ := ih hrest
    refine ⟨by simp [hlength], ?_⟩
    rw [List.forall_mem_cons]
    refine ⟨⟨a, by simp, hb⟩, ?_⟩
    intro b' hb'
    obtain ⟨a', ha', hf⟩ := hmem b' hb'
    exact ⟨a', by simp [ha'], hf⟩

theorem planned {id : Uuid} (h : plan_restore_last_good codec D id = .ok plan) :
    Planned codec D plan := by
  unfold plan_restore_last_good at h
  simp only [bind_ok_iff, pure_ok_iff] at h
  obtain ⟨_, hformat, found, hfound, rfl⟩ := h
  obtain ⟨hlength, hmem⟩ := mem_of_mapM hfound
  refine ⟨rfl, hformat, ?_, ?_⟩
  · intro file hfile
    simp only [List.mem_filterMap] at hfile
    obtain ⟨_, hin, rfl⟩ := hfile
    obtain ⟨kind, -, hplan⟩ := hmem _ hin
    exact plan_file_ok hplan
  · rw [← hlength]
    exact List.length_filterMap_le _ _

/-! ## Where a restore can stand -/

/-- The files of the store are those of the disk `D`. -/
structure Untouched (D s : Disk) : Prop where
  format : s.format = D.format
  primary : s.primary = D.primary
  last_good : s.last_good = D.last_good

/-- No file has changed, and the restore has left no journal of its own. -/
structure Before (D s : Disk) : Prop where
  untouched : Untouched D s
  marked : s.recovery_root = .absent ∨ s.marker = .file MARKER_BYTES
  active : s.active = .absent ∨ s.active = D.active

theorem Before.others (h : Before D s) (kind : MetadataFileKind) :
    s.primary kind = D.primary kind := by
  rw [h.untouched.primary]

/-- The files that the plan does not name, and what the restore only reads. -/
structure Others (D : Disk) (plan : RecoveryPlan) (s : Disk) : Prop where
  format : s.format = D.format
  last_good : s.last_good = D.last_good
  primary : ∀ kind, (∀ file ∈ plan.files, file.kind ≠ kind) → s.primary kind = D.primary kind
  marked : s.marker = .file MARKER_BYTES

/-- The journal is in place, and with it a backup for each of its files. -/
structure Pending (D : Disk) (plan : RecoveryPlan) (s : Disk) : Prop extends Others D plan s where
  files : ∀ file ∈ plan.files, s.primary file.kind = D.primary file.kind ∨
    s.primary file.kind = D.last_good file.kind
  journal : ∃ n ≤ plan.files.length, s.active = .file (some (plan.journal n))
  backups : ∀ file ∈ plan.files, s.backup plan.id file.kind = .file (file.current.getD [])

/-- The last good files are in place and there is nothing to be rolled back. -/
structure After (D : Disk) (plan : RecoveryPlan) (s : Disk) : Prop extends Others D plan s where
  restored : ∀ file ∈ plan.files, s.primary file.kind = D.last_good file.kind
  idle : s.active = .absent

/-- A restore that has stopped, and that can be rolled back. -/
def Safe (D : Disk) (plan : RecoveryPlan) (s : Disk) : Prop := Before D s ∨ Pending D plan s

/-- A write that the environment lets through is made, and one that it stops is made or not. -/
theorem write_completes {α : Type} {target : Disk → Entry α} {parent : Disk → Bool}
    {S : Disk → Prop} (htarget : ∀ s, P s → target s ≠ .link ∧ target s ≠ .folder)
    (hparent : ∀ s, P s → parent s = true) (hdone : ∀ s, P s → Q (f s)) (hold : ∀ s, P s → S s)
    (hnew : ∀ s, P s → S (f s)) :
    Completes fates P (write call target parent f) [call] (fun _ => Q) S := by
  have hatomic : ∀ n s, P s → S (atomic f n s) := by
    intro n s hs
    rcases atomic_cases f n s with h | h
    · rw [h]; exact hold s hs
    · rw [h]; exact hnew s hs
  refine Completes.next (Q := fun _ => P) (c := []) (Completes.see ?_) ?_
  · intro s hs
    obtain ⟨hlink, hfolder⟩ := htarget s hs
    refine ⟨(), ?_, hs⟩
    cases htarget : target s with
    | link => exact absurd htarget hlink
    | folder => exact absurd htarget hfolder
    | absent => simp [hparent s hs]
    | file content => simp [hparent s hs]
  · intro _
    exact Completes.call (fun _ => hdone) (fun _ n _ => hatomic n) fun n _ => hatomic n

theorem change_completes {S : Disk → Prop} (hdone : ∀ s, P s → Q (f s)) (hold : ∀ s, P s → S s)
    (hnew : ∀ s, P s → S (f s)) : Completes fates P (change call f) [call] (fun _ => Q) S := by
  refine Completes.call (fun _ => hdone) (fun _ _ _ => hold) fun n _ s hs => ?_
  rcases atomic_cases f n s with h | h
  · rw [h]; exact hold s hs
  · rw [h]; exact hnew s hs

theorem keep_completes {S : Disk → Prop} (h : ∀ s, P s → S s) :
    Completes fates P (keep call) [call] (fun _ => P) S :=
  Completes.call (fun _ _ => id) (fun _ _ _ => h) fun _ _ => h

/-! ## Rolling back -/

/-- What is behind a rollback is as it was. -/
structure RolledBack (D : Disk) (plan : RecoveryPlan) (behind : List JournalEntry) (s : Disk) :
    Prop extends Pending D plan s where
  back : ∀ entry ∈ behind, s.primary entry.kind = D.primary entry.kind

theorem Others.setPrimary (h : Others D plan s) (hfile : file ∈ plan.files) (e : Entry Bytes) :
    Others D plan (s.setPrimary file.kind e) where
  format := by simpa using h.format
  last_good := by simpa using h.last_good
  primary := by
    intro kind hkind
    have hne : kind ≠ file.kind := Ne.symm (hkind file hfile)
    simpa [hne] using h.primary kind hkind
  marked := by simpa using h.marked

theorem Pending.setPrimary {e : Entry Bytes} (h : Pending D plan s) (hfile : file ∈ plan.files)
    (he : e = D.primary file.kind ∨ e = D.last_good file.kind) :
    Pending D plan (s.setPrimary file.kind e) where
  toOthers := h.toOthers.setPrimary hfile _
  files := by
    intro other hother
    by_cases heq : other.kind = file.kind
    · simpa [heq] using he
    · simpa [heq] using h.files other hother
  journal := by simpa using h.journal
  backups := by simpa using h.backups

/-- What stands in the place of a file that the plan names is a file or nothing. -/
theorem Pending.sound (h : Pending D plan s) (hfile : file ∈ plan.files)
    (hplan : FilePlanned codec D file) : ∃ current, s.primary file.kind = entryOf current := by
  rcases h.files file hfile with hsame | hgood
  · exact ⟨file.current, hsame.trans hplan.current⟩
  · exact ⟨some file.last_good, hgood.trans hplan.last_good⟩

theorem RolledBack.restored (h : RolledBack D plan behind s) (hfile : file ∈ plan.files)
    (hplan : FilePlanned codec D file) :
    RolledBack D plan (behind ++ [file.entry]) (s.setPrimary file.kind (entryOf file.current)) where
  toPending := h.toPending.setPrimary hfile (.inl hplan.current.symm)
  back := by
    intro entry hentry
    rw [List.mem_append, List.mem_singleton] at hentry
    by_cases heq : entry.kind = file.kind
    · simp [heq, hplan.current]
    · rcases hentry with hentry | rfl
      · simpa [heq] using h.back entry hentry
      · exact absurd rfl heq

theorem saved_fits (h : FilePlanned codec D file) :
    (file.current.getD []).length ≤ MAX_METADATA_BYTES := by
  cases hcurrent : file.current with
  | none => simp
  | some bytes => exact h.current_fits bytes hcurrent

/-- What a stopped rollback leaves, with a call that the environment has stopped. -/
abbrev Interrupted (fates : Fates) (P : Disk → Prop) (s : Disk) : Prop :=
  P s ∧ ¬ ∀ i, fates i = .goes

section
variable (hfile : file ∈ plan.files) (hplan : FilePlanned codec D file)
include hfile hplan

theorem put_back_leaves (hcurrent : file.current = some bytes) :
    Leaves fates (RolledBack D plan behind) (put_back file.kind bytes)
      (fun _ => RolledBack D plan (behind ++ [file.entry])) (Interrupted fates (Pending D plan)) := by
  have hback : ∀ s, RolledBack D plan behind s →
      RolledBack D plan (behind ++ [file.entry]) (s.setPrimary file.kind (.file bytes)) := by
    intro s hs
    have h := hs.restored hfile hplan
    rwa [hcurrent] at h
  have hkeeps : ∀ s, RolledBack D plan (behind ++ [file.entry]) s →
      s.primary file.kind = .file bytes := by
    intro s hs
    have hsame : s.primary file.kind = D.primary file.kind := hs.back file.entry (by simp)
    rw [hsame, hplan.current, hcurrent]
    rfl
  refine Completes.undisturbed (c := [.write_back file.kind] ++ ([.read_back file.kind] ++ [])) ?_
  refine Completes.next (Q := fun _ => RolledBack D plan (behind ++ [file.entry])) ?_ fun _ => ?_
  · apply write_completes
    · intro s hs
      obtain ⟨current, hentry⟩ := hs.sound hfile hplan
      rw [hentry]
      exact entryOf_ne current
    · exact fun _ _ => rfl
    · exact hback
    · exact fun s hs => hs.toPending
    · exact fun s hs => (hback s hs).toPending
  · refine Completes.next (Q := fun restored s =>
      RolledBack D plan (behind ++ [file.entry]) s ∧ restored = bytes) ?_ ?_
    · apply Completes.read
      · intro _ s hs
        refine ⟨bytes, ?_, hs, rfl⟩
        rw [mapError_ok_iff, read_regular_bounded_ok]
        exact ⟨hkeeps s hs, hplan.current_fits bytes hcurrent⟩
      · exact fun _ s hs => hs.toPending
    · intro restored
      refine Leaves.given (fun s hs => hs.2) ?_
      rintro rfl
      exact Completes.passes (by simp) fun s hs => hs.1

theorem take_away_leaves (hcurrent : file.current = none) :
    Leaves fates (RolledBack D plan behind) (take_away file.kind)
      (fun _ => RolledBack D plan (behind ++ [file.entry])) (Interrupted fates (Pending D plan)) := by
  have hback : ∀ s, RolledBack D plan behind s →
      RolledBack D plan (behind ++ [file.entry]) (s.setPrimary file.kind .absent) := by
    intro s hs
    have h := hs.restored hfile hplan
    rwa [hcurrent] at h
  refine Leaves.next (Q := fun target s => RolledBack D plan behind s ∧ s.primary file.kind = target)
    (Completes.undisturbed (c := [.inspect_target file.kind]) ?_) ?_
  · apply Completes.read
    · exact fun _ s hs => ⟨s.primary file.kind, rfl, hs, rfl⟩
    · exact fun _ s hs => hs.toPending
  · intro target
    have htarget : ∀ s, RolledBack D plan behind s ∧ s.primary file.kind = target →
        ∃ current, target = entryOf current := by
      rintro s ⟨hs, rfl⟩
      exact hs.sound hfile hplan
    refine Leaves.given htarget ?_
    rintro ⟨current, rfl⟩
    cases current with
    | none =>
      rintro s ⟨hs, hnone⟩
      refine ⟨hs.toPending, ?_⟩
      intro entry hentry
      rw [List.mem_append, List.mem_singleton] at hentry
      rcases hentry with hentry | rfl
      · exact hs.back entry hentry
      · show s.primary file.kind = D.primary file.kind
        rw [hnone, hplan.current, hcurrent]
    | some bytes =>
      refine Completes.undisturbed (c := [.remove_target file.kind]) ?_
      apply change_completes
      · exact fun s hs => hback s hs.1
      · exact fun s hs => hs.1.toPending
      · exact fun s hs => (hback s hs.1).toPending

theorem roll_back_entry_leaves :
    Leaves fates (RolledBack D plan behind) (roll_back_entry codec plan.id file.entry)
      (fun _ => RolledBack D plan (behind ++ [file.entry])) (Interrupted fates (Pending D plan)) := by
  refine Leaves.next (Q := fun bytes s => RolledBack D plan behind s ∧ bytes = file.current.getD [])
    (Completes.undisturbed (c := [.read_saved file.kind]) ?_) fun bytes => ?_
  · apply Completes.read
    · intro _ s hs
      refine ⟨file.current.getD [], ?_, hs, rfl⟩
      rw [mapError_ok_iff, read_regular_bounded_ok]
      exact ⟨hs.backups file hfile, saved_fits hplan⟩
    · exact fun _ s hs => hs.toPending
  refine Leaves.given (fun s hs => hs.2) ?_
  rintro rfl
  refine Leaves.next (Q := fun _ => RolledBack D plan behind)
    (Completes.undisturbed (c := []) (Completes.passes ?_ fun s hs => hs.1)) fun _ => ?_
  · rintro ⟨hsha, hpresent⟩
    obtain ⟨bytes, hbytes⟩ := Option.isSome_iff_exists.mp hpresent
    apply hsha
    rw [show file.entry.current_sha256 = file.current_sha256 from rfl, hplan.current_sha256, hbytes]
    rfl
  · cases hcurrent : file.current with
    | none =>
      rw [if_neg (by simp [RecoveryFilePlan.entry, hcurrent])]
      exact take_away_leaves hfile hplan hcurrent
    | some bytes =>
      rw [if_pos (by simp [RecoveryFilePlan.entry, hcurrent])]
      exact put_back_leaves hfile hplan hcurrent

end

section
variable (hplanned : Planned codec D plan) (hfiles : plan.files ≠ []) (hn : n ≤ plan.files.length)
include hplanned hfiles hn

theorem validate_journal_ok : validate_journal (plan.journal n) = .ok () := by
  unfold validate_journal
  rw [if_neg]
  rintro (h | h | h | h | ⟨entry, hentry, h⟩)
  · exact h rfl
  · exact hfiles (List.map_eq_nil_iff.mp h)
  · have hfew := hplanned.few
    simp [RecoveryPlan.journal] at h
    omega
  · simp [RecoveryPlan.journal] at h
    omega
  · obtain ⟨file, hfile, rfl⟩ := List.mem_map.mp hentry
    rcases h with h | h | ⟨hpresent, hnone⟩
    · exact h rfl
    · exact h rfl
    · obtain ⟨bytes, hbytes⟩ := Option.isSome_iff_exists.mp hpresent
      have hsha := (hplanned.files file hfile).current_sha256
      rw [hbytes, show file.current_sha256 = none from hnone] at hsha
      cases hsha

theorem rollback_journal_leaves :
    Leaves fates (Pending D plan) (rollback_journal codec (plan.journal n))
      (fun _ => RolledBack D plan (plan.files.map RecoveryFilePlan.entry))
      (Interrupted fates (Pending D plan)) := by
  unfold rollback_journal
  rw [validate_journal_ok hplanned hfiles hn]
  refine Leaves.weaken (Leaves.each (RolledBack D plan) ?_) ?_ (fun _ _ => id) (fun _ => id)
  · intro before entry after h
    have hentry : entry ∈ plan.files.map RecoveryFilePlan.entry := by
      rw [show plan.files.map RecoveryFilePlan.entry = _ from h]
      simp
    obtain ⟨file, hfile, rfl⟩ := List.mem_map.mp hentry
    exact roll_back_entry_leaves hfile (hplanned.files file hfile)
  · intro s hs
    exact ⟨hs, by simp⟩

end

theorem RolledBack.primary_eq (h : RolledBack D plan (plan.files.map RecoveryFilePlan.entry) s) :
    s.primary = D.primary := by
  funext kind
  by_cases hkind : ∃ file ∈ plan.files, file.kind = kind
  · obtain ⟨file, hfile, rfl⟩ := hkind
    exact h.back file.entry (List.mem_map_of_mem hfile)
  · exact h.primary kind fun file hfile heq => hkind ⟨file, hfile, heq⟩

theorem Others.hasFolder (h : Others D plan s) : s.hasFolder = true :=
  Disk.hasFolder_of_marker h.marked

theorem before_of_rolledBack
    (h : RolledBack D plan (plan.files.map RecoveryFilePlan.entry) s) :
    Before D (s.setActive .absent) where
  untouched :=
    { format := by simpa [Disk.setActive] using h.format
      primary := by simpa [Disk.setActive] using h.primary_eq
      last_good := by simpa [Disk.setActive] using h.last_good }
  marked := .inr (by simpa using h.marked)
  active := .inl (Disk.active_setActive h.hasFolder)

theorem remove_active_journal_completes {S : Disk → Prop} (hactive : ∀ s, P s → s.active ≠ .folder)
    (hdone : ∀ s, P s → Q (s.setActive .absent)) (hold : ∀ s, P s → S s)
    (hnew : ∀ s, P s → S (s.setActive .absent)) :
    Completes fates P (remove_active_journal call) [call] (fun _ => Q) S := by
  refine Completes.next (Q := fun _ => P) (c := []) (Completes.see ?_) ?_
  · exact fun s hs => ⟨(), if_neg (hactive s hs), hs⟩
  · exact fun _ => change_completes hdone hold hnew

theorem Pending.active_ne (h : Pending D plan s) : s.active ≠ .folder := by
  obtain ⟨n, -, hn⟩ := h.journal
  simp [hn]

/-- A restore that has to be given up leaves the files as they were, or the journal. -/
theorem rollback_or_required_leaves {α : Type} (hplanned : Planned codec D plan)
    (hfiles : plan.files ≠ []) (hn : n ≤ plan.files.length) (e : RecoveryErrorCode) :
    Leaves fates (Pending D plan)
      (rollback_or_required codec (plan.journal n) e : Recover α) (fun _ _ => False)
      (Safe D plan) := by
  refine Leaves.next (Leaves.attempt (Leaves.weaken (rollback_journal_leaves hplanned hfiles hn)
    (fun _ => id) (fun _ _ => id) fun s hs => .inr hs.1)) ?_
  rintro (e' | ⟨⟩)
  · exact Leaves.thrown _ fun s hs => hs
  · refine Leaves.next (Q := fun _ => Safe D plan) ?_ fun _ => Leaves.thrown _ fun s hs => hs
    refine Leaves.weaken (Leaves.attempt (Completes.leaves (remove_active_journal_completes
      (S := Safe D plan) (fun s hs => hs.toPending.active_ne)
      (fun s hs => before_of_rolledBack hs) (fun s hs => .inr hs.toPending)
      fun s hs => .inl (before_of_rolledBack hs)))) (fun _ => id) ?_ fun _ => id
    rintro (e' | ⟨⟩) s hs
    · exact hs
    · exact .inl hs

/-! ## Recovering -/

theorem marker_fits : MARKER_BYTES.length ≤ MAX_MARKER_BYTES := by decide +kernel

theorem read_active_journal_leaves (found : Option RecoveryJournal)
    (hmarked : ∀ s, P s → s.recovery_root = .absent ∧ found = none ∨ s.marker = .file MARKER_BYTES)
    (hactive : ∀ s, P s → s.active = entryOf (found.map some))
    (hvalid : ∀ journal, found = some journal → validate_journal journal = .ok ()) :
    Leaves fates P read_active_journal (fun r s => P s ∧ r = found) (Interrupted fates P) := by
  refine Leaves.next (Q := fun root s => P s ∧ s.recovery_root = root)
    (Completes.undisturbed (c := [.inspect_root]) ?_) ?_
  · exact Completes.read (fun _ s hs => ⟨s.recovery_root, rfl, hs, rfl⟩) fun _ s hs => hs
  · intro root
    cases root with
    | absent =>
      rintro s ⟨hs, hroot⟩
      refine ⟨hs, ?_⟩
      rcases hmarked s hs with ⟨-, hnone⟩ | hmarker
      · exact hnone.symm
      · simp [Disk.marker, hroot] at hmarker
    | foreign =>
      rintro s ⟨hs, hroot⟩
      rcases hmarked s hs with ⟨habsent, -⟩ | hmarker
      · simp [hroot] at habsent
      · simp [Disk.marker, hroot] at hmarker
    | folder r =>
      have hmarker : ∀ s, P s ∧ s.recovery_root = .folder r → s.marker = .file MARKER_BYTES := by
        rintro s ⟨hs, hroot⟩
        rcases hmarked s hs with ⟨habsent, -⟩ | hmarker
        · simp [hroot] at habsent
        · exact hmarker
      refine Leaves.next (Q := fun marker s => P s ∧ marker = MARKER_BYTES)
        (Completes.undisturbed (c := [.read_marker]) (Completes.read ?_ fun _ s hs => hs.1))
        fun marker => ?_
      · intro _ s hs
        refine ⟨MARKER_BYTES, ?_, hs.1, rfl⟩
        rw [mapError_ok_iff, read_regular_bounded_ok]
        exact ⟨hmarker s hs, marker_fits⟩
      refine Leaves.given (fun s hs => hs.2) ?_
      rintro rfl
      refine Leaves.next (Q := fun _ => P)
        (Completes.undisturbed (c := []) (Completes.passes (by simp) fun s hs => hs.1))
        fun _ => ?_
      refine Completes.undisturbed (c := [.read_journal])
        (Completes.read ?_ fun _ s hs => hs)
      intro _ s hs
      refine ⟨found, ?_, hs, rfl⟩
      rw [hactive s hs]
      cases found with
      | none => rfl
      | some journal => simp [entryOf, hvalid journal rfl, Except.map]

theorem recover_idle
    (hmarked : ∀ s, P s → s.recovery_root = .absent ∨ s.marker = .file MARKER_BYTES)
    (hidle : ∀ s, P s → s.active = .absent) :
    Leaves fates P (recover_interrupted_restore codec) (fun _ => P) (Interrupted fates P) := by
  refine Leaves.next (read_active_journal_leaves none ?_ hidle nofun) ?_
  · intro s hs
    exact (hmarked s hs).imp_left fun h => ⟨h, rfl⟩
  · intro found
    refine Leaves.given (fun s hs => hs.2) ?_
    rintro rfl
    exact Leaves.done none fun s hs => hs.1

theorem Before.idle (h : Before D s) (hidle : D.active = .absent) : s.active = .absent := by
  rcases h.active with hactive | hactive
  · exact hactive
  · exact hactive.trans hidle

theorem recover_before (hidle : D.active = .absent) :
    Leaves fates (Before D) (recover_interrupted_restore codec) (fun _ => Before D)
      (Interrupted fates (Before D)) :=
  recover_idle (fun _ h => h.marked) fun _ h => h.idle hidle

theorem recover_after :
    Leaves fates (After D plan) (recover_interrupted_restore codec) (fun _ => After D plan)
      (Interrupted fates (After D plan)) :=
  recover_idle (fun _ h => .inr h.marked) fun _ h => h.idle

theorem roll_back_locked_leaves (hplanned : Planned codec D plan) (hfiles : plan.files ≠ [])
    (hn : n ≤ plan.files.length) :
    Leaves fates (Pending D plan) (roll_back_locked codec (plan.journal n)) (fun _ => Before D)
      (Interrupted fates (Safe D plan)) := by
  have hsafe : ∀ s, Interrupted fates (Pending D plan) s → Interrupted fates (Safe D plan) s :=
    fun _ h => ⟨.inr h.1, h.2⟩
  refine Leaves.next (Leaves.weaken (Completes.undisturbed (keep_completes fun s h => h))
    (fun _ => id) (fun _ _ => id) hsafe) fun _ => ?_
  refine Leaves.next (Leaves.weaken (rollback_journal_leaves hplanned hfiles hn) (fun _ => id)
    (fun _ _ => id) hsafe) fun _ => ?_
  exact Completes.undisturbed (c := [.remove_journal])
    (remove_active_journal_completes (fun s hs => hs.toPending.active_ne)
      (fun s hs => before_of_rolledBack hs) (fun s hs => .inr hs.toPending)
      fun s hs => .inl (before_of_rolledBack hs))

/-- A journaled restore is rolled back, or its journal is still there. -/
theorem recover_pending (hplanned : Planned codec D plan) (hfiles : plan.files ≠ []) :
    Leaves fates (Pending D plan) (recover_interrupted_restore codec) (fun _ => Before D)
      (Interrupted fates (Safe D plan)) := by
  intro s hs
  obtain ⟨n, hn, hactive⟩ := hs.journal
  have hsafe : ∀ s, Interrupted fates (Pending D plan) s → Interrupted fates (Safe D plan) s :=
    fun _ h => ⟨.inr h.1, h.2⟩
  suffices h : Leaves fates (fun s => Pending D plan s ∧ s.active = .file (some (plan.journal n)))
      (recover_interrupted_restore codec) (fun _ => Before D) (Interrupted fates (Safe D plan)) from
    h s ⟨hs, hactive⟩
  refine Leaves.next (Q := fun found s => Pending D plan s ∧ found = some (plan.journal n))
    (Leaves.weaken (read_active_journal_leaves _ (fun s h => .inr h.1.marked)
      (fun s h => h.2) ?_) (fun _ => id) (fun _ s h => ⟨h.1.1, h.2⟩) fun s h => hsafe s ⟨h.1.1, h.2⟩)
    fun found => ?_
  · rintro _ ⟨rfl⟩
    exact validate_journal_ok hplanned hfiles hn
  refine Leaves.given (fun s hs => hs.2) ?_
  rintro rfl
  refine Leaves.next (Leaves.weaken (roll_back_locked_leaves hplanned hfiles hn)
    (fun s hs => hs.1) (fun _ _ => id) fun _ => id) fun _ => ?_
  refine Leaves.next (Q := fun _ => Before D) (Completes.undisturbed (c := [])
    (Completes.see fun s hs => ⟨_, rfl, hs⟩)) fun _ => ?_
  exact Leaves.done _ fun s hs => hs

theorem recover_safe (hidle : D.active = .absent) (hplanned : Planned codec D plan)
    (hfiles : plan.files ≠ []) :
    Leaves fates (Safe D plan) (recover_interrupted_restore codec) (fun _ => Before D)
      (Interrupted fates (Safe D plan)) := by
  rintro s (hs | hs)
  · exact (recover_before hidle s hs).weaken (fun _ _ => id) fun _ h => ⟨.inl h.1, h.2⟩
  · exact recover_pending hplanned hfiles s hs

/-! ## A folder without its marker -/

/-- The recovery folder is there and its marker is not whole. -/
def Unmarked (s : Disk) : Prop :=
  s.recovery_root ≠ .absent ∧ s.marker ≠ .file MARKER_BYTES

/-- A folder that is not marked is not recovered from, then or later. -/
theorem recover_unmarked :
    Leaves fates Unmarked (recover_interrupted_restore codec) (fun _ _ => False) Unmarked := by
  refine Leaves.next (Q := fun _ _ => False) ?_ fun found => Leaves.impossible fun _ => id
  refine Leaves.next (Q := fun root s => Unmarked s ∧ s.recovery_root = root) ?_ fun root => ?_
  · refine Leaves.read ?_ fun _ => id
    rintro s _ hs ⟨rfl⟩
    exact ⟨hs, rfl⟩
  cases root with
  | absent => exact Leaves.impossible fun s hs => hs.1.1 hs.2
  | foreign => exact Leaves.thrown _ fun s hs => hs.1
  | folder r =>
    refine Leaves.next (Q := fun marker s => Unmarked s ∧ s.marker = .file marker) ?_ fun marker => ?_
    · refine Leaves.read ?_ fun _ hs => hs.1
      intro s marker hs hread
      rw [mapError_ok_iff, read_regular_bounded_ok] at hread
      exact ⟨hs.1, hread.1⟩
    · refine Leaves.next (Leaves.refuses fun _ hs => hs.1) fun _ => Leaves.impossible ?_
      rintro s ⟨⟨hs, hmarker⟩, hsame⟩
      rw [not_not] at hsame
      exact hs.2 (hsame ▸ hmarker)

end

end multiplex_store.recovery
