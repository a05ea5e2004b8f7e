-- A restore and what recovers from it. Wherever the restore and any number of
-- recoveries are stopped, the next recovery puts the files back, but for the
-- moment between the recovery folder and its marker.
import Multiplex.Lib.Runs
import Multiplex.Store.RecoveryPhases

open Crashes

namespace multiplex_store.recovery

section
variable {codec : Codec} {D s : Disk} {plan : RecoveryPlan} {fates : Fates}

/-! ## A whole restore -/

/-- The calls of a restore that nothing stops, up to the removal of its journal. -/
def placeCalls (D : Disk) (plan : RecoveryPlan) : List Call :=
  [.is_cancelled 0] ++ ensureCalls D ++ [.create_plan_root, .protect_plan_root] ++
    lockedCalls plan ++ [.rebuild_indexes]

/-- The disk a restore begins on is the one its plan was made on. -/
structure Starts (codec : Codec) (D : Disk) (plan : RecoveryPlan) (fates : Fates) : Prop where
  planned : Planned codec D plan
  files : plan.files ≠ []
  idle : D.active = .absent
  marks : ¬ StopsUnmarked D plan fates

theorem before_of_marks (hmarks : ¬ StopsUnmarked D plan fates)
    (hnot : plan.files = [] ∨ fates (.is_cancelled 0) ≠ .goes) : Before D D := by
  unfold StopsUnmarked at hmarks
  cases hroot : D.recovery_root with
  | absent => exact before_absent hroot
  | foreign => simp [hroot] at hmarks
  | folder r =>
    refine ⟨untouched_refl, .inr ?_, .inr rfl⟩
    simp only [hroot] at hmarks
    by_contra hmarker
    apply hmarks
    refine ⟨by simpa [Disk.marker, hroot] using hmarker, ?_⟩
    rintro ⟨-, hfiles, hall, -⟩
    rcases hnot with hnil | hstop
    · exact hfiles hnil
    · exact hstop (hall _ (by simp))

section
variable (h : Starts codec D plan fates)
include h

theorem Starts.before (hstop : fates (.is_cancelled 0) ≠ .goes) : Before D D :=
  before_of_marks h.marks (.inr hstop)

theorem Starts.first_completes :
    Completes fates (· = D) (check_cancelled 0) [.is_cancelled 0]
      (fun _ s => s = D ∧ fates (.is_cancelled 0) = .goes) (Before D) := by
  apply Completes.call
  · exact fun hgoes s hs => ⟨hs, hgoes⟩
  · rintro e n hfails s rfl
    exact h.before (by simp [hfails])
  · rintro n hends s rfl
    exact h.before (by simp [hends])

theorem Starts.ensure_completes :
    Completes fates (fun s => s = D ∧ fates (.is_cancelled 0) = .goes) ensure_recovery_root
      (ensureCalls D) (fun _ => Ready D) (Before D) := by
  refine Completes.given (fun s hs => hs.2) fun hcancel => ?_
  exact Completes.weaken (ensure_recovery_root_completes h.files hcancel h.marks)
    (fun s hs => hs.1) (fun _ _ => id) fun _ => id

theorem Starts.active : D.active ≠ .link ∧ D.active ≠ .folder := by
  simp [h.idle]

theorem prepare_completes (hfresh : D.plan plan.id = none) :
    Completes fates (· = D) (prepare plan)
      ([.is_cancelled 0] ++ ensureCalls D ++ [.create_plan_root, .protect_plan_root])
      (fun _ => Backing D plan []) (Before D) := by
  rw [List.append_assoc]
  refine Completes.next h.first_completes fun _ => ?_
  exact Completes.next h.ensure_completes fun _ => create_plan_root_completes hfresh

theorem put_in_place_completes (hfresh : D.plan plan.id = none) :
    Completes fates (· = D) (put_in_place codec plan) (placeCalls D plan)
      (fun _ => Published D plan plan.files) (Safe D plan) := by
  unfold placeCalls
  rw [List.append_assoc]
  refine Completes.next (Completes.weaken (prepare_completes h hfresh) (fun _ => id) (fun _ _ => id)
    fun _ => Or.inl) fun _ => ?_
  exact Completes.next (place_completes h.active h.planned h.files) fun _ =>
    rebuild_completes h.planned h.files

theorem put_in_place_taken (htaken : D.plan plan.id ≠ none) :
    Leaves fates (· = D) (put_in_place codec plan) (fun _ _ => False) (Before D) := by
  refine Leaves.next (Q := fun _ _ => False) ?_ fun _ => Leaves.impossible fun _ => id
  refine Leaves.next h.first_completes.leaves fun _ => ?_
  exact Leaves.next h.ensure_completes.leaves fun _ => create_plan_root_taken htaken

end

theorem after_of_published (hplanned : Planned codec D plan) (hs : Published D plan plan.files s) :
    After D plan (s.setActive .absent) where
  format := by simpa [Disk.setActive] using hs.format
  last_good := by simpa [Disk.setActive] using hs.last_good
  primary := by simpa [Disk.setActive] using hs.primary
  marked := by simpa using hs.marked
  restored := by
    intro file hfile
    rw [(hplanned.files file hfile).last_good]
    simpa [Disk.setActive] using hs.out file hfile
  idle := Disk.active_setActive hs.hasFolder

/-- The restore is cut off between its last step, the removal of its journal, and its return. -/
def StopsAfterRemoval (D : Disk) (plan : RecoveryPlan) (fates : Fates) : Prop :=
  plan.files ≠ [] ∧ D.plan plan.id = none ∧ AllGo fates (placeCalls D plan) ∧
    ∃ part, part ≠ 0 ∧ fates .remove_journal = .ends part

theorem remove_journal_ends (hplanned : Planned codec D plan) (hs : Published D plan plan.files s) :
    Ends (fun _ s => After D plan s) (fun s => Safe D plan s ∨
        After D plan s ∧ ∃ part, part ≠ 0 ∧ fates .remove_journal = .ends part)
      (remove_active_journal .remove_journal fates s) := by
  have hafter := after_of_published hplanned hs
  have hsafe : Safe D plan s := .inr hs.toPending
  refine Leaves.next (P := (· = s)) (Q := fun _ => (· = s)) ?_ (fun _ => ?_) s rfl
  · exact Completes.leaves (Completes.see fun s' hs' => ⟨(), if_neg (hs' ▸ hs.active_ne), hs'⟩)
  refine Completes.leaves (c := [Call.remove_journal]) (Completes.call ?_ ?_ ?_)
  · rintro - s' rfl
    exact hafter
  · rintro e n - s' rfl
    exact .inl hsafe
  · rintro n hends s' rfl
    by_cases hn : n = 0
    · rw [hn]
      exact .inl hsafe
    · refine .inr ⟨?_, n, hn, hends⟩
      rw [atomic, if_neg hn]
      exact hafter

theorem restore_ends (h : Starts codec D plan fates) :
    Ends (fun r s => r.result = .Restored ∧ After D plan s)
      (fun s => Safe D plan s ∨ After D plan s ∧ StopsAfterRemoval D plan fates)
      (restore codec plan fates D) := by
  unfold restore
  rw [if_neg (not_not.mpr h.planned.kind), if_neg h.files]
  by_cases hfresh : D.plan plan.id = none
  · refine Ends.next (put_in_place_completes h hfresh D rfl) ?_ fun s' hs' => .inl hs'.1
    rintro - s' ⟨hs', hall⟩
    refine Ends.next (remove_journal_ends h.planned hs') ?_ ?_
    · exact fun _ s'' hs'' => ⟨rfl, hs''⟩
    · rintro s'' (hs'' | ⟨hafter, hcut⟩)
      · exact .inl hs''
      · exact .inr ⟨hafter, h.files, hfresh, hall, hcut⟩
  · refine Ends.next (put_in_place_taken h hfresh D rfl) (fun _ _ => False.elim) ?_
    exact fun s' hs' => .inl (.inl hs')

/-- A restore that is cut off after its last step has not returned. -/
theorem restore_cut (h : Starts codec D plan fates) (hcut : StopsAfterRemoval D plan fates) :
    ∃ s, restore codec plan fates D = (.ended, s) ∧ After D plan s := by
  obtain ⟨-, hfresh, hall, part, hpart, hends⟩ := hcut
  have hplace := put_in_place_completes h hfresh D rfl
  unfold restore
  rw [if_neg (not_not.mpr h.planned.kind), if_neg h.files]
  cases hrun : put_in_place codec plan fates D with
  | mk outcome s' =>
    rw [hrun] at hplace
    cases outcome with
    | failed e => exact absurd hall hplace.2
    | ended => exact absurd hall hplace.2
    | done u =>
      have hs' : Published D plan plan.files s' := hplace.1
      refine ⟨s'.setActive .absent, ?_, after_of_published h.planned hs'⟩
      simp [bind, Script.bind, hrun, remove_active_journal, Script.see, Script.ofExcept, pure,
        hs'.active_ne, change, Script.call, hends, atomic, hpart]

/-! ## A restore that stops unmarked -/

theorem unmarked_of_marker {d : Disk} (hfolder : d.hasFolder = true)
    (hmarker : d.marker ≠ .file MARKER_BYTES) : Unmarked d := by
  refine ⟨?_, hmarker⟩
  intro habsent
  simp [Disk.hasFolder, habsent] at hfolder

theorem create_marker_stops {d : Disk} (hfolder : d.hasFolder = true) (hmarker : d.marker = .absent)
    (hunfilled : ¬ MarkerFilled fates) :
    Leaves fates (· = d) create_marker (fun _ _ => False) Unmarked := by
  have hpart : ∀ n, ¬ MARKER_BYTES.length < n → Unmarked (create_marker.partly n d) := by
    intro n hn
    cases n with
    | zero => exact unmarked_of_marker hfolder (by simp [create_marker.partly, hmarker])
    | succ n =>
      apply unmarked_of_marker
      · simpa [create_marker.partly, Disk.setMarker] using hfolder
      · rw [create_marker.partly, Disk.marker_setMarker hfolder, ne_eq, Entry.file.injEq]
        intro hwhole
        have hlength := congrArg List.length hwhole
        rw [List.length_take] at hlength
        omega
  unfold MarkerFilled at hunfilled
  refine Completes.leaves (c := [Call.create_marker]) (Completes.call ?_ ?_ ?_)
  · intro hgoes
    simp [hgoes] at hunfilled
  · rintro e n hfails s rfl
    exact hpart n (by simpa [hfails] using hunfilled)
  · rintro n hends s rfl
    exact hpart n (by simpa [hends] using hunfilled)

theorem ensure_marker_stops {d : Disk} (hd : Unmarked d) (hfolder : d.hasFolder = true)
    (hunfilled : d.marker = .absent → fates .inspect_marker = .goes → ¬ MarkerFilled fates) :
    Leaves fates (· = d) ensure_marker (fun _ _ => False) Unmarked := by
  refine Leaves.next (Q := fun entry s => s = d ∧ entry = d.marker ∧ fates .inspect_marker = .goes)
    ?_ fun entry => ?_
  · refine Leaves.weaken (Completes.leaves (Completes.went (c := [Call.inspect_marker])
      (Q := fun entry s => s = d ∧ entry = d.marker) (Completes.read ?_ ?_))) (fun _ => id) ?_
      fun _ => id
    · rintro - s rfl
      exact ⟨s.marker, rfl, rfl, rfl⟩
    · rintro - s rfl
      exact hd
    · rintro entry s ⟨⟨hs, hentry⟩, hgoes⟩
      exact ⟨hs, hentry, by simpa using hgoes⟩
  refine Leaves.given (c := entry = d.marker ∧ fates .inspect_marker = .goes) (fun s hs => hs.2) ?_
  rintro ⟨rfl, hgoes⟩
  cases hmarker : d.marker with
  | absent =>
    exact Leaves.weaken (create_marker_stops hfolder hmarker (hunfilled hmarker hgoes))
      (fun _ hs => hs.1) (fun _ _ => id) fun _ => id
  | link => exact Leaves.thrown _ fun s hs => hs.1 ▸ hd
  | folder => exact Leaves.thrown _ fun s hs => hs.1 ▸ hd
  | file content =>
    refine Leaves.read ?_ fun s hs => hs.1 ▸ hd
    rintro s _ ⟨rfl, -⟩ hread
    rw [if_neg hd.2] at hread
    cases hread

theorem unmarked_createRoot : Unmarked D.createRoot :=
  unmarked_of_marker rfl (by simp [Disk.marker, Disk.createRoot])

theorem ensure_folder_stops (hroot : D.recovery_root = .absent) (hinspect : fates .inspect_root = .goes)
    (hmade : FolderMade fates) : Leaves fates (· = D) ensure_folder
      (fun _ s => s = D.createRoot ∧ AllGo fates [.create_root, .protect_root]) Unmarked := by
  unfold FolderMade at hmade
  refine Leaves.next (Q := fun root s => s = D ∧ root = RecoveryRoot.absent)
    (Completes.leaves (c := [Call.inspect_root]) (Completes.read ?_ ?_)) fun root => ?_
  · rintro - s rfl
    exact ⟨s.recovery_root, rfl, rfl, hroot⟩
  · exact fun hnot => absurd hinspect hnot
  refine Leaves.given (fun s hs => hs.2) ?_
  rintro rfl
  refine Leaves.weaken (Completes.leaves (Completes.went
    (c := [Call.create_root, .protect_root]) (Q := fun _ s => s = D.createRoot)
    (Completes.next (c := [Call.create_root]) (Q := fun _ s => s = D.createRoot)
      (Completes.call ?_ ?_ ?_) fun _ => keep_completes ?_))) (fun _ => id) (fun _ _ => id)
    fun _ => id
  · rintro - s ⟨rfl, -⟩
    rfl
  · intro e n hfails
    simp [hfails] at hmade
  · rintro n hends s ⟨rfl, -⟩
    rw [hends] at hmade
    rw [atomic, if_neg hmade]
    exact unmarked_createRoot
  · rintro s rfl
    exact unmarked_createRoot

theorem ensure_recovery_root_stops (hstops : StopsUnmarked D plan fates)
    (hfiles : plan.files ≠ []) :
    Leaves fates (fun s => s = D ∧ fates (.is_cancelled 0) = .goes) ensure_recovery_root
      (fun _ _ => False) Unmarked := by
  unfold StopsUnmarked at hstops
  refine Leaves.given (fun s hs => hs.2) fun hcancel => ?_
  cases hroot : D.recovery_root with
  | absent =>
    simp only [hroot] at hstops
    obtain ⟨-, hall, hmade, hnot⟩ := hstops
    refine Leaves.next (Leaves.weaken (ensure_folder_stops hroot (hall _ (by simp)) hmade)
      (fun s hs => hs.1) (fun _ _ => id) fun _ => id) fun _ => ?_
    refine Leaves.given (fun s hs => hs.2) fun hgo => ?_
    refine Leaves.weaken (ensure_marker_stops unmarked_createRoot rfl ?_) (fun s hs => hs.1)
      (fun _ _ => id) fun _ => id
    rintro - hgoes hfilled
    simp at hgo
    exact hnot ⟨by simp [hgo, hgoes], hfilled⟩
  | foreign =>
    have hunmarked : Unmarked D := ⟨by simp [hroot], by simp [Disk.marker, hroot]⟩
    refine Leaves.next (Q := fun _ _ => False) ?_ fun _ => Leaves.impossible fun _ => id
    refine Leaves.next (Q := fun root s => s = D ∧ root = .foreign) ?_ fun root => ?_
    · refine Leaves.read ?_ fun s hs => hs.1 ▸ hunmarked
      rintro s root ⟨rfl, -⟩ ⟨rfl⟩
      exact ⟨rfl, hroot⟩
    · refine Leaves.given (fun s hs => hs.2) ?_
      rintro rfl
      exact Leaves.thrown _ fun s hs => hs.1 ▸ hunmarked
  | folder r =>
    simp only [hroot] at hstops
    have hmarker : D.marker = r.marker := by simp [Disk.marker, hroot]
    have hfolder : D.hasFolder = true := by simp [Disk.hasFolder, hroot]
    have hunmarked : Unmarked D := unmarked_of_marker hfolder (hmarker ▸ hstops.1)
    refine Leaves.next (Q := fun _ s => s = D ∧ fates .inspect_root = .goes) ?_ fun _ => ?_
    · refine Leaves.next (Q := fun root s => (s = D ∧ root = .folder r) ∧ AllGo fates [.inspect_root])
        (Completes.leaves (Completes.went (Completes.read ?_ ?_))) fun root => ?_
      · rintro - s ⟨rfl, -⟩
        exact ⟨s.recovery_root, rfl, rfl, hroot⟩
      · rintro - s ⟨rfl, -⟩
        exact hunmarked
      · refine Leaves.given (fun s hs => hs.1.2) ?_
        rintro rfl
        exact Leaves.done () fun s hs => ⟨hs.1.1, hs.2 _ (by simp)⟩
    · refine Leaves.given (fun s hs => hs.2) fun hinspect => ?_
      refine Leaves.weaken (ensure_marker_stops hunmarked hfolder ?_) (fun s hs => hs.1)
        (fun _ _ => id) fun _ => id
      intro habsent hgoes hfilled
      exact hstops.2 ⟨hmarker ▸ habsent, hfiles, by simp [hcancel, hinspect, hgoes], hfilled⟩

theorem StopsUnmarked.unmarked (hstops : StopsUnmarked D plan fates)
    (hnot : plan.files = [] ∨ fates (.is_cancelled 0) ≠ .goes) : Unmarked D := by
  unfold StopsUnmarked at hstops
  cases hroot : D.recovery_root with
  | absent =>
    simp only [hroot] at hstops
    rcases hnot with hnil | hstop
    · exact absurd hnil hstops.1
    · exact absurd (hstops.2.1 _ (by simp)) hstop
  | foreign => exact ⟨by simp [hroot], by simp [Disk.marker, hroot]⟩
  | folder r =>
    simp only [hroot] at hstops
    exact ⟨by simp [hroot], by simpa [Disk.marker, hroot] using hstops.1⟩

/-- A restore that stops between the folder and its marker leaves the folder unmarked. -/
theorem restore_unmarked (hplanned : Planned codec D plan) (hstops : StopsUnmarked D plan fates) :
    Unmarked (restore codec plan fates D).2 := by
  by_cases hfiles : plan.files = []
  · have hrun : (restore codec plan fates D).2 = D := by
      simp [restore, hplanned.kind, hfiles, pure]
    rw [hrun]
    exact hstops.unmarked (.inl hfiles)
  · have hends : Leaves fates (· = D) (put_in_place codec plan) (fun _ _ => False) Unmarked := by
      refine Leaves.next (Q := fun _ _ => False) ?_ fun _ => Leaves.impossible fun _ => id
      refine Leaves.next (Q := fun _ s => s = D ∧ fates (.is_cancelled 0) = .goes)
        (Completes.leaves (c := [Call.is_cancelled 0]) (Completes.call ?_ ?_ ?_)) fun _ => ?_
      · exact fun hgoes s hs => ⟨hs, hgoes⟩
      · rintro e n hfails s rfl
        exact hstops.unmarked (.inr (by simp [hfails]))
      · rintro n hends s rfl
        exact hstops.unmarked (.inr (by simp [hends]))
      · exact Leaves.next (ensure_recovery_root_stops hstops hfiles) fun _ =>
          Leaves.impossible fun _ => id
    have hrestore : Ends (fun _ => Unmarked) Unmarked (restore codec plan fates D) := by
      unfold restore
      rw [if_neg (not_not.mpr hplanned.kind), if_neg hfiles]
      exact (hends D rfl).next (fun _ _ => False.elim) fun _ => id
    exact hrestore.state (fun _ _ => id) fun _ => id

/-! ## Recoveries -/

/-- Nothing fails and no process ends. -/
def undisturbed : Fates := fun _ => .goes

/-- The disk after any number of recoveries, each of them stopped somewhere or not at all. -/
def recoveries (codec : Codec) (d : Disk) (attempts : List Fates) : Disk :=
  Runs.run (fun d fates => (recover_interrupted_restore codec fates d).2) d attempts

/-- Whatever stops the restore and the recoveries after it, the next recovery that nothing stops
succeeds. Then the files of the plan are as they were, or the restore had returned and they are the
last good ones; the other files never change. -/
def CrashAtomic (codec : Codec) (D : Disk) (plan : RecoveryPlan) (fates : Fates) : Prop :=
  ∀ attempts : List Fates,
    let restored := restore codec plan fates D
    let d := recoveries codec restored.2 attempts
    ∃ receipt s, recover_interrupted_restore codec undisturbed d = (.done receipt, s) ∧
      (∀ kind, (∀ file ∈ plan.files, file.kind ≠ kind) →
        d.primary kind = D.primary kind ∧ s.primary kind = D.primary kind) ∧
      ((∀ file ∈ plan.files, s.primary file.kind = D.primary file.kind) ∨
        (∃ r, restored.1 = .done r ∧ r.result = .Restored) ∧
          ∀ file ∈ plan.files, s.primary file.kind = D.last_good file.kind)

theorem not_interrupted {P : Disk → Prop} (s : Disk) : ¬ Interrupted undisturbed P s :=
  fun h => h.2 fun _ => rfl

/-- What every recovery keeps, however it ends, any number of them keeps. -/
theorem recoveries_keep {P : Disk → Prop} (d : Disk) (h : P d)
    (hrecover : ∀ fates, Leaves fates P (recover_interrupted_restore codec) (fun _ => P) P)
    (attempts : List Fates) : P (recoveries codec d attempts) :=
  Runs.keeps_always P (fun s fates hs => (hrecover fates s hs).state (fun _ _ => id) fun _ => id) h
    attempts

theorem Safe.others (h : Safe D plan s) {kind : MetadataFileKind}
    (hkind : ∀ file ∈ plan.files, file.kind ≠ kind) : s.primary kind = D.primary kind := by
  rcases h with h | h
  · exact h.others kind
  · exact h.primary kind hkind

theorem atomic_of_safe (hidle : D.active = .absent) (hplanned : Planned codec D plan)
    (hfiles : plan.files ≠ [])
    (h : Safe D plan (restore codec plan fates D).2) : CrashAtomic codec D plan fates := by
  intro attempts
  have hsafe : Safe D plan (recoveries codec (restore codec plan fates D).2 attempts) := by
    apply recoveries_keep _ h
    intro fates
    exact Leaves.weaken (recover_safe hidle hplanned hfiles) (fun _ => id) (fun _ _ => Or.inl)
      fun _ => And.left
  obtain ⟨receipt, s, hrun, hbefore⟩ :=
    (recover_safe hidle hplanned hfiles _ hsafe).is_done not_interrupted
  exact ⟨receipt, s, hrun, fun kind hkind => ⟨hsafe.others hkind, hbefore.others kind⟩,
    .inl fun file _ => hbefore.others file.kind⟩

theorem atomic_of_before (hidle : D.active = .absent)
    (h : Before D (restore codec plan fates D).2) : CrashAtomic codec D plan fates := by
  intro attempts
  have hsafe : Before D (recoveries codec (restore codec plan fates D).2 attempts) := by
    apply recoveries_keep _ h
    intro fates
    exact Leaves.weaken (recover_before hidle) (fun _ => id) (fun _ _ => id) fun _ => And.left
  obtain ⟨receipt, s, hrun, hbefore⟩ :=
    (recover_before hidle _ hsafe).is_done not_interrupted
  exact ⟨receipt, s, hrun, fun kind _ => ⟨hsafe.others kind, hbefore.others kind⟩,
    .inl fun file _ => hbefore.others file.kind⟩

theorem atomic_of_after {r : RecoveryReceipt} (hdone : (restore codec plan fates D).1 = .done r)
    (hrestored : r.result = .Restored) (h : After D plan (restore codec plan fates D).2) :
    CrashAtomic codec D plan fates := by
  intro attempts
  have hafter : After D plan (recoveries codec (restore codec plan fates D).2 attempts) := by
    apply recoveries_keep _ h
    intro fates
    exact Leaves.weaken recover_after (fun _ => id) (fun _ _ => id) fun _ => And.left
  obtain ⟨receipt, s, hrun, hs⟩ := (recover_after _ hafter).is_done not_interrupted
  exact ⟨receipt, s, hrun, fun kind hkind => ⟨hafter.primary kind hkind, hs.primary kind hkind⟩,
    .inr ⟨⟨r, hdone, hrestored⟩, fun file hfile => hs.restored file hfile⟩⟩

theorem FilePlanned.primary_ne {file : RecoveryFilePlan} (h : FilePlanned codec D file) :
    D.primary file.kind ≠ D.last_good file.kind := by
  rw [h.current, h.last_good]
  intro hsame
  have hcurrent : file.current = some file.last_good := entryOf_inj.mp hsame
  have hinvalid := h.current_invalid
  rw [hcurrent, Option.bind_some, h.last_good_valid] at hinvalid
  cases hinvalid

theorem not_atomic_of_cut (h : Starts codec D plan fates) (hcut : StopsAfterRemoval D plan fates) :
    ¬ CrashAtomic codec D plan fates := by
  intro hatomic
  obtain ⟨s, hrun, hafter⟩ := restore_cut h hcut
  obtain ⟨receipt, s', hrecover, -, hresult⟩ := hatomic []
  simp only [recoveries, Runs.run_nil, hrun] at hrecover hresult
  obtain ⟨receipt', s'', hdone, hs''⟩ := (recover_after _ hafter).is_done not_interrupted
  obtain ⟨-, rfl⟩ := Prod.mk.inj (hrecover.symm.trans hdone)
  obtain ⟨file, hfile⟩ := List.exists_mem_of_ne_nil _ h.files
  rcases hresult with hbefore | ⟨⟨r, hr, -⟩, -⟩
  · apply (h.planned.files file hfile).primary_ne
    rw [← hbefore file hfile, hs''.restored file hfile]
  · cases hr

theorem not_atomic_of_unmarked (hplanned : Planned codec D plan)
    (hstops : StopsUnmarked D plan fates) : ¬ CrashAtomic codec D plan fates := by
  intro hatomic
  obtain ⟨receipt, s, hrun, -⟩ := hatomic []
  have hends : Ends (fun _ _ => False) Unmarked
      (recover_interrupted_restore codec undisturbed (restore codec plan fates D).2) :=
    recover_unmarked _ (restore_unmarked hplanned hstops)
  simp [recoveries] at hrun
  rw [hrun] at hends
  exact hends

/-- A restore that begins with no other one to be rolled back is crash-atomic unless it is stopped
between its folder and the folder's marker, or between its last step and its return. -/
theorem restoring_is_crash_atomic {id : Uuid} (h : plan_restore_last_good codec D id = .ok plan)
    (hidle : D.active = .absent) (fates : Fates) : CrashAtomic codec D plan fates ↔
      ¬ StopsUnmarked D plan fates ∧ ¬ StopsAfterRemoval D plan fates := by
  have hplanned := planned h
  constructor
  · intro hatomic
    refine ⟨fun hstops => not_atomic_of_unmarked hplanned hstops hatomic, fun hcut => ?_⟩
    by_cases hstops : StopsUnmarked D plan fates
    · exact not_atomic_of_unmarked hplanned hstops hatomic
    · exact not_atomic_of_cut ⟨hplanned, hcut.1, hidle, hstops⟩ hcut hatomic
  · rintro ⟨hmarks, hcut⟩
    by_cases hfiles : plan.files = []
    · apply atomic_of_before hidle
      have hrun : (restore codec plan fates D).2 = D := by
        simp [restore, hplanned.kind, hfiles, pure]
      rw [hrun]
      exact before_of_marks hmarks (Or.inl hfiles)
    · have hends := restore_ends ⟨hplanned, hfiles, hidle, hmarks⟩
      have hstopped : ∀ s, Safe D plan s ∨ After D plan s ∧ StopsAfterRemoval D plan fates →
          Safe D plan s := fun s hs => hs.resolve_right fun hs => hcut hs.2
      cases hrun : restore codec plan fates D with
      | mk outcome s =>
        rw [hrun] at hends
        cases outcome with
        | done r =>
          exact atomic_of_after (congrArg Prod.fst hrun) hends.1
            ((congrArg Prod.snd hrun).symm ▸ hends.2)
        | failed e =>
          exact atomic_of_safe hidle hplanned hfiles
            ((congrArg Prod.snd hrun).symm ▸ hstopped s hends)
        | ended =>
          exact atomic_of_safe hidle hplanned hfiles
            ((congrArg Prod.snd hrun).symm ▸ hstopped s hends)

end

/-! ## One restore -/

def text (s : String) : Bytes := s.toUTF8.toList

def goodLibrary : Bytes := text "\x7b\"revision\":7\x7d"

def goodSessions : Bytes := text "\x7b\"revision\":0,\"sessions\":[]\x7d"

def goodPresets : Bytes := text "\x7b\"revision\":0,\"presets\":[]\x7d"

/-- What the hash and the readers of the store make of the files below. -/
def someCodec : Codec where
  sha256_hex bytes :=
    if bytes = goodLibrary then "828fcfa39b8bc9c97cff33efbcb4be0d53d672d2bba89f625fd374c04cc397e7"
    else "021fb596db81e6d02bf3d2586ee3981fe519f275c0ac9ca76bbcf2ebb4097d96"
  format_document _ := some ⟨1, 1, "00000000-0000-4000-8000-000000000001"⟩
  is_uuid _ := true
  validate_kind
    | .Library, bytes => if bytes = goodLibrary then some 7 else none
    | .Sessions, bytes => if bytes = goodSessions then some 0 else none
    | .Presets, bytes => if bytes = goodPresets then some 0 else none

/-- A store whose library was cut short after its first byte, and that was never restored. -/
def tornLibrary : Disk where
  format := .file (text
    "\x7b\"format_version\":1,\"minimum_reader\":1,\"instance_id\":\"00000000-0000-4000-8000-000000000001\"\x7d")
  primary
    | .Library => .file (text "\x7b")
    | .Sessions => .file goodSessions
    | .Presets => .file goodPresets
  last_good
    | .Library => .file goodLibrary
    | .Sessions => .file goodSessions
    | .Presets => .file goodPresets
  recovery_root := .absent

def libraryPlan : RecoveryPlan where
  id := 1
  kind := .RestoreLastGoodMetadata
  files :=
    [{ kind := .Library
       current_revision := none
       last_good_revision := 7
       current_sha256 := some "021fb596db81e6d02bf3d2586ee3981fe519f275c0ac9ca76bbcf2ebb4097d96"
       current_bytes := 1
       last_good_sha256 := "828fcfa39b8bc9c97cff33efbcb4be0d53d672d2bba89f625fd374c04cc397e7"
       last_good_bytes := 14
       current := some (text "\x7b")
       last_good := goodLibrary }]
  unchanged_files := [.Sessions, .Presets]
  estimated_backup_bytes := 1

theorem libraryPlan_planned :
    plan_restore_last_good someCodec tornLibrary libraryPlan.id = .ok libraryPlan := by
  decide +kernel

/-- The process ends once the new library is in place. -/
def endsAfterPublishing : Fates := fun call => if call = .publish .Library then .ends 1 else .goes

/-- A recovery of it ends before it has written the old library back. -/
def endsBeforeWritingBack : Fates := fun call => if call = .write_back .Library then .ends 0 else .goes

/-- A restore dies after its file, the first recovery dies as well, and the second one succeeds. -/
theorem a_torn_library_is_put_back :
    let died := (restore someCodec libraryPlan endsAfterPublishing tornLibrary).2
    let d := recoveries someCodec died [endsBeforeWritingBack]
    died.primary .Library = .file goodLibrary ∧ d.active ≠ .absent ∧
      ∃ receipt s, recover_interrupted_restore someCodec undisturbed d = (.done receipt, s) ∧
        s.primary .Library = .file (text "\x7b") := by
  have hatomic : CrashAtomic someCodec tornLibrary libraryPlan endsAfterPublishing := by
    refine (restoring_is_crash_atomic libraryPlan_planned (by simp [Disk.active, tornLibrary])
      endsAfterPublishing).mpr ⟨?_, ?_⟩
    · rintro ⟨-, -, -, hnot⟩
      exact hnot ⟨by simp [AllGo, endsAfterPublishing], by simp [MarkerFilled, endsAfterPublishing]⟩
    · rintro ⟨-, -, -, part, -, hends⟩
      cases hends
  refine ⟨by decide +kernel, by decide +kernel, ?_⟩
  obtain ⟨receipt, s, hrun, -, hresult⟩ := hatomic [endsBeforeWritingBack]
  have hended : (restore someCodec libraryPlan endsAfterPublishing tornLibrary).1 = .ended := by
    decide +kernel
  rcases hresult with hbefore | ⟨⟨r, hdone, -⟩, -⟩
  · exact ⟨receipt, s, hrun, hbefore _ (List.mem_singleton_self _)⟩
  · rw [hended] at hdone
    cases hdone

/-- The process ends once the recovery folder is made. -/
def endsAfterFolder : Fates := fun call => if call = .protect_root then .ends 0 else .goes

/-- A folder without its marker is not recovered from, though no file was touched yet. -/
theorem a_folder_without_its_marker_is_stuck :
    plan_restore_last_good someCodec tornLibrary libraryPlan.id = .ok libraryPlan ∧
      tornLibrary.active = .absent ∧
      ¬ CrashAtomic someCodec tornLibrary libraryPlan endsAfterFolder := by
  refine ⟨libraryPlan_planned, by simp [Disk.active, tornLibrary], ?_⟩
  intro hatomic
  obtain ⟨receipt, s, hrun, -⟩ := hatomic []
  simp only [recoveries, Runs.run_nil] at hrun
  have hfails : (recover_interrupted_restore someCodec undisturbed
      (restore someCodec libraryPlan endsAfterFolder tornLibrary).2).1 =
      .failed .StorageUnavailable := by decide +kernel
  rw [hrun] at hfails
  cases hfails

end multiplex_store.recovery
