-- Every order of restores, recoveries and writers. A rollback overwrites no
-- commit and undoes no restore that has returned, as long as the journal it
-- rolls back is still the active one and its files are as the restore left them.
import Multiplex.Store.RecoveryEffects
import Multiplex.Store.RecoveryRuns

open Crashes

namespace multiplex_store.recovery

section
variable {codec : Codec} {s : System} {d : Disk}

/-! ## What holds between the steps -/

/-- A journal that is on the disk, or that a call may still roll back. -/
def System.Known (s : System) (journal : RecoveryJournal) : Prop :=
  s.disk.active = .file (some journal) ∨ ∃ p, (s.calls p).held = some journal

/-- What a known journal says of a file that no writer has committed to since. -/
structure System.Holds (s : System) (journal : RecoveryJournal) : Prop where
  folder : (s.disk.plan journal.plan_id).isSome
  saved : ∀ entry ∈ journal.entries, s.written entry.kind = true →
    s.commits entry.kind = s.placed journal.plan_id entry.kind →
    s.disk.primary entry.kind = savedOf s.disk journal.plan_id entry

/-- A plan that was made, on whatever the disk was then. -/
def MadePlan (codec : Codec) (plan : RecoveryPlan) : Prop :=
  plan.files ≠ [] ∧ ∃ D, Planned codec D plan

/-- A restore that has its folder and not yet had the lock. -/
structure System.Opens (codec : Codec) (s : System) (plan : RecoveryPlan) : Prop where
  made : MadePlan codec plan
  marked : s.disk.marker = .file MARKER_BYTES
  empty : s.disk.backup plan.id = fun _ => .absent
  unused : ∀ journal, s.Known journal → journal.plan_id ≠ plan.id

structure Inv (codec : Codec) (s : System) : Prop where
  sound : s.disk.active ≠ .link ∧ s.disk.active ≠ .folder
  known : ∀ journal, s.Known journal → s.Holds journal
  planned : ∀ p plan, s.calls p = .planned plan → MadePlan codec plan
  prepared : ∀ p plan, s.calls p = .prepared plan → s.Opens codec plan
  underway : ∀ p plan, (s.calls p).underway = some plan →
    (s.disk.plan plan.id).isSome ∧ plan.id ∉ s.returned
  alone : ∀ p q plan plan', (s.calls p).underway = some plan → (s.calls q).underway = some plan' →
    plan.id = plan'.id → p = q
  returned : ∀ id ∈ s.returned, (s.disk.plan id).isSome ∧
    ∀ journal, s.disk.active = .file (some journal) → journal.plan_id ≠ id
  placed : ∀ id kind, s.placed id kind ≤ s.commits kind

/-- What every step of a service call leaves alone. -/
structure Around (D d : Disk) : Prop where
  active : d.active = D.active ∨ d.active = .absent
  plans : ∀ id, (D.plan id).isSome → d.plan id = D.plan id
  marked : D.marker = .file MARKER_BYTES → d.marker = .file MARKER_BYTES

variable {plan : RecoveryPlan} {p : Nat} {D : Disk}

theorem SameFiles.around (h : SameFiles D d) : Around D d :=
  ⟨.inl h.active, h.plans, h.marked⟩

theorem RollsBack.around {journal : RecoveryJournal} (h : RollsBack journal D d) : Around D d :=
  ⟨h.active, fun id _ => congrFun h.plan id, fun hmarker => h.marker.trans hmarker⟩

theorem Around.journal (h : Around D d) {journal : RecoveryJournal}
    (hactive : d.active = .file (some journal)) : D.active = .file (some journal) := by
  rcases h.active with hsame | habsent
  · exact hsame ▸ hactive
  · rw [habsent] at hactive
    cases hactive

variable {r : Running} {id : Uuid}

theorem Around.backup (h : Around D d) (hid : (D.plan id).isSome) : d.backup id = D.backup id := by
  funext kind
  simp [Disk.backup, h.plans id hid]

theorem Around.folder (h : Around D d) (hid : (D.plan id).isSome) : (d.plan id).isSome := by
  rw [h.plans id hid]
  exact hid

theorem known_changes (h : Around s.disk d) {journal : RecoveryJournal}
    (hknown : (s.changes d).Known journal) : s.Known journal :=
  hknown.imp_left h.journal

/-- A step that leaves the folders alone keeps everything that holds between the steps. -/
theorem Inv.changes (h : Inv codec s) (hd : Around s.disk d) : Inv codec (s.changes d) where
  sound := by
    rcases hd.active with hsame | habsent
    · show d.active ≠ .link ∧ d.active ≠ .folder
      rw [hsame]
      exact h.sound
    · show d.active ≠ .link ∧ d.active ≠ .folder
      simp [habsent]
  known := by
    intro journal hknown
    obtain ⟨hfolder, hsaved⟩ := h.known journal (known_changes hd hknown)
    refine ⟨hd.folder hfolder, ?_⟩
    intro entry hentry hwritten hcommits
    simp [System.changes] at hwritten
    show d.primary entry.kind = savedOf d journal.plan_id entry
    rw [hwritten.2, hsaved entry hentry hwritten.1 hcommits, savedOf, savedOf, hd.backup hfolder]
  planned := h.planned
  prepared := by
    intro p plan hp
    have hopens := h.prepared p plan hp
    have hfolder := (h.underway p plan (by rw [show s.calls p = _ from hp]; rfl)).1
    refine ⟨hopens.made, hd.marked hopens.marked, ?_, ?_⟩
    · exact (hd.backup hfolder).trans hopens.empty
    · exact fun journal hknown => hopens.unused journal (known_changes hd hknown)
  underway := by
    intro p plan hp
    obtain ⟨hfolder, hreturned⟩ := h.underway p plan hp
    exact ⟨hd.folder hfolder, hreturned⟩
  alone := h.alone
  returned := by
    intro id hid
    obtain ⟨hfolder, hactive⟩ := h.returned id hid
    exact ⟨hd.folder hfolder, fun journal hjournal => hactive journal (hd.journal hjournal)⟩
  placed := h.placed

theorem System.calls_turns (s : System) (p : Nat) (r : Running) (q : Nat) :
    q = p ∧ (s.turns p r).calls q = r ∨ q ≠ p ∧ (s.turns p r).calls q = s.calls q := by
  by_cases hq : q = p
  · exact .inl ⟨hq, by simp [hq]⟩
  · exact .inr ⟨hq, calls_turns_of_ne _ hq _⟩

theorem Inv.turns (h : Inv codec s)
    (hunderway : ∀ plan, r.underway = some plan → (s.calls p).underway = some plan)
    (hheld : ∀ journal, r.held = some journal → s.Known journal)
    (hplanned : ∀ plan, r = .planned plan → MadePlan codec plan)
    (hprepared : ∀ plan, r ≠ .prepared plan) : Inv codec (s.turns p r) := by
  have hcall : ∀ q, (s.turns p r).calls q = s.calls q ∨ q = p ∧ (s.turns p r).calls q = r := by
    intro q
    by_cases hq : q = p
    · exact .inr ⟨hq, by simp [hq]⟩
    · exact .inl (by simp [hq])
  have hknown : ∀ journal, (s.turns p r).Known journal → s.Known journal := by
    rintro journal (hactive | ⟨q, hq⟩)
    · exact .inl hactive
    · rcases hcall q with hsame | ⟨rfl, hr⟩
      · exact .inr ⟨q, hsame ▸ hq⟩
      · exact hheld journal (hr ▸ hq)
  have hunder : ∀ q plan, ((s.turns p r).calls q).underway = some plan →
      (s.calls q).underway = some plan := by
    intro q plan hq
    rcases hcall q with hsame | ⟨rfl, hr⟩
    · exact hsame ▸ hq
    · exact hunderway plan (hr ▸ hq)
  refine ⟨h.sound, ?_, ?_, ?_, ?_, ?_, h.returned, h.placed⟩
  · intro journal hj
    exact ⟨(h.known journal (hknown journal hj)).folder, (h.known journal (hknown journal hj)).saved⟩
  · intro q plan hq
    rcases hcall q with hsame | ⟨rfl, hr⟩
    · exact h.planned q plan (hsame ▸ hq)
    · exact hplanned plan (hr ▸ hq)
  · intro q plan hq
    rcases hcall q with hsame | ⟨rfl, hr⟩
    · have hopens := h.prepared q plan (hsame ▸ hq)
      exact ⟨hopens.made, hopens.marked, hopens.empty,
        fun journal hj => hopens.unused journal (hknown journal hj)⟩
    · exact absurd (hr ▸ hq) (hprepared plan)
  · exact fun q plan hq => h.underway q plan (hunder q plan hq)
  · exact fun q q' plan plan' hq hq' => h.alone q q' plan plan' (hunder q plan hq) (hunder q' plan' hq')

theorem Inv.idle (h : Inv codec s) (p : Nat) : Inv codec (s.turns p .idle) :=
  h.turns nofun nofun nofun nofun

/-- Which restores have returned matters to those that are under way and to the active journal. -/
theorem Inv.marks (h : Inv codec s) (returned : List Uuid) (overwritten undone : Bool)
    (hunderway : ∀ p plan, (s.calls p).underway = some plan → plan.id ∉ returned)
    (hreturned : ∀ id ∈ returned, (s.disk.plan id).isSome ∧
      ∀ journal, s.disk.active = .file (some journal) → journal.plan_id ≠ id) :
    Inv codec { s with returned, overwritten, undone } where
  sound := h.sound
  known journal hj := ⟨(h.known journal hj).folder, (h.known journal hj).saved⟩
  planned := h.planned
  prepared p plan hp :=
    ⟨(h.prepared p plan hp).made, (h.prepared p plan hp).marked, (h.prepared p plan hp).empty,
      (h.prepared p plan hp).unused⟩
  underway p plan hp := ⟨(h.underway p plan hp).1, hunderway p plan hp⟩
  alone := h.alone
  returned := hreturned
  placed := h.placed

theorem Inv.flags (h : Inv codec s) (overwritten undone : Bool) :
    Inv codec { s with overwritten, undone } :=
  h.marks s.returned overwritten undone (fun p plan hp => (h.underway p plan hp).2) h.returned

/-! ## A restore that begins -/

theorem Inv.opens (h : Inv codec s) (hp : s.calls p = .planned plan) (hd : Opened s.disk plan d) :
    Inv codec ((s.changes d).turns p (.prepared plan)) := by
  have haround := hd.toSameFiles.around
  have hfresh : ∀ {id}, (s.disk.plan id).isSome → id ≠ plan.id := by
    rintro id hid rfl
    simp [hd.fresh] at hid
  have hc := h.changes haround
  -- Until it turns, the call has nothing that another could share with it.
  have hcall := (s.changes d).calls_turns p (.prepared plan)
  have hknown : ∀ journal, ((s.changes d).turns p (.prepared plan)).Known journal →
      (s.changes d).Known journal := by
    rintro journal (hactive | ⟨q, hq⟩)
    · exact .inl hactive
    · rcases hcall q with ⟨rfl, hr⟩ | ⟨-, hsame⟩
      · rw [hr] at hq
        cases hq
      · exact .inr ⟨q, hsame ▸ hq⟩
  refine ⟨hc.sound, ?_, ?_, ?_, ?_, ?_, hc.returned, hc.placed⟩
  · intro journal hj
    exact ⟨(hc.known journal (hknown journal hj)).folder,
      (hc.known journal (hknown journal hj)).saved⟩
  · intro q other hq
    rcases hcall q with ⟨rfl, hr⟩ | ⟨-, hsame⟩
    · rw [hr] at hq
      cases hq
    · exact h.planned q other (hsame ▸ hq)
  · intro q other hq
    rcases hcall q with ⟨rfl, hr⟩ | ⟨-, hsame⟩
    · rw [hr] at hq
      cases hq
      refine ⟨h.planned q plan hp, hd.whole, hd.empty, ?_⟩
      intro journal hj
      exact hfresh (h.known journal (known_changes haround (hknown journal hj))).folder
    · have hopens := hc.prepared q other (hsame ▸ hq)
      exact ⟨hopens.made, hopens.marked, hopens.empty,
        fun journal hj => hopens.unused journal (hknown journal hj)⟩
  · intro q other hq
    rcases hcall q with ⟨rfl, hr⟩ | ⟨-, hsame⟩
    · rw [hr] at hq
      cases hq
      exact ⟨hd.folder, fun hin => hfresh (h.returned _ hin).1 rfl⟩
    · exact hc.underway q other (hsame ▸ hq)
  · intro q q' other other' hq hq' hid
    rcases hcall q with ⟨rfl, hr⟩ | ⟨-, hsame⟩
    · rcases hcall q' with ⟨rfl, -⟩ | ⟨-, hsame'⟩
      · rfl
      · rw [hr] at hq
        cases hq
        exact absurd hid.symm (hfresh (h.underway q' other' (hsame' ▸ hq')).1)
    · rcases hcall q' with ⟨rfl, hr'⟩ | ⟨-, hsame'⟩
      · rw [hr'] at hq'
        cases hq'
        exact absurd hid (hfresh (h.underway q other (hsame ▸ hq)).1)
      · exact h.alone q q' other other' (hsame ▸ hq) (hsame' ▸ hq') hid

/-! ## A restore that has the lock -/

/-- With its backups in place, a journal says of each file what it was. -/
theorem savedOf_entry {file : RecoveryFilePlan} (h : FilePlanned codec D file)
    (hbackup : d.backup plan.id file.kind = .file (file.current.getD [])) :
    savedOf d plan.id file.entry = D.primary file.kind := by
  rw [h.current]
  cases hcurrent : file.current with
  | none => simp [savedOf, RecoveryFilePlan.entry, hcurrent, entryOf]
  | some bytes =>
    simpa [savedOf, RecoveryFilePlan.entry, hcurrent, entryOf] using hbackup

theorem placed_active (h : Placed codec D plan d) {journal : RecoveryJournal}
    (hactive : d.active = .file (some journal)) : D.active = .file (some journal) ∨
      (∃ n, journal = plan.journal n) ∧ Planned codec D plan ∧ Pending D plan d := by
  rcases h with h | ⟨hplanned, hpending⟩
  · rcases h.active with habsent | hsame
    · rw [habsent] at hactive
      cases hactive
    · exact .inl (hsame ▸ hactive)
  · obtain ⟨n, -, hn⟩ := hpending.journal
    rw [hn] at hactive
    cases hactive
    exact .inr ⟨⟨n, rfl⟩, hplanned, hpending⟩

theorem placed_marked (h : Placed codec D plan d) (hfolder : (d.plan plan.id).isSome) :
    d.marker = .file MARKER_BYTES := by
  rcases h with h | ⟨-, h⟩
  · rcases h.marked with habsent | hmarked
    · have hthere := Disk.hasFolder_of_plan hfolder
      simp [Disk.hasFolder, habsent] at hthere
    · exact hmarked
  · exact h.marked

section
variable (h : Inv codec s) (hp : s.calls p = .prepared plan) (hd : Placed codec s.disk plan d)
  (hbeside : Beside s.disk plan d)
  (hr : r = .idle ∨ r = .placed plan ∧ Planned codec s.disk plan ∧ Pending s.disk plan d)

include hr in
theorem places_call (p q : Nat) :
    (((s.places plan.id d).turns p r).calls q = .idle ∨
      q = p ∧ ((s.places plan.id d).turns p r).calls q = .placed plan) ∨
    q ≠ p ∧ ((s.places plan.id d).turns p r).calls q = s.calls q := by
  rcases (s.places plan.id d).calls_turns p r q with ⟨hq, hcall⟩ | hcall
  · rcases hr with rfl | ⟨rfl, -⟩
    · exact .inl (.inl hcall)
    · exact .inl (.inr ⟨hq, hcall⟩)
  · exact .inr hcall

include h hp hd hr in
/-- A journal is one that was known before, or the one this restore has just written. -/
theorem Inv.places_known {journal : RecoveryJournal}
    (hj : ((s.places plan.id d).turns p r).Known journal) :
    s.Known journal ∧ journal.plan_id ≠ plan.id ∨
      (∃ n, journal = plan.journal n) ∧ Planned codec s.disk plan ∧ Pending s.disk plan d := by
  have hold : ∀ {journal}, s.Known journal → s.Known journal ∧ journal.plan_id ≠ plan.id :=
    fun hj => ⟨hj, (h.prepared p plan hp).unused _ hj⟩
  rcases hj with hactive | ⟨q, hq⟩
  · exact (placed_active hd hactive).imp_left fun hsame => hold (.inl hsame)
  · rcases (s.places plan.id d).calls_turns p r q with ⟨-, hq'⟩ | ⟨-, hsame⟩
    · rw [hq'] at hq
      rcases hr with rfl | ⟨rfl, hplanned, hpending⟩
      · cases hq
      · cases hq
        exact .inr ⟨⟨_, rfl⟩, hplanned, hpending⟩
    · exact .inl (hold (.inr ⟨q, hsame ▸ hq⟩))

include hp hr in
theorem places_underway {q : Nat} {other : RecoveryPlan}
    (hq : (((s.places plan.id d).turns p r).calls q).underway = some other) :
    (s.calls q).underway = some other := by
  rcases places_call hr p q with (hidle | ⟨rfl, hplaced⟩) | ⟨-, hsame⟩
  · rw [hidle] at hq
    cases hq
  · rw [hplaced] at hq
    cases hq
    rw [hp]
    rfl
  · exact hsame ▸ hq

include hbeside in
theorem Beside.backup {id : Uuid} (hid : id ≠ plan.id) : d.backup id = s.disk.backup id := by
  funext kind
  simp [Disk.backup, hbeside.plans id hid]

include hbeside in
theorem Beside.kept {id : Uuid} (hsome : (s.disk.plan id).isSome) : (d.plan id).isSome := by
  by_cases hid : id = plan.id
  · rw [hid]
    exact hbeside.folder
  · rw [hbeside.plans id hid]
    exact hsome

include h hp hd hbeside hr in
theorem Inv.places_holds {journal : RecoveryJournal}
    (hj : ((s.places plan.id d).turns p r).Known journal) :
    ((s.places plan.id d).turns p r).Holds journal := by
  rcases h.places_known hp hd hr hj with ⟨hold, hid⟩ | ⟨⟨n, rfl⟩, hplanned, hpending⟩
  · obtain ⟨hsome, hsaved⟩ := h.known journal hold
    refine ⟨hbeside.kept hsome, ?_⟩
    intro entry hentry hwritten hcommits
    simp [System.turns, System.places, System.changes] at hwritten
    have hcommits' : s.commits entry.kind = s.placed journal.plan_id entry.kind := by
      simpa [System.turns, System.places, System.changes, hid] using hcommits
    show d.primary entry.kind = savedOf d journal.plan_id entry
    rw [hwritten.2, hsaved entry hentry hwritten.1 hcommits', savedOf, savedOf, hbeside.backup hid]
  · refine ⟨hbeside.folder, ?_⟩
    intro entry hentry hwritten _
    obtain ⟨file, hfile, rfl⟩ := List.mem_map.mp hentry
    simp [System.turns, System.places, System.changes] at hwritten
    show d.primary file.kind = savedOf d plan.id file.entry
    rw [savedOf_entry (hplanned.files file hfile) (hpending.backups file hfile)]
    exact hwritten.2

include h hp hd hbeside hr in
theorem Inv.places_opens {q : Nat} {other : RecoveryPlan}
    (hq : ((s.places plan.id d).turns p r).calls q = .prepared other) :
    ((s.places plan.id d).turns p r).Opens codec other := by
  have hid : other.id ≠ plan.id := by
    intro hid
    have hunder := places_underway (s := s) (d := d) hp hr (show _ = some other by rw [hq]; rfl)
    obtain rfl := h.alone q p other plan hunder (by rw [hp]; rfl) hid
    rcases places_call hr q q with (hidle | ⟨-, hplaced⟩) | ⟨hne, -⟩
    · rw [hidle] at hq
      cases hq
    · rw [hplaced] at hq
      cases hq
    · exact hne rfl
  rcases places_call hr p q with (hidle | ⟨-, hplaced⟩) | ⟨-, hsame⟩
  · rw [hidle] at hq
    cases hq
  · rw [hplaced] at hq
    cases hq
  · have hopens := h.prepared q other (hsame ▸ hq)
    refine ⟨hopens.made, placed_marked hd hbeside.folder, ?_, ?_⟩
    · exact (hbeside.backup hid).trans hopens.empty
    · intro journal hj
      rcases h.places_known hp hd hr hj with ⟨hold, -⟩ | ⟨⟨n, rfl⟩, -⟩
      · exact hopens.unused journal hold
      · exact hid.symm

include h hp hd hbeside hr in
/-- A restore that has had the lock has touched its own folder only, and it goes on only with its
journal in place. -/
theorem Inv.places : Inv codec ((s.places plan.id d).turns p r) where
  sound := by
    show d.active ≠ .link ∧ d.active ≠ .folder
    rcases hd with hbefore | ⟨-, hpending⟩
    · rcases hbefore.active with habsent | hsame
      · simp [habsent]
      · rw [hsame]
        exact h.sound
    · obtain ⟨n, -, hn⟩ := hpending.journal
      simp [hn]
  known journal hj := h.places_holds hp hd hbeside hr hj
  planned := by
    intro q other hq
    rcases places_call hr p q with (hidle | ⟨-, hplaced⟩) | ⟨-, hsame⟩
    · rw [hidle] at hq
      cases hq
    · rw [hplaced] at hq
      cases hq
    · exact h.planned q other (hsame ▸ hq)
  prepared q other hq := h.places_opens hp hd hbeside hr hq
  underway := by
    intro q other hq
    obtain ⟨hsome, hnot⟩ := h.underway q other (places_underway hp hr hq)
    exact ⟨hbeside.kept hsome, hnot⟩
  alone q q' other other' hq hq' := h.alone q q' other other' (places_underway hp hr hq)
    (places_underway hp hr hq')
  returned := by
    intro id hid
    obtain ⟨hsome, hactive⟩ := h.returned id hid
    refine ⟨hbeside.kept hsome, ?_⟩
    intro journal hjournal
    rcases placed_active hd hjournal with hsame | ⟨⟨n, rfl⟩, -⟩
    · exact hactive journal hsame
    · rintro rfl
      exact (h.underway p plan (by rw [hp]; rfl)).2 hid
  placed := by
    intro id kind
    simp only [System.turns, System.places, System.changes]
    by_cases hid : id = plan.id
    · simp [hid]
    · simpa [hid] using h.placed id kind

end

/-! ## A restore that returns -/

theorem Inv.returns (h : Inv codec s) (hp : s.calls p = .rebuilt plan) :
    Inv codec { (s.changes (s.disk.setActive .absent)).turns p .idle with
      returned := plan.id :: s.returned } := by
  have hunderway : (s.calls p).underway = some plan := by rw [hp]; rfl
  obtain ⟨hfolder, -⟩ := h.underway p plan hunderway
  have hbare : (s.disk.setActive .absent).active = .absent :=
    Disk.active_setActive (Disk.hasFolder_of_plan hfolder)
  have haround : Around s.disk (s.disk.setActive .absent) :=
    ⟨.inr hbare, fun id _ => by rw [Disk.plan_setActive], fun hm => by simpa using hm⟩
  have hi := (h.changes haround).idle p
  refine hi.marks (plan.id :: s.returned) _ _ ?_ ?_
  · intro q other hq
    rw [List.mem_cons]
    rintro (hid | hin)
    · by_cases hqp : q = p
      · rw [hqp, System.calls_turns_self] at hq
        cases hq
      · have hq' : (s.calls q).underway = some other := by
          simpa [System.turns, System.changes, hqp] using hq
        exact hqp (h.alone q p other plan hq' hunderway hid)
    · exact (hi.underway q other hq).2 hin
  · intro id hid
    have hnone : ∀ journal, (s.disk.setActive .absent).active = .file (some journal) →
        journal.plan_id ≠ id := by
      intro journal hjournal
      rw [hbare] at hjournal
      cases hjournal
    rcases List.mem_cons.mp hid with rfl | hin
    · exact ⟨haround.folder hfolder, hnone⟩
    · exact ⟨(hi.returned id hin).1, hnone⟩

/-! ## Writers -/

theorem Inv.commits (h : Inv codec s) (kind : MetadataFileKind) (content last_good : Entry Bytes) :
    Inv codec (s.step codec (.commit kind content last_good)) where
  sound := h.sound
  known := by
    intro journal hj
    obtain ⟨hfolder, hsaved⟩ := h.known journal hj
    refine ⟨hfolder, ?_⟩
    intro entry hentry hwritten hcommits
    simp only [System.step] at hwritten hcommits
    by_cases hkind : entry.kind = kind
    · have hbound := h.placed journal.plan_id entry.kind
      rw [← hkind, Function.update_self] at hcommits
      omega
    · simp only [Function.update_of_ne hkind] at hwritten hcommits
      show Function.update s.disk.primary kind content entry.kind = _
      rw [Function.update_of_ne hkind]
      exact hsaved entry hentry hwritten hcommits
  planned := h.planned
  prepared p plan hp :=
    ⟨(h.prepared p plan hp).made, (h.prepared p plan hp).marked, (h.prepared p plan hp).empty,
      (h.prepared p plan hp).unused⟩
  underway := h.underway
  alone := h.alone
  returned := h.returned
  placed := by
    intro id other
    have hbound := h.placed id other
    simp only [System.step]
    by_cases hkind : other = kind
    · rw [hkind, Function.update_self]
      rw [hkind] at hbound
      omega
    · rwa [Function.update_of_ne hkind]

/-! ## A step -/

theorem loses_eq_false {may : MetadataFileKind → Entry Bytes}
    (h : ∀ kind, s.written kind = true → d.primary kind = s.disk.primary kind ∨
      d.primary kind = may kind) : s.loses d may = false := by
  rw [System.loses, List.any_eq_false]
  intro kind _ hlost
  simp at hlost
  obtain ⟨⟨hwritten, hchanged⟩, hmay⟩ := hlost
  rcases h kind hwritten with hsame | hput
  · exact hchanged hsame
  · exact hmay hput

theorem unwritten_iff {kinds : List MetadataFileKind} :
    s.unwritten id kinds = true ↔ ∀ kind ∈ kinds, s.commits kind = s.placed id kind := by
  simp [System.unwritten, List.all_eq_true]

/-- A rollback of files that no writer has committed to since loses nothing. -/
theorem rolls_loses_nothing (h : Inv codec s) {journal : RecoveryJournal} (hknown : s.Known journal)
    (hunwritten : s.unwritten journal.plan_id (journal.entries.map (·.kind)) = true)
    (hd : RollsBack journal s.disk d) : s.loses d s.disk.primary = false := by
  apply loses_eq_false
  intro kind hwritten
  rcases hd.primary kind with hsame | ⟨entry, hentry, rfl, hput⟩
  · exact .inl hsame
  · have hcommits := unwritten_iff.mp hunwritten entry.kind (List.mem_map_of_mem hentry)
    rw [hput]
    exact .inl ((h.known journal hknown).saved entry hentry hwritten hcommits).symm

theorem places_loses_nothing (hd : Placed codec s.disk plan d) :
    s.loses d s.disk.last_good = false := by
  apply loses_eq_false
  intro kind _
  rcases hd with hbefore | ⟨-, hpending⟩
  · exact .inl (hbefore.others kind)
  · by_cases hkind : ∃ file ∈ plan.files, file.kind = kind
    · obtain ⟨file, hfile, rfl⟩ := hkind
      exact hpending.files file hfile
    · exact .inl (hpending.primary kind fun file hfile heq => hkind ⟨file, hfile, heq⟩)

/-- The invariant, and that nothing has gone wrong so far. -/
structure Right (codec : Codec) (s : System) : Prop extends Inv codec s where
  kept : s.overwritten = false
  stood : s.undone = false

section
variable (h : Right codec s)
include h

theorem Right.turned (hi : Inv codec (s.turns p r)) : Right codec (s.turns p r) :=
  ⟨hi, h.kept, h.stood⟩

theorem right_prepare (p : Nat) (fates : Fates) :
    Right codec (s.step codec (.prepare p fates)) := by
  simp only [System.step]
  split
  case h_2 => exact h
  case h_1 plan hp =>
    have hends : Ends (fun _ => Opened s.disk plan) (SameFiles s.disk)
        (prepare plan fates s.disk) := prepare_leaves s.disk rfl
    have hstop : ∀ {d}, SameFiles s.disk d → Right codec ((s.changes d).turns p .idle) :=
      fun hd => ⟨(h.toInv.changes hd.around).idle p, h.kept, h.stood⟩
    rcases hrun : prepare plan fates s.disk with ⟨u | e | _, d⟩
    · rw [hrun] at hends
      exact ⟨h.toInv.opens hp hends, h.kept, h.stood⟩
    · rw [hrun] at hends
      exact hstop hends
    · rw [hrun] at hends
      exact hstop hends

theorem right_place (p : Nat) (fates : Fates) (hsafe : s.safeStep codec (.place p fates) = true) :
    Right codec (s.step codec (.place p fates)) := by
  simp only [System.step]
  simp only [System.safeStep] at hsafe
  split
  case h_2 => exact h
  case h_1 plan hp =>
    simp only [hp] at hsafe
    obtain ⟨⟨hfiles, D₀, hplanned⟩, hmarked, hempty, -⟩ := h.prepared p plan hp
    obtain ⟨hfolder, -⟩ := h.underway p plan (by rw [hp]; rfl)
    have hends : Ends (fun _ d => Planned codec s.disk plan ∧ Published s.disk plan plan.files d)
        (Placed codec s.disk plan) (place codec plan fates s.disk) :=
      place_leaves hplanned hfiles h.sound hmarked hfolder hempty hsafe s.disk rfl
    have hbeside : Ends (fun _ => Beside s.disk plan) (Beside s.disk plan)
        (place codec plan fates s.disk) := place_beside s.disk ⟨fun _ _ => rfl, hfolder⟩
    have hright : ∀ {d r}, Placed codec s.disk plan d →
        Inv codec ((s.places plan.id d).turns p r) →
        Right codec ((s.places plan.id d).turns p r) := by
      intro d r hd hi
      refine ⟨hi, ?_, h.stood⟩
      show (s.overwritten || s.loses d s.disk.last_good) = false
      rw [h.kept, places_loses_nothing hd]
      rfl
    rcases hrun : place codec plan fates s.disk with ⟨u | e | _, d⟩
    · rw [hrun] at hends hbeside
      have hd : Placed codec s.disk plan d := .inr ⟨hends.1, hends.2.toPending⟩
      exact hright hd (h.toInv.places hp hd hbeside
        (.inr ⟨rfl, hends.1, hends.2.toPending⟩))
    · rw [hrun] at hends hbeside
      exact hright hends (h.toInv.places hp hends hbeside (.inl rfl))
    · rw [hrun] at hends hbeside
      exact hright hends (h.toInv.places hp hends hbeside (.inl rfl))

theorem right_rolls {journal : RecoveryJournal} (hknown : s.Known journal)
    (hunwritten : s.unwritten journal.plan_id (journal.entries.map (·.kind)) = true)
    (hd : RollsBack journal s.disk d) : Right codec ((s.rolls d).turns p .idle) := by
  refine ⟨((h.toInv.changes hd.around).idle p).flags _ _, ?_, h.stood⟩
  show (s.overwritten || s.loses d s.disk.primary) = false
  rw [h.kept, rolls_loses_nothing h.toInv hknown hunwritten hd]
  rfl

theorem right_undo (p : Nat) (fates : Fates) (hsafe : s.safeStep codec (.undo p fates) = true) :
    Right codec (s.step codec (.undo p fates)) := by
  simp only [System.step]
  simp only [System.safeStep] at hsafe
  split
  case h_2 => exact h
  case h_1 plan value hp =>
    simp only [hp] at hsafe
    refine right_rolls h (?_ : s.Known (plan.journal plan.files.length)) ?_ ?_
    · exact .inr ⟨p, by rw [hp]; rfl⟩
    · have hkinds : (plan.journal plan.files.length).entries.map (·.kind) =
          plan.files.map (·.kind) := by
        simp [RecoveryPlan.journal, RecoveryFilePlan.entry]
      rw [hkinds]
      exact hsafe
    · exact (undo_keeps value s.disk (rollsBack_refl _)).state (fun _ _ => id) fun _ => id

theorem right_rollBack (p : Nat) (fates : Fates)
    (hsafe : s.safeStep codec (.rollBack p fates) = true) :
    Right codec (s.step codec (.rollBack p fates)) := by
  simp only [System.step]
  simp only [System.safeStep] at hsafe
  split
  case h_2 => exact h
  case h_1 journal hp =>
    simp [hp] at hsafe
    obtain ⟨hactive, hunwritten⟩ := hsafe
    have hd : RollsBack journal s.disk (roll_back_locked codec journal fates s.disk).2 :=
      (roll_back_locked_keeps s.disk (rollsBack_refl _)).state (fun _ _ => id) fun _ => id
    have hrolled := right_rolls (p := p) h (.inr ⟨p, by rw [hp]; rfl⟩) hunwritten hd
    have hnot : journal.plan_id ∉ s.returned := by
      intro hin
      unfold System.isActive at hactive
      split at hactive
      · rename_i active hjournal
        rw [decide_eq_true_eq] at hactive
        exact (h.returned _ hin).2 active hjournal hactive
      · cases hactive
    refine ⟨hrolled.toInv.flags _ _, hrolled.kept, ?_⟩
    simp [h.stood, hnot]

theorem right_rebuild (p : Nat) (fates : Fates) :
    Right codec (s.step codec (.rebuild p fates)) := by
  simp only [System.step]
  split
  case h_2 => exact h
  case h_1 plan hp =>
    have hunderway : (s.calls p).underway = some plan := by rw [hp]; rfl
    have hheld : s.Known (plan.journal plan.files.length) := .inr ⟨p, by rw [hp]; rfl⟩
    split
    · apply h.turned
      refine h.toInv.turns ?_ nofun nofun nofun
      rintro other ⟨rfl⟩
      exact hunderway
    · apply h.turned
      refine h.toInv.turns ?_ ?_ nofun nofun
      · rintro other ⟨rfl⟩
        exact hunderway
      · rintro journal ⟨rfl⟩
        exact hheld
    · exact h.turned (h.toInv.idle p)

theorem right_remove (p : Nat) (fates : Fates) : Right codec (s.step codec (.remove p fates)) := by
  simp only [System.step]
  split
  case h_2 => exact h
  case h_1 plan hp =>
    obtain ⟨hfolder, -⟩ := h.underway p plan (by rw [hp]; rfl)
    have hbare : Around s.disk (s.disk.setActive .absent) :=
      ⟨.inr (Disk.active_setActive (Disk.hasFolder_of_plan hfolder)),
        fun id _ => by rw [Disk.plan_setActive], fun hm => by simpa using hm⟩
    have hends : Ends (fun _ => Around s.disk) (Around s.disk)
        (remove_active_journal .remove_journal fates s.disk) := by
      have hkeeps : Keeps fates (fun d => d = s.disk ∨ d = s.disk.setActive .absent)
          (remove_active_journal .remove_journal) := by
        refine remove_keeps ?_
        rintro d (rfl | rfl)
        · exact .inr rfl
        · unfold Disk.setActive Disk.inFolder
          cases hroot : s.disk.recovery_root <;> simp [hroot]
      have hcase : ∀ d, d = s.disk ∨ d = s.disk.setActive .absent → Around s.disk d := by
        rintro d (rfl | rfl)
        · exact ⟨.inl rfl, fun _ _ => rfl, id⟩
        · exact hbare
      exact (hkeeps s.disk (.inl rfl)).weaken (fun _ => hcase) hcase
    rcases hrun : remove_active_journal .remove_journal fates s.disk with ⟨u | e | _, d⟩
    · obtain rfl := remove_active_journal_done hrun
      exact ⟨h.toInv.returns hp, h.kept, h.stood⟩
    · rw [hrun] at hends
      exact ⟨(h.toInv.changes hends).idle p, h.kept, h.stood⟩
    · rw [hrun] at hends
      exact ⟨(h.toInv.changes hends).idle p, h.kept, h.stood⟩

theorem right_read (p : Nat) (fates : Fates) : Right codec (s.step codec (.read p fates)) := by
  simp only [System.step]
  split
  case h_2 => exact h
  case h_1 hp =>
    have hends : Ends (fun found d => d = s.disk ∧ ∀ journal, found = some journal →
        s.disk.active = .file (some journal)) (· = s.disk) (read_active_journal fates s.disk) :=
      read_active_journal_found s.disk rfl
    split
    · rename_i journal d hrun
      rw [hrun] at hends
      apply h.turned
      refine h.toInv.turns nofun ?_ nofun nofun
      rintro _ ⟨rfl⟩
      exact .inl (hends.2 journal rfl)
    · exact h

theorem right_plan (p : Nat) (id : Uuid) : Right codec (s.step codec (.plan p id)) := by
  simp only [System.step]
  split
  · rename_i plan hp hplan
    split
    · exact h
    · rename_i hfiles
      apply h.turned
      refine h.toInv.turns nofun nofun ?_ nofun
      rintro other ⟨rfl⟩
      exact ⟨hfiles, s.disk, planned hplan⟩
  · exact h

end

theorem right_step (s : System) (e : Event) (h : Right codec s) (hsafe : s.safeStep codec e = true) :
    Right codec (s.step codec e) := by
  cases e with
  | plan p id => exact right_plan h p id
  | prepare p fates => exact right_prepare h p fates
  | place p fates => exact right_place h p fates hsafe
  | rebuild p fates => exact right_rebuild h p fates
  | undo p fates => exact right_undo h p fates hsafe
  | remove p fates => exact right_remove h p fates
  | read p fates => exact right_read h p fates
  | rollBack p fates => exact right_rollBack h p fates hsafe
  | commit kind content last_good => exact ⟨h.toInv.commits kind content last_good, h.kept, h.stood⟩
  | die p => exact h.turned (h.toInv.idle p)

theorem right_starts (hidle : D.active = .absent) : Right codec (System.starts D) where
  sound := by simp [System.starts, hidle]
  known := by
    rintro journal (hactive | ⟨p, hp⟩)
    · rw [show D.active = _ from hactive] at hidle
      cases hidle
    · cases hp
  planned := nofun
  prepared := nofun
  underway := nofun
  alone := nofun
  returned := nofun
  placed _ _ := le_rfl
  kept := rfl
  stood := rfl

/-- In every order of restores, recoveries and writers, no rollback overwrites what a writer has
committed, and none undoes a restore that has returned, as long as no step goes wrong. -/
theorem recovery_keeps_what_was_committed {D : Disk} (hidle : D.active = .absent)
    (events : List Event)
    (hsafe : Runs.steps (System.step codec) (System.safeStep codec) (System.starts D) events = true) :
    let s := Runs.run (System.step codec) (System.starts D) events
    s.overwritten = false ∧ s.undone = false :=
  have h := Runs.keeps (Right codec) right_step (right_starts hidle) hsafe
  ⟨h.kept, h.stood⟩

end

/-! ## Orders that go wrong -/

/-- A restore up to the point where it gives the lock up. -/
def restoring : List Event :=
  [.plan 0 1, .prepare 0 undisturbed, .place 0 undisturbed]

def newLibrary : Entry Bytes := .file (text "\x7b\"revision\":8\x7d")

/-- A restore dies and another process rolls it back. The next restore returns, and a writer commits. -/
def goodOrder : List Event :=
  restoring ++ [.die 0, .read 1 undisturbed, .rollBack 1 undisturbed, .plan 0 2,
    .prepare 0 undisturbed, .place 0 undisturbed, .rebuild 0 undisturbed, .remove 0 undisturbed,
    .commit .Library newLibrary (.file goodLibrary)]

theorem a_restored_library_can_be_written :
    let s := Runs.run (System.step someCodec) (System.starts tornLibrary) goodOrder
    s.returned = [2] ∧ s.disk.primary .Library = newLibrary ∧ s.overwritten = false ∧
      s.undone = false :=
  ⟨by decide +kernel, by decide +kernel, recovery_keeps_what_was_committed
    (by simp [Disk.active, tornLibrary]) goodOrder (by decide +kernel)⟩

/-- The indexes are being rebuilt when a writer commits and another process begins a recovery. -/
def writtenMeanwhile : List Event :=
  restoring ++ [.commit .Library newLibrary (.file goodLibrary), .read 1 undisturbed,
    .rollBack 1 undisturbed]

/-- A recovery has read the journal when the restore removes it and returns. -/
def returnedMeanwhile : List Event :=
  restoring ++ [.read 1 undisturbed, .rebuild 0 undisturbed, .remove 0 undisturbed,
    .rollBack 1 undisturbed]

/-- The commit is overwritten in the one order, and the restore is undone in the other. -/
theorem a_recovery_undoes_what_was_committed :
    (Runs.run (System.step someCodec) (System.starts tornLibrary) writtenMeanwhile).overwritten =
        true ∧
      (Runs.run (System.step someCodec) (System.starts tornLibrary) returnedMeanwhile).undone =
        true := by
  constructor
  · decide +kernel
  · decide +kernel

end multiplex_store.recovery
