-- Commits that fail: in a check, in a write that does nothing, or at a document
-- that is too large. The primary stays as it was. What may be left is a journal of
-- references to retire, and `retire_pending` abandons it without deleting any.
import Multiplex.Store.RepositoryRuns

open Checks multiplex_domain

namespace multiplex_store

structure CommitCall where
  expected_revision : Nat
  document : ReplicationDocument
  custody : ReplicationCustodyMetadata
  retired_references : List ReplicationSecretRef
  policy : ReplicationPolicy

def CommitCall.plan (enc : Encoding) (disk : Disk) (c : CommitCall) :
    Plan ReplicationRepositorySnapshot :=
  ReplicationRepository.commit enc disk c.expected_revision c.document c.custody
    c.retired_references c.policy

/-- A plan that ends in an error after the effects `done`: an error of its own, or a write that
failed without effect. -/
def Plan.FailsAfter {α : Type} (plan : Plan α) (done : List Effect) : Prop :=
  done = plan.effects ∧ (∃ e, plan.outcome = .error e) ∨ done <+: plan.effects ∧ done ≠ plan.effects

def Effect.is_journal : Effect → Bool
  | .write_journal _ => true
  | _ => false

/-- A journal was written before the failure. -/
def leaves_journal (done : List Effect) : Bool := done.any Effect.is_journal

variable {enc : Encoding} {disk disk' : Disk} {root : Root} {c : CommitCall} {done : List Effect}

/-! ## The checks of a commit -/

/-- A commit looks at the primary and at whether there is a journal. -/
theorem commit_plan_congr (hprimary : disk'.primary_content = disk.primary_content)
    (htransaction : disk'.transaction.isSome = disk.transaction.isSome) (c : CommitCall) :
    c.plan enc disk' = c.plan enc disk := by
  unfold CommitCall.plan ReplicationRepository.commit commit_check
  rw [hprimary, htransaction]

variable {custody : ReplicationCustodyMetadata}

theorem foldlM_unique : ∀ {references unique all : List ReplicationSecretRef},
    references.foldlM (fun unique reference => do
      refuseIf ReplicationStoreError.InvalidCustodyTransition
        (reference.kind ≠ ReplicationSecretKind.EpochKey)
      refuseIf ReplicationStoreError.Corrupt (reference ∈ unique)
      refuseIf ReplicationStoreError.RetirementStillReferenced (custody.contains reference = true)
      return reference :: unique) unique = .ok all →
    references.Nodup ∧ ∀ r ∈ references, r ∉ unique := by
  intro references
  induction references with
  | nil => exact fun _ => ⟨List.nodup_nil, nofun⟩
  | cons r rest ih =>
    intro unique all h
    simp only [List.foldlM_cons, bind_ok_iff, refuseIf_ok_iff, pure_ok_iff] at h
    obtain ⟨_, ⟨_, _, _, hnew, _, _, rfl⟩, hrest⟩ := h
    obtain ⟨hnodup, hfresh⟩ := ih hrest
    refine ⟨List.nodup_cons.mpr ⟨fun hmem => hfresh r hmem (by simp), hnodup⟩, ?_⟩
    intro x hx
    rcases List.mem_cons.mp hx with rfl | hx
    · exact hnew
    · exact fun hmem => hfresh x hx (by simp [hmem])

variable {references : List ReplicationSecretRef} {workspace : ReplicationWorkspaceId}
  {policy : ReplicationPolicy} {current : StoredReplicationDocument}

theorem validate_retirements_ok (h : validate_retirements custody references = .ok ()) :
    references.length ≤ MAX_REPLICATION_RETAINED_EPOCH_KEYS ∧ references.Nodup := by
  unfold validate_retirements at h
  simp only [bind_ok_iff, refuseIf_ok_iff, not_lt] at h
  obtain ⟨_, hlength, _, hfold, _⟩ := h
  exact ⟨hlength, (foldlM_unique hfold).1⟩

theorem decode_journal (h : validate_retirements custody references = .ok ()) :
    decode_secret_references (references.insertionSort (· ≤ ·)) =
      .ok (references.insertionSort (· ≤ ·)) := by
  obtain ⟨hlength, hnodup⟩ := validate_retirements_ok h
  have hperm := List.perm_insertionSort (· ≤ ·) references
  unfold decode_secret_references
  simp only [bind_ok_iff, refuseIf_ok_iff, pure_ok_iff, not_not, not_lt]
  exact ⟨(), by rwa [hperm.length_eq], (), hperm.nodup_iff.mpr hnodup, trivial⟩

/-! ## What a failed commit has done -/

/-- Nothing, or the copy of the primary, or that and the journal of a commit that was checked. -/
inductive FailedCommit (enc : Encoding) (disk : Disk) (c : CommitCall) : List Effect → Prop
  | nothing : FailedCommit enc disk c []
  | saved (current : StoredReplicationDocument) :
      FailedCommit enc disk c [.write_last_good (.stored current)]
  | journaled {current next : StoredReplicationDocument}
      (hcheck : commit_check enc disk c.expected_revision c.document c.custody
        c.retired_references c.policy = .ok (current, next)) :
      FailedCommit enc disk c [.write_last_good (.stored current),
        .write_journal ⟨next.revision, c.retired_references.insertionSort (· ≤ ·)⟩]

theorem failedCommit_of_fails (h : (c.plan enc disk).FailsAfter done) :
    FailedCommit enc disk c done := by
  have hpartial : ∀ (s : ReplicationRepositorySnapshot), (c.plan enc disk).outcome = .ok s →
      done ≠ (c.plan enc disk).effects := by
    rintro s hs rfl
    rcases h with ⟨-, e, he⟩ | ⟨-, hne⟩
    · rw [hs] at he
      cases he
    · exact hne rfl
  have hstart : done <+: (c.plan enc disk).effects := by
    rcases h with ⟨rfl, -⟩ | ⟨hstart, -⟩
    · exact List.prefix_refl _
    · exact hstart
  unfold CommitCall.plan ReplicationRepository.commit at hstart hpartial
  cases hcheck : commit_check enc disk c.expected_revision c.document c.custody
      c.retired_references c.policy with
  | error e =>
    rw [hcheck] at hstart
    obtain rfl := List.prefix_nil.mp hstart
    exact .nothing
  | ok r =>
    obtain ⟨current, next⟩ := r
    rw [hcheck] at hstart hpartial
    simp only at hstart hpartial
    split at hstart
    · simp [List.prefix_cons_iff] at hstart
      obtain rfl | ⟨_, rfl, rfl⟩ := hstart
      · exact .nothing
      · exact .saved current
    · rename_i hjournal
      rw [if_neg hjournal] at hpartial
      split at hstart
      · -- the new primary is too large
        split at hstart
        · simp [List.prefix_cons_iff] at hstart
          obtain rfl | ⟨_, rfl, rfl⟩ := hstart
          · exact .nothing
          · exact .saved current
        · simp [List.prefix_cons_iff]
            at hstart
          obtain rfl | ⟨_, rfl, rfl | ⟨_, rfl, rfl⟩⟩ := hstart
          · exact .nothing
          · exact .saved current
          · exact .journaled hcheck
      · rename_i hfits
        rw [if_neg hfits] at hpartial
        have hlast := hpartial _ rfl
        split at hstart
        · rename_i hnone
          simp [if_pos hnone, List.prefix_cons_iff] at hstart hlast
          obtain rfl | ⟨_, rfl, rfl | ⟨_, rfl, rfl⟩⟩ := hstart
          · exact .nothing
          · exact .saved current
          · exact absurd rfl hlast
        · rename_i hsome
          simp [if_neg hsome, List.prefix_cons_iff] at hstart hlast
          obtain rfl | ⟨_, rfl, rfl | ⟨_, rfl, rfl | ⟨_, rfl, rfl⟩⟩⟩ := hstart
          · exact .nothing
          · exact .saved current
          · exact .journaled hcheck
          · exact absurd rfl hlast

/-! ## What is read afterwards -/

/-- A primary that can be read is what `load` returns, with whether there is a journal. -/
theorem load_of_readable
    (h : read_repository enc disk.primary_content workspace policy = .ok current) :
    ReplicationRepository.load enc disk workspace policy =
      .ok (snapshot current .Primary disk.transaction.isSome) := by
  unfold ReplicationRepository.load
  rw [h]

/-- A journal that names a revision which the primary has not reached is abandoned. -/
theorem retire_abandons {journal : ReplicationTransactionJournal}
    (backend : ReplicationSecretRef → Except ReplicationSecretStoreError Bool)
    (htransaction : disk.transaction = some journal)
    (hdecode : decode_secret_references journal.retired_references = .ok journal.retired_references)
    (hread : read_repository enc disk.primary_content workspace policy = .ok current)
    (hrevision : current.revision < journal.committed_revision) :
    ReplicationRepository.retire_pending enc disk backend workspace policy =
      ⟨[.remove_journal], .ok (.AbandonedUncommitted journal.retired_references.length)⟩ := by
  have hcheck : retire_check enc disk journal workspace policy =
      .ok (journal.retired_references, current) := by
    unfold retire_check
    rw [hdecode, hread]
    rfl
  unfold ReplicationRepository.retire_pending
  rw [htransaction]
  simp only [hcheck, if_pos hrevision]

/-- What is left of a commit that failed, while the primary can be read: the document as it was,
and each commit that would have gone through still does, if need be after the journal that was
left is abandoned. -/
structure LeavesAsBefore (enc : Encoding) (root : Root) (c : CommitCall) (left : Bool)
    (workspace : ReplicationWorkspaceId) (policy : ReplicationPolicy) (after : Root) : Prop where
  loads : ∃ current,
    ReplicationRepository.load enc root.disk workspace policy =
      .ok (snapshot current .Primary root.disk.transaction.isSome) ∧
    ReplicationRepository.load enc after.disk workspace policy =
      .ok (snapshot current .Primary (root.disk.transaction.isSome || left))
  commits : left = false → ∀ (later : CommitCall) (s : ReplicationRepositorySnapshot),
    (later.plan enc root.disk).outcome = .ok s → (later.plan enc after.disk).outcome = .ok s
  abandons : left = true →
    ∀ backend : ReplicationSecretRef → Except ReplicationSecretStoreError Bool,
      let retirement := ReplicationRepository.retire_pending enc after.disk backend workspace policy
      retirement.outcome = .ok (.AbandonedUncommitted c.retired_references.length) ∧
        (retirement.effects.foldl Root.apply after).deleted = root.deleted ∧
        ∀ (later : CommitCall) (s : ReplicationRepositorySnapshot),
          (later.plan enc root.disk).outcome = .ok s →
          (later.plan enc (retirement.effects.foldl Root.apply after).disk).outcome = .ok s

/-- After a commit that failed, `load` returns the document that was there, and the commits that
would have succeeded succeed. Only a journal that was written before the failure makes a
difference: it is pending until `retire_pending` abandons it, which deletes no secret. -/
theorem failed_commit_leaves_as_before (enc : Encoding) (root : Root) (c : CommitCall)
    (done : List Effect) (hfails : (c.plan enc root.disk).FailsAfter done)
    (workspace : ReplicationWorkspaceId) (policy : ReplicationPolicy)
    (current : StoredReplicationDocument)
    (hreadable : read_repository enc root.disk.primary_content workspace policy = .ok current) :
    LeavesAsBefore enc root c (leaves_journal done) workspace policy
      (done.foldl Root.apply root) := by
  have hcase := failedCommit_of_fails hfails
  cases hcase with
  | nothing =>
    refine ⟨⟨current, load_of_readable hreadable, ?_⟩, fun _ later s h => h, by simp [leaves_journal]⟩
    simpa [leaves_journal] using load_of_readable hreadable
  | saved copied =>
    refine ⟨⟨current, load_of_readable hreadable, ?_⟩, fun _ later s h => ?_,
      by simp [leaves_journal, Effect.is_journal]⟩
    · have hread : read_repository enc
          (root.apply (.write_last_good (.stored copied))).disk.primary_content workspace policy =
          .ok current := hreadable
      simpa [leaves_journal, Effect.is_journal, Root.apply] using load_of_readable hread
    · rwa [List.foldl_cons, List.foldl_nil, commit_plan_congr (by rfl) (by rfl)]
  | @journaled copied next hcheck =>
    obtain ⟨hprimary, -, hrevision, -⟩ := commit_check_ok hcheck
    have hchecked := hcheck
    unfold commit_check at hchecked
    simp only [bind_ok_iff, refuseIf_ok_iff, Bool.not_eq_true, Option.isSome_eq_false_iff,
      Option.isNone_iff_eq_none] at hchecked
    obtain ⟨_, hretirements, _, hnone, -⟩ := hchecked
    have hcurrent : copied = current := by
      have hboth := hprimary.symm.trans (read_repository_ok hreadable)
      cases hboth
      rfl
    subst hcurrent
    have hread : read_repository enc (([Effect.write_last_good (.stored copied),
        .write_journal ⟨next.revision, c.retired_references.insertionSort (· ≤ ·)⟩].foldl
          Root.apply root).disk.primary_content) workspace policy = .ok copied := hreadable
    refine ⟨⟨copied, load_of_readable hreadable, ?_⟩, by simp [leaves_journal, Effect.is_journal],
      fun _ backend => ?_⟩
    · rw [load_of_readable hread, hnone]
      rfl
    · have habandons := @retire_abandons enc ([Effect.write_last_good (.stored copied),
        .write_journal ⟨next.revision, c.retired_references.insertionSort (· ≤ ·)⟩].foldl
          Root.apply root).disk _ _ _ _ backend rfl (decode_journal hretirements) hread
        (by simp only; omega)
      rw [habandons]
      refine ⟨by rw [List.length_insertionSort], rfl, fun later s h => ?_⟩
      rwa [@commit_plan_congr _ root.disk _ (by rfl) (by rw [hnone]; rfl)]

/-- A replica with two epochs. -/
def twoEpochRoot : Root :=
  Root.run smallEncoding [.call (.create (noteDocument 1) (twoEpochs 1) samplePolicy) none]

/-- The commit that moves it on by one epoch. -/
def nextEpoch : CommitCall := ⟨1, noteDocument 1, twoEpochs 2, [epochKey 1], samplePolicy⟩

theorem nextEpoch_fails_at_the_primary : (nextEpoch.plan smallEncoding twoEpochRoot.disk).FailsAfter
      ((nextEpoch.plan smallEncoding twoEpochRoot.disk).effects.take 2) := by
  refine .inr ⟨List.take_prefix _ _, ?_⟩
  decide +kernel

theorem failed_commit_leaves_two_epochs :
    LeavesAsBefore smallEncoding twoEpochRoot nextEpoch true "workspace" samplePolicy
      (((nextEpoch.plan smallEncoding twoEpochRoot.disk).effects.take 2).foldl Root.apply
        twoEpochRoot) := by
  have hleft : leaves_journal ((nextEpoch.plan smallEncoding twoEpochRoot.disk).effects.take 2) =
      true := by decide +kernel
  have hreadable : read_repository smallEncoding twoEpochRoot.disk.primary_content "workspace"
      samplePolicy = .ok ⟨1, noteDocument 1, twoEpochs 1⟩ := by decide +kernel
  rw [← hleft]
  exact failed_commit_leaves_as_before smallEncoding twoEpochRoot nextEpoch _
    nextEpoch_fails_at_the_primary "workspace" samplePolicy _ hreadable

/-- When the write of the new primary fails, the journal of a retirement stays: what is loaded has
a retirement pending, and the same commit is refused until that is resolved. -/
theorem a_failed_commit_leaves_a_journal :
    ¬∀ (enc : Encoding) (root : Root) (c : CommitCall) (done : List Effect)
        (workspace : ReplicationWorkspaceId) (policy : ReplicationPolicy)
        (current : StoredReplicationDocument),
        read_repository enc root.disk.primary_content workspace policy = .ok current →
        (c.plan enc root.disk).FailsAfter done →
        ReplicationRepository.load enc (done.foldl Root.apply root).disk workspace policy =
            ReplicationRepository.load enc root.disk workspace policy ∧
          ∀ (later : CommitCall) (s : ReplicationRepositorySnapshot),
            (later.plan enc root.disk).outcome = .ok s →
            (later.plan enc (done.foldl Root.apply root).disk).outcome = .ok s := by
  intro h
  have hreadable : read_repository smallEncoding twoEpochRoot.disk.primary_content "workspace"
      samplePolicy = .ok ⟨1, noteDocument 1, twoEpochs 1⟩ := by decide +kernel
  obtain ⟨-, hcommits⟩ := h smallEncoding twoEpochRoot nextEpoch _ "workspace" samplePolicy _
    hreadable nextEpoch_fails_at_the_primary
  have hsucceeds : (nextEpoch.plan smallEncoding twoEpochRoot.disk).outcome =
      .ok ⟨2, noteDocument 1, twoEpochs 2, .Primary, true⟩ := by decide +kernel
  have hrefused : (nextEpoch.plan smallEncoding
      (((nextEpoch.plan smallEncoding twoEpochRoot.disk).effects.take 2).foldl Root.apply
        twoEpochRoot).disk).outcome = .error .PendingRetirement := by decide +kernel
  rw [hcommits nextEpoch _ hsucceeds] at hrefused
  cases hrefused

end multiplex_store
