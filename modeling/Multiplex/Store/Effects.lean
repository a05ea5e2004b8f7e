-- What the calls of the repository can do to it, one effect at a time. The
-- laws of whole runs follow from this list and not from the calls.
import Multiplex.Store.Repository

open Checks multiplex_domain

namespace multiplex_store

variable {enc : Encoding} {disk : Disk} {root : Root}

/-! ## Reading -/

/-- A document as `create` and `commit` store it. -/
structure WellStored (enc : Encoding) (d : StoredReplicationDocument) : Prop where
  schema : d.replication.schema_version = REPLICATION_SCHEMA_VERSION
  canonical : canonicalForm d.replication = d.replication
  fits : enc.document_len d.replication ≤ MAX_REPLICATION_DOCUMENT_BYTES

theorem fromDomain_ok_iff {α : Type} {x : Checked α} {a : α} :
    fromDomain x = .ok a ↔ x = .ok a := by
  unfold fromDomain
  cases x with
  | error e => simp [Except.mapError]
  | ok b => simp [Except.mapError]

variable {e : ReplicationStoreError} {effects : List Effect} {s : ReplicationRepositorySnapshot}

theorem fromDomain_error {α : Type} {x : Checked α} (h : fromDomain x = .error e) :
    ∃ error, e = .Domain error := by
  unfold fromDomain at h
  cases x with
  | error error =>
    refine ⟨error, ?_⟩
    simpa [Except.mapError] using h.symm
  | ok b => simp [Except.mapError] at h

variable {document : ReplicationDocument} {policy : ReplicationPolicy}

theorem validate_replication_document_ok
    (h : validate_replication_document document policy = .ok ()) :
    document.schema_version = REPLICATION_SCHEMA_VERSION ∧ ValidDocument policy document := by
  unfold validate_replication_document at h
  simp only [bind_ok_iff, refuseIf_ok_iff, not_not, fromDomain_ok_iff] at h
  obtain ⟨_, _, _, hschema, hvalid⟩ := h
  exact ⟨hschema, document_validate_ok_iff.mp hvalid⟩

theorem canonical_replication_ok {canonical : ReplicationDocument}
    (h : canonical_replication enc document policy = .ok canonical) (revision : Nat)
    (custody : ReplicationCustodyMetadata) : WellStored enc ⟨revision, canonical, custody⟩ := by
  unfold canonical_replication at h
  simp only [bind_ok_iff, refuseIf_ok_iff, pure_ok_iff, fromDomain_ok_iff, not_lt] at h
  obtain ⟨_, hvalid, merge, hmerge, _, hfits, rfl⟩ := h
  obtain ⟨hschema, hvalid⟩ := validate_replication_document_ok hvalid
  obtain ⟨events, hself⟩ := merge_self hvalid
  obtain rfl : merge = ⟨canonicalForm document, events⟩ := Except.ok.inj (hmerge.symm.trans hself)
  exact ⟨hschema, canonicalForm_of_canonical (canonicalForm_canonical hvalid), hfits⟩

variable {workspace : ReplicationWorkspaceId} {d : StoredReplicationDocument}

theorem read_repository_ok {file : Option Raw}
    (h : read_repository enc file workspace policy = .ok d) : file = some (.stored d) := by
  unfold read_repository at h
  split at h
  case h_1 => cases h
  case h_2 => cases h
  case h_3 => cases h
  case h_4 => cases h
  case h_5 document =>
    simp only [bind_ok_iff, pure_ok_iff] at h
    obtain ⟨_, _, _, _, _, _, _, _, rfl⟩ := h
    rfl

theorem read_stored_error (hd : WellStored enc d)
    (h : read_repository enc (some (.stored d)) workspace policy = .error e) :
    e ≠ .Corrupt ∧ e ≠ .TooLarge := by
  have hdomain : ∀ {α : Type} {x : Checked α}, fromDomain x = .error e →
      e ≠ .Corrupt ∧ e ≠ .TooLarge := by
    intro α x hx
    obtain ⟨error, rfl⟩ := fromDomain_error hx
    constructor <;> simp
  have hvalidate : validate_replication_document d.replication policy = .error e →
      e ≠ .Corrupt ∧ e ≠ .TooLarge := by
    intro hv
    unfold validate_replication_document at hv
    simp only [bind_error_iff, refuseIf_error_iff, hd.schema, lt_self_iff_false, false_and,
      ne_eq, not_true_eq_false, false_or] at hv
    obtain ⟨_, _, _, _, hv⟩ := hv
    exact hdomain hv
  have hself : ∀ {u : Unit}, validate_replication_document d.replication policy = .ok u →
      ∃ events, merge_replication_documents d.replication d.replication policy =
        .ok ⟨d.replication, events⟩ := by
    intro u hv
    have hmerge := merge_self (validate_replication_document_ok hv).2
    rwa [hd.canonical] at hmerge
  unfold read_repository canonical_replication validate_workspace at h
  simp only [bind_error_iff, refuseIf_error_iff, bind_ok_iff, refuseIf_ok_iff, pure_ok_iff,
    fromDomain_ok_iff] at h
  rcases h with h | ⟨u, hv, h⟩
  · exact hvalidate h
  · obtain ⟨events, hmerge⟩ := hself hv
    rcases h with ⟨_, rfl⟩ | ⟨_, _, h⟩
    · constructor <;> simp
    · rcases h with (h | ⟨_, _, h⟩) | ⟨canonical, hcanonical, h⟩
      · exact hvalidate h
      · rcases h with h | ⟨merge, hm, h⟩
        · exact hdomain h
        · obtain rfl := Except.ok.inj (hm.symm.trans hmerge)
          rcases h with ⟨hlarge, _⟩ | ⟨_, _, h⟩
          · exact absurd hd.fits (not_le.mpr hlarge)
          · cases h
      · obtain ⟨_, _, merge, hm, _, _, rfl⟩ := hcanonical
        obtain rfl := Except.ok.inj (hm.symm.trans hmerge)
        rcases h with ⟨hne, _⟩ | ⟨_, _, h⟩
        · exact absurd rfl hne
        · cases h

/-! ## Effects -/

def Call.offered : Call → Option ReplicationCustodyMetadata
  | .create _ custody _ => some custody
  | .commit _ _ custody _ _ => some custody
  | _ => none

/-- What an effect of a call can be, and what the files are like when it takes
place. -/
inductive Sound (enc : Encoding) (offered : Option ReplicationCustodyMetadata) (root : Root) :
    Effect → Prop
  | save {current : StoredReplicationDocument}
      (h : root.disk.primary_content = some (.stored current)) :
      Sound enc offered root (.write_last_good (.stored current))
  | journal (journal : ReplicationTransactionJournal) :
      Sound enc offered root (.write_journal journal)
  | unjournal : Sound enc offered root .remove_journal
  | link : Sound enc offered root .link_evidence
  | delete {current : StoredReplicationDocument} {reference : ReplicationSecretRef}
      (existed : Bool) (h : root.disk.primary_content = some (.stored current))
      (hunreferenced : current.custody.contains reference = false) (hoffered : offered = none) :
      Sound enc offered root (.delete_secret reference existed)
  | create {d : StoredReplicationDocument} (h : root.disk.primary = none)
      (hstored : WellStored enc d) (hoffered : offered = some d.custody) :
      Sound enc offered root (.write_primary d)
  | commit {current next : StoredReplicationDocument}
      (h : root.disk.primary_content = some (.stored current))
      (hsaved : root.disk.last_good = some (.stored current))
      (hrevision : next.revision = current.revision + 1) (hstored : WellStored enc next)
      (hoffered : offered = some next.custody) : Sound enc offered root (.write_primary next)
  | recover {damage : Damage} {d : StoredReplicationDocument}
      (h : root.disk.primary_content = some (.damaged damage))
      (hsaved : root.disk.last_good = some (.stored d)) (hoffered : offered = none) :
      Sound enc offered root (.write_primary d)

/-- Effects one after the other, each sound where it takes place. -/
inductive Chain (enc : Encoding) (offered : Option ReplicationCustodyMetadata) :
    Root → List Effect → Prop
  | nil (root : Root) : Chain enc offered root []
  | cons {root : Root} {effect : Effect} {rest : List Effect} (head : Sound enc offered root effect)
      (tail : Chain enc offered (root.apply effect) rest) : Chain enc offered root (effect :: rest)

variable {offered : Option ReplicationCustodyMetadata}

theorem Chain.take (h : Chain enc offered root effects) (n : Nat) :
    Chain enc offered root (effects.take n) := by
  induction h generalizing n with
  | nil root =>
    rw [List.take_nil]
    exact Chain.nil root
  | cons head _ ih =>
    cases n with
    | zero => exact Chain.nil _
    | succ n => exact Chain.cons head (ih n)

/-! ## The files between calls -/

/-- The files hold documents as they were stored, and there is no copy of a
predecessor where there is no primary. -/
structure WellKept (enc : Encoding) (disk : Disk) : Prop where
  primary : ∀ d, disk.primary_content = some (.stored d) → WellStored enc d
  last_good : ∀ d, disk.last_good = some (.stored d) → WellStored enc d
  fresh : disk.primary = none → disk.last_good = none

theorem primary_content_none_iff : disk.primary_content = none ↔ disk.primary = none := by
  exact Option.map_eq_none_iff

theorem apply_delete_disk (root : Root) (reference : ReplicationSecretRef) (existed : Bool) :
    (root.apply (.delete_secret reference existed)).disk = root.disk := by
  cases existed with
  | false => rfl
  | true => rfl

theorem WellKept.apply {effect : Effect} (h : WellKept enc root.disk)
    (hsound : Sound enc offered root effect) : WellKept enc (root.apply effect).disk := by
  have hwrite : ∀ {d : StoredReplicationDocument}, WellStored enc d →
      WellKept enc (root.apply (.write_primary d)).disk := by
    intro d hd
    refine ⟨fun d' hd' => ?_, h.last_good, fun hnone => ?_⟩
    · cases hd'
      exact hd
    · cases hnone
  cases hsound with
  | save hcurrent =>
    refine ⟨h.primary, fun d hd => ?_, fun hnone => ?_⟩
    · cases hd
      exact h.primary _ hcurrent
    · have hcontent : root.disk.primary_content = none := primary_content_none_iff.mpr hnone
      rw [hcontent] at hcurrent
      cases hcurrent
  | journal journal => exact ⟨h.primary, h.last_good, h.fresh⟩
  | unjournal => exact ⟨h.primary, h.last_good, h.fresh⟩
  | link => exact ⟨h.primary, h.last_good, h.fresh⟩
  | delete existed _ _ _ =>
    rw [apply_delete_disk]
    exact h
  | create _ hstored _ => exact hwrite hstored
  | commit _ _ _ hstored _ => exact hwrite hstored
  | recover _ hsaved _ => exact hwrite (h.last_good _ hsaved)

theorem WellKept.foldl (h : WellKept enc root.disk) (hchain : Chain enc offered root effects) :
    WellKept enc (effects.foldl Root.apply root).disk := by
  induction hchain with
  | nil root => exact h
  | cons head _ ih => exact ih (h.apply head)

/-! ## Every call is a chain -/

theorem commit_check_ok {expected : Nat} {custody : ReplicationCustodyMetadata}
    {retired : List ReplicationSecretRef} {current next : StoredReplicationDocument}
    (h : commit_check enc disk expected document custody retired policy = .ok (current, next)) :
    disk.primary_content = some (.stored current) ∧ current.revision = expected ∧
      next.revision = current.revision + 1 ∧ next.custody = custody ∧ WellStored enc next := by
  unfold commit_check at h
  simp only [bind_ok_iff, refuseIf_ok_iff, pure_ok_iff, not_not, Prod.mk.injEq] at h
  obtain ⟨_, _, _, _, _, hread, _, hexpected, _, _, _, _, canonical, hcanonical, revision,
    hrevision, rfl, rfl⟩ := h
  refine ⟨read_repository_ok hread, hexpected, ?_, rfl, canonical_replication_ok hcanonical _ _⟩
  unfold next_revision checked_add at hrevision
  split at hrevision
  case h_1 next hnext =>
    split at hnext
    · cases hrevision
      exact (Option.some.inj hnext).symm
    · cases hnext
  case h_2 => cases hrevision

section
variable (expected : Nat) (document : ReplicationDocument) (custody : ReplicationCustodyMetadata)
  (retired : List ReplicationSecretRef) (policy : ReplicationPolicy)

/-- What a commit does, and what it returns when it does all of it. -/
theorem commit_cases :
    let plan := ReplicationRepository.commit enc disk expected document custody retired policy
    (plan.effects = [] ∧ ∃ e, plan.outcome = .error e) ∨
      ∃ current next journal, (journal = [] ∨ ∃ j, journal = [Effect.write_journal j]) ∧
        disk.primary_content = some (.stored current) ∧ current.revision = expected ∧
        next.revision = current.revision + 1 ∧ next.custody = custody ∧ WellStored enc next ∧
        (((∃ e, plan.outcome = .error e) ∧
            plan.effects = .write_last_good (.stored current) :: journal) ∨
          ((∃ pending, plan.outcome = .ok (snapshot next .Primary pending)) ∧
            plan.effects =
              .write_last_good (.stored current) :: (journal ++ [.write_primary next]))) := by
  intro plan
  unfold plan ReplicationRepository.commit
  split
  case h_1 e _ => exact .inl ⟨rfl, e, rfl⟩
  case h_2 current next hcheck =>
    obtain ⟨hprimary, hexpected, hrevision, hcustody, hstored⟩ := commit_check_ok hcheck
    right
    simp only
    by_cases hnone : retired = []
    · refine ⟨current, next, [], .inl rfl, hprimary, hexpected, hrevision, hcustody, hstored, ?_⟩
      rw [if_neg (fun h => h.1 hnone), if_pos hnone]
      split
      · exact .inl ⟨⟨_, rfl⟩, rfl⟩
      · exact .inr ⟨⟨_, rfl⟩, rfl⟩
    · split
      · exact ⟨current, next, [], .inl rfl, hprimary, hexpected, hrevision, hcustody, hstored,
          .inl ⟨⟨_, rfl⟩, rfl⟩⟩
      · let journal : ReplicationTransactionJournal :=
          ⟨next.revision, retired.insertionSort (· ≤ ·)⟩
        refine ⟨current, next, [.write_journal journal], .inr ⟨journal, rfl⟩, hprimary, hexpected,
          hrevision, hcustody, hstored, ?_⟩
        split
        · exact .inl ⟨⟨_, rfl⟩, rfl⟩
        · exact .inr ⟨⟨_, rfl⟩, rfl⟩

theorem commit_chain : Chain enc (some custody) root
      (ReplicationRepository.commit enc root.disk expected document custody retired policy).effects := by
  rcases @commit_cases enc root.disk expected document custody retired policy with
    ⟨hnone, _⟩ | ⟨current, next, journal, hjournal, hprimary, _, hrevision, rfl, hstored, hcases⟩
  · rw [hnone]
    exact Chain.nil root
  · have hlast : ∀ {root : Root}, root.disk.primary_content = some (.stored current) →
        root.disk.last_good = some (.stored current) →
        Chain enc (some next.custody) root (journal ++ [.write_primary next]) := by
      intro root hprimary hsaved
      rcases hjournal with rfl | ⟨j, rfl⟩
      · exact Chain.cons (Sound.commit hprimary hsaved hrevision hstored rfl) (Chain.nil _)
      · refine Chain.cons (Sound.journal j) (Chain.cons ?_ (Chain.nil _))
        exact Sound.commit hprimary hsaved hrevision hstored rfl
    rcases hcases with ⟨_, heffects⟩ | ⟨_, heffects⟩
    · rw [heffects]
      refine Chain.cons (Sound.save hprimary) ?_
      have hall := (@hlast (root.apply (.write_last_good (.stored current))) hprimary rfl).take
        journal.length
      rwa [List.take_left] at hall
    · rw [heffects]
      exact Chain.cons (Sound.save hprimary) (hlast hprimary rfl)

end

variable (backend : ReplicationSecretRef → Except ReplicationSecretStoreError Bool)

theorem delete_secrets_chain {current : StoredReplicationDocument}
    {references : List ReplicationSecretRef} :
    ∀ {root : Root}, root.disk.primary_content = some (.stored current) →
      (∀ r ∈ references, current.custody.contains r = false) →
      Chain enc none root (delete_secrets backend references).effects ∧
        Chain enc none root ((delete_secrets backend references).effects ++ [.remove_journal]) := by
  induction references with
  | nil =>
    intro root _ _
    exact ⟨Chain.nil root, Chain.cons Sound.unjournal (Chain.nil _)⟩
  | cons r references ih =>
    intro root hprimary hunreferenced
    obtain ⟨hr, hrest⟩ := List.forall_mem_cons.mp hunreferenced
    unfold delete_secrets
    split
    case h_1 => exact ⟨Chain.nil root, Chain.cons Sound.unjournal (Chain.nil _)⟩
    case h_2 existed _ =>
      have hsame : (root.apply (.delete_secret r existed)).disk.primary_content =
          some (.stored current) := by
        rw [apply_delete_disk]
        exact hprimary
      obtain ⟨hdelete, hremove⟩ := ih hsame hrest
      exact ⟨Chain.cons (Sound.delete existed hprimary hr rfl) hdelete,
        Chain.cons (Sound.delete existed hprimary hr rfl) hremove⟩

theorem retire_chain (workspace : ReplicationWorkspaceId) (policy : ReplicationPolicy) :
    Chain enc none root
      (ReplicationRepository.retire_pending enc root.disk backend workspace policy).effects := by
  unfold ReplicationRepository.retire_pending
  split
  case h_1 => exact Chain.nil root
  case h_2 journal _ =>
    split
    case h_1 => exact Chain.nil root
    case h_2 references current hcheck =>
      have hprimary : root.disk.primary_content = some (.stored current) := by
        unfold retire_check at hcheck
        simp only [bind_ok_iff, pure_ok_iff, Prod.mk.injEq] at hcheck
        obtain ⟨_, _, _, hread, _, rfl⟩ := hcheck
        exact read_repository_ok hread
      split
      · exact Chain.cons Sound.unjournal (Chain.nil _)
      · split
        · exact Chain.nil root
        · rename_i _ hnone
          have hunreferenced : ∀ r ∈ references, current.custody.contains r = false := by
            intro r hr
            by_contra hheld
            exact hnone (List.any_eq_true.mpr ⟨r, hr, by simpa using hheld⟩)
          obtain ⟨hdelete, hremove⟩ := delete_secrets_chain backend hprimary hunreferenced
          simp only
          split
          · exact hdelete
          · exact hremove

theorem recover_check_ok (hkept : WellKept enc disk)
    (h : recover_check enc disk workspace policy = .ok d) :
    (∃ damage, disk.primary_content = some (.damaged damage)) ∧
      disk.last_good = some (.stored d) := by
  unfold recover_check at h
  split at h
  case h_1 => cases h
  case h_2 e hread =>
    split at h
    case isTrue hdamaged =>
      refine ⟨?_, read_repository_ok h⟩
      cases hcontent : disk.primary_content with
      | none =>
        rw [hcontent] at hread
        cases hread
        simp at hdamaged
      | some content =>
        cases content with
        | damaged damage => exact ⟨damage, rfl⟩
        | stored d' =>
          rw [hcontent] at hread
          have hne := read_stored_error (hkept.primary d' hcontent) hread
          exact absurd hdamaged (not_or.mpr hne)
    case isFalse => cases h

theorem recover_cases (hkept : WellKept enc disk) (workspace : ReplicationWorkspaceId)
    (policy : ReplicationPolicy) :
    let plan := ReplicationRepository.recover_last_good enc disk workspace policy
    ((plan.effects = [] ∨ plan.effects = [.link_evidence]) ∧ ∃ e, plan.outcome = .error e) ∨
      ∃ damage d linked, (linked = [] ∨ linked = [Effect.link_evidence]) ∧
        disk.primary_content = some (.damaged damage) ∧ disk.last_good = some (.stored d) ∧
        plan.effects = linked ++ [.write_primary d] ∧
        ∃ pending, plan.outcome = .ok (snapshot d .Primary pending) := by
  intro plan
  unfold plan ReplicationRepository.recover_last_good
  split
  case h_1 e _ => exact .inl ⟨.inl rfl, e, rfl⟩
  case h_2 d hcheck =>
    obtain ⟨⟨damage, hdamaged⟩, hsaved⟩ := recover_check_ok hkept hcheck
    have hlinked : (if disk.evidence.isSome then [] else [Effect.link_evidence]) = [] ∨
        (if disk.evidence.isSome then [] else [Effect.link_evidence]) = [Effect.link_evidence] := by
      split
      · exact .inl rfl
      · exact .inr rfl
    simp only
    split
    · exact .inl ⟨.inl rfl, _, rfl⟩
    · split
      · exact .inl ⟨hlinked, _, rfl⟩
      · exact .inr ⟨damage, d, _, hlinked, hdamaged, hsaved, rfl, _, rfl⟩

theorem recover_chain (hkept : WellKept enc root.disk) (workspace : ReplicationWorkspaceId)
    (policy : ReplicationPolicy) : Chain enc none root
      (ReplicationRepository.recover_last_good enc root.disk workspace policy).effects := by
  rcases recover_cases hkept workspace policy with
    ⟨hnone | hlink, _⟩ | ⟨damage, d, linked, hlinked, hdamaged, hsaved, heffects, _⟩
  · rw [hnone]
    exact Chain.nil root
  · rw [hlink]
    exact Chain.cons Sound.link (Chain.nil _)
  · rw [heffects]
    rcases hlinked with rfl | rfl
    · exact Chain.cons (Sound.recover hdamaged hsaved rfl) (Chain.nil _)
    · exact Chain.cons Sound.link (Chain.cons (Sound.recover hdamaged hsaved rfl) (Chain.nil _))

section
variable (document : ReplicationDocument) (custody : ReplicationCustodyMetadata)
  (policy : ReplicationPolicy)

theorem create_cases :
    let plan := ReplicationRepository.create enc disk document custody policy
    (plan.effects = [] ∧ ∃ e, plan.outcome = .error e) ∨
      ∃ d, disk.primary = none ∧ WellStored enc d ∧ d.custody = custody ∧
        plan.effects = [.write_primary d] ∧ plan.outcome = .ok (snapshot d .Primary false) := by
  intro plan
  unfold plan ReplicationRepository.create
  split
  case isTrue => exact .inl ⟨rfl, _, rfl⟩
  case isFalse hnone =>
    have hnone : disk.primary = none := by simpa using hnone
    split
    case h_1 e _ => exact .inl ⟨rfl, e, rfl⟩
    case h_2 canonical hcanonical =>
      simp only
      split
      · exact .inl ⟨rfl, _, rfl⟩
      · exact .inr ⟨⟨1, canonical, custody⟩, hnone, canonical_replication_ok hcanonical _ _, rfl,
          rfl, rfl⟩

theorem create_chain : Chain enc (some custody) root
      (ReplicationRepository.create enc root.disk document custody policy).effects := by
  rcases @create_cases enc root.disk document custody policy with
    ⟨hnone, _⟩ | ⟨d, hprimary, hstored, rfl, heffects, _⟩
  · rw [hnone]
    exact Chain.nil root
  · rw [heffects]
    exact Chain.cons (Sound.create hprimary hstored rfl) (Chain.nil _)

end

theorem plan_chain (hkept : WellKept enc root.disk) (call : Call) :
    Chain enc call.offered root (call.plan enc root.disk).effects := by
  cases call with
  | create document custody policy => exact create_chain document custody policy
  | load workspace policy => exact Chain.nil root
  | commit expected document custody retired policy =>
    exact commit_chain expected document custody retired policy
  | retire_pending backend workspace policy => exact retire_chain backend workspace policy
  | recover_last_good workspace policy => exact recover_chain hkept workspace policy

theorem performed_chain (hkept : WellKept enc root.disk) (call : Call) (cut : Option Nat) :
    Chain enc call.offered root (performed enc root call cut) := by
  cases cut with
  | none => exact plan_chain hkept call
  | some n => exact (plan_chain hkept call).take n

theorem load_ok (hkept : WellKept enc disk)
    (h : ReplicationRepository.load enc disk workspace policy = .ok s) :
    (∃ d, disk.primary_content = some (.stored d) ∧
        s = snapshot d .Primary disk.transaction.isSome) ∨
      ∃ damage d, disk.primary_content = some (.damaged damage) ∧
        disk.last_good = some (.stored d) ∧ s = snapshot d .LastGood false := by
  unfold ReplicationRepository.load at h
  split at h
  case h_1 d hread => exact .inl ⟨d, read_repository_ok hread, (Except.ok.inj h).symm⟩
  case h_2 e hread =>
    split at h
    case isTrue hdamaged =>
      split at h
      case h_1 d hbackup =>
        have hcheck : recover_check enc disk workspace policy = .ok d := by
          unfold recover_check
          rw [hread]
          simp only
          rw [if_pos hdamaged, hbackup]
        obtain ⟨⟨damage, hcontent⟩, hsaved⟩ := recover_check_ok hkept hcheck
        exact .inr ⟨damage, d, hcontent, hsaved, (Except.ok.inj h).symm⟩
      case h_2 =>
        split at h
        · cases h
        · cases h
    case isFalse => cases h

/-- What a call returns is in the primary when the call is done, or in the copy
of a spoilt one. -/
theorem returned_from (hkept : WellKept enc root.disk) {call : Call}
    (h : (call.plan enc root.disk).outcome = .ok (.snapshot s)) :
    let after := ((call.plan enc root.disk).effects.foldl Root.apply root).disk
    (∃ d pending, after.primary_content = some (.stored d) ∧ s = snapshot d .Primary pending) ∨
      ∃ damage d, after.primary_content = some (.damaged damage) ∧
        after.last_good = some (.stored d) ∧ s = snapshot d .LastGood false := by
  intro after
  cases call with
  | create document custody policy =>
    rcases @create_cases enc root.disk document custody policy with
      ⟨_, e, he⟩ | ⟨d, _, _, _, heffects, hok⟩
    · simp only [Call.plan, Plan.reply, he] at h
      cases h
    · simp only [Call.plan, Plan.reply, hok] at h
      cases h
      refine .inl ⟨d, false, ?_, rfl⟩
      unfold after
      simp only [Call.plan, Plan.reply, heffects]
      rfl
  | load workspace policy =>
    simp only [Call.plan, Plan.reply] at h
    cases hload : ReplicationRepository.load enc root.disk workspace policy with
    | error e =>
      rw [hload] at h
      cases h
    | ok s' =>
      rw [hload] at h
      cases h
      rcases load_ok hkept hload with ⟨d, hd, rfl⟩ | ⟨damage, d, hdamaged, hd, rfl⟩
      · exact .inl ⟨d, _, hd, rfl⟩
      · exact .inr ⟨damage, d, hdamaged, hd, rfl⟩
  | commit expected document custody retired policy =>
    rcases @commit_cases enc root.disk expected document custody retired policy with
      ⟨_, e, he⟩ | ⟨_, next, journal, hjournal, _, _, _, _, _, ⟨⟨e, he⟩, _⟩ | ⟨⟨pending, hok⟩, heffects⟩⟩
    · simp only [Call.plan, Plan.reply, he] at h
      cases h
    · simp only [Call.plan, Plan.reply, he] at h
      cases h
    · simp only [Call.plan, Plan.reply, hok] at h
      cases h
      refine .inl ⟨next, pending, ?_, rfl⟩
      unfold after
      simp only [Call.plan, Plan.reply, heffects]
      rcases hjournal with rfl | ⟨j, rfl⟩
      · rfl
      · rfl
  | retire_pending backend workspace policy =>
    simp only [Call.plan, Plan.reply] at h
    cases hretire : (ReplicationRepository.retire_pending enc root.disk backend workspace
        policy).outcome with
    | error e =>
      rw [hretire] at h
      cases h
    | ok outcome =>
      rw [hretire] at h
      cases h
  | recover_last_good workspace policy =>
    rcases recover_cases hkept workspace policy with
      ⟨_, e, he⟩ | ⟨damage, d, linked, hlinked, _, _, heffects, pending, hok⟩
    · simp only [Call.plan, Plan.reply, he] at h
      cases h
    · simp only [Call.plan, Plan.reply, hok] at h
      cases h
      refine .inl ⟨d, pending, ?_, rfl⟩
      unfold after
      simp only [Call.plan, Plan.reply, heffects]
      rcases hlinked with rfl | rfl
      · rfl
      · rfl

end multiplex_store
