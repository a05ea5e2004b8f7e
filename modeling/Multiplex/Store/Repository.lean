-- The replica repository: one primary file, the copy of the one before it, a
-- journal of the secrets to retire and the evidence of a recovery. A call
-- reads the files, and then writes or deletes one thing after the other; it
-- can be cut off between any two of these.
import Multiplex.Domain.MergeLaws
import Multiplex.Store.Custody

open Checks multiplex_domain

namespace multiplex_store

/-! ## What is stored -/

def MAX_REPLICATION_REPOSITORY_BYTES : Nat := MAX_REPLICATION_DOCUMENT_BYTES + 64 * 1024
def MAX_REPLICATION_JOURNAL_BYTES : Nat := 16 * 1024

inductive ReplicationSecretStoreError where
  | Missing
  | AccessDeniedOrLocked
  | Invalid
  | Collision
  | Unavailable
  deriving DecidableEq

inductive ReplicationStoreError where
  | Missing
  | AlreadyExists
  | TooLarge
  | Corrupt
  | Newer (found : Nat)
  | WorkspaceMismatch
  | InvalidCustodyTransition
  | StaleRepositoryRevision (expected actual : Nat)
  | RevisionOverflow
  | PendingRetirement
  | RetirementStillReferenced
  | TooManyRetirements
  | RecoveryNotRequired
  | RecoveryEvidenceExists
  | Domain (error : ReplicationError)
  | Custody (error : ReplicationSecretStoreError)
  /-- A write that failed, or a call cut off by a crash. -/
  | Interrupted
  deriving DecidableEq

abbrev Kept (α : Type) := Except ReplicationStoreError α

structure StoredReplicationDocument where
  revision : Nat
  replication : ReplicationDocument
  custody : ReplicationCustodyMetadata
  deriving DecidableEq

structure ReplicationTransactionJournal where
  committed_revision : Nat
  retired_references : List ReplicationSecretRef
  deriving DecidableEq

/-- How many bytes the JSON of each stored value takes. -/
structure Encoding where
  document_len : ReplicationDocument → Nat
  stored_len : StoredReplicationDocument → Nat
  journal_len : ReplicationTransactionJournal → Nat

/-- What a file holds that no stored document can be read from: bytes that are
no repository, more bytes than are read, or a later format. -/
inductive Damage where
  | garbage
  | oversized
  | newer (found : Nat)
  deriving DecidableEq

inductive Raw where
  | damaged (damage : Damage)
  | stored (document : StoredReplicationDocument)
  deriving DecidableEq

/-- The primary file, with the inode that recovery compares. -/
structure PrimaryFile where
  inode : Nat
  content : Raw

structure Disk where
  primary : Option PrimaryFile
  last_good : Option Raw
  transaction : Option ReplicationTransactionJournal
  evidence : Option Nat
  next_inode : Nat

inductive ReplicationRepositorySource where
  | Primary
  | LastGood
  deriving DecidableEq

structure ReplicationRepositorySnapshot where
  revision : Nat
  document : ReplicationDocument
  custody : ReplicationCustodyMetadata
  source : ReplicationRepositorySource
  retirement_pending : Bool
  deriving DecidableEq

inductive ReplicationRetirementOutcome where
  | NothingPending
  | AbandonedUncommitted (reference_count : Nat)
  | Completed (deleted already_missing : Nat)
  deriving DecidableEq

def snapshot (stored : StoredReplicationDocument) (source : ReplicationRepositorySource)
    (retirement_pending : Bool) : ReplicationRepositorySnapshot :=
  ⟨stored.revision, stored.replication, stored.custody, source, retirement_pending⟩

/-! ## Checks -/

section Calls

variable (enc : Encoding)

def fromDomain {α : Type} (x : Checked α) : Kept α := x.mapError .Domain

def validate_replication_document (document : ReplicationDocument) (policy : ReplicationPolicy) :
    Kept Unit := do
  refuseIf (.Newer document.schema_version) (document.schema_version > REPLICATION_SCHEMA_VERSION)
  refuseIf .Corrupt (document.schema_version ≠ REPLICATION_SCHEMA_VERSION)
  fromDomain (document.validate policy)

def validate_workspace (actual expected : ReplicationWorkspaceId) : Kept Unit :=
  refuseIf .WorkspaceMismatch (actual ≠ expected)

/-- The canonical form, which is what a merge with itself leaves. -/
def canonical_replication (document : ReplicationDocument) (policy : ReplicationPolicy) :
    Kept ReplicationDocument := do
  validate_replication_document document policy
  let merge ← fromDomain (merge_replication_documents document document policy)
  refuseIf .TooLarge (enc.document_len merge.document > MAX_REPLICATION_DOCUMENT_BYTES)
  return merge.document

def read_repository (file : Option Raw) (expected_workspace : ReplicationWorkspaceId)
    (policy : ReplicationPolicy) : Kept StoredReplicationDocument :=
  match file with
  | none => .error .Missing
  | some (.damaged .garbage) => .error .Corrupt
  | some (.damaged .oversized) => .error .TooLarge
  | some (.damaged (.newer found)) => .error (.Newer found)
  | some (.stored document) => do
    validate_replication_document document.replication policy
    validate_workspace document.replication.workspace_id expected_workspace
    let canonical ← canonical_replication enc document.replication policy
    refuseIf .Corrupt (document.replication ≠ canonical)
    return document

/-- The references to retire are to epoch keys, each once, and none of them is
still in the custody. -/
def validate_retirements (custody : ReplicationCustodyMetadata)
    (references : List ReplicationSecretRef) : Kept Unit := do
  refuseIf .TooManyRetirements (references.length > MAX_REPLICATION_RETAINED_EPOCH_KEYS)
  let _ ← references.foldlM (fun unique reference => do
    refuseIf ReplicationStoreError.InvalidCustodyTransition (reference.kind ≠ .EpochKey)
    refuseIf ReplicationStoreError.Corrupt (reference ∈ unique)
    refuseIf ReplicationStoreError.RetirementStillReferenced (custody.contains reference)
    return reference :: unique) ([] : List ReplicationSecretRef)

def validate_custody_transition (current next : ReplicationCustodyMetadata)
    (retired : List ReplicationSecretRef) : Kept Unit := do
  refuseIf .InvalidCustodyTransition
    (current.authority ≠ next.authority ∨ current.device ≠ next.device)
  let removed := current.epoch_references.filter fun r => decide (r ∉ next.epoch_references)
  refuseIf .InvalidCustodyTransition (¬ (removed ⊆ retired ∧ retired ⊆ removed))

def decode_secret_references (references : List ReplicationSecretRef) :
    Kept (List ReplicationSecretRef) := do
  refuseIf .TooManyRetirements (references.length > MAX_REPLICATION_RETAINED_EPOCH_KEYS)
  refuseIf .Corrupt (¬ references.Nodup)
  return references

def next_revision (revision : Nat) : Kept Nat :=
  match checked_add revision 1 with
  | some next => .ok next
  | none => .error .RevisionOverflow

/-! ## Calls -/

/-- One thing a call does to the files or to the secret store. -/
inductive Effect where
  | write_last_good (content : Raw)
  | write_journal (journal : ReplicationTransactionJournal)
  | write_primary (document : StoredReplicationDocument)
  | link_evidence
  | delete_secret (reference : ReplicationSecretRef) (existed : Bool)
  | remove_journal
  deriving DecidableEq

/-- What a call does, in order, and what it returns when it is not cut off. -/
structure Plan (α : Type) where
  effects : List Effect
  outcome : Kept α

def Plan.fail {α : Type} (error : ReplicationStoreError) : Plan α := ⟨[], .error error⟩

def Disk.primary_content (disk : Disk) : Option Raw := disk.primary.map PrimaryFile.content

def ReplicationRepository.create (disk : Disk) (document : ReplicationDocument)
    (custody : ReplicationCustodyMetadata) (policy : ReplicationPolicy) :
    Plan ReplicationRepositorySnapshot :=
  if disk.primary.isSome then .fail .AlreadyExists
  else
    match canonical_replication enc document policy with
    | .error e => .fail e
    | .ok document =>
      let stored : StoredReplicationDocument := ⟨1, document, custody⟩
      if enc.stored_len stored > MAX_REPLICATION_REPOSITORY_BYTES then .fail .TooLarge
      else ⟨[.write_primary stored], .ok (snapshot stored .Primary false)⟩

def ReplicationRepository.load (disk : Disk) (expected_workspace : ReplicationWorkspaceId)
    (policy : ReplicationPolicy) : Kept ReplicationRepositorySnapshot :=
  match read_repository enc disk.primary_content expected_workspace policy with
  | .ok parsed => .ok (snapshot parsed .Primary disk.transaction.isSome)
  | .error primary_error =>
    if primary_error = .Corrupt ∨ primary_error = .TooLarge then
      match read_repository enc disk.last_good expected_workspace policy with
      | .ok backup => .ok (snapshot backup .LastGood false)
      | .error error =>
        if error = .Missing ∨ error = .Corrupt ∨ error = .TooLarge then .error primary_error
        else .error error
    else .error primary_error

/-- What `commit` checks before it writes: the document it replaces and the one
it writes. -/
def commit_check (disk : Disk) (expected_revision : Nat) (document : ReplicationDocument)
    (custody : ReplicationCustodyMetadata) (retired_references : List ReplicationSecretRef)
    (policy : ReplicationPolicy) :
    Kept (StoredReplicationDocument × StoredReplicationDocument) := do
  validate_retirements custody retired_references
  refuseIf .PendingRetirement disk.transaction.isSome
  let current ← read_repository enc disk.primary_content document.workspace_id policy
  refuseIf (.StaleRepositoryRevision expected_revision current.revision)
    (current.revision ≠ expected_revision)
  validate_custody_transition current.custody custody retired_references
  validate_workspace current.replication.workspace_id document.workspace_id
  let canonical ← canonical_replication enc document policy
  let revision ← next_revision current.revision
  return (current, ⟨revision, canonical, custody⟩)

def ReplicationRepository.commit (disk : Disk) (expected_revision : Nat)
    (document : ReplicationDocument) (custody : ReplicationCustodyMetadata)
    (retired_references : List ReplicationSecretRef) (policy : ReplicationPolicy) :
    Plan ReplicationRepositorySnapshot :=
  match commit_check enc disk expected_revision document custody retired_references policy with
  | .error e => .fail e
  | .ok (current, next) =>
    let saved : List Effect := [.write_last_good (.stored current)]
    let journal : ReplicationTransactionJournal :=
      ⟨next.revision, retired_references.insertionSort (· ≤ ·)⟩
    if retired_references ≠ [] ∧ enc.journal_len journal > MAX_REPLICATION_JOURNAL_BYTES then
      ⟨saved, .error .TooLarge⟩
    else
      let written := if retired_references = [] then saved else saved ++ [.write_journal journal]
      if enc.stored_len next > MAX_REPLICATION_REPOSITORY_BYTES then ⟨written, .error .TooLarge⟩
      else
        ⟨written ++ [.write_primary next],
          .ok (snapshot next .Primary (decide (retired_references ≠ [])))⟩

/-- The deletions up to the first the backend refuses, with how many secrets
were there and how many were gone. -/
def delete_secrets (backend : ReplicationSecretRef → Except ReplicationSecretStoreError Bool) :
    List ReplicationSecretRef → Plan (Nat × Nat)
  | [] => ⟨[], .ok (0, 0)⟩
  | reference :: rest =>
    match backend reference with
    | .error e => .fail (.Custody e)
    | .ok existed =>
      let plan := delete_secrets backend rest
      ⟨.delete_secret reference existed :: plan.effects, plan.outcome.map fun counts =>
        if existed then (counts.1 + 1, counts.2) else (counts.1, counts.2 + 1)⟩

/-- What `retire_pending` reads before it deletes. -/
def retire_check (disk : Disk) (journal : ReplicationTransactionJournal)
    (expected_workspace : ReplicationWorkspaceId) (policy : ReplicationPolicy) :
    Kept (List ReplicationSecretRef × StoredReplicationDocument) := do
  let references ← decode_secret_references journal.retired_references
  let current ← read_repository enc disk.primary_content expected_workspace policy
  return (references, current)

def ReplicationRepository.retire_pending (disk : Disk)
    (backend : ReplicationSecretRef → Except ReplicationSecretStoreError Bool)
    (expected_workspace : ReplicationWorkspaceId) (policy : ReplicationPolicy) :
    Plan ReplicationRetirementOutcome :=
  match disk.transaction with
  | none => ⟨[], .ok .NothingPending⟩
  | some journal =>
    match retire_check enc disk journal expected_workspace policy with
    | .error e => .fail e
    | .ok (references, current) =>
      if current.revision < journal.committed_revision then
        ⟨[.remove_journal], .ok (.AbandonedUncommitted references.length)⟩
      else if references.any current.custody.contains then .fail .RetirementStillReferenced
      else
        let plan := delete_secrets backend references
        match plan.outcome with
        | .error e => ⟨plan.effects, .error e⟩
        | .ok counts => ⟨plan.effects ++ [.remove_journal], .ok (.Completed counts.1 counts.2)⟩

/-- What `recover_last_good` checks before it writes. -/
def recover_check (disk : Disk) (expected_workspace : ReplicationWorkspaceId)
    (policy : ReplicationPolicy) : Kept StoredReplicationDocument :=
  match read_repository enc disk.primary_content expected_workspace policy with
  | .ok _ => .error .RecoveryNotRequired
  | .error e =>
    if e = .Corrupt ∨ e = .TooLarge then
      read_repository enc disk.last_good expected_workspace policy
    else .error e

def ReplicationRepository.recover_last_good (disk : Disk)
    (expected_workspace : ReplicationWorkspaceId)
    (policy : ReplicationPolicy) : Plan ReplicationRepositorySnapshot :=
  match recover_check enc disk expected_workspace policy with
  | .error e => .fail e
  | .ok last_good =>
    let linked : List Effect := if disk.evidence.isSome then [] else [.link_evidence]
    -- evidence of an earlier recovery is not the primary, which that recovery replaced
    if disk.evidence.isSome ∧ disk.primary.map PrimaryFile.inode ≠ disk.evidence then
      .fail .RecoveryEvidenceExists
    else if enc.stored_len last_good > MAX_REPLICATION_REPOSITORY_BYTES then
      ⟨linked, .error .TooLarge⟩
    else
      ⟨linked ++ [.write_primary last_good],
        .ok (snapshot last_good .Primary disk.transaction.isSome)⟩

end Calls

/-! ## Runs -/

/-- The files, and the secrets that `retire_pending` has deleted. -/
structure Root where
  disk : Disk
  deleted : List ReplicationSecretRef

def Root.empty : Root := ⟨⟨none, none, none, none, 0⟩, []⟩

def Root.apply (root : Root) : Effect → Root
  | .write_last_good content =>
    { root with disk := { root.disk with last_good := some content } }
  | .write_journal journal =>
    { root with disk := { root.disk with transaction := some journal } }
  | .write_primary document =>
    { root with disk := { root.disk with
        primary := some ⟨root.disk.next_inode, .stored document⟩
        next_inode := root.disk.next_inode + 1 } }
  | .link_evidence =>
    { root with disk := { root.disk with evidence := root.disk.primary.map PrimaryFile.inode } }
  | .delete_secret reference existed =>
    if existed then { root with deleted := reference :: root.deleted } else root
  | .remove_journal => { root with disk := { root.disk with transaction := none } }

inductive Call where
  | create (document : ReplicationDocument) (custody : ReplicationCustodyMetadata)
      (policy : ReplicationPolicy)
  | load (expected_workspace : ReplicationWorkspaceId) (policy : ReplicationPolicy)
  | commit (expected_revision : Nat) (document : ReplicationDocument)
      (custody : ReplicationCustodyMetadata) (retired_references : List ReplicationSecretRef)
      (policy : ReplicationPolicy)
  | retire_pending (backend : ReplicationSecretRef → Except ReplicationSecretStoreError Bool)
      (expected_workspace : ReplicationWorkspaceId) (policy : ReplicationPolicy)
  | recover_last_good (expected_workspace : ReplicationWorkspaceId) (policy : ReplicationPolicy)

inductive Reply where
  | snapshot (snapshot : ReplicationRepositorySnapshot)
  | retirement (outcome : ReplicationRetirementOutcome)
  deriving DecidableEq

def Plan.reply {α : Type} (plan : Plan α) (f : α → Reply) : Plan Reply :=
  ⟨plan.effects, plan.outcome.map f⟩

def Call.plan (enc : Encoding) (disk : Disk) : Call → Plan Reply
  | .create document custody policy =>
    (ReplicationRepository.create enc disk document custody policy).reply .snapshot
  | .load expected_workspace policy =>
    (Plan.mk [] (ReplicationRepository.load enc disk expected_workspace policy)).reply .snapshot
  | .commit expected_revision document custody retired_references policy =>
    (ReplicationRepository.commit enc disk expected_revision document custody retired_references
      policy).reply .snapshot
  | .retire_pending backend expected_workspace policy =>
    (ReplicationRepository.retire_pending enc disk backend expected_workspace policy).reply
      .retirement
  | .recover_last_good expected_workspace policy =>
    (ReplicationRepository.recover_last_good enc disk expected_workspace policy).reply .snapshot

/-- A call that runs through, or one that is cut off after some of its effects,
or something that spoils the primary file. -/
inductive Event where
  | call (call : Call) (cut : Option Nat)
  | corrupt (damage : Damage)

def performed (enc : Encoding) (root : Root) (call : Call) : Option Nat → List Effect
  | none => (call.plan enc root.disk).effects
  | some cut => (call.plan enc root.disk).effects.take cut

def Root.step (enc : Encoding) (root : Root) : Event → Root × Kept Reply
  | .call call none =>
    ((performed enc root call none).foldl Root.apply root, (call.plan enc root.disk).outcome)
  | .call call (some cut) =>
    ((performed enc root call (some cut)).foldl Root.apply root, .error .Interrupted)
  | .corrupt damage =>
    ({ root with disk := { root.disk with
        primary := root.disk.primary.map fun file => { file with content := .damaged damage } } },
      .error .Interrupted)

end multiplex_store
