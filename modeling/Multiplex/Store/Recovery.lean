-- Restoring the last good metadata: a plan of the files that cannot be read,
-- backups of what stands in their place, a journal, the copies put in place,
-- and what rolls an interrupted restore back. Every call of the service can
-- fail, and the process can end in any of them. The paths of a plan are those
-- of its files' kinds, so a file is named by its kind. A journal is kept as the
-- record that is read back from it, or as one that cannot be read.
import Multiplex.Lib.Crashes
import Multiplex.Domain.Sessions

open multiplex_domain.session (Revision)
open Crashes

namespace multiplex_store.recovery

/-! ## Plans and journals -/

abbrev Bytes := List UInt8

abbrev Uuid := BitVec 128

inductive RecoveryKind where
  | RestoreLastGoodMetadata
  | ReconcileHostLeases
deriving DecidableEq

inductive RecoveryResult where
  | Restored
  | Reconciled
  | NoChange
  | Ambiguous
  | RolledBack
  | RecoveryRequired
deriving DecidableEq

inductive RecoveryState where
  | Inspecting
  | Planned
  | Confirming
  | BackingUpCurrent
  | Applying
  | Verifying
  | Complete
  | Cancelled
  | Failed
  | RollingBack
  | RolledBack
  | RecoveryRequired
deriving DecidableEq

inductive RecoveryErrorCode where
  | Cancelled
  | NoLastGood
  | CorruptLastGood
  | NewerFormat
  | StaleRevision
  | PermissionDenied
  | UnsafeEntry
  | SizeLimit
  | StorageUnavailable
  | VerificationFailed
  | InjectedCrash
  | RecoveryRequired
deriving DecidableEq

inductive MetadataFileKind where
  | Library
  | Sessions
  | Presets
deriving DecidableEq

namespace MetadataFileKind

def ALL : List MetadataFileKind := [Library, Sessions, Presets]

def primary_name : MetadataFileKind → String
  | Library => "library.json"
  | Sessions => "sessions.json"
  | Presets => "presets.json"

def backup_name : MetadataFileKind → String
  | Library => "library.current.json"
  | Sessions => "sessions.current.json"
  | Presets => "presets.current.json"

end MetadataFileKind

structure RecoveryFilePlan where
  kind : MetadataFileKind
  current_revision : Option Revision
  last_good_revision : Revision
  current_sha256 : Option String
  current_bytes : Nat
  last_good_sha256 : String
  last_good_bytes : Nat
  current : Option Bytes
  last_good : Bytes
deriving DecidableEq

structure RecoveryPlan where
  id : Uuid
  kind : RecoveryKind
  files : List RecoveryFilePlan
  unchanged_files : List MetadataFileKind
  estimated_backup_bytes : Nat
deriving DecidableEq

structure RecoveryReceipt where
  id : Uuid
  kind : RecoveryKind
  result : RecoveryResult
  state : RecoveryState
  changed_files : List MetadataFileKind
  backup_bytes : Nat
deriving DecidableEq

structure JournalEntry where
  kind : MetadataFileKind
  target_name : String
  backup_name : String
  current_present : Bool
  current_sha256 : Option String
  last_good_sha256 : String
deriving DecidableEq

structure RecoveryJournal where
  version : Nat
  plan_id : Uuid
  entries : List JournalEntry
  published : Nat
deriving DecidableEq

structure FormatDocument where
  format_version : Nat
  minimum_reader : Nat
  instance_id : String

/-- How bytes are hashed and what they are read as. -/
structure Codec where
  sha256_hex : Bytes → String
  format_document : Bytes → Option FormatDocument
  is_uuid : String → Bool
  validate_kind : MetadataFileKind → Bytes → Option Revision

def MARKER_BYTES : Bytes := "termirust-metadata-recovery-v1\n".toUTF8.toList

def MAX_FORMAT_BYTES : Nat := 64 * 1024

def MAX_METADATA_BYTES : Nat := 64 * 1024 * 1024

def MAX_MARKER_BYTES : Nat := 1024

def CURRENT_FORMAT_VERSION : Nat := 1

/-! ## The disk -/

/-- What stands at a path where the service expects a file. -/
inductive Entry (α : Type) where
  | absent
  | link
  | folder
  | file (content : α)
deriving DecidableEq

/-- The recovery folder. A plan's own folder keeps the backups of its files. -/
structure RecoveryFolder where
  marker : Entry Bytes
  active : Entry (Option RecoveryJournal)
  plans : Uuid → Option (MetadataFileKind → Entry Bytes)

/-- What stands where the service expects its folder. -/
inductive RecoveryRoot where
  | absent
  | foreign
  | folder (content : RecoveryFolder)

structure Disk where
  format : Entry Bytes
  primary : MetadataFileKind → Entry Bytes
  last_good : MetadataFileKind → Entry Bytes
  recovery_root : RecoveryRoot

namespace Disk

def marker (d : Disk) : Entry Bytes :=
  match d.recovery_root with
  | .folder r => r.marker
  | _ => .absent

def active (d : Disk) : Entry (Option RecoveryJournal) :=
  match d.recovery_root with
  | .folder r => r.active
  | _ => .absent

def plan (d : Disk) (id : Uuid) : Option (MetadataFileKind → Entry Bytes) :=
  match d.recovery_root with
  | .folder r => r.plans id
  | _ => none

def backup (d : Disk) (id : Uuid) (kind : MetadataFileKind) : Entry Bytes :=
  match d.plan id with
  | some saved => saved kind
  | none => .absent

def hasFolder (d : Disk) : Bool :=
  match d.recovery_root with
  | .folder _ => true
  | _ => false

/-- Changes what is in the recovery folder, when there is one. -/
def inFolder (f : RecoveryFolder → RecoveryFolder) (d : Disk) : Disk :=
  match d.recovery_root with
  | .folder r => { d with recovery_root := .folder (f r) }
  | _ => d

def createRoot (d : Disk) : Disk :=
  { d with recovery_root := .folder ⟨.absent, .absent, fun _ => none⟩ }

def createPlan (id : Uuid) : Disk → Disk :=
  inFolder fun r => { r with plans := Function.update r.plans id (some fun _ => .absent) }

def setMarker (e : Entry Bytes) : Disk → Disk := inFolder fun r => { r with marker := e }

def setActive (e : Entry (Option RecoveryJournal)) : Disk → Disk :=
  inFolder fun r => { r with active := e }

def setBackup (id : Uuid) (kind : MetadataFileKind) (e : Entry Bytes) : Disk → Disk :=
  inFolder fun r =>
    let saved := (r.plans id).map fun files => Function.update files kind e
    { r with plans := Function.update r.plans id saved }

def setPrimary (kind : MetadataFileKind) (e : Entry Bytes) (d : Disk) : Disk :=
  { d with primary := Function.update d.primary kind e }

section
variable {d : Disk} {id : Uuid} {kind : MetadataFileKind} {e : Entry Bytes}
  {a : Entry (Option RecoveryJournal)} {f : RecoveryFolder → RecoveryFolder}

@[simp] theorem format_inFolder : (d.inFolder f).format = d.format := by
  unfold inFolder; split <;> rfl

@[simp] theorem primary_inFolder : (d.inFolder f).primary = d.primary := by
  unfold inFolder; split <;> rfl

@[simp] theorem last_good_inFolder : (d.inFolder f).last_good = d.last_good := by
  unfold inFolder; split <;> rfl

@[simp] theorem hasFolder_inFolder : (d.inFolder f).hasFolder = d.hasFolder := by
  unfold inFolder hasFolder
  cases h : d.recovery_root <;> simp [h]

theorem hasFolder_of_marker {m : Bytes} (h : d.marker = .file m) : d.hasFolder = true := by
  unfold marker at h
  unfold hasFolder
  cases hr : d.recovery_root with
  | absent => simp [hr] at h
  | foreign => simp [hr] at h
  | folder r => rfl

theorem hasFolder_of_plan (h : (d.plan id).isSome) : d.hasFolder = true := by
  unfold plan at h
  unfold hasFolder
  cases hr : d.recovery_root with
  | absent => simp [hr] at h
  | foreign => simp [hr] at h
  | folder r => rfl

@[simp] theorem marker_setActive : (d.setActive a).marker = d.marker := by
  unfold setActive inFolder marker
  cases h : d.recovery_root <;> simp [h]

@[simp] theorem plan_setActive : (d.setActive a).plan = d.plan := by
  unfold setActive inFolder
  cases h : d.recovery_root with
  | absent => rfl
  | foreign => rfl
  | folder r => funext id; simp [plan, h]

@[simp] theorem backup_setActive : (d.setActive a).backup = d.backup := by
  funext id kind
  simp [backup]

theorem active_setActive (h : d.hasFolder = true) : (d.setActive a).active = a := by
  unfold hasFolder at h
  unfold setActive inFolder active
  cases hr : d.recovery_root <;> simp_all

theorem marker_setMarker (h : d.hasFolder = true) : (d.setMarker e).marker = e := by
  unfold hasFolder at h
  unfold setMarker inFolder marker
  cases hr : d.recovery_root <;> simp_all

@[simp] theorem marker_createPlan : (d.createPlan id).marker = d.marker := by
  unfold createPlan inFolder marker
  cases h : d.recovery_root <;> simp [h]

@[simp] theorem active_createPlan : (d.createPlan id).active = d.active := by
  unfold createPlan inFolder active
  cases h : d.recovery_root <;> simp [h]

theorem plan_createPlan (h : d.hasFolder = true) : ((d.createPlan id).plan id).isSome := by
  unfold hasFolder at h
  unfold createPlan inFolder plan
  cases hr : d.recovery_root <;> simp_all

theorem backup_createPlan : (d.createPlan id).backup id = fun _ => .absent := by
  unfold createPlan inFolder backup plan
  cases hr : d.recovery_root <;> simp_all

@[simp] theorem marker_setBackup : (d.setBackup id kind e).marker = d.marker := by
  unfold setBackup inFolder marker
  cases h : d.recovery_root <;> simp [h]

@[simp] theorem active_setBackup : (d.setBackup id kind e).active = d.active := by
  unfold setBackup inFolder active
  cases h : d.recovery_root <;> simp [h]

@[simp] theorem plan_setBackup : ((d.setBackup id kind e).plan id).isSome = (d.plan id).isSome := by
  unfold setBackup inFolder plan
  cases h : d.recovery_root <;> simp [h]

theorem backup_setBackup (h : (d.plan id).isSome) :
    (d.setBackup id kind e).backup id = Function.update (d.backup id) kind e := by
  obtain ⟨saved, hsaved⟩ := Option.isSome_iff_exists.mp h
  unfold plan at hsaved
  unfold setBackup inFolder backup plan
  cases hr : d.recovery_root with
  | absent => simp [hr] at hsaved
  | foreign => simp [hr] at hsaved
  | folder r =>
    simp only [hr] at hsaved
    simp [hsaved]

@[simp] theorem marker_setPrimary : (d.setPrimary kind e).marker = d.marker := by
  simp [marker, setPrimary]

@[simp] theorem active_setPrimary : (d.setPrimary kind e).active = d.active := by
  simp [active, setPrimary]

@[simp] theorem backup_setPrimary : (d.setPrimary kind e).backup = d.backup := by
  funext id kind
  simp [backup, plan, setPrimary]

@[simp] theorem format_setPrimary : (d.setPrimary kind e).format = d.format := by
  simp [setPrimary]

@[simp] theorem last_good_setPrimary : (d.setPrimary kind e).last_good = d.last_good := by
  simp [setPrimary]

@[simp] theorem primary_setPrimary :
    (d.setPrimary kind e).primary = Function.update d.primary kind e := by
  simp [setPrimary]

end

end Disk

/-! ## Calls -/

/-- The calls of the service, each at its place in the code. -/
inductive Call where
  | is_cancelled (boundary : Nat)
  | inspect_root
  | create_root
  | protect_root
  | inspect_marker
  | read_marker
  | create_marker
  | create_plan_root
  | protect_plan_root
  | lock
  | read_format
  | read_current (kind : MetadataFileKind)
  | read_last_good (kind : MetadataFileKind)
  | write_backup (kind : MetadataFileKind)
  | read_backup (kind : MetadataFileKind)
  | write_journal (published : Nat)
  | publish (kind : MetadataFileKind)
  | read_published (kind : MetadataFileKind)
  | rebuild_indexes
  | lock_again
  | read_journal
  | read_saved (kind : MetadataFileKind)
  | write_back (kind : MetadataFileKind)
  | read_back (kind : MetadataFileKind)
  | inspect_target (kind : MetadataFileKind)
  | remove_target (kind : MetadataFileKind)
  | remove_journal
  | drop_journal
deriving DecidableEq

/-- What the environment does to each call. One that fails does so with the code its failure is
mapped to. -/
abbrev Fates := Call → Fate RecoveryErrorCode

abbrev Recover := Script Call RecoveryErrorCode Disk RecoveryErrorCode

inductive StoreError where
  | NotFound
  | UnsafeEntry
  | TooLarge
deriving DecidableEq

def map_store : StoreError → RecoveryErrorCode
  | .NotFound => .StorageUnavailable
  | .UnsafeEntry => .UnsafeEntry
  | .TooLarge => .SizeLimit

def map_last_good : StoreError → RecoveryErrorCode
  | .NotFound => .NoLastGood
  | value => map_store value

def read_regular_bounded (entry : Entry Bytes) (limit : Nat) : Except StoreError Bytes :=
  match entry with
  | .absent => .error .NotFound
  | .link => .error .UnsafeEntry
  | .folder => .error .UnsafeEntry
  | .file bytes => if limit < bytes.length then .error .TooLarge else .ok bytes

def read_current (entry : Entry Bytes) : Except RecoveryErrorCode (Option Bytes) :=
  match read_regular_bounded entry MAX_METADATA_BYTES with
  | .ok bytes => .ok (some bytes)
  | .error .NotFound => .ok none
  | .error value => .error (map_store value)

/-- A call that changes the disk, whole or not at all. -/
def change (call : Call) (f : Disk → Disk) : Recover Unit :=
  Script.call call id f untouched (atomic f)

/-- A write of the atomic writer, which may fail after the new file is in place. -/
def write {α : Type} (call : Call) (target : Disk → Entry α) (parent : Disk → Bool)
    (f : Disk → Disk) : Recover Unit := do
  Script.see fun d => match target d with
    | .link => .error .UnsafeEntry
    | .folder => .error .UnsafeEntry
    | _ => if parent d then .ok () else .error .StorageUnavailable
  Script.call call id f (atomic f) (atomic f)

def write_target (call : Call) (kind : MetadataFileKind) (bytes : Bytes) : Recover Unit :=
  write call (fun d => d.primary kind) (fun _ => true) (Disk.setPrimary kind (.file bytes))

def check_cancelled (boundary : Nat) : Recover Unit :=
  Script.call (.is_cancelled boundary) (fun _ => .Cancelled) id untouched untouched

/-- A call that leaves this disk as it is. -/
def keep (call : Call) : Recover Unit := Script.call call id id untouched untouched

/-- The lock keeps other writers away, and there is no other writer here. -/
def lock (call : Call) : Recover Unit := keep call

/-! ## Planning -/

section
variable (codec : Codec)

def validate_format (entry : Entry Bytes) : Except RecoveryErrorCode Unit :=
  match read_regular_bounded entry MAX_FORMAT_BYTES with
  | .error value => .error (map_store value)
  | .ok bytes => match codec.format_document bytes with
    | none => .error .VerificationFailed
    | some format =>
      if CURRENT_FORMAT_VERSION < format.format_version ∨
          CURRENT_FORMAT_VERSION < format.minimum_reader then .error .NewerFormat
      else if format.format_version ≠ CURRENT_FORMAT_VERSION ∨ format.minimum_reader = 0 ∨
          codec.is_uuid format.instance_id = false then .error .VerificationFailed
      else .ok ()

/-- What the plan says of one kind: nothing when its file is sound. -/
def plan_file (d : Disk) (kind : MetadataFileKind) :
    Except RecoveryErrorCode (Option RecoveryFilePlan) := do
  let current ← read_current (d.primary kind)
  if (current.bind (codec.validate_kind kind)).isSome then
    return none
  let last_good ←
    (read_regular_bounded (d.last_good kind) MAX_METADATA_BYTES).mapError map_last_good
  match codec.validate_kind kind last_good with
  | none => throw .CorruptLastGood
  | some last_good_revision =>
    return some
      { kind
        current_revision := none
        last_good_revision
        current_sha256 := current.map codec.sha256_hex
        current_bytes := (current.map List.length).getD 0
        last_good_sha256 := codec.sha256_hex last_good
        last_good_bytes := last_good.length
        current
        last_good }

def plan_restore_last_good (d : Disk) (id : Uuid) : Except RecoveryErrorCode RecoveryPlan := do
  validate_format codec d.format
  let planned ← MetadataFileKind.ALL.mapM (plan_file codec d)
  let files := planned.filterMap fun file => file
  return {
    id
    kind := .RestoreLastGoodMetadata
    files
    unchanged_files := MetadataFileKind.ALL.filter fun kind => kind ∉ files.map (·.kind)
    estimated_backup_bytes := (files.map (·.current_bytes)).sum }

/-! ## The recovery folder -/

def create_root : Recover Unit := do
  change .create_root Disk.createRoot
  keep .protect_root

/-- The file is made and then filled, so any part of its bytes can be left in it. -/
def create_marker : Recover Unit :=
  Script.call .create_marker id (Disk.setMarker (.file MARKER_BYTES)) partly partly
where
  partly : Nat → Disk → Disk
    | 0, d => d
    | n + 1, d => d.setMarker (.file (MARKER_BYTES.take n))

def ensure_folder : Recover Unit := do
  match ← Script.read .inspect_root id fun d => .ok d.recovery_root with
  | .foreign => Script.throw .UnsafeEntry
  | .folder _ => pure ()
  | .absent => create_root

def ensure_marker : Recover Unit := do
  match ← Script.read .inspect_marker id fun d => .ok d.marker with
  | .link => Script.throw .UnsafeEntry
  | .folder => Script.throw .UnsafeEntry
  | .file _ => Script.read .read_marker id fun d =>
      if d.marker = .file MARKER_BYTES then .ok () else .error .UnsafeEntry
  | .absent => create_marker

def ensure_recovery_root : Recover Unit := do
  ensure_folder
  ensure_marker

def create_plan_root (id : Uuid) : Recover Unit := do
  Script.see fun d => if (d.plan id).isSome then .error .StorageUnavailable else .ok ()
  change .create_plan_root (Disk.createPlan id)
  keep .protect_plan_root

def write_journal (journal : RecoveryJournal) : Recover Unit :=
  write (.write_journal journal.published) Disk.active Disk.hasFolder
    (Disk.setActive (.file (some journal)))

def remove_active_journal (call : Call) : Recover Unit := do
  Script.see fun d => if d.active = .folder then .error .StorageUnavailable else .ok ()
  change call (Disk.setActive .absent)

def validate_journal (journal : RecoveryJournal) : Except RecoveryErrorCode Unit :=
  if journal.version ≠ 1 ∨ journal.entries = [] ∨
      MetadataFileKind.ALL.length < journal.entries.length ∨
      journal.entries.length < journal.published ∨
      ∃ entry ∈ journal.entries, entry.target_name ≠ entry.kind.primary_name ∨
        entry.backup_name ≠ entry.kind.backup_name ∨
        entry.current_present = true ∧ entry.current_sha256 = none then .error .UnsafeEntry
  else .ok ()

def read_active_journal : Recover (Option RecoveryJournal) := do
  match ← Script.read .inspect_root id fun d => .ok d.recovery_root with
  | .absent => pure none
  | .foreign => Script.throw .UnsafeEntry
  | .folder _ => do
    let marker ← Script.read .read_marker id fun d =>
      (read_regular_bounded d.marker MAX_MARKER_BYTES).mapError map_store
    Script.refuseIf .UnsafeEntry (marker ≠ MARKER_BYTES)
    Script.read .read_journal id fun d => match d.active with
      | .absent => .ok none
      | .link => .error .UnsafeEntry
      | .folder => .error .UnsafeEntry
      | .file none => .error .VerificationFailed
      | .file (some journal) => (validate_journal journal).map fun _ => some journal

/-! ## Rolling back -/

def put_back (kind : MetadataFileKind) (bytes : Bytes) : Recover Unit := do
  write_target (.write_back kind) kind bytes
  let restored ← Script.read (.read_back kind) id fun d =>
    (read_regular_bounded (d.primary kind) MAX_METADATA_BYTES).mapError map_store
  Script.refuseIf .VerificationFailed (restored ≠ bytes)

def take_away (kind : MetadataFileKind) : Recover Unit := do
  match ← Script.read (.inspect_target kind) id fun d => .ok (d.primary kind) with
  | .link => Script.throw .UnsafeEntry
  | .folder => Script.throw .UnsafeEntry
  | .file _ => change (.remove_target kind) (Disk.setPrimary kind .absent)
  | .absent => pure ()

/-- Puts one file back as its backup has it, or takes it away when there was none. -/
def roll_back_entry (plan_id : Uuid) (entry : JournalEntry) : Recover Unit := do
  let bytes ← Script.read (.read_saved entry.kind) id fun d =>
    (read_regular_bounded (d.backup plan_id entry.kind) MAX_METADATA_BYTES).mapError map_store
  Script.refuseIf .VerificationFailed
    (entry.current_sha256 ≠ some (codec.sha256_hex bytes) ∧ entry.current_present = true)
  if entry.current_present then put_back entry.kind bytes else take_away entry.kind

def rollback_journal (journal : RecoveryJournal) : Recover Unit := do
  Script.ofExcept (validate_journal journal)
  Script.each journal.entries (roll_back_entry codec journal.plan_id)

def rollback_or_required {α : Type} (journal : RecoveryJournal) (original : RecoveryErrorCode) :
    Recover α := do
  match ← Script.attempt (rollback_journal codec journal) with
  | .ok () => do
    let _ ← Script.attempt (remove_active_journal .drop_journal)
    Script.throw original
  | .error _ => Script.throw .RecoveryRequired

/-! ## Restoring -/

def recheck_file (file : RecoveryFilePlan) : Recover Unit := do
  Script.read (.read_current file.kind) id fun d => do
    let current ← read_current (d.primary file.kind)
    if current.map codec.sha256_hex ≠ file.current_sha256 then throw .StaleRevision
  Script.read (.read_last_good file.kind) id fun d => do
    let last_good ←
      (read_regular_bounded (d.last_good file.kind) MAX_METADATA_BYTES).mapError map_last_good
    if codec.sha256_hex last_good ≠ file.last_good_sha256 ∨
        codec.validate_kind file.kind last_good ≠ some file.last_good_revision then
      throw .StaleRevision

def recheck_plan (plan : RecoveryPlan) : Recover Unit := do
  Script.read .read_format id fun d => validate_format codec d.format
  Script.each plan.files (recheck_file codec)

/-- An absent file has an empty backup. -/
def back_up (id : Uuid) (file : RecoveryFilePlan) : Recover Unit := do
  let bytes := file.current.getD []
  write (.write_backup file.kind) (fun d => d.backup id file.kind) (fun d => (d.plan id).isSome)
    (Disk.setBackup id file.kind (.file bytes))
  let saved ← Script.read (.read_backup file.kind) (fun e => e) fun d =>
    (read_regular_bounded (d.backup id file.kind) MAX_METADATA_BYTES).mapError map_store
  Script.refuseIf .VerificationFailed
    (saved ≠ bytes ∨ file.current_sha256 ≠ file.current.map codec.sha256_hex)

def RecoveryFilePlan.entry (file : RecoveryFilePlan) : JournalEntry where
  kind := file.kind
  target_name := file.kind.primary_name
  backup_name := file.kind.backup_name
  current_present := file.current.isSome
  current_sha256 := file.current_sha256
  last_good_sha256 := file.last_good_sha256

def RecoveryPlan.journal (plan : RecoveryPlan) (published : Nat) : RecoveryJournal where
  version := 1
  plan_id := plan.id
  entries := plan.files.map RecoveryFilePlan.entry
  published := published

def publish (plan : RecoveryPlan) (numbered : RecoveryFilePlan × Nat) : Recover Unit := do
  let (file, index) := numbered
  Script.orElse (write_target (.publish file.kind) file.kind file.last_good)
    (rollback_or_required codec (plan.journal index))
  Script.orElse (write_journal (plan.journal (index + 1)))
    (rollback_or_required codec (plan.journal (index + 1)))

def verify (file : RecoveryFilePlan) : Recover Unit := do
  let restored ← Script.read (.read_published file.kind) id fun d =>
    (read_regular_bounded (d.primary file.kind) MAX_METADATA_BYTES).mapError map_store
  Script.refuseIf .VerificationFailed
    (restored ≠ file.last_good ∨ codec.sha256_hex restored ≠ file.last_good_sha256 ∨
      codec.validate_kind file.kind restored = none)

/-- The derived indexes are not on this disk, and only the outcome of the call matters. -/
def rebuild_indexes : Recover Unit := keep .rebuild_indexes

/-- What a restore does before it takes the lock. -/
def prepare (plan : RecoveryPlan) : Recover Unit := do
  check_cancelled 0
  ensure_recovery_root
  create_plan_root plan.id

/-- What a restore does under the lock. -/
def place (plan : RecoveryPlan) : Recover Unit := do
  lock .lock
  recheck_plan codec plan
  check_cancelled 1
  Script.each plan.files (back_up codec plan.id)
  check_cancelled 2
  write_journal (plan.journal 0)
  Script.each plan.files.zipIdx (publish codec plan)
  let journal := plan.journal plan.files.length
  Script.each plan.files fun file =>
    Script.orElse (verify codec file) (rollback_or_required codec journal)

/-- A restore whose indexes cannot be rebuilt takes the lock again. -/
def undo {α : Type} (plan : RecoveryPlan) (value : RecoveryErrorCode) : Recover α := do
  lock .lock_again
  rollback_or_required codec (plan.journal plan.files.length) value

/-- What a restore does before it gives its journal up. The lock is given up before the indexes are
rebuilt. -/
def put_in_place (plan : RecoveryPlan) : Recover Unit := do
  prepare plan
  place codec plan
  Script.orElse rebuild_indexes (undo codec plan)

def restore (plan : RecoveryPlan) : Recover RecoveryReceipt :=
  if plan.kind ≠ .RestoreLastGoodMetadata then Script.throw .VerificationFailed
  else if plan.files = [] then
    pure
      { id := plan.id
        kind := plan.kind
        result := .NoChange
        state := .Complete
        changed_files := []
        backup_bytes := 0 }
  else do
    put_in_place codec plan
    remove_active_journal .remove_journal
    pure
      { id := plan.id
        kind := plan.kind
        result := .Restored
        state := .Complete
        changed_files := plan.files.map (·.kind)
        backup_bytes := plan.estimated_backup_bytes }

/-- What a recovery does under the lock, with the journal that it read before. -/
def roll_back_locked (journal : RecoveryJournal) : Recover Unit := do
  lock .lock
  rollback_journal codec journal
  remove_active_journal .remove_journal

/-- Rolls back only a journaled operation. It never starts a new restore. -/
def recover_interrupted_restore : Recover (Option RecoveryReceipt) := do
  match ← read_active_journal with
  | none => pure none
  | some journal => do
    roll_back_locked codec journal
    let backup_bytes ← Script.see fun d =>
      .ok ((journal.entries.map fun entry => match d.backup journal.plan_id entry.kind with
        | .file bytes => bytes.length
        | _ => 0).sum)
    pure (some
      { id := journal.plan_id
        kind := .RestoreLastGoodMetadata
        result := .RolledBack
        state := .RolledBack
        changed_files := journal.entries.map (·.kind)
        backup_bytes })

end

end multiplex_store.recovery
