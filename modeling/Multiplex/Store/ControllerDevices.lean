-- The file with the devices that may control this computer. An update goes
-- through only on the revision it expects, and writes the whole document anew.
import Multiplex.Domain.ControllerDeviceLaws

open Checks
open multiplex_domain.controller_devices

namespace multiplex_store.controller_devices

def MAX_CONTROLLER_DOCUMENT_BYTES : Nat := 512 * 1024
def CURRENT_CONTROLLER_FORMAT : Nat := 1

inductive ControllerDeviceStoreError where
  | Io (operation : String)
  | TooLarge
  | Newer (found supported : Nat)
  | StaleRevision (expected actual : Nat)
  | RevisionOverflow
  | Domain (error : ControllerDeviceError)

structure ControllerDeviceDocument where
  format_version : Nat
  revision : Nat
  authority : ControllerDeviceAuthority

structure ControllerDeviceSnapshot where
  revision : Nat
  authority : ControllerDeviceAuthority

/-- What becomes of one call to the atomic writer. It can also fail after the new file is in place,
when its permissions or its directory cannot be brought to the disk. -/
inductive AtomicWrite where
  | written
  | failed
  | failed_after_rename
  deriving DecidableEq

/-- What the store takes from outside: the hash of a fingerprint, and how long a document is. -/
structure Surroundings where
  sha256 : Sha256
  encoded_len : ControllerDeviceDocument → Nat

variable (env : Surroundings)

abbrev Stored (α : Type) := Except ControllerDeviceStoreError α

def read_document (file : ControllerDeviceDocument) : Stored ControllerDeviceDocument := do
  refuseIf .TooLarge (MAX_CONTROLLER_DOCUMENT_BYTES < env.encoded_len file)
  refuseIf (.Newer file.format_version CURRENT_CONTROLLER_FORMAT)
    (CURRENT_CONTROLLER_FORMAT < file.format_version)
  (file.authority.validate env.sha256).mapError .Domain
  pure file

def load (file : ControllerDeviceDocument) : Stored ControllerDeviceSnapshot := do
  let document ← read_document env file
  pure ⟨document.revision, document.authority⟩

/-- The answer of a write, with the file as it stands afterwards. -/
def write_document (file document : ControllerDeviceDocument) (write : AtomicWrite) :
    Stored Unit × ControllerDeviceDocument :=
  match document.authority.validate env.sha256 with
  | .error e => (.error (.Domain e), file)
  | .ok () =>
    if MAX_CONTROLLER_DOCUMENT_BYTES < env.encoded_len document then (.error .TooLarge, file)
    else
      match write with
      | .written => (.ok (), document)
      | .failed => (.error (.Io "write"), file)
      | .failed_after_rename => (.error (.Io "write"), document)

/-- An update with what its operation answers. What the operation changed before it failed is
dropped with the copy it worked on. -/
def update {α : Type} (file : ControllerDeviceDocument) (expected : Nat)
    (operation : ControllerDeviceAuthority → Outcome α) (write : AtomicWrite) :
    Stored (ControllerDeviceSnapshot × α) × ControllerDeviceDocument :=
  match read_document env file with
  | .error e => (.error e, file)
  | .ok current =>
    if current.revision ≠ expected then (.error (.StaleRevision expected current.revision), file)
    else
      match operation current.authority with
      | (.error e, _) => (.error (.Domain e), file)
      | (.ok answer, authority) =>
        match authority.validate env.sha256 with
        | .error e => (.error (.Domain e), file)
        | .ok () =>
          match checked_next current.revision with
          | none => (.error .RevisionOverflow, file)
          | some revision =>
            let document := { current with revision, authority }
            match write_document env file document write with
            | (.error e, file) => (.error e, file)
            | (.ok (), file) => (.ok (⟨revision, authority⟩, answer), file)

/-! ## What an update does -/

variable {env}

theorem read_document_ok {file document : ControllerDeviceDocument}
    (h : read_document env file = .ok document) :
    document = file ∧ file.authority.validate env.sha256 = .ok () := by
  unfold read_document at h
  simp only [bind_ok_iff, pure_ok_iff] at h
  obtain ⟨_, -, _, -, _, hvalid, rfl⟩ := h
  refine ⟨rfl, ?_⟩
  generalize file.authority.validate env.sha256 = x at hvalid
  cases x with
  | error e => cases hvalid
  | ok u => rfl

/-- An update changes the file only through its operation, and then the new file is the one that
was meant: either the update succeeds, or the writer failed after its rename. -/
inductive Updated {α : Type} (env : Surroundings) (file : ControllerDeviceDocument) (expected : Nat)
    (operation : ControllerDeviceAuthority → Outcome α) (write : AtomicWrite) :
    Stored (ControllerDeviceSnapshot × α) → ControllerDeviceDocument → Prop where
  | refused (e : ControllerDeviceStoreError) :
      Updated env file expected operation write (.error e) file
  | changed (answer : α) (authority : ControllerDeviceAuthority)
      (current : file.revision = expected)
      (operated : operation file.authority = (.ok answer, authority))
      (valid : authority.validate env.sha256 = .ok ())
      (result : Stored (ControllerDeviceSnapshot × α))
      (told : result = .ok (⟨file.revision + 1, authority⟩, answer) ∧ write = .written ∨
        result = .error (.Io "write") ∧ write = .failed_after_rename) :
      Updated env file expected operation write result
        { file with revision := file.revision + 1, authority }

theorem update_updated {α : Type} {file : ControllerDeviceDocument} {expected : Nat}
    {operation : ControllerDeviceAuthority → Outcome α} {write : AtomicWrite} :
    Updated env file expected operation write (update env file expected operation write).1
      (update env file expected operation write).2 := by
  unfold update
  split
  · exact Updated.refused _
  rename_i current hread
  obtain ⟨rfl, -⟩ := read_document_ok hread
  split
  · exact Updated.refused _
  rename_i hcurrent
  split
  · exact Updated.refused _
  rename_i answer authority hoperated
  split
  · exact Updated.refused _
  rename_i hvalid
  split
  · exact Updated.refused _
  rename_i revision hrevision
  obtain ⟨-, rfl⟩ := checked_next_eq_some.mp hrevision
  have hchanged := @Updated.changed _ _ _ _ _ write answer authority (not_not.mp hcurrent)
      hoperated hvalid
  unfold write_document
  dsimp only
  rw [hvalid]
  split_ifs
  · exact Updated.refused _
  · cases write with
    | written => exact hchanged _ (.inl ⟨rfl, rfl⟩)
    | failed => exact Updated.refused _
    | failed_after_rename => exact hchanged _ (.inr ⟨rfl, rfl⟩)

end multiplex_store.controller_devices
