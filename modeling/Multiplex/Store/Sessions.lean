-- The list of sessions in its file, with the data that each session has beside
-- it. Every call reads the whole document under a lock, and writes it anew
-- when it changes something.
import Multiplex.Domain.Sessions
import Multiplex.Store.ControllerDevices

open Checks FirstMatch
open multiplex_domain.session
open multiplex_store.controller_devices (AtomicWrite)

namespace multiplex_store.session_list

def MAX_SESSIONS_BYTES : Nat := 32 * 1024 * 1024
def MAX_REMOVAL_ENTRIES : Nat := 10000
def SESSIONS_FILE : String := "sessions.json"

inductive StoreError where
  | Io (operation : String)
  | UnsafeEntry (name : String)
  | TooLarge (name : String) (limit : Nat)
  | Corrupt (name : String)
  | SessionDomain (error : SessionStateError)
  deriving DecidableEq

abbrev Stored (α : Type) := Except StoreError α

def refused (code : String) : StoreError := .SessionDomain (.Store code)

structure SessionsDocument where
  revision : Revision
  sessions : List HostedSession
  deriving DecidableEq

/-! ## What counts as a valid document -/

def validate_session (session : HostedSession) : Stored Unit := do
  let title ← (SessionTitle.new session.title).mapError .SessionDomain
  refuseIf (refused "invalid-session") (title ≠ session.title ∨ ¬ session.activity.is_valid ∨
    session.last_output_sequence < session.read_through_sequence ∨
    session.unread_sequence.any (session.last_output_sequence < ·) ∨
    session.archived_at.isSome ∧ ¬ session.lifecycle.is_exited)

/-- A place in the list: no two sessions have the same one. -/
abbrev Slot := Option GroupId × PositionKey

def slot (session : HostedSession) : Slot := (session.group_id, session.position)

/-- The loop over the sessions, with the ids and the places of those before. -/
def validate_sessions (revision : Revision) (ids : List HostedSessionId) (positions : List Slot) :
    List HostedSession → Stored Unit
  | [] => pure ()
  | session :: rest => do
    refuseIf (refused "future-session-revision") (revision < session.revision)
    refuseIf (refused "duplicate-session") (session.id ∈ ids ∨ slot session ∈ positions)
    refuseIf (.SessionDomain (.ResourceLimit MAX_SESSIONS)) (MAX_SESSIONS < ids.length + 1)
    validate_session session
    validate_sessions revision (session.id :: ids) (slot session :: positions) rest

def validate_document (document : SessionsDocument) : Stored Unit :=
  validate_sessions document.revision [] [] document.sessions

/-! ## Order -/

/-- Sessions without a group come first. -/
def sort_key (session : HostedSession) : WithBot GroupId ×ₗ (PositionKey ×ₗ HostedSessionId) :=
  toLex (session.group_id, toLex (session.position, session.id))

def sort_sessions (sessions : List HostedSession) : List HostedSession :=
  sessions.insertionSort fun a b => sort_key a ≤ sort_key b

def position_key (session : HostedSession) : PositionKey ×ₗ HostedSessionId :=
  toLex (session.position, session.id)

def destination_ids (sessions : List HostedSession) (group_id : Option GroupId) : List HostedSessionId :=
  ((sessions.filter (·.group_id = group_id)).insertionSort fun a b =>
    position_key a ≤ position_key b).map (·.id)

/-- The place after the last one of a group. -/
def next_tail_position (sessions : List HostedSession) (group_id : Option GroupId) :
    Stored PositionKey :=
  match (sessions.filter (·.group_id = group_id)).argmax position_key with
  | none => .ok PositionKey.FIRST
  | some session =>
    match PositionKey.after session.position with
    | none => .error (refused "position-overflow")
    | some position => .ok position

/-- The sessions of the list take the places from the first one on, in its order. -/
def rebalance_destination (group_id : Option GroupId) :
    List HostedSession → Nat → List HostedSessionId → Stored (List HostedSession)
  | sessions, _, [] => .ok sessions
  | sessions, index, id :: rest =>
    if sessions.all (·.id ≠ id) then .error (.SessionDomain .Unavailable)
    else
      match PositionKey.rebalanced index with
      | none => .error (refused "position-overflow")
      | some position =>
        rebalance_destination group_id
          (updateFirst (·.id = id) (fun s => { s with group_id, position }) sessions) (index + 1) rest

/-! ## Revisions -/

def require_revision (expected actual : Revision) : Stored Unit :=
  refuseIf (.SessionDomain (.StaleRevision expected actual)) (expected ≠ actual)

def next_revision (revision : Revision) : Stored Revision :=
  match multiplex_domain.checked_add revision 1 with
  | none => .error (.SessionDomain .RevisionOverflow)
  | some revision => .ok revision

def session? (document : SessionsDocument) (id : HostedSessionId) : Stored HostedSession :=
  match document.sessions.find? (·.id = id) with
  | none => .error (.SessionDomain .Unavailable)
  | some session => .ok session

/-! ## The files -/

inductive EntryKind where
  | directory
  | file (bytes : Nat)
  | other

/-- What lies below the folder of a session: the first part of its path, its name and its kind. -/
structure DataEntry where
  first : String
  file_name : String
  kind : EntryKind

/-- The folder of a session in the order it is walked through, or something that is no folder. -/
inductive SessionData where
  | unsafe_entry
  | folder (entries : List DataEntry)

structure SessionStore where
  document : SessionsDocument
  data : HostedSessionId → Option SessionData
  quarantine : HostedSessionId → Option SessionData

/-- How many bytes the JSON of a document and of a session takes. -/
structure Encoding where
  document : SessionsDocument → Nat
  session : HostedSession → Nat

/-- What becomes of the files in one call: of its write, of the folder that goes to quarantine, and
of the way back when the write fails. -/
structure Disk where
  write : AtomicWrite
  quarantines : Bool
  restores : Bool

section
variable (encoding : Encoding)

def read_document (file : SessionsDocument) : Stored SessionsDocument := do
  refuseIf (.TooLarge SESSIONS_FILE MAX_SESSIONS_BYTES) (MAX_SESSIONS_BYTES < encoding.document file)
  validate_document file
  pure { file with sessions := sort_sessions file.sessions }

def write_document_locked (store : SessionStore) (document : SessionsDocument) (write : AtomicWrite) :
    Stored Unit × SessionStore :=
  match validate_document document with
  | .error e => (.error e, store)
  | .ok () =>
    if MAX_SESSIONS_BYTES < encoding.document document then
      (.error (.TooLarge SESSIONS_FILE MAX_SESSIONS_BYTES), store)
    else
      let written := { store with document }
      match write with
      | .failed => (.error (.Io "commit sessions"), store)
      | .failed_after_rename => (.error (.Io "commit sessions"), written)
      | .written =>
        match read_document encoding document with
        | .error e => (.error e, written)
        | .ok persisted =>
          if persisted ≠ document then (.error (.Corrupt SESSIONS_FILE), written)
          else (.ok (), written)

/-- A call that changes nothing but the document: its answer, and the document where it is changed. -/
def edit {α : Type} (store : SessionStore) (write : AtomicWrite)
    (change : SessionsDocument → Stored (α × Option SessionsDocument)) : Stored α × SessionStore :=
  match read_document encoding store.document with
  | .error e => (.error e, store)
  | .ok document =>
    match change document with
    | .error e => (.error e, store)
    | .ok (answer, none) => (.ok answer, store)
    | .ok (answer, some document) =>
      match write_document_locked encoding store document write with
      | (.error e, store) => (.error e, store)
      | (.ok (), store) => (.ok answer, store)

end

/-! ## The calls -/

def create_session (session : HostedSession) (expected : Revision) (document : SessionsDocument) :
    Stored (HostedSession × Option SessionsDocument) := do
  match document.sessions.find? (·.id = session.id) with
  | some existing => pure (existing, none)
  | none =>
    require_revision expected document.revision
    refuseIf (.SessionDomain (.ResourceLimit MAX_SESSIONS)) (MAX_SESSIONS ≤ document.sessions.length)
    let position ← next_tail_position document.sessions session.group_id
    let revision ← next_revision document.revision
    let session := { session with position, revision }
    pure (session, some ⟨revision, sort_sessions (document.sessions ++ [session])⟩)

def mutate_session (id : HostedSessionId) (expected : Revision) (mutation : SessionMutation)
    (updated_at : Nat) (document : SessionsDocument) :
    Stored (HostedSession × Option SessionsDocument) := do
  let session ← session? document id
  match ← (reduce_session session mutation).mapError .SessionDomain with
  | none => pure (session, none)
  | some candidate =>
    require_revision expected document.revision
    let revision ← next_revision document.revision
    let candidate := { candidate with revision, updated_at }
    pure (candidate, some ⟨revision,
      sort_sessions (updateFirst (·.id = id) (fun _ => candidate) document.sessions)⟩)

/-- The order of a group once the session stands before the given one, or last. -/
def inserted (destination : List HostedSessionId) (id : HostedSessionId)
    (before : Option HostedSessionId) : Stored (List HostedSessionId) :=
  match before with
  | none => .ok (destination.insertIdx destination.length id)
  | some before_id =>
    match destination.findIdx? (· = before_id) with
    | none => .error (.SessionDomain .Unavailable)
    | some insert_at => .ok (destination.insertIdx insert_at id)

def move_session_before (id : HostedSessionId) (group_id : Option GroupId)
    (before : Option HostedSessionId) (expected : Revision) (updated_at : Nat)
    (document : SessionsDocument) : Stored (HostedSession × Option SessionsDocument) := do
  require_revision expected document.revision
  let sessions := sort_sessions document.sessions
  let moving ← session? { document with sessions } id
  if before = some id then pure (moving, none)
  else
    let old_order := destination_ids sessions group_id
    let others := sessions.eraseP (·.id = id)
    let destination ← inserted (destination_ids others group_id) id before
    if moving.group_id = group_id ∧ destination = old_order then pure (moving, none)
    else
      let rebalanced ← rebalance_destination group_id (others ++ [moving]) 0 destination
      let revision ← next_revision document.revision
      let sessions := updateFirst (·.id = id)
        (fun s => { s with group_id, revision, updated_at }) rebalanced
      let moved ← session? ⟨revision, sessions⟩ id
      pure (moved, some ⟨revision, sort_sessions sessions⟩)

abbrev Placement := HostedSessionId × Option GroupId × PositionKey

/-- The loop that puts the sessions at their new places. -/
def place (revision : Revision) (updated_at : Nat) (sessions : List HostedSession) :
    List Placement → List HostedSession
  | [] => sessions
  | (id, group_id, position) :: rest =>
    place revision updated_at (updateFirst (·.id = id)
      (fun s => { s with group_id, position, revision, updated_at }) sessions) rest

def placed_sessions (document : SessionsDocument) (placements : List Placement) : List HostedSession :=
  placements.filterMap fun placement => document.sessions.find? (·.id = placement.1)

def apply_placements (placements : List Placement) (expected : Revision) (updated_at : Nat)
    (document : SessionsDocument) : Stored (List HostedSession × Option SessionsDocument) := do
  require_revision expected document.revision
  refuseIf (refused "duplicate-placement") (¬ (placements.map (·.1)).Nodup)
  refuseIf (.SessionDomain .Unavailable)
    (placements.any fun placement => document.sessions.all (·.id ≠ placement.1))
  let changed := placements.any fun placement => document.sessions.any fun s =>
    s.id = placement.1 ∧ (s.group_id ≠ placement.2.1 ∨ s.position ≠ placement.2.2)
  if ¬ changed then pure (placed_sessions document placements, none)
  else
    let revision ← next_revision document.revision
    let document := ⟨revision,
      sort_sessions (place revision updated_at document.sessions placements)⟩
    pure (placed_sessions document placements, some document)

/-! ## Removal -/

structure SessionRemovalManifest where
  metadata_bytes : Nat
  journal_bytes : Nat
  transcript_bytes : Nat
  artifact_bytes : Nat
  file_count : Nat
  deriving DecidableEq

structure SessionRemovalPlan where
  session_id : HostedSessionId
  expected_revision : Revision
  title : SessionTitle
  manifest : SessionRemovalManifest

structure QuarantinedSession where
  session : HostedSession
  manifest : SessionRemovalManifest
  data_quarantined : Bool
  deriving DecidableEq

def added (target bytes : Nat) : Stored Nat :=
  match multiplex_domain.checked_add target bytes with
  | none => .error (refused "removal-size-overflow")
  | some sum => .ok sum

def add_manifest_bytes (manifest : SessionRemovalManifest) (entry : DataEntry) (bytes : Nat) :
    Stored SessionRemovalManifest := do
  if entry.first = "transcripts" then
    pure { manifest with transcript_bytes := ← added manifest.transcript_bytes bytes }
  else if entry.first = "artifacts" then
    pure { manifest with artifact_bytes := ← added manifest.artifact_bytes bytes }
  else if "journal-".toList <+: entry.file_name.toList ∨ ".trj".toList <:+ entry.file_name.toList then
    pure { manifest with journal_bytes := ← added manifest.journal_bytes bytes }
  else pure { manifest with metadata_bytes := ← added manifest.metadata_bytes bytes }

def scan_entries (manifest : SessionRemovalManifest) : List DataEntry → Stored SessionRemovalManifest
  | [] => pure manifest
  | entry :: rest => do
    let manifest := { manifest with file_count := manifest.file_count + 1 }
    refuseIf (.SessionDomain (.ResourceLimit MAX_REMOVAL_ENTRIES))
      (MAX_REMOVAL_ENTRIES < manifest.file_count)
    match entry.kind with
    | .directory => scan_entries manifest rest
    | .file bytes => scan_entries (← add_manifest_bytes manifest entry bytes) rest
    | .other => throw (.UnsafeEntry "session data")

section
variable (encoding : Encoding)

def scan_removal_manifest (store : SessionStore) (session : HostedSession) :
    Stored SessionRemovalManifest :=
  let manifest : SessionRemovalManifest :=
    ⟨min (encoding.session session) (2 ^ 64 - 1), 0, 0, 0, 0⟩
  match store.data session.id with
  | none => .ok manifest
  | some .unsafe_entry => .error (.UnsafeEntry "session data")
  | some (.folder entries) => scan_entries manifest entries

/-- All that `remove_session` checks before it touches a file. -/
def removable (store : SessionStore) (plan : SessionRemovalPlan) (expected : Revision) :
    Stored (SessionsDocument × HostedSession × SessionRemovalManifest) := do
  let document ← read_document encoding store.document
  require_revision expected document.revision
  refuseIf (.SessionDomain (.StaleRevision plan.expected_revision expected))
    (plan.expected_revision ≠ expected)
  let session ← session? document plan.session_id
  refuseIf (.SessionDomain .RemoveRequiresExitedArchive) (¬ session.can_remove)
  let manifest ← scan_removal_manifest encoding store session
  refuseIf (refused "removal-plan-changed") (manifest ≠ plan.manifest)
  pure (document, session, manifest)

/-- The folder of the session goes to the quarantine, if it has one. -/
def quarantine_data (store : SessionStore) (id : HostedSessionId) (quarantines : Bool) :
    Stored (SessionStore × Bool) :=
  match store.data id with
  | none => .ok (store, false)
  | some .unsafe_entry => .error (.UnsafeEntry "session data")
  | some data =>
    if (store.quarantine id).isSome then .error (refused "quarantine-conflict")
    else if ¬ quarantines then .error (.Io "quarantine session data")
    else
      .ok ({ store with
        data := Function.update store.data id none
        quarantine := Function.update store.quarantine id (some data) }, true)

/-- The way back out of the quarantine. -/
def restore_data (store : SessionStore) (id : HostedSessionId) : SessionStore :=
  { store with
    data := Function.update store.data id (store.quarantine id)
    quarantine := Function.update store.quarantine id none }

def remove_session (store : SessionStore) (plan : SessionRemovalPlan) (expected : Revision)
    (disk : Disk) : Stored QuarantinedSession × SessionStore :=
  match removable encoding store plan expected with
  | .error e => (.error e, store)
  | .ok (document, session, manifest) =>
    match quarantine_data store session.id disk.quarantines with
    | .error e => (.error e, store)
    | .ok (moved, source_exists) =>
      -- The revision is only raised here, and an error leaves the folder where it is now.
      match next_revision document.revision with
      | .error e => (.error e, moved)
      | .ok revision =>
        let document := ⟨revision, document.sessions.eraseP (·.id = plan.session_id)⟩
        match write_document_locked encoding moved document disk.write with
        | (.error e, store) =>
          (.error e, if source_exists ∧ disk.restores then restore_data store session.id else store)
        | (.ok (), store) => (.ok ⟨session, manifest, source_exists⟩, store)

end

end multiplex_store.session_list
