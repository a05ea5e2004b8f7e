-- A hosted session with its title, its place, what it has shown and what was
-- read of it, and the mutations it takes.
import Multiplex.Domain.ControllerDevices

namespace multiplex_domain.session

open controller_devices (is_control)

def MAX_SESSIONS : Nat := 10000
def MAX_SESSION_TITLE_SCALARS : Nat := 256
def MAX_ACTIVITY_SOURCE_ID_BYTES : Nat := 64

abbrev HostedSessionId := Nat
abbrev GroupId := Nat
abbrev PositionKey := Nat
abbrev OutputSequence := Nat
abbrev Revision := Nat

/-! ## Places in a list -/

namespace PositionKey

def STRIDE : Nat := 1024
def FIRST : PositionKey := STRIDE

def after (position : PositionKey) : Option PositionKey := checked_add position STRIDE

def rebalanced (index : Nat) : Option PositionKey :=
  if (index + 1) * STRIDE < 2 ^ 64 then some ((index + 1) * STRIDE) else none

end PositionKey

/-! ## The states of a session -/

inductive HostedSessionState where
  | Draft
  | Validating
  | Starting
  | Provisioning
  | Attaching
  | Replaying
  | Live
  | RecordingPaused
  | Stopping
  | Offline
  | Orphaned
  | Gap
  | PermissionDenied
  | Incompatible
  | RunningAppAttached
  | Failed
  | Cancelled
  | Exited
  deriving DecidableEq

def HostedSessionState.is_exited : HostedSessionState → Bool
  | Exited => true
  | _ => false

section
open HostedSessionState

def legal_lifecycle_transition (source target : HostedSessionState) : Bool :=
  match source with
  | Draft => target ∈ [Validating, Cancelled]
  | Validating => target ∈ [Provisioning, Failed, Cancelled]
  | Starting => target ∈ [Live, Failed, Cancelled]
  | Provisioning =>
    target ∈ [Attaching, RunningAppAttached, Failed, Cancelled, Offline, Stopping]
  | Attaching => target ∈ [Replaying, Live, RecordingPaused, Offline, Orphaned, Gap,
      PermissionDenied, Incompatible, Exited, Stopping]
  | Replaying => target ∈ [Live, RecordingPaused, Offline, Orphaned, Gap, PermissionDenied,
      Incompatible, Exited, Stopping]
  | Live | RecordingPaused =>
    target ∈ [Live, RecordingPaused, Attaching, Stopping, Offline, Orphaned, Gap, Exited]
  | Stopping => target ∈ [Exited, Failed, Orphaned]
  | Offline | Gap | PermissionDenied | Incompatible => target ∈ [Attaching, Orphaned, Exited]
  | Orphaned => target ∈ [Attaching, Exited]
  | RunningAppAttached => target ∈ [Stopping, Exited, Failed]
  | Failed => target ∈ [Starting]
  | Cancelled | Exited => false

end

inductive SessionStateError where
  | EmptyTitle
  | InvalidTitle
  | TitleTooLong
  | InvalidLifecycleTransition (source target : HostedSessionState)
  | StopRequiredBeforeArchive
  | NotArchived
  | RemoveRequiresExitedArchive
  | InvalidSequence
  | StaleRevision (expected actual : Revision)
  | RevisionOverflow
  | ResourceLimit (limit : Nat)
  | Unavailable
  | Store (code : String)
  deriving DecidableEq

/-! ## Titles -/

/-- The white space of Unicode. -/
def is_whitespace (c : Char) : Bool :=
  0x09 ≤ c.val ∧ c.val ≤ 0x0d ∨ c.val = 0x20 ∨ c.val = 0x85 ∨ c.val = 0xa0 ∨ c.val = 0x1680 ∨
    0x2000 ≤ c.val ∧ c.val ≤ 0x200a ∨ c.val = 0x2028 ∨ c.val = 0x2029 ∨ c.val = 0x202f ∨
    c.val = 0x205f ∨ c.val = 0x3000

def trim (value : List Char) : List Char :=
  ((value.dropWhile is_whitespace).reverse.dropWhile is_whitespace).reverse

/-- A title is its text, which is trimmed when it comes in. -/
abbrev SessionTitle := List Char

def SessionTitle.new (value : List Char) : Except SessionStateError SessionTitle :=
  let value := trim value
  if value = [] then .error .EmptyTitle
  else if value.any fun c => is_control c ∧ c ≠ '\n' ∧ c ≠ '\r' ∧ c ≠ '\t' then .error .InvalidTitle
  else if MAX_SESSION_TITLE_SCALARS < value.length then .error .TitleTooLong
  else .ok value

/-- Where a title comes from, the stronger source later. -/
inductive TitleSource where
  | Default
  | Automatic
  | Imported
  | Manual
  deriving DecidableEq

/-! ## Activity -/

inductive ActivityState where
  | Unknown
  | Idle
  | Busy
  | NeedsInput
  | Done
  | Failed
  deriving DecidableEq

def ActivityState.requires_attention : ActivityState → Bool
  | NeedsInput | Done | Failed => true
  | _ => false

inductive ActivityConfidence where
  | Estimated
  | Verified
  deriving DecidableEq

inductive AttentionReason where
  | Input
  | Approval
  | Permission
  | Confirmation
  deriving DecidableEq

inductive ActivitySourceKind where
  | Unknown
  | Output
  | PromptObservation
  | ProcessObservation
  | StructuredAdapter
  | Approval
  | ProcessExit
  deriving DecidableEq

structure ActivityAggregate where
  state : ActivityState
  confidence : ActivityConfidence
  effective_sequence : Nat
  generation : Nat
  source_kind : ActivitySourceKind
  source_id : String
  expires_at : Option Nat
  stale : Bool
  attention_reason : Option AttentionReason
  attention_sequence : Option OutputSequence
  deriving DecidableEq

def valid_source_id (source_id : String) : Bool :=
  source_id.toList ≠ [] ∧ source_id.utf8ByteSize ≤ MAX_ACTIVITY_SOURCE_ID_BYTES ∧
    source_id.toList.all fun c => c.isAlphanum ∨ c = '-' ∨ c = '_' ∨ c = '.'

namespace ActivityAggregate

def default : ActivityAggregate where
  state := .Unknown
  confidence := .Estimated
  effective_sequence := 0
  generation := 1
  source_kind := .Unknown
  source_id := "unknown"
  expires_at := none
  stale := true
  attention_reason := none
  attention_sequence := none

def is_valid (activity : ActivityAggregate) : Bool :=
  activity.generation ≠ 0 ∧ valid_source_id activity.source_id ∧
    (activity.state.requires_attention ∨ activity.attention_sequence = none) ∧
    (activity.state = .NeedsInput ∨ activity.attention_reason = none)

end ActivityAggregate

/-! ## Sessions -/

structure HostedSession where
  id : HostedSessionId
  folder : String
  group_id : Option GroupId
  preset_id : Option Nat
  title : SessionTitle
  title_source : TitleSource
  lifecycle : HostedSessionState
  activity : ActivityAggregate
  pinned : Bool
  position : PositionKey
  last_output_sequence : OutputSequence
  read_through_sequence : OutputSequence
  unread_sequence : Option OutputSequence
  archived_at : Option Nat
  created_at : Nat
  updated_at : Nat
  revision : Revision
  deriving DecidableEq

def HostedSession.can_remove (session : HostedSession) : Bool :=
  session.archived_at.isSome ∧ session.lifecycle.is_exited

inductive SessionMutation where
  | Rename (title : SessionTitle)
  | ApplyAutomaticTitle (title : SessionTitle)
  | SetPinned (pinned : Bool)
  | Move (group_id : Option GroupId) (position : PositionKey)
  | MarkRead (through : OutputSequence)
  | MarkUnread (sequence : OutputSequence)
  | ObserveOutput (through : OutputSequence)
  | SetActivity (activity : ActivityAggregate)
  | ApplyActivity (activity : ActivityAggregate) (visible_through : Option OutputSequence)
  | SetLifecycle (lifecycle : HostedSessionState)
  | Reconcile (lifecycle : HostedSessionState) (activity : ActivityAggregate)
      (through : OutputSequence)
  | Archive (time : Nat)
  | Restore

/-- The sequence that a session is unread from, once all up to `through` is read. -/
def unread_after (unread : Option OutputSequence) (through : OutputSequence) : Option OutputSequence :=
  unread.filter fun sequence => through < sequence

def apply_activity (session : HostedSession) (activity : ActivityAggregate)
    (visible_through : Option OutputSequence) : HostedSession :=
  let attention_sequence := (if activity.state.requires_attention then activity.attention_sequence
    else none).map fun sequence => min sequence session.last_output_sequence
  let session := { session with activity }
  let session :=
    match visible_through with
    | none => session
    | some visible =>
      let visible := min visible session.last_output_sequence
      { session with
        read_through_sequence := max session.read_through_sequence visible
        unread_sequence := unread_after session.unread_sequence visible }
  match attention_sequence with
  | none => session
  | some attention =>
    if session.read_through_sequence < attention then
      { session with unread_sequence := some (session.unread_sequence.elim attention (min · attention)) }
    else session

/-- The session after a mutation, or nothing where it changes nothing. -/
def reduce_session (session : HostedSession) (mutation : SessionMutation) :
    Except SessionStateError (Option HostedSession) :=
  match mutation with
  | .Rename title =>
    if session.title = title ∧ session.title_source = .Manual then pure none
    else pure (some { session with title, title_source := .Manual })
  | .ApplyAutomaticTitle title =>
    if session.title_source ≠ .Default then pure none
    else pure (some { session with title, title_source := .Automatic })
  | .SetPinned pinned =>
    if session.pinned = pinned then pure none else pure (some { session with pinned })
  | .Move group_id position =>
    if session.group_id = group_id ∧ session.position = position then pure none
    else pure (some { session with group_id, position })
  | .MarkRead through =>
    let through := min through session.last_output_sequence
    if through ≤ session.read_through_sequence then pure none
    else
      pure (some { session with
        read_through_sequence := through
        unread_sequence := unread_after session.unread_sequence through })
  | .MarkUnread sequence =>
    if sequence = 0 ∨ session.last_output_sequence < sequence then throw .InvalidSequence
    else if session.unread_sequence = some sequence ∧ session.read_through_sequence < sequence then
      pure none
    else
      pure (some { session with
        unread_sequence := some sequence
        read_through_sequence := min session.read_through_sequence (sequence - 1) })
  | .ObserveOutput through =>
    if through ≤ session.last_output_sequence then pure none
    else pure (some { session with last_output_sequence := through })
  | .SetActivity activity =>
    if session.activity = activity then pure none else pure (some (apply_activity session activity none))
  | .ApplyActivity activity visible_through =>
    let applied := apply_activity session activity visible_through
    if applied = session then pure none else pure (some applied)
  | .SetLifecycle lifecycle =>
    if session.lifecycle = lifecycle then pure none
    else if ¬ legal_lifecycle_transition session.lifecycle lifecycle then
      throw (.InvalidLifecycleTransition session.lifecycle lifecycle)
    else pure (some { session with lifecycle })
  | .Reconcile lifecycle activity through =>
    if session.lifecycle ≠ lifecycle ∧ ¬ legal_lifecycle_transition session.lifecycle lifecycle then
      throw (.InvalidLifecycleTransition session.lifecycle lifecycle)
    else
      let through := max through session.last_output_sequence
      if session.lifecycle = lifecycle ∧ session.activity = activity ∧
          session.last_output_sequence = through then pure none
      else
        pure (some (apply_activity { session with lifecycle, last_output_sequence := through }
          activity none))
  | .Archive time =>
    if session.archived_at.isSome then pure none
    else if ¬ session.lifecycle.is_exited then throw .StopRequiredBeforeArchive
    else pure (some { session with archived_at := some time })
  | .Restore =>
    if session.archived_at = none then pure none else pure (some { session with archived_at := none })

end multiplex_domain.session
