-- What a paired device may ask of this computer and what it is answered: the
-- commands and the responses, what each command needs, and the limits that a
-- command is checked against on both sides.
import Multiplex.Domain.Sessions
import Multiplex.ControllerSecurity.Types
import Multiplex.ControllerListener.Handshake

open Checks
open multiplex_domain.controller_devices (ControllerCapability is_control)
open multiplex_domain.session (HostedSessionId OutputSequence is_whitespace)
open multiplex_controller_security (ControllerFrameKind MAX_CONTROL_PAYLOAD_BYTES
  MAX_TERMINAL_FRAME_BYTES MAX_SCREEN_FRAME_BYTES)

namespace multiplex_controller_listener.protocol

abbrev CommandId := Nat
abbrev OccupantGeneration := Nat

def CONTROLLER_COMMAND_VERSION : Nat := 1
def MAX_INPUT_BYTES : Nat := 16 * 1024
def MAX_ERROR_CODE_BYTES : Nat := 64
def MAX_SESSION_TITLE_SCALARS : Nat := 256
def MAX_SESSION_PAGE_RECORDS : Nat := 1000
def MAX_SESSION_PAGE_BYTES : Nat := MAX_CONTROL_PAYLOAD_BYTES - 256
def MAX_SNAPSHOT_CHUNK_BYTES : Nat := 128 * 1024
def SCREEN_TICKET_BYTES : Nat := 32
def MAX_CREATE_SESSION_FIELD_BYTES : Nat := 1024
def MAX_GIT_FIELD_BYTES : Nat := 4096
def MAX_GIT_LOG_PAGE : Nat := 100
def MAX_AGENT_CHAT_PAGE : Nat := 100
def MAX_AGENT_CHAT_ID_BYTES : Nat := 256

/-! ## Commands -/

inductive ApprovalDecision where
  | Approve
  | Deny
  deriving DecidableEq

inductive ControllerCommand where
  | ListSessions (offset limit : Nat) (expected_revision : Option Nat)
  | Attach (session_id : HostedSessionId) (occupant_generation : OccupantGeneration)
      (from_sequence : OutputSequence) (columns rows : Nat)
  | Input (session_id : HostedSessionId) (occupant_generation : OccupantGeneration)
      (bytes : List UInt8)
  | AcquireWriter (session_id : HostedSessionId) (occupant_generation : OccupantGeneration)
  | ReleaseWriter (session_id : HostedSessionId) (occupant_generation : OccupantGeneration)
  | Resize (session_id : HostedSessionId) (occupant_generation : OccupantGeneration)
      (columns rows : Nat)
  | Approval (session_id : HostedSessionId) (occupant_generation : OccupantGeneration)
      (approval_id : Nat) (decision : ApprovalDecision)
  | Detach (session_id : HostedSessionId) (occupant_generation : OccupantGeneration)
  | OpenScreen
  | CloseScreen
  | CreateSession (folder shell title : Option String) (columns rows : Nat)
  | GitOverview (session_id : HostedSessionId) (occupant_generation : OccupantGeneration)
      (worktree : Option String)
  | GitLog (session_id : HostedSessionId) (occupant_generation : OccupantGeneration)
      (worktree : Option String) (offset limit : Nat)
  | GitDiff (session_id : HostedSessionId) (occupant_generation : OccupantGeneration)
      (worktree commit path : Option String)
  | GitSwitch (session_id : HostedSessionId) (occupant_generation : OccupantGeneration)
      (worktree : Option String) (branch : String)
  | AgentChat (session_id : HostedSessionId) (occupant_generation : OccupantGeneration)
      (before since_revision : Option String) (limit : Nat)
  /-- A command of a newer device, whatever it says. -/
  | Unsupported
  deriving DecidableEq

inductive BridgeCommandKind where
  | ListSessions
  | Attach
  | AcquireWriter
  | ReleaseWriter
  | Input
  | Resize
  | Approval
  | Detach
  | OpenScreen
  | CloseScreen
  | CreateSession
  | GitRead
  | GitSwitch
  | AgentChat
  | Unsupported

namespace BridgeCommandKind

def capability : BridgeCommandKind → ControllerCapability
  | ListSessions => .ObserveSessions
  | Attach | Detach => .AttachOutput
  | AcquireWriter | ReleaseWriter | Input => .SendInput
  | Resize => .Resize
  | Approval => .RespondToApproval
  | OpenScreen | CloseScreen => .ObserveScreens
  | CreateSession => .CreateSession
  | GitRead => .AttachOutput
  | GitSwitch => .SendInput
  | AgentChat => .AttachOutput
  | Unsupported => .ObserveSessions

def addresses_a_session : BridgeCommandKind → Bool
  | ListSessions | OpenScreen | CloseScreen | CreateSession | Unsupported => false
  | _ => true

def requires_writer_lease : BridgeCommandKind → Bool
  | ReleaseWriter | Input | Resize | Approval => true
  | _ => false

end BridgeCommandKind

namespace ControllerCommand

def kind : ControllerCommand → BridgeCommandKind
  | ListSessions .. => .ListSessions
  | Attach .. => .Attach
  | AcquireWriter .. => .AcquireWriter
  | ReleaseWriter .. => .ReleaseWriter
  | Input .. => .Input
  | Resize .. => .Resize
  | Approval .. => .Approval
  | Detach .. => .Detach
  | OpenScreen => .OpenScreen
  | CloseScreen => .CloseScreen
  | CreateSession .. => .CreateSession
  | GitOverview .. | GitLog .. | GitDiff .. => .GitRead
  | GitSwitch .. => .GitSwitch
  | AgentChat .. => .AgentChat
  | Unsupported => .Unsupported

/-- The session that a command names, with the generation it presents. -/
def addressed : ControllerCommand → Option (HostedSessionId × OccupantGeneration)
  | ListSessions .. | OpenScreen | CloseScreen | CreateSession .. | Unsupported => none
  | Attach id generation .. | AcquireWriter id generation | ReleaseWriter id generation
  | Input id generation _ | Resize id generation .. | Approval id generation .. | Detach id generation
  | GitOverview id generation _ | GitLog id generation .. | GitDiff id generation ..
  | GitSwitch id generation .. | AgentChat id generation .. => some (id, generation)

def session_id (command : ControllerCommand) : Option HostedSessionId := command.addressed.map (·.1)

def occupant_generation (command : ControllerCommand) : Option OccupantGeneration :=
  command.addressed.map (·.2)

end ControllerCommand

/-! ## What a command is checked for -/

def malformed : ListenerError := .new .MalformedFrame
def frame_too_large : ListenerError := .new .FrameTooLarge

def valid_agent_chat_id (value : Option String) : Bool :=
  value.all fun value => value.toList ≠ [] ∧ value.utf8ByteSize ≤ MAX_AGENT_CHAT_ID_BYTES ∧
    ¬ value.toList.any is_control

/-- A path on the Host is absolute when it starts at the root. -/
def valid_git_worktree (worktree : Option String) : Bool :=
  worktree.all fun worktree => worktree.toList ≠ [] ∧ worktree.utf8ByteSize ≤ MAX_GIT_FIELD_BYTES ∧
    '\x00' ∉ worktree.toList ∧ worktree.toList.head? = some '/'

def is_ascii_hexdigit (c : Char) : Bool :=
  '0' ≤ c ∧ c ≤ '9' ∨ 'a' ≤ c ∧ c ≤ 'f' ∨ 'A' ≤ c ∧ c ≤ 'F'

def valid_git_commit (commit : String) : Bool :=
  4 ≤ commit.utf8ByteSize ∧ commit.utf8ByteSize ≤ 64 ∧ commit.toList.all is_ascii_hexdigit

def valid_git_path (path : String) : Bool :=
  path.toList ≠ [] ∧ path.utf8ByteSize ≤ MAX_GIT_FIELD_BYTES ∧ '\x00' ∉ path.toList ∧
    path.toList.head? ≠ some '/' ∧ ['.', '.'] ∉ path.toList.splitOn '/'

def valid_git_branch (branch : String) : Bool :=
  branch.toList ≠ [] ∧ branch.utf8ByteSize ≤ 256 ∧ branch.toList.head? ≠ some '-' ∧
    ¬ ['.', '.'] <:+: branch.toList ∧ ¬ branch.toList.any fun c => is_control c ∨ is_whitespace c

def valid_size (columns rows : Nat) : Bool :=
  columns ≠ 0 ∧ rows ≠ 0 ∧ columns ≤ 1000 ∧ rows ≤ 1000

def valid_create_session_field (field : Option String) : Bool :=
  field.all fun value => value.toList ≠ [] ∧ value.utf8ByteSize ≤ MAX_CREATE_SESSION_FIELD_BYTES

namespace ControllerCommand

def validate : ControllerCommand → Listened Unit
  | ListSessions offset limit expected_revision =>
    refuseIf malformed (limit = 0 ∨ MAX_SESSION_PAGE_RECORDS < limit ∨ 10000 < offset ∨
      expected_revision = some 0)
  | Attach _ _ _ columns rows | Resize _ _ columns rows =>
    refuseIf malformed (¬ valid_size columns rows)
  | Input _ _ bytes => refuseIf frame_too_large (bytes = [] ∨ MAX_INPUT_BYTES < bytes.length)
  | CreateSession folder shell title columns rows =>
    refuseIf malformed (¬ valid_size columns rows ∨ ¬ valid_create_session_field folder ∨
      ¬ valid_create_session_field shell ∨ ¬ valid_create_session_field title)
  | AgentChat _ _ before since_revision limit =>
    refuseIf malformed (limit = 0 ∨ MAX_AGENT_CHAT_PAGE < limit ∨ ¬ valid_agent_chat_id before ∨
      ¬ valid_agent_chat_id since_revision)
  | GitOverview _ _ worktree => refuseIf malformed (¬ valid_git_worktree worktree)
  | GitLog _ _ worktree offset limit =>
    refuseIf malformed (¬ valid_git_worktree worktree ∨ limit = 0 ∨ MAX_GIT_LOG_PAGE < limit ∨
      1000000 < offset)
  | GitDiff _ _ worktree commit path =>
    refuseIf malformed (¬ valid_git_worktree worktree ∨ ¬ commit.all valid_git_commit ∨
      ¬ path.all valid_git_path)
  | GitSwitch _ _ worktree branch =>
    refuseIf malformed (¬ valid_git_worktree worktree ∨ ¬ valid_git_branch branch)
  | Detach .. | Approval .. | AcquireWriter .. | ReleaseWriter .. | OpenScreen | CloseScreen
  | Unsupported => pure ()

end ControllerCommand

structure ControllerCommandEnvelope where
  version : Nat
  command_id : CommandId
  session_generation : Nat
  deadline_millis : Nat
  command : ControllerCommand
  deriving DecidableEq

namespace ControllerCommandEnvelope

def new (command_id : CommandId) (session_generation deadline_millis : Nat)
    (command : ControllerCommand) : ControllerCommandEnvelope :=
  ⟨CONTROLLER_COMMAND_VERSION, command_id, session_generation, deadline_millis, command⟩

def validate (envelope : ControllerCommandEnvelope) : Listened Unit := do
  refuseIf malformed (envelope.version = 0 ∨ CONTROLLER_COMMAND_VERSION < envelope.version ∨
    envelope.deadline_millis = 0)
  envelope.command.validate

end ControllerCommandEnvelope

/-! ## Responses -/

inductive ControllerSessionOrigin where
  | Terminal
  | ManagedAgent
  | ObservedAgent
  | Unknown
  deriving DecidableEq

inductive ControllerSessionCapability where
  | ObserveSessions
  | AttachOutput
  | SendInput
  | Resize
  | RespondToApproval
  deriving DecidableEq

/-- The order in which the capabilities of a session are listed. -/
def ControllerSessionCapability.index : ControllerSessionCapability → Nat
  | ObserveSessions => 0
  | AttachOutput => 1
  | SendInput => 2
  | Resize => 3
  | RespondToApproval => 4

structure ControllerSessionSummary where
  session_id : HostedSessionId
  host_instance_id : Option Nat
  origin : ControllerSessionOrigin
  runtime : Option String
  capabilities : List ControllerSessionCapability
  title : String
  group : Option String
  lifecycle : String
  activity : String
  occupant_generation : Option OccupantGeneration
  last_output_sequence : OutputSequence
  has_writer : Bool
  unread : Bool
  deriving DecidableEq

/-- A conversation as it is written, with what is checked before it is sent. -/
structure AgentChat where
  items : Nat
  unchanged : Bool
  text : List UInt8
  deriving DecidableEq

inductive ControllerResponse where
  | Sessions (command_id : CommandId) (revision update_sequence : Nat)
      (sessions : List ControllerSessionSummary) (next_offset : Option Nat)
  | Attached (command_id : CommandId) (session_id : HostedSessionId)
      (occupant_generation : OccupantGeneration) (replay_through_sequence : OutputSequence)
      (has_writer_lease : Bool)
  | Snapshot (command_id : CommandId) (session_id : HostedSessionId)
      (boundary_sequence : OutputSequence) (columns rows chunk_index chunk_count : Nat)
      (bytes : List UInt8)
  | Output (session_id : HostedSessionId) (sequence : OutputSequence) (bytes : List UInt8)
  | Completed (command_id : CommandId) (applied : Bool)
  | Detached (command_id : CommandId)
  | ScreenOpened (command_id : CommandId) (ticket : List UInt8)
      (can_control_pointer can_control_keyboard : Bool)
  | Error (command_id : CommandId) (code : String) (completion_unknown : Bool)
  | SessionCreated (command_id : CommandId) (session_id : HostedSessionId)
      (occupant_generation : OccupantGeneration)
  /-- The repository, the commits and the diff of the answers about Git are as they are written. -/
  | GitOverview (command_id : CommandId) (session_id : HostedSessionId)
      (repository : Option (List UInt8))
  | GitLog (command_id : CommandId) (session_id : HostedSessionId) (commits : List (List UInt8))
      (next_offset : Option Nat)
  | GitDiff (command_id : CommandId) (session_id : HostedSessionId) (diff : List UInt8)
  | GitSwitched (command_id : CommandId) (session_id : HostedSessionId) (switched : Bool)
      (branch message : String)
  | AgentChat (command_id : CommandId) (session_id : HostedSessionId) (chat : Option AgentChat)
  /-- A response of a newer computer, whatever it says. -/
  | Unknown
  deriving DecidableEq

def valid_runtime (runtime : String) : Bool :=
  runtime.toList ≠ [] ∧ runtime.utf8ByteSize ≤ 128 ∧
    runtime.toList.all fun c => c.isAlphanum ∨ c = '.' ∨ c = '-' ∨ c = '_'

def valid_summary (session : ControllerSessionSummary) : Bool :=
  session.title.length ≤ MAX_SESSION_TITLE_SCALARS ∧ session.runtime.all valid_runtime ∧
    session.capabilities.length ≤ 5 ∧
    session.capabilities.Pairwise (fun a b => a.index < b.index) ∧
    session.group.all (fun name => name.length ≤ MAX_SESSION_TITLE_SCALARS) ∧
    session.lifecycle.utf8ByteSize ≤ MAX_ERROR_CODE_BYTES ∧
    session.activity.utf8ByteSize ≤ MAX_ERROR_CODE_BYTES

def valid_error_code (code : String) : Bool :=
  code.toList ≠ [] ∧ code.utf8ByteSize ≤ MAX_ERROR_CODE_BYTES ∧
    code.toList.all fun c => c.isLower ∨ c = '_'

def validate_response : ControllerResponse → Listened Unit
  | .Sessions _ revision update_sequence sessions next_offset =>
    refuseIf frame_too_large (revision = 0 ∨ update_sequence = 0 ∨
      MAX_SESSION_PAGE_RECORDS < sessions.length ∨ next_offset = some 0 ∨ ¬ sessions.all valid_summary)
  | .Output _ _ bytes => refuseIf malformed (bytes = [])
  | .Snapshot _ _ _ columns rows chunk_index chunk_count bytes =>
    refuseIf malformed (columns = 0 ∨ rows = 0 ∨ 400 < columns ∨ 200 < rows ∨ chunk_count = 0 ∨
      chunk_count ≤ chunk_index ∨ MAX_SNAPSHOT_CHUNK_BYTES < bytes.length)
  | .AgentChat _ _ (some chat) =>
    refuseIf malformed (MAX_AGENT_CHAT_PAGE < chat.items ∨ chat.unchanged ∧ chat.items ≠ 0)
  | .GitLog _ _ commits next_offset =>
    refuseIf malformed (MAX_GIT_LOG_PAGE < commits.length ∨ next_offset = some 0)
  | .ScreenOpened _ ticket _ _ => refuseIf malformed (ticket.length ≠ SCREEN_TICKET_BYTES)
  | .Error _ code _ => refuseIf malformed (¬ valid_error_code code)
  | _ => pure ()

/-! ## The frame that a response goes in -/

def SEALED_FRAME_OVERHEAD_BUDGET : Nat := 128

def control_payload_limit : Nat := MAX_CONTROL_PAYLOAD_BYTES - SEALED_FRAME_OVERHEAD_BUDGET

/-- The kind of frame, the capability it is sealed under, and how long its text may be. -/
def response_security (response : ControllerResponse) (command_capability : ControllerCapability) :
    ControllerFrameKind × ControllerCapability × Nat :=
  match response with
  | .Unknown | .Sessions .. => (.Control, .ObserveSessions, control_payload_limit)
  | .SessionCreated .. => (.Control, .CreateSession, control_payload_limit)
  | .Snapshot .. | .Output .. => (.Terminal, .AttachOutput, MAX_TERMINAL_FRAME_BYTES - 64)
  | .Attached .. | .Detached .. => (.Control, .AttachOutput, control_payload_limit)
  | .ScreenOpened .. => (.Control, .ObserveScreens, control_payload_limit)
  | .Completed .. | .Error .. | .GitOverview .. | .GitLog .. | .GitDiff .. | .GitSwitched ..
  | .AgentChat .. => (.Control, command_capability, control_payload_limit)

end multiplex_controller_listener.protocol
