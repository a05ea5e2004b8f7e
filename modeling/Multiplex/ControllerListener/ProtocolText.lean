-- Commands and responses as they are written: compact JSON, tagged with the
-- kind, within a limit. What is read back is up to the reader, which is asked
-- about nothing longer than the limit.
import Multiplex.Lib.JsonText
import Multiplex.ControllerListener.Protocol

open Checks JsonText
open multiplex_domain.session (HostedSessionId)
open multiplex_controller_security (MAX_CONTROL_PAYLOAD_BYTES)

namespace multiplex_controller_listener.protocol

/-! ## Texts -/

def uuid (id : Nat) : List UInt8 :=
  let digits := (List.range 32).map fun i => hex (id / 16 ^ (31 - i) % 16)
  34 :: digits.take 8 ++ 45 :: (digits.drop 8).take 4 ++ 45 :: (digits.drop 12).take 4 ++
    45 :: (digits.drop 16).take 4 ++ 45 :: digits.drop 20 ++ [34]

def bytes_text (bytes : List UInt8) : List UInt8 := array (bytes.map fun b => number b.toNat)

def tagged (kind : String) (members : List (List UInt8)) : List UInt8 :=
  object (member "kind" (string kind) :: members)

/-- The members with which a command names its session. -/
def addressing (session_id : HostedSessionId) (occupant_generation : OccupantGeneration) :
    List (List UInt8) :=
  [member "session_id" (uuid session_id), member "occupant_generation" (number occupant_generation)]

def sizing (columns rows : Nat) : List (List UInt8) :=
  [member "columns" (number columns), member "rows" (number rows)]

def ApprovalDecision.name : ApprovalDecision → String
  | Approve => "approve"
  | Deny => "deny"

def ControllerCommand.text : ControllerCommand → List UInt8
  | ListSessions offset limit expected_revision =>
    tagged "list_sessions" [member "offset" (number offset), member "limit" (number limit),
      member "expected_revision" (option number expected_revision)]
  | Attach id generation from_sequence columns rows =>
    tagged "attach" (addressing id generation ++ [member "from_sequence" (number from_sequence)] ++
      sizing columns rows)
  | Input id generation bytes =>
    tagged "input" (addressing id generation ++ [member "bytes" (bytes_text bytes)])
  | AcquireWriter id generation => tagged "acquire_writer" (addressing id generation)
  | ReleaseWriter id generation => tagged "release_writer" (addressing id generation)
  | Resize id generation columns rows =>
    tagged "resize" (addressing id generation ++ sizing columns rows)
  | Approval id generation approval_id decision =>
    tagged "approval" (addressing id generation ++
      [member "approval_id" (uuid approval_id), member "decision" (string decision.name)])
  | Detach id generation => tagged "detach" (addressing id generation)
  | OpenScreen => tagged "open_screen" []
  | CloseScreen => tagged "close_screen" []
  | CreateSession folder shell title columns rows =>
    tagged "create_session" ([member "folder" (option string folder),
      member "shell" (option string shell), member "title" (option string title)] ++
      sizing columns rows)
  | GitOverview id generation worktree =>
    tagged "git_overview" (addressing id generation ++ [member "worktree" (option string worktree)])
  | GitLog id generation worktree offset limit =>
    tagged "git_log" (addressing id generation ++ [member "worktree" (option string worktree),
      member "offset" (number offset), member "limit" (number limit)])
  | GitDiff id generation worktree commit path =>
    tagged "git_diff" (addressing id generation ++ [member "worktree" (option string worktree),
      member "commit" (option string commit), member "path" (option string path)])
  | GitSwitch id generation worktree branch =>
    tagged "git_switch" (addressing id generation ++ [member "worktree" (option string worktree),
      member "branch" (string branch)])
  | AgentChat id generation before since_revision limit =>
    tagged "agent_chat" (addressing id generation ++ [member "before" (option string before),
      member "since_revision" (option string since_revision), member "limit" (number limit)])
  | Unsupported => tagged "unsupported" []

def ControllerCommandEnvelope.text (envelope : ControllerCommandEnvelope) : List UInt8 :=
  object [member "version" (number envelope.version), member "command_id" (uuid envelope.command_id),
    member "session_generation" (number envelope.session_generation),
    member "deadline_millis" (number envelope.deadline_millis),
    member "command" envelope.command.text]

def ControllerSessionOrigin.name : ControllerSessionOrigin → String
  | Terminal => "terminal"
  | ManagedAgent => "managed_agent"
  | ObservedAgent => "observed_agent"
  | Unknown => "unknown"

def ControllerSessionCapability.name : ControllerSessionCapability → String
  | ObserveSessions => "observe_sessions"
  | AttachOutput => "attach_output"
  | SendInput => "send_input"
  | Resize => "resize"
  | RespondToApproval => "respond_to_approval"

def ControllerSessionSummary.text (session : ControllerSessionSummary) : List UInt8 :=
  object [member "session_id" (uuid session.session_id),
    member "host_instance_id" (option uuid session.host_instance_id),
    member "origin" (string session.origin.name), member "runtime" (option string session.runtime),
    member "capabilities" (array (session.capabilities.map fun c => string c.name)),
    member "title" (string session.title), member "group" (option string session.group),
    member "lifecycle" (string session.lifecycle), member "activity" (string session.activity),
    member "occupant_generation" (option number session.occupant_generation),
    member "last_output_sequence" (number session.last_output_sequence),
    member "has_writer" (boolean session.has_writer), member "unread" (boolean session.unread)]

def ControllerResponse.text : ControllerResponse → List UInt8
  | Sessions id revision update_sequence sessions next_offset =>
    tagged "sessions" [member "command_id" (uuid id), member "revision" (number revision),
      member "update_sequence" (number update_sequence),
      member "sessions" (array (sessions.map ControllerSessionSummary.text)),
      member "next_offset" (option number next_offset)]
  | Attached id session_id generation replay_through_sequence has_writer_lease =>
    tagged "attached" ([member "command_id" (uuid id)] ++ addressing session_id generation ++
      [member "replay_through_sequence" (number replay_through_sequence),
        member "has_writer_lease" (boolean has_writer_lease)])
  | Snapshot id session_id boundary_sequence columns rows chunk_index chunk_count bytes =>
    tagged "snapshot" ([member "command_id" (uuid id), member "session_id" (uuid session_id),
      member "boundary_sequence" (number boundary_sequence)] ++ sizing columns rows ++
      [member "chunk_index" (number chunk_index), member "chunk_count" (number chunk_count),
        member "bytes" (bytes_text bytes)])
  | Output session_id sequence bytes =>
    tagged "output" [member "session_id" (uuid session_id), member "sequence" (number sequence),
      member "bytes" (bytes_text bytes)]
  | Completed id applied =>
    tagged "completed" [member "command_id" (uuid id), member "applied" (boolean applied)]
  | Detached id => tagged "detached" [member "command_id" (uuid id)]
  | ScreenOpened id ticket can_control_pointer can_control_keyboard =>
    tagged "screen_opened" [member "command_id" (uuid id), member "ticket" (bytes_text ticket),
      member "can_control_pointer" (boolean can_control_pointer),
      member "can_control_keyboard" (boolean can_control_keyboard)]
  | Error id code completion_unknown =>
    tagged "error" [member "command_id" (uuid id), member "code" (string code),
      member "completion_unknown" (boolean completion_unknown)]
  | SessionCreated id session_id generation =>
    tagged "session_created" ([member "command_id" (uuid id)] ++ addressing session_id generation)
  | GitOverview id session_id repository =>
    tagged "git_overview" [member "command_id" (uuid id), member "session_id" (uuid session_id),
      member "repository" (option (fun text => text) repository)]
  | GitLog id session_id commits next_offset =>
    tagged "git_log" [member "command_id" (uuid id), member "session_id" (uuid session_id),
      member "commits" (array commits), member "next_offset" (option number next_offset)]
  | GitDiff id session_id diff =>
    tagged "git_diff" [member "command_id" (uuid id), member "session_id" (uuid session_id),
      member "diff" diff]
  | GitSwitched id session_id switched branch message =>
    tagged "git_switched" [member "command_id" (uuid id), member "session_id" (uuid session_id),
      member "switched" (boolean switched), member "branch" (string branch),
      member "message" (string message)]
  | AgentChat id session_id chat =>
    tagged "agent_chat" [member "command_id" (uuid id), member "session_id" (uuid session_id),
      member "chat" (option protocol.AgentChat.text chat)]
  | Unknown => tagged "unknown" []

/-! ## Within a limit -/

def encode_bounded (text : List UInt8) (maximum_bytes : Nat) : Listened (List UInt8) :=
  if maximum_bytes < text.length then .error frame_too_large else .ok text

def encode_command (envelope : ControllerCommandEnvelope) : Listened (List UInt8) := do
  envelope.validate
  encode_bounded envelope.text MAX_CONTROL_PAYLOAD_BYTES

def encode_response (response : ControllerResponse) (maximum_bytes : Nat) : Listened (List UInt8) := do
  validate_response response
  encode_bounded response.text maximum_bytes

/-- What the JSON reader makes of a text. A kind that is not known reads too. -/
structure Reader where
  command : List UInt8 → Option ControllerCommandEnvelope
  response : List UInt8 → Option ControllerResponse

def or_malformed {α : Type} : Option α → Listened α
  | some value => .ok value
  | none => .error malformed

def decode_command (from_slice : Reader) (bytes : List UInt8) : Listened ControllerCommandEnvelope := do
  refuseIf frame_too_large (bytes = [] ∨ MAX_CONTROL_PAYLOAD_BYTES < bytes.length)
  let command ← or_malformed (from_slice.command bytes)
  command.validate
  pure command

def decode_response (from_slice : Reader) (bytes : List UInt8) (maximum_bytes : Nat) :
    Listened ControllerResponse := do
  refuseIf frame_too_large (bytes = [] ∨ maximum_bytes < bytes.length)
  let response ← or_malformed (from_slice.response bytes)
  validate_response response
  pure response

/-! ## Lengths -/

@[simp] theorem length_uuid (id : Nat) : (uuid id).length = 38 := by
  simp [uuid]

end multiplex_controller_listener.protocol
