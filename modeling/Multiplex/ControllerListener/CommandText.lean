-- How long the text of a command gets. Fields are checked as they are, while
-- the frame is checked as it is written. Only what is typed can be within the
-- one limit and over the other.
import Multiplex.ControllerListener.ClientChannel

open Checks JsonText
open multiplex_domain.controller_devices (ControllerCapability)
open multiplex_domain.session (HostedSessionId)

namespace multiplex_controller_listener.protocol

/-! ## What the fields hold by their types -/

namespace ControllerCommand

def InRange : ControllerCommand → Prop
  | ListSessions offset limit expected_revision =>
    offset < 2 ^ 32 ∧ limit < 2 ^ 16 ∧ ∀ revision ∈ expected_revision, revision < 2 ^ 64
  | Attach _ generation from_sequence columns rows =>
    generation < 2 ^ 64 ∧ from_sequence < 2 ^ 64 ∧ columns < 2 ^ 32 ∧ rows < 2 ^ 32
  | Resize _ generation columns rows => generation < 2 ^ 64 ∧ columns < 2 ^ 32 ∧ rows < 2 ^ 32
  | Input _ generation _ | AcquireWriter _ generation | ReleaseWriter _ generation
  | Approval _ generation .. | Detach _ generation | GitOverview _ generation _
  | GitDiff _ generation .. | GitSwitch _ generation .. => generation < 2 ^ 64
  | GitLog _ generation _ offset limit => generation < 2 ^ 64 ∧ offset < 2 ^ 32 ∧ limit < 2 ^ 16
  | AgentChat _ generation _ _ limit => generation < 2 ^ 64 ∧ limit < 2 ^ 16
  | CreateSession _ _ _ columns rows => columns < 2 ^ 32 ∧ rows < 2 ^ 32
  | OpenScreen | CloseScreen | Unsupported => True

end ControllerCommand

structure ControllerCommandEnvelope.InRange (envelope : ControllerCommandEnvelope) : Prop where
  version : envelope.version < 2 ^ 16
  session_generation : envelope.session_generation < 2 ^ 64
  deadline_millis : envelope.deadline_millis < 2 ^ 64
  command : envelope.command.InRange

def digits (n : Nat) : Nat := (number n).length

/-- There is room for what is typed: its digits with a comma between each two bytes, and the
numbers of the envelope, beside the 218 characters that are always there. -/
def RoomForInput (envelope : ControllerCommandEnvelope) : Prop :=
  match envelope.command with
  | .Input _ generation bytes =>
    (bytes.map fun b => digits b.toNat).sum + (bytes.length - 1) + digits generation +
      digits envelope.version + digits envelope.session_generation +
      digits envelope.deadline_millis + 218 ≤ multiplex_controller_security.MAX_CONTROL_PAYLOAD_BYTES
  | _ => True

/-! ## Lengths of the parts -/

theorem digits_le_of_u64 {n : Nat} (h : n < 2 ^ 64) : digits n ≤ 20 :=
  length_number_le (by decide) (by omega)

theorem digits_le_of_u32 {n : Nat} (h : n < 2 ^ 32) : digits n ≤ 20 :=
  digits_le_of_u64 (by omega)

theorem digits_le_of_u16 {n : Nat} (h : n < 2 ^ 16) : digits n ≤ 20 :=
  digits_le_of_u64 (by omega)

theorem length_option_number_le {o : Option Nat} (h : ∀ n ∈ o, n < 2 ^ 64) :
    (option number o).length ≤ 20 := by
  cases o with
  | none => decide
  | some n => exact digits_le_of_u64 (h n rfl)

theorem length_option_string_le {o : Option String} {limit : Nat}
    (h : ∀ s ∈ o, s.utf8ByteSize ≤ limit) : (option string o).length ≤ 6 * limit + 4 := by
  cases o with
  | none =>
    show 4 ≤ _
    omega
  | some s =>
    have hstring := length_string_le s
    have hlimit := h s rfl
    simp only [option]
    omega

theorem length_tagged (kind : String) (members : List (List UInt8)) :
    (tagged kind members).length = (string kind).length + (members.map List.length).sum +
      members.length + 9 := by
  have hname : (string "kind").length = 6 := by decide
  simp [tagged, hname]
  omega

theorem length_names :
    (string "session_id").length = 12 ∧ (string "occupant_generation").length = 21 ∧
    (string "columns").length = 9 ∧ (string "rows").length = 6 ∧ (string "offset").length = 8 ∧
    (string "limit").length = 7 ∧ (string "expected_revision").length = 19 ∧
    (string "from_sequence").length = 15 ∧ (string "bytes").length = 7 ∧
    (string "approval_id").length = 13 ∧ (string "decision").length = 10 ∧
    (string "folder").length = 8 ∧ (string "shell").length = 7 ∧ (string "title").length = 7 ∧
    (string "worktree").length = 10 ∧ (string "commit").length = 8 ∧ (string "path").length = 6 ∧
    (string "branch").length = 8 ∧ (string "before").length = 8 ∧
    (string "since_revision").length = 16 := by decide

theorem length_kind_le :
    ∀ kind ∈ ["list_sessions", "attach", "acquire_writer", "release_writer", "resize", "approval",
      "detach", "open_screen", "close_screen", "create_session", "git_overview", "git_log", "git_diff",
      "git_switch", "agent_chat", "unsupported"], (string kind).length ≤ 16 := by decide

theorem length_addressing (session_id : HostedSessionId) {generation : OccupantGeneration}
    (h : generation < 2 ^ 64) : ((addressing session_id generation).map List.length).sum ≤ 93 ∧
      (addressing session_id generation).length = 2 := by
  obtain ⟨hsession, hgeneration, -⟩ := length_names
  have hdigits := digits_le_of_u64 h
  refine ⟨?_, rfl⟩
  simp [addressing, hsession, hgeneration]
  unfold digits at hdigits
  omega

theorem length_sizing {columns rows : Nat} (hcolumns : columns < 2 ^ 32) (hrows : rows < 2 ^ 32) :
    ((sizing columns rows).map List.length).sum ≤ 57 ∧ (sizing columns rows).length = 2 := by
  obtain ⟨-, -, hcolumns', hrows', -⟩ := length_names
  have hdigits := digits_le_of_u32 hcolumns
  have hdigits' := digits_le_of_u32 hrows
  refine ⟨?_, rfl⟩
  simp [sizing, hcolumns', hrows']
  unfold digits at hdigits hdigits'
  omega

/-! ## What a valid command may carry -/

section
variable {field : Option String}

theorem worktree_le (h : valid_git_worktree field = true) :
    ∀ s ∈ field, s.utf8ByteSize ≤ MAX_GIT_FIELD_BYTES := by
  intro s hs
  have hvalid := (Option.all_eq_true _ _).mp h s hs
  simp at hvalid
  exact hvalid.2.1

theorem agent_chat_id_le (h : valid_agent_chat_id field = true) :
    ∀ s ∈ field, s.utf8ByteSize ≤ MAX_AGENT_CHAT_ID_BYTES := by
  intro s hs
  have hvalid := (Option.all_eq_true _ _).mp h s hs
  simp at hvalid
  exact hvalid.2.1

theorem create_session_field_le (h : valid_create_session_field field = true) :
    ∀ s ∈ field, s.utf8ByteSize ≤ MAX_CREATE_SESSION_FIELD_BYTES := by
  intro s hs
  have hvalid := (Option.all_eq_true _ _).mp h s hs
  simp at hvalid
  exact hvalid.2

theorem commit_le (h : field.all valid_git_commit = true) : ∀ s ∈ field, s.utf8ByteSize ≤ 64 := by
  intro s hs
  have hvalid := (Option.all_eq_true _ _).mp h s hs
  simp [valid_git_commit] at hvalid
  exact hvalid.2.1

theorem path_le (h : field.all valid_git_path = true) :
    ∀ s ∈ field, s.utf8ByteSize ≤ MAX_GIT_FIELD_BYTES := by
  intro s hs
  have hvalid := (Option.all_eq_true _ _).mp h s hs
  simp [valid_git_path] at hvalid
  exact hvalid.2.1

end

theorem branch_le {branch : String} (h : valid_git_branch branch = true) :
    branch.utf8ByteSize ≤ 256 := by
  simp [valid_git_branch] at h
  exact h.2.1

/-! ## Lengths of commands -/

/-- Names, numbers and identifiers take little of the limit, and so do the strings that a command
may carry, escaped as badly as it gets. -/
theorem ControllerCommand.length_text_le {command : ControllerCommand}
    (hvalid : command.validate = .ok ()) (hrange : command.InRange)
    (hinput : ∀ id generation bytes, command ≠ .Input id generation bytes) :
    command.text.length ≤ 60000 := by
  obtain ⟨-, -, -, -, hoffset, hlimit, hrevision, hsequence, -, happroval, hdecision, hfolder, hshell,
    htitle, hworktree, hcommit, hpath, hbranch, hbefore, hsince⟩ := length_names
  cases command with
  | ListSessions offset limit expected_revision =>
    have hkind := length_kind_le "list_sessions" (by simp)
    have h1 := digits_le_of_u32 hrange.1
    have h2 := digits_le_of_u16 hrange.2.1
    have h3 := length_option_number_le hrange.2.2
    unfold digits at h1 h2
    simp [text, length_tagged, hoffset, hlimit, hrevision]
    omega
  | Attach id generation from_sequence columns rows =>
    have hkind := length_kind_le "attach" (by simp)
    obtain ⟨ha, hna⟩ := length_addressing id hrange.1
    obtain ⟨hs, hns⟩ := length_sizing hrange.2.2.1 hrange.2.2.2
    have h1 := digits_le_of_u64 hrange.2.1
    unfold digits at h1
    simp [text, length_tagged, hsequence, hna, hns]
    omega
  | Input id generation bytes => exact absurd rfl (hinput id generation bytes)
  | AcquireWriter id generation =>
    have hkind := length_kind_le "acquire_writer" (by simp)
    obtain ⟨ha, hna⟩ := length_addressing id hrange
    simp only [text, length_tagged, hna]
    omega
  | ReleaseWriter id generation =>
    have hkind := length_kind_le "release_writer" (by simp)
    obtain ⟨ha, hna⟩ := length_addressing id hrange
    simp only [text, length_tagged, hna]
    omega
  | Resize id generation columns rows =>
    have hkind := length_kind_le "resize" (by simp)
    obtain ⟨ha, hna⟩ := length_addressing id hrange.1
    obtain ⟨hs, hns⟩ := length_sizing hrange.2.1 hrange.2.2
    simp [text, length_tagged, hna, hns]
    omega
  | Approval id generation approval_id decision =>
    have hkind := length_kind_le "approval" (by simp)
    obtain ⟨ha, hna⟩ := length_addressing id hrange
    have hname : (string decision.name).length ≤ 9 := by cases decision <;> decide
    simp [text, length_tagged, happroval, hdecision, hna]
    omega
  | Detach id generation =>
    have hkind := length_kind_le "detach" (by simp)
    obtain ⟨ha, hna⟩ := length_addressing id hrange
    simp only [text, length_tagged, hna]
    omega
  | OpenScreen => decide
  | CloseScreen => decide
  | CreateSession folder shell title columns rows =>
    have hkind := length_kind_le "create_session" (by simp)
    obtain ⟨hs, hns⟩ := length_sizing hrange.1 hrange.2
    simp [validate] at hvalid
    have h1 := length_option_string_le (create_session_field_le hvalid.2.1)
    have h2 := length_option_string_le (create_session_field_le hvalid.2.2.1)
    have h3 := length_option_string_le (create_session_field_le hvalid.2.2.2)
    simp only [MAX_CREATE_SESSION_FIELD_BYTES] at h1 h2 h3
    simp [text, length_tagged, hfolder, hshell, htitle, hns]
    omega
  | GitOverview id generation worktree =>
    have hkind := length_kind_le "git_overview" (by simp)
    obtain ⟨ha, hna⟩ := length_addressing id hrange
    simp [validate] at hvalid
    have h1 := length_option_string_le (worktree_le hvalid)
    simp only [MAX_GIT_FIELD_BYTES] at h1
    simp [text, length_tagged, hworktree, hna]
    omega
  | GitLog id generation worktree offset limit =>
    have hkind := length_kind_le "git_log" (by simp)
    obtain ⟨ha, hna⟩ := length_addressing id hrange.1
    simp [validate] at hvalid
    have h1 := length_option_string_le (worktree_le hvalid.1)
    have h2 := digits_le_of_u32 hrange.2.1
    have h3 := digits_le_of_u16 hrange.2.2
    unfold digits at h2 h3
    simp only [MAX_GIT_FIELD_BYTES] at h1
    simp [text, length_tagged, hworktree, hoffset, hlimit, hna]
    omega
  | GitDiff id generation worktree commit path =>
    have hkind := length_kind_le "git_diff" (by simp)
    obtain ⟨ha, hna⟩ := length_addressing id hrange
    simp [validate] at hvalid
    have h1 := length_option_string_le (worktree_le hvalid.1)
    have h2 := length_option_string_le (commit_le hvalid.2.1)
    have h3 := length_option_string_le (path_le hvalid.2.2)
    simp only [MAX_GIT_FIELD_BYTES] at h1 h3
    simp [text, length_tagged, hworktree, hcommit, hpath, hna]
    omega
  | GitSwitch id generation worktree branch =>
    have hkind := length_kind_le "git_switch" (by simp)
    obtain ⟨ha, hna⟩ := length_addressing id hrange
    simp [validate] at hvalid
    have h1 := length_option_string_le (worktree_le hvalid.1)
    have h2 := length_string_le branch
    have h3 := branch_le hvalid.2
    simp only [MAX_GIT_FIELD_BYTES] at h1
    simp [text, length_tagged, hworktree, hbranch, hna]
    omega
  | AgentChat id generation before since_revision limit =>
    have hkind := length_kind_le "agent_chat" (by simp)
    obtain ⟨ha, hna⟩ := length_addressing id hrange.1
    simp [validate] at hvalid
    have h1 := length_option_string_le (agent_chat_id_le hvalid.2.2.1)
    have h2 := length_option_string_le (agent_chat_id_le hvalid.2.2.2)
    have h3 := digits_le_of_u16 hrange.2
    unfold digits at h3
    simp only [MAX_AGENT_CHAT_ID_BYTES] at h1 h2
    simp [text, length_tagged, hbefore, hsince, hlimit, hna]
    omega
  | Unsupported => decide

theorem length_input_text (id : HostedSessionId) (generation : OccupantGeneration)
    (bytes : List UInt8) : (ControllerCommand.Input id generation bytes).text.length =
      (bytes.map fun b => digits b.toNat).sum + (bytes.length - 1) + digits generation + 102 := by
  obtain ⟨hsession, hgeneration, -, -, -, -, -, -, hbytes, -⟩ := length_names
  have hkind : (string "input").length = 7 := by decide
  simp only [ControllerCommand.text, length_tagged, addressing, bytes_text, List.map_append,
    List.sum_append, List.map_cons, List.map_nil, List.sum_cons, List.sum_nil, length_member,
    List.length_append, List.length_cons, List.length_nil, hsession, hgeneration, hbytes, hkind,
    length_uuid, length_bytes]
  unfold digits
  omega

theorem ControllerCommandEnvelope.length_text (envelope : ControllerCommandEnvelope) :
    envelope.text.length = digits envelope.version + digits envelope.session_generation +
      digits envelope.deadline_millis + envelope.command.text.length + 116 := by
  have hversion : (string "version").length = 9 := by decide
  have hid : (string "command_id").length = 12 := by decide
  have hgeneration : (string "session_generation").length = 20 := by decide
  have hdeadline : (string "deadline_millis").length = 17 := by decide
  have hcommand : (string "command").length = 9 := by decide
  simp [text, hversion, hid, hgeneration, hdeadline, hcommand]
  unfold digits
  omega

/-- The text of a valid command fits a frame exactly where what is typed does. -/
theorem text_fits_iff {envelope : ControllerCommandEnvelope} (hvalid : envelope.validate = .ok ())
    (hrange : envelope.InRange) :
    envelope.text.length ≤ multiplex_controller_security.MAX_CONTROL_PAYLOAD_BYTES ↔
      RoomForInput envelope := by
  have hlength := envelope.length_text
  have hversion := digits_le_of_u16 hrange.version
  have hgeneration := digits_le_of_u64 hrange.session_generation
  have hdeadline := digits_le_of_u64 hrange.deadline_millis
  simp only [ControllerCommandEnvelope.validate, bind_ok_iff] at hvalid
  obtain ⟨_, -, hcommand⟩ := hvalid
  unfold RoomForInput
  split
  · rename_i id generation bytes hinput
    rw [hinput, length_input_text] at hlength
    constructor
    · omega
    · omega
  · rename_i hother
    have hle := ControllerCommand.length_text_le hcommand hrange.command hother
    simp [multiplex_controller_security.MAX_CONTROL_PAYLOAD_BYTES]
    omega

end multiplex_controller_listener.protocol
