-- A Session Host. It feeds the output of its program to the screen model and to the
-- journal, compacts the journal, and serves clients that attach.
import Multiplex.SessionHost.Wire
import Multiplex.Store.Journal

open multiplex_host_protocol multiplex_store.journal

namespace multiplex_session_host

inductive HostErrorCode where
  | Journal
  | ResourceLimit

/-- The terminal emulator behind the screen model. -/
structure Vt100 (σ : Type) where
  process : σ → List UInt8 → σ
  rows : σ → UInt16
  columns : σ → UInt16
  alternate_screen : σ → Bool
  bracketed_paste : σ → Bool
  state_formatted : σ → List UInt8

/-- What a running Host keeps, with the files of its journal. -/
structure RuntimeState (σ : Type) where
  session_id : List UInt8
  host_instance_id : List UInt8
  lifecycle : Lifecycle
  journal : JournalStore
  disk : Disk
  parser : σ
  latest_sequence : Nat
  durable_sequence : UInt64
  recording_paused : Bool

/-- A Host that starts on the files of a session. -/
def launch {σ : Type} (crc32c : List UInt8 → UInt32) (limits : JournalLimits)
    (session_id host_instance_id : List UInt8) (disk : Disk) (parser : σ) :
    Except HostErrorCode (RuntimeState σ) :=
  match JournalStore.open crc32c disk limits with
  | .error _ => .error .Journal
  | .ok (journal, ops) =>
    .ok
      { session_id, host_instance_id, journal, parser
        lifecycle := .Ready
        disk := disk.applyAll ops
        latest_sequence := journal.latest_sequence
        durable_sequence := .ofNat journal.latest_sequence
        recording_paused := journal.recording_paused }

/-! ## Cursor position requests -/

def cursorPositionRequest : List UInt8 := [0x1b, 0x5b, 0x36, 0x6e]

def requests_cursor_position (output : List UInt8) : Bool :=
  output.tails.any fun rest => decide (rest.take 4 = cursorPositionRequest)

def without_cursor_position_requests : List UInt8 → List UInt8
  | a :: b :: c :: d :: rest =>
    if [a, b, c, d] = cursorPositionRequest then without_cursor_position_requests rest
    else a :: without_cursor_position_requests (b :: c :: d :: rest)
  | rest => rest

/-- What is recorded of an output. Only the Host on Windows answers requests itself. -/
def recorded (windows : Bool) (output : List UInt8) : List UInt8 :=
  if windows && requests_cursor_position output then without_cursor_position_requests output
  else output

theorem recorded_unix (output : List UInt8) : recorded false output = output := by
  unfold recorded
  rw [Bool.false_and, if_neg Bool.false_ne_true]

theorem length_without_cursor_position_requests (output : List UInt8) :
    (without_cursor_position_requests output).length ≤ output.length := by
  fun_induction without_cursor_position_requests output with
  | case1 a b c d rest heq ih =>
    simp
    omega
  | case2 a b c d rest hne ih =>
    simp at ih ⊢
    omega
  | case3 rest hshort => exact le_rfl

theorem length_recorded (windows : Bool) (output : List UInt8) :
    (recorded windows output).length ≤ output.length := by
  unfold recorded
  split
  · exact length_without_cursor_position_requests output
  · exact le_rfl

section
variable {σ : Type} (vt : Vt100 σ) (crc32c : List UInt8 → UInt32) (windows : Bool)

/-! ## Output -/

def terminal_snapshot_bytes (screen : σ) : List UInt8 :=
  (if vt.alternate_screen screen then [0x1b, 0x5b, 0x3f, 0x31, 0x30, 0x34, 0x39, 0x68]
    else [0x1b, 0x5b, 0x3f, 0x31, 0x30, 0x34, 0x39, 0x6c]) ++
  [0x1b, 0x5b, 0x3f, 0x31, 0x30, 0x30, 0x30, 0x6c, 0x1b, 0x5b, 0x3f, 0x31, 0x30, 0x30, 0x32, 0x6c,
    0x1b, 0x5b, 0x3f, 0x31, 0x30, 0x30, 0x33, 0x6c, 0x1b, 0x5b, 0x3f, 0x31, 0x30, 0x30, 0x36, 0x6c] ++
  vt.state_formatted screen

/-- The snapshot of a screen that shows the outputs up to a boundary. -/
def snapshotOf (screen : σ) (boundary : Nat) : TerminalSnapshot :=
  ⟨boundary, (vt.columns screen).toUInt32, (vt.rows screen).toUInt32,
    terminal_snapshot_bytes vt screen⟩

def RuntimeState.process_output (host : RuntimeState σ) (bytes : List UInt8)
    (monotonic_nanos : UInt64) : RuntimeState σ × Except HostErrorCode Unit :=
  let host := { host with parser := vt.process host.parser bytes }
  if host.latest_sequence ≥ U64_MAX then
    ({ host with latest_sequence := 0 }, .error .ResourceLimit)
  else
    let sequence := host.latest_sequence + 1
    let host := { host with latest_sequence := sequence }
    if host.recording_paused then (host, .ok ())
    else
      let frame : JournalFrame := ⟨.Output, sequence, monotonic_nanos, 0, recorded windows bytes⟩
      let appended := host.journal.append crc32c host.disk frame
      let host := { host with
        journal := appended.store
        disk := host.disk.applyAll appended.ops }
      match appended.result with
      | .error _ => (host, .error .Journal)
      | .ok .RecordingPausedDiskLimit => ({ host with recording_paused := true }, .ok ())
      | .ok .Recorded =>
        if host.journal.compaction_due then
          let compacted := host.journal.compact crc32c host.disk (snapshotOf vt host.parser sequence)
          ({ host with
            journal := compacted.store
            disk := host.disk.applyAll compacted.ops },
            compacted.result.mapError fun _ => .Journal)
        else (host, .ok ())

/-- An output of the program, and when it was read. -/
structure Output where
  bytes : List UInt8
  monotonic_nanos : UInt64

/-- Outputs are processed in turn. The first error ends the loop. -/
def RuntimeState.output_loop (host : RuntimeState σ) :
    List Output → RuntimeState σ × Except HostErrorCode Unit
  | [] => (host, .ok ())
  | output :: outputs =>
    match host.process_output vt crc32c windows output.bytes output.monotonic_nanos with
    | (host, .error code) => (host, .error code)
    | (host, .ok ()) => host.output_loop outputs

/-! ## Attach -/

structure AttachRequest where
  from_sequence : Nat
  maximum_replay_bytes : Nat
  maximum_replay_records : Nat

/-- The bytes and the records of the outputs among some frames. -/
def replaySize (frames : List JournalFrame) : Nat × Nat :=
  frames.foldl (fun size frame =>
    if frame.kind = .Output then (size.1 + frame.payload.length, size.2 + 1) else size) (0, 0)

def AttachRequest.exceededBy (request : AttachRequest) (size : Nat × Nat) : Bool :=
  decide (size.1 > request.maximum_replay_bytes) || decide (size.2 > request.maximum_replay_records)

/-- What is replayed: the frames after the sequence that was asked for, the frames after the stored
snapshot, or the screen as it is. -/
def RuntimeState.replay (host : RuntimeState σ) (request : AttachRequest) :
    Except HostErrorCode (Except JournalError (JournalRead × Option TerminalSnapshot)) := do
  let journal := host.journal
  let read := journal.read_live_from crc32c host.disk request.from_sequence
  let (read, snapshot) ←
    match read with
    | .error error =>
      if error.code = .HistoryUnavailable then
        match load_snapshot crc32c host.disk with
        | .error _ => .error .Journal
        | .ok none => .ok (read, none)
        | .ok (some available) =>
          .ok (journal.read_live_from crc32c host.disk available.boundary, some available)
      else .ok (read, none)
    | .ok _ => .ok (read, none)
  match read with
  | .error error => .ok (.error error)
  | .ok replay =>
    if request.exceededBy (replaySize replay.frames) then
      if (terminal_snapshot_bytes vt host.parser).length > MAX_REPLAY_BYTES then
        .error .ResourceLimit
      else
        let (earliest, latest) := journal.sequence_bounds
        .ok (.ok (⟨earliest, latest, [], false⟩,
          some (snapshotOf vt host.parser journal.latest_sequence)))
    else .ok (.ok (replay, snapshot))

/-- The outputs that are sent, up to the limits of the request. -/
def outputMessages (session_id : List UInt8) (request : AttachRequest) :
    List JournalFrame → Nat × Nat → List Message × Bool
  | [], _ => ([], true)
  | frame :: frames, size =>
    if frame.kind ≠ .Output then outputMessages session_id request frames size
    else
      let size := (size.1 + frame.payload.length, size.2 + 1)
      if request.exceededBy size then ([.ProtocolError ⟨frame.sequence, frame.sequence⟩], false)
      else
        let later := outputMessages session_id request frames size
        (.OutputEvent ⟨session_id, frame.sequence, frame.payload⟩ :: later.1, later.2)

def snapshotMessage (session_id : List UInt8) (s : TerminalSnapshot) : Message :=
  .ViewportSnapshotEvent ⟨session_id, s.boundary, ⟨s.columns, s.rows⟩, s.terminal_bytes⟩

/-- The state that ends an attach. Outputs may have been processed since the replay was read. -/
def RuntimeState.stateMessage (host : RuntimeState σ) (has_writer : Bool) : Message :=
  .StateEvent
    { session_id := host.session_id
      host_instance_id := host.host_instance_id
      lifecycle := host.lifecycle
      earliest_sequence := host.journal.sequence_bounds.1.getD 0
      latest_sequence := host.journal.sequence_bounds.2.getD 0
      has_writer_lease := has_writer
      recording_paused := host.recording_paused
      durable_sequence := host.durable_sequence.toNat
      viewport := ⟨(vt.columns host.parser).toUInt32, (vt.rows host.parser).toUInt32⟩
      bracketed_paste := vt.bracketed_paste host.parser }

/-- The messages that went out, and how the call ended. -/
structure Served where
  sent : List Message
  result : Except HostErrorCode Unit

/-- `send_message` for each message in turn. One that is too large ends the call. -/
def sendAll : List Message → Served
  | [] => ⟨[], .ok ()⟩
  | message :: messages =>
    if message.encoded_len > MAX_PAYLOAD_BYTES then ⟨[], .error .ResourceLimit⟩
    else
      let later := sendAll messages
      ⟨message :: later.sent, later.result⟩

/-- `later` is the Host when the state is sent, after the replay. -/
def RuntimeState.serve_attach (host later : RuntimeState σ) (has_writer : Bool)
    (request : AttachRequest) : Served :=
  if request.maximum_replay_bytes = 0 ∨ request.maximum_replay_bytes > MAX_REPLAY_BYTES ∨
      request.maximum_replay_records = 0 ∨ request.maximum_replay_records > MAX_REPLAY_RECORDS then
    ⟨[], .error .ResourceLimit⟩
  else
    match host.replay vt crc32c request with
    | .error code => ⟨[], .error code⟩
    | .ok (.error error) =>
      if error.code = .HistoryUnavailable then
        sendAll [.ProtocolError ⟨error.expected_sequence.getD 0, error.expected_sequence.getD 0⟩]
      else ⟨[], .error .Journal⟩
    | .ok (.ok (read, snapshot)) =>
      let outputs := outputMessages host.session_id request read.frames (0, 0)
      sendAll (.ReadyEvent ⟨host.session_id, read.latest.getD 0⟩ ::
        (snapshot.map (snapshotMessage host.session_id)).toList ++ outputs.1 ++
        if outputs.2 then [later.stateMessage vt has_writer] else [])

end

end multiplex_session_host
