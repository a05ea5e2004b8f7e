-- The panes of the desktop app as paired devices see them. The app keeps a
-- registry of its panes with what each has put out, and every connection of
-- the bridge asks for one pane at a time and may hold the lease to write to it.
import Multiplex.Lib.Chunks
import Multiplex.ControllerListener.Protocol

open multiplex_domain.session (HostedSessionId OutputSequence)
open multiplex_domain (checked_add)
open multiplex_controller_listener.protocol

namespace multiplex_controller_listener.desktop_panes

abbrev ConnectionId := Nat

def MAX_JOURNAL_BYTES : Nat := 2 * 1024 * 1024
def MAX_OUTPUT_CHUNK_BYTES : Nat := 64 * 1024

/-! ## The registry -/

/-- The two ways into a pane, of which the second need not be there. -/
structure DesktopPaneTransport where
  id : Nat
  supports_resize : Bool

structure DesktopPaneOutput where
  sequence : OutputSequence
  bytes : List UInt8

structure DesktopPaneRegistration where
  session_id : HostedSessionId
  title : String
  runtime : String
  columns : Nat
  rows : Nat
  transport : DesktopPaneTransport

structure DesktopPaneRecord where
  title : String
  runtime : String
  generation : OccupantGeneration
  columns : Nat
  rows : Nat
  transport : DesktopPaneTransport
  latest_sequence : OutputSequence
  snapshot_sequence : OutputSequence
  snapshot : List UInt8
  output_bytes : Nat
  outputs : List DesktopPaneOutput
  writer_connection : Option ConnectionId
  controller_viewport : Option (Nat × Nat)

structure DesktopPaneRegistry where
  revision : Nat
  panes : SortedMap HostedSessionId DesktopPaneRecord

def bounded_title (value : String) : String := String.ofList (value.toList.take 256)

def bounded_runtime (value : String) : String := String.ofList (value.toList.take 64)

def next_revision (current : Nat) : Nat := max (min (current + 1) (2 ^ 64 - 1)) 1

def clamp (n : Nat) : Nat := max 1 (min n 1000)

namespace DesktopPaneRegistration

/-- A pane that is there keeps its output and its writer. -/
def existing (r : DesktopPaneRegistration) (pane : DesktopPaneRecord) : DesktopPaneRecord :=
  { pane with
    title := bounded_title r.title
    runtime := bounded_runtime r.runtime
    columns := clamp r.columns
    rows := clamp r.rows
    transport := r.transport }

/-- A pane that is not there starts in the first generation, with nothing put out. -/
def record (r : DesktopPaneRegistration) : DesktopPaneRecord where
  title := bounded_title r.title
  runtime := bounded_runtime r.runtime
  generation := 1
  columns := clamp r.columns
  rows := clamp r.rows
  transport := r.transport
  latest_sequence := 0
  snapshot_sequence := 0
  snapshot := []
  output_bytes := 0
  outputs := []
  writer_connection := none
  controller_viewport := none

end DesktopPaneRegistration

namespace DesktopPaneRegistry

def pane? (registry : DesktopPaneRegistry) (session_id : HostedSessionId) : Option DesktopPaneRecord :=
  registry.panes.get? session_id

def with_pane (registry : DesktopPaneRegistry) (session_id : HostedSessionId)
    (change : DesktopPaneRecord → DesktopPaneRecord) : DesktopPaneRegistry :=
  { registry with panes := registry.panes.map fun id pane =>
      if id = session_id then change pane else pane }

def «register» (registry : DesktopPaneRegistry) (r : DesktopPaneRegistration) : DesktopPaneRegistry :=
  match registry.pane? r.session_id with
  | some _ => registry.with_pane r.session_id r.existing
  | none =>
    { revision := next_revision registry.revision
      panes := registry.panes.insert r.session_id r.record }

def update_title (registry : DesktopPaneRegistry) (session_id : HostedSessionId) (title : String) :
    DesktopPaneRegistry :=
  let title := bounded_title title
  if (registry.pane? session_id).any (·.title ≠ title) then
    { registry.with_pane session_id fun pane => { pane with title } with
      revision := next_revision registry.revision }
  else registry

def update_size (registry : DesktopPaneRegistry) (session_id : HostedSessionId) (columns rows : Nat) :
    DesktopPaneRegistry :=
  registry.with_pane session_id fun pane =>
    { pane with columns := clamp columns, rows := clamp rows }

def remove (registry : DesktopPaneRegistry) (session_id : HostedSessionId) : DesktopPaneRegistry :=
  if (registry.pane? session_id).isSome then
    { revision := next_revision registry.revision, panes := registry.panes.erase session_id }
  else registry

end DesktopPaneRegistry

/-- The loop over the chunks, and whether it came to its end. -/
def push_chunks (pane : DesktopPaneRecord) : List (List UInt8) → DesktopPaneRecord × Bool
  | [] => (pane, true)
  | chunk :: rest =>
    match checked_add pane.latest_sequence 1 with
    | none => (pane, false)
    | some sequence =>
      push_chunks
        { pane with
          latest_sequence := sequence
          output_bytes := pane.output_bytes + chunk.length
          outputs := pane.outputs ++ [⟨sequence, chunk⟩] } rest

/-- What an output does to its pane: too much of it, and a snapshot takes the place of all. -/
def append_to (pane : DesktopPaneRecord) (bytes snapshot : List UInt8) : DesktopPaneRecord :=
  let (pane, done) := push_chunks pane (Chunks.chunks MAX_OUTPUT_CHUNK_BYTES bytes)
  if done ∧ (MAX_JOURNAL_BYTES < pane.output_bytes ∨ MAX_JOURNAL_BYTES < bytes.length) then
    { pane with
      snapshot
      snapshot_sequence := pane.latest_sequence
      outputs := []
      output_bytes := 0 }
  else pane

def released (connection_id : ConnectionId) (pane : DesktopPaneRecord) : DesktopPaneRecord :=
  if pane.writer_connection = some connection_id then
    { pane with writer_connection := none, controller_viewport := none }
  else pane

/-- What goes out to the transport of a pane. -/
inductive TransportCall where
  | send_input (session_id : HostedSessionId) (bytes : List UInt8)
  | send_resize (session_id : HostedSessionId) (columns rows : Nat)
  deriving DecidableEq

def TransportCall.session_id : TransportCall → HostedSessionId
  | send_input id _ | send_resize id _ _ => id

namespace DesktopPaneRegistry

def append_output (registry : DesktopPaneRegistry) (session_id : HostedSessionId)
    (bytes snapshot : List UInt8) : DesktopPaneRegistry :=
  if bytes = [] then registry
  else registry.with_pane session_id fun pane => append_to pane bytes snapshot

structure HostCommandContext where
  occupant_generation : Option OccupantGeneration
  has_writer_lease : Bool

def context (registry : DesktopPaneRegistry) (connection_id : ConnectionId)
    (session_id : HostedSessionId) : Option HostCommandContext :=
  (registry.pane? session_id).map fun pane =>
    ⟨some pane.generation, pane.writer_connection = some connection_id⟩

/-- Each pane of the connection is asked to go back to the size it has on the desktop. -/
def release_connection (registry : DesktopPaneRegistry) (connection_id : ConnectionId) :
    DesktopPaneRegistry × List TransportCall :=
  ({ registry with panes := registry.panes.map fun _ pane => released connection_id pane },
    registry.panes.entries.filterMap fun entry =>
      if entry.2.writer_connection = some connection_id then
        some (.send_resize entry.1 entry.2.columns entry.2.rows)
      else none)

def summary (session_id : HostedSessionId) (pane : DesktopPaneRecord) : ControllerSessionSummary where
  session_id := session_id
  host_instance_id := none
  origin := .Terminal
  runtime := some pane.runtime
  capabilities := [.ObserveSessions, .AttachOutput, .SendInput] ++
    (if pane.transport.supports_resize then [.Resize] else [])
  title := pane.title
  group := none
  lifecycle := "live"
  activity := "unknown"
  occupant_generation := some pane.generation
  last_output_sequence := pane.latest_sequence
  has_writer := pane.writer_connection.isSome
  unread := false

def snapshot (registry : DesktopPaneRegistry) : Nat × List ControllerSessionSummary :=
  (max registry.revision 1,
    (registry.panes.entries.map fun entry => summary entry.1 entry.2).insertionSort fun a b =>
      a.title < b.title ∨ a.title = b.title ∧ a.session_id ≤ b.session_id)

end DesktopPaneRegistry

/-! ## A connection of the bridge -/

structure ActiveDesktopAttach where
  session_id : HostedSessionId
  generation : OccupantGeneration
  cursor : OutputSequence

structure BridgeConnectionState where
  active : Option ActiveDesktopAttach

inductive BridgeRequest where
  | List
  | Context (session_id : HostedSessionId)
  | Execute (command_id : CommandId) (command : ControllerCommand)
  | Next
  | Reset

inductive BridgeReply where
  | Sessions (revision : Nat) (sessions : List ControllerSessionSummary)
  | Context (context : Option DesktopPaneRegistry.HostCommandContext)
  | Responses (responses : List ControllerResponse)
  | Next (response : Option ControllerResponse)
  | Reset
  | Error

/-- How the app answers when a device asks it for a terminal. -/
inductive AppAnswer where
  | busy
  | opened (session_id : HostedSessionId) (occupant_generation : OccupantGeneration)
  | refused
  | silent

/-- What a request meets outside: whether the transport takes a call, and what the app answers. -/
structure Outside where
  takes : Bool
  app : AppAnswer

structure Served where
  registry : DesktopPaneRegistry
  connection : BridgeConnectionState
  reply : BridgeReply
  calls : List TransportCall

def completion (command_id : CommandId) (applied : Bool) : List ControllerResponse :=
  [.Completed command_id applied]

def error_response (command_id : CommandId) : ControllerResponse :=
  .Error command_id "host_unavailable" false

def append_snapshot_responses (command_id : CommandId) (session_id : HostedSessionId)
    (boundary_sequence : OutputSequence) (columns rows : Nat) (bytes : List UInt8) :
    List ControllerResponse :=
  if bytes = [] then [.Snapshot command_id session_id boundary_sequence columns rows 0 1 []]
  else
    let chunks := Chunks.chunks MAX_SNAPSHOT_CHUNK_BYTES bytes
    chunks.zipIdx.map fun (chunk, index) =>
      .Snapshot command_id session_id boundary_sequence columns rows (min index (2 ^ 32 - 1))
        (min chunks.length (2 ^ 32 - 1)) chunk

/-- The device has seen less than the snapshot stands for, or than the first output follows on. -/
def needs_snapshot (pane : DesktopPaneRecord) (from_sequence : OutputSequence) : Bool :=
  from_sequence < pane.snapshot_sequence ∨
    pane.outputs.head?.any fun first =>
      (checked_add from_sequence 1).any fun expected => expected < first.sequence

def replay_from (pane : DesktopPaneRecord) (from_sequence : OutputSequence) : OutputSequence :=
  if needs_snapshot pane from_sequence then pane.snapshot_sequence else from_sequence

def replayed (pane : DesktopPaneRecord) (from_sequence : OutputSequence) : List DesktopPaneOutput :=
  pane.outputs.filter fun output => replay_from pane from_sequence < output.sequence

def replay_through (pane : DesktopPaneRecord) (from_sequence : OutputSequence) : OutputSequence :=
  (replayed pane from_sequence).getLast?.elim (replay_from pane from_sequence) (·.sequence)

def attach_responses (command_id : CommandId) (session_id : HostedSessionId)
    (connection_id : ConnectionId) (pane : DesktopPaneRecord) (from_sequence : OutputSequence) :
    List ControllerResponse :=
  (if needs_snapshot pane from_sequence then
    append_snapshot_responses command_id session_id pane.snapshot_sequence pane.columns pane.rows
      pane.snapshot
  else if from_sequence = 0 then
    append_snapshot_responses command_id session_id 0 pane.columns pane.rows []
  else []) ++
  [.Attached command_id session_id pane.generation (replay_through pane from_sequence)
    (pane.writer_connection = some connection_id)] ++
  (replayed pane from_sequence).map fun output => .Output session_id output.sequence output.bytes

section
variable (registry : DesktopPaneRegistry) (connection_id : ConnectionId)
  (connection : BridgeConnectionState)

/-- An answer that leaves everything as it is. -/
def unchanged (reply : BridgeReply) : Served := ⟨registry, connection, reply, []⟩

/-- The pane that a command is for, in the generation that the command presents. -/
def presented (session_id : HostedSessionId) (occupant_generation : OccupantGeneration) :
    Option DesktopPaneRecord :=
  (registry.pane? session_id).filter (·.generation = occupant_generation)

/-- A connection that goes to another pane gives up what it holds first. -/
def switched (session_id : HostedSessionId) : DesktopPaneRegistry × List TransportCall :=
  if connection.active.any (·.session_id ≠ session_id) then registry.release_connection connection_id
  else (registry, [])

def attach (command_id : CommandId) (session_id : HostedSessionId)
    (occupant_generation : OccupantGeneration) (from_sequence : OutputSequence) : Served :=
  let (registry, calls) := switched registry connection_id connection session_id
  match presented registry session_id occupant_generation with
  | none => ⟨registry, connection, .Responses [error_response command_id], calls⟩
  | some pane =>
    ⟨registry, ⟨some ⟨session_id, occupant_generation, replay_through pane from_sequence⟩⟩,
      .Responses (attach_responses command_id session_id connection_id pane from_sequence), calls⟩

def acquire_writer (command_id : CommandId) (session_id : HostedSessionId)
    (occupant_generation : OccupantGeneration) : Served :=
  match presented registry session_id occupant_generation with
  | none => unchanged registry connection (.Responses (completion command_id false))
  | some pane =>
    if pane.writer_connection.any (· ≠ connection_id) then
      unchanged registry connection (.Responses (completion command_id false))
    else
      ⟨registry.with_pane session_id fun pane =>
        { pane with writer_connection := some connection_id }, connection,
        .Responses (completion command_id true), []⟩

def release_writer (command_id : CommandId) (session_id : HostedSessionId)
    (occupant_generation : OccupantGeneration) : Served :=
  match presented registry session_id occupant_generation with
  | none => unchanged registry connection (.Responses (completion command_id false))
  | some pane =>
    ⟨registry.with_pane session_id (released connection_id), connection,
      .Responses (completion command_id true),
      if pane.writer_connection = some connection_id then
        [.send_resize session_id pane.columns pane.rows]
      else []⟩

def input (command_id : CommandId) (session_id : HostedSessionId)
    (occupant_generation : OccupantGeneration) (bytes : List UInt8) (takes : Bool) : Served :=
  match presented registry session_id occupant_generation with
  | none => unchanged registry connection (.Responses (completion command_id false))
  | some pane =>
    if pane.writer_connection = some connection_id then
      ⟨registry, connection, .Responses (completion command_id takes), [.send_input session_id bytes]⟩
    else unchanged registry connection (.Responses (completion command_id false))

def resize (command_id : CommandId) (session_id : HostedSessionId)
    (occupant_generation : OccupantGeneration) (columns rows : Nat) (takes : Bool) : Served :=
  match presented registry session_id occupant_generation with
  | none => unchanged registry connection (.Responses (completion command_id false))
  | some pane =>
    if pane.writer_connection ≠ some connection_id then
      unchanged registry connection (.Responses (completion command_id false))
    else
      let (columns, rows) := (clamp columns, clamp rows)
      if takes ∧ pane.transport.supports_resize then
        ⟨registry.with_pane session_id fun pane =>
          { pane with controller_viewport := some (columns, rows) }, connection,
          .Responses (completion command_id true), [.send_resize session_id columns rows]⟩
      else
        ⟨registry, connection, .Responses (completion command_id false),
          [.send_resize session_id columns rows]⟩

def detach (command_id : CommandId) (session_id : HostedSessionId) : Served :=
  if connection.active.any (·.session_id = session_id) then
    ⟨(registry.release_connection connection_id).1, ⟨none⟩, .Responses [.Detached command_id],
      (registry.release_connection connection_id).2⟩
  else unchanged registry connection (.Responses [.Detached command_id])

def execute_desktop_command (command_id : CommandId) (command : ControllerCommand) (takes : Bool) :
    Served :=
  match command with
  | .ListSessions .. | .OpenScreen | .CloseScreen | .CreateSession .. | .Unsupported =>
    unchanged registry connection (.Responses [error_response command_id])
  | .GitOverview .. | .GitLog .. | .GitDiff .. | .GitSwitch .. =>
    unchanged registry connection (.Responses [.Error command_id "git_not_local" false])
  | .AgentChat session_id .. =>
    unchanged registry connection (.Responses [.AgentChat command_id session_id none])
  | .Attach session_id occupant_generation from_sequence _ _ =>
    attach registry connection_id connection command_id session_id occupant_generation from_sequence
  | .AcquireWriter session_id occupant_generation =>
    acquire_writer registry connection_id connection command_id session_id occupant_generation
  | .ReleaseWriter session_id occupant_generation =>
    release_writer registry connection_id connection command_id session_id occupant_generation
  | .Input session_id occupant_generation bytes =>
    input registry connection_id connection command_id session_id occupant_generation bytes takes
  | .Resize session_id occupant_generation columns rows =>
    resize registry connection_id connection command_id session_id occupant_generation columns rows
      takes
  | .Approval .. =>
    unchanged registry connection
      (.Responses [.Error command_id "unsupported_for_desktop_pane" false])
  | .Detach session_id _ => detach registry connection_id connection command_id session_id

/-- The next output of the active pane, or nothing, or that the pane has gone past the connection. -/
def next_desktop_output : Served :=
  match connection.active with
  | none => unchanged registry connection (.Next none)
  | some active =>
    match presented registry active.session_id active.generation with
    | none => unchanged registry connection .Error
    | some pane =>
      if active.cursor < pane.snapshot_sequence then unchanged registry connection .Error
      else
        match pane.outputs.find? fun output => active.cursor < output.sequence with
        | none => unchanged registry connection (.Next none)
        | some output =>
          ⟨registry, ⟨some { active with cursor := output.sequence }⟩,
            .Next (some (.Output active.session_id output.sequence output.bytes)), []⟩

/-- The app is asked for a terminal, which is not in the registry before the app puts it there. -/
def open_requested_pane (command_id : CommandId) : AppAnswer → List ControllerResponse
  | .busy => [.Error command_id "create_session_busy" false]
  | .opened session_id occupant_generation =>
    [.SessionCreated command_id session_id occupant_generation]
  | .refused => [.Error command_id "create_session_refused" false]
  | .silent => [.Error command_id "completion_unknown" true]

def handle_request (request : BridgeRequest) (outside : Outside) : Served :=
  match request with
  | .List =>
    unchanged registry connection (.Sessions registry.snapshot.1 registry.snapshot.2)
  | .Context session_id =>
    unchanged registry connection (.Context (registry.context connection_id session_id))
  | .Execute command_id (.CreateSession ..) =>
    unchanged registry connection (.Responses (open_requested_pane command_id outside.app))
  | .Execute command_id command =>
    execute_desktop_command registry connection_id connection command_id command outside.takes
  | .Next => next_desktop_output registry connection
  | .Reset =>
    ⟨(registry.release_connection connection_id).1, ⟨none⟩, .Reset,
      (registry.release_connection connection_id).2⟩

end

/-! ## The app and its connections -/

structure Bridge where
  registry : DesktopPaneRegistry
  connections : SortedMap ConnectionId BridgeConnectionState
  next_connection : ConnectionId

/-- The app registers, changes and removes its panes, and connections come, ask and go. -/
inductive BridgeEvent where
  | register (registration : DesktopPaneRegistration)
  | update_title (session_id : HostedSessionId) (title : String)
  | update_size (session_id : HostedSessionId) (columns rows : Nat)
  | remove (session_id : HostedSessionId)
  | append_output (session_id : HostedSessionId) (bytes snapshot : List UInt8)
  | accept
  | request (connection_id : ConnectionId) (request : BridgeRequest) (outside : Outside)
  | ended (connection_id : ConnectionId)

/-- What a step leaves, with the reply it gives and the calls it makes. -/
structure Stepped where
  bridge : Bridge
  reply : Option BridgeReply
  calls : List TransportCall

namespace Bridge

def of_registry (b : Bridge) (registry : DesktopPaneRegistry) : Stepped := ⟨{ b with registry }, none, []⟩

def step (b : Bridge) : BridgeEvent → Stepped
  | .register registration => b.of_registry (b.registry.register registration)
  | .update_title session_id title => b.of_registry (b.registry.update_title session_id title)
  | .update_size session_id columns rows =>
    b.of_registry (b.registry.update_size session_id columns rows)
  | .remove session_id => b.of_registry (b.registry.remove session_id)
  | .append_output session_id bytes snapshot =>
    b.of_registry (b.registry.append_output session_id bytes snapshot)
  | .accept =>
    ⟨{ b with
        connections := b.connections.insert b.next_connection ⟨none⟩
        next_connection := b.next_connection + 1 }, none, []⟩
  | .request connection_id request outside =>
    match b.connections.get? connection_id with
    | none => ⟨b, none, []⟩
    | some connection =>
      let served := handle_request b.registry connection_id connection request outside
      ⟨{ b with
          registry := served.registry
          connections := b.connections.insert connection_id served.connection },
        some served.reply, served.calls⟩
  | .ended connection_id =>
    match b.connections.get? connection_id with
    | none => ⟨b, none, []⟩
    | some _ =>
      ⟨{ b with
          registry := (b.registry.release_connection connection_id).1
          connections := b.connections.erase connection_id },
        none, (b.registry.release_connection connection_id).2⟩

def start : Bridge := ⟨⟨0, SortedMap.empty⟩, SortedMap.empty, 1⟩

end Bridge

end multiplex_controller_listener.desktop_panes
