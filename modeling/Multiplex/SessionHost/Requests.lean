-- The requests that change a Session Host, as `host.rs` serves them. Each
-- connection is a task of its own, and a step ends where the task lets others
-- run on what it read or wrote: the writer lease, the cache of commands, the
-- pseudo-terminal and the screen model are each behind a lock of their own.
import Multiplex.Lib.Expiring
import Multiplex.SessionHost.Codec

open Expiring
open multiplex_host_protocol (WireEnvelope Viewport)

namespace multiplex_session_host.requests

/-! ## Commands that were carried out -/

/-- In nanoseconds. -/
def IDEMPOTENCY_TTL : Nat := 600 * 1000000000
def MAX_IDEMPOTENCY_OUTCOMES : Nat := 1024

structure MutationEntry where
  hash : UInt32
  recorded_at : Nat

/-- A command id is a UUID, here its bytes. -/
structure MutationCache where
  entries : Entries (List UInt8) MutationEntry
  order : List (List UInt8)

def MutationCache.default : MutationCache := ⟨∅, []⟩

inductive MutationDecision where
  | Apply
  | Replay
  | Conflict

def MutationEntry.expired (now : Nat) (entry : MutationEntry) : Bool :=
  decide (now - entry.recorded_at ≥ IDEMPOTENCY_TTL)

def MutationCache.prune (c : MutationCache) (now : Nat) : MutationCache :=
  let (order, entries) := Expiring.prune (MutationEntry.expired now) c.order c.entries
  ⟨entries, order⟩

def MutationCache.inspect (c : MutationCache) (id : List UInt8) (hash : UInt32) (now : Nat) :
    MutationDecision × MutationCache :=
  let c := c.prune now
  match c.entries.lookup id with
  | none => (.Apply, c)
  | some entry => (if entry.hash = hash then .Replay else .Conflict, c)

/-- `none` where the loop that makes room does not end. -/
def MutationCache.record (c : MutationCache) (id : List UInt8) (hash : UInt32) (now : Nat) :
    Option MutationCache :=
  let c := c.prune now
  if id ∈ c.entries then some { c with entries := c.entries.insert id ⟨hash, now⟩ }
  else
    (evict MAX_IDEMPOTENCY_OUTCOMES c.order c.entries).map fun (order, entries) =>
      ⟨entries.insert id ⟨hash, now⟩, order ++ [id]⟩

structure NonceCache where
  entries : Entries (List UInt8) Nat
  order : List (List UInt8)

def NonceCache.default : NonceCache := ⟨∅, []⟩

/-- `none` where the loop that makes room does not end. -/
def NonceCache.accept (c : NonceCache) (nonce : List UInt8) (now : Nat) :
    Option (Bool × NonceCache) :=
  let (order, entries) :=
    Expiring.prune (fun recorded => decide (now - recorded ≥ IDEMPOTENCY_TTL)) c.order c.entries
  if nonce ∈ entries then some (false, ⟨entries, order⟩)
  else
    (evict MAX_IDEMPOTENCY_OUTCOMES order entries).map fun (order, entries) =>
      (true, ⟨entries.insert nonce now, order ++ [nonce]⟩)

/-! ## The Host -/

/-- The size of a pseudo-terminal or of a screen, in cells. -/
structure PtySize where
  rows : Nat
  cols : Nat
  deriving DecidableEq

def MIN_ROWS : Nat := 2

inductive StopSignal where
  | Interrupt
  | Terminate
  | Kill

/-- `master` and `parser` are the sizes of the two. `written` is what input requests wrote to the
terminal and `signalled` what was sent to the process, so far. -/
structure RuntimeState where
  session_id : List UInt8
  next_connection : Nat
  writer_lease : Option Nat
  idempotency : MutationCache
  handshake_nonces : NonceCache
  master : PtySize
  parser : PtySize
  written : List UInt8
  signalled : List StopSignal

def RuntimeState.launch (session_id : List UInt8) (rows columns : Nat) : RuntimeState where
  session_id
  next_connection := 1
  writer_lease := none
  idempotency := .default
  handshake_nonces := .default
  master := ⟨max rows MIN_ROWS, columns⟩
  parser := ⟨max rows MIN_ROWS, columns⟩
  written := []
  signalled := []

def RuntimeState.claim_writer (s : RuntimeState) (connection_id : Nat) : RuntimeState :=
  match s.writer_lease with
  | none => { s with writer_lease := some connection_id }
  | some _ => s

def RuntimeState.release_writer (s : RuntimeState) (connection_id : Nat) : RuntimeState :=
  if s.writer_lease = some connection_id then { s with writer_lease := none } else s

def RuntimeState.has_writer (s : RuntimeState) (connection_id : Nat) : Bool :=
  decide (s.writer_lease = some connection_id)

/-! ## What the calls of a request come to -/

/-- The child process: whether it is gone, which signals reach it, and which of them end it before
their deadline. -/
structure Process where
  exited : Bool
  reached_by : StopSignal → Bool
  ended_by : StopSignal → Bool

/-- The clock when the cache is asked and when the outcome is recorded, what the operating system
answers, and whether the answer can be sent. `accepts` is the check of the negotiated capabilities.
A write that fails has written the first `partly` bytes. -/
structure Calls where
  inspected : Nat
  recorded : Nat
  accepts : Bool
  writes : Bool
  partly : Nat
  gets_size : Bool
  resizes : Bool
  process : Process
  sends : Bool

inductive ErrorCode where
  | PermissionDenied
  | InvalidState
  | ConflictingDuplicate
  | HandshakeReplay
  | ProtocolIncompatible
  deriving DecidableEq

inductive Reply where
  | HandshakeResponse
  | CommandResult (command_id : List UInt8)
  | WriterLeaseEvent (command_id : List UInt8) (held : Bool)
  | ProtocolError (code : ErrorCode)
  deriving DecidableEq

/-- The answer, when it can be sent. -/
def Calls.send (o : Calls) (reply : Reply) : List Reply := if o.sends then [reply] else []

/-! ## Effects -/

def RuntimeState.write_all (s : RuntimeState) (bytes : List UInt8) (o : Calls) :
    RuntimeState × Bool :=
  if o.writes then ({ s with written := s.written ++ bytes }, true)
  else ({ s with written := s.written ++ bytes.take o.partly }, false)

def RuntimeState.resize (s : RuntimeState) (size : PtySize) (o : Calls) : RuntimeState × Bool :=
  if !o.gets_size then (s, false)
  else if s.master = size then (s, true)
  else if !o.resizes then (s, false)
  else ({ s with master := size }, true)

def RuntimeState.signal_owned (s : RuntimeState) (signal : StopSignal) (o : Calls) :
    RuntimeState × Bool :=
  if o.process.reached_by signal then ({ s with signalled := s.signalled ++ [signal] }, true)
  else (s, false)

/-- The gentlest signal first, unless the stop is forced. -/
def RuntimeState.stop_owned (s : RuntimeState) (force : Bool) (o : Calls) : RuntimeState × Bool :=
  if o.process.exited then (s, true)
  else if force then
    match s.signal_owned .Kill o with
    | (s, false) => (s, false)
    | (s, true) => (s, o.process.ended_by .Kill)
  else
    match s.signal_owned .Interrupt o with
    | (s, false) => (s, false)
    | (s, true) =>
      if o.process.ended_by .Interrupt then (s, true)
      else
        match s.signal_owned .Terminate o with
        | (s, false) => (s, false)
        | (s, true) =>
          if o.process.ended_by .Terminate then (s, true)
          else
            match s.signal_owned .Kill o with
            | (s, false) => (s, false)
            | (s, true) => (s, o.process.ended_by .Kill)

/-! ## One command -/

/-- What became of a command. -/
inductive Verdict where
  | Applied
  | Failed
  | Replayed
  | Refused
  deriving DecidableEq

/-- A command that got as far as the cache. -/
structure Command where
  id : List UInt8
  payload : List UInt8
  verdict : Verdict
  deriving DecidableEq

/-- The Host after a request, what was answered, and whether the request returned without an
error. -/
structure Handled where
  state : RuntimeState
  replies : List Reply
  command : Option Command
  returned : Bool

def validCommand (command_bytes request_id : List UInt8) : Bool :=
  decide (command_bytes.length = 16) && decide (command_bytes = request_id)

section
variable (crc32c : List UInt8 → UInt32)

/-- The cache is locked from `inspect` until the answer was sent. -/
def RuntimeState.handle_mutation (s : RuntimeState) (request_id command_bytes payload : List UInt8)
    (apply : RuntimeState → Calls → RuntimeState × Bool) (o : Calls) : Option Handled :=
  if !validCommand command_bytes request_id then some ⟨s, [], none, false⟩
  else
    let hash := crc32c payload
    match s.idempotency.inspect command_bytes hash o.inspected with
    | (.Apply, cache) =>
      match apply { s with idempotency := cache } o with
      | (s, false) => some ⟨s, [], some ⟨command_bytes, payload, .Failed⟩, false⟩
      | (s, true) =>
        (s.idempotency.record command_bytes hash o.recorded).map fun cache =>
          ⟨{ s with idempotency := cache }, o.send (.CommandResult command_bytes),
            some ⟨command_bytes, payload, .Applied⟩, o.sends⟩
    | (.Replay, cache) =>
      some ⟨{ s with idempotency := cache }, o.send (.CommandResult command_bytes),
        some ⟨command_bytes, payload, .Replayed⟩, o.sends⟩
    | (.Conflict, cache) =>
      some ⟨{ s with idempotency := cache }, o.send (.ProtocolError .ConflictingDuplicate),
        some ⟨command_bytes, payload, .Refused⟩, o.sends⟩

/-- A stop that could not be carried out is answered as one, and ends the connection. So does one
that is refused. -/
def RuntimeState.handle_stop (s : RuntimeState) (request_id command_bytes payload : List UInt8)
    (force : Bool) (o : Calls) : Option Handled :=
  if !validCommand command_bytes request_id then some ⟨s, [], none, false⟩
  else
    let hash := crc32c payload
    match s.idempotency.inspect command_bytes hash o.inspected with
    | (.Apply, cache) =>
      match RuntimeState.stop_owned { s with idempotency := cache } force o with
      | (s, false) =>
        some ⟨s, o.send (.ProtocolError .InvalidState), some ⟨command_bytes, payload, .Failed⟩, false⟩
      | (s, true) =>
        (s.idempotency.record command_bytes hash o.recorded).map fun cache =>
          ⟨{ s with idempotency := cache }, o.send (.CommandResult command_bytes),
            some ⟨command_bytes, payload, .Applied⟩, o.sends⟩
    | (.Replay, cache) =>
      some ⟨{ s with idempotency := cache }, o.send (.CommandResult command_bytes),
        some ⟨command_bytes, payload, .Replayed⟩, o.sends⟩
    | (.Conflict, cache) =>
      some ⟨{ s with idempotency := cache }, o.send (.ProtocolError .ConflictingDuplicate),
        some ⟨command_bytes, payload, .Refused⟩, false⟩

end

/-! ## Connections -/

/-- The requests of a connection that has shaken hands. `Reading` stands for those that only read
the Host: its state, an attach, the activity. -/
inductive Message where
  | InputRequest (session_id command_id bytes : List UInt8)
  | ResizeRequest (session_id command_id : List UInt8) (viewport : Option Viewport)
  | InterruptRequest (session_id command_id : List UInt8)
  | StopRequest (session_id command_id : List UInt8) (force : Bool)
  | WriterLeaseRequest (session_id command_id : List UInt8) (acquire : Bool)
  | Reading (session_id : List UInt8)
  | DetachRequest (session_id : List UInt8)

def Message.session_id : Message → List UInt8
  | .InputRequest session_id _ _ => session_id
  | .ResizeRequest session_id _ _ => session_id
  | .InterruptRequest session_id _ => session_id
  | .StopRequest session_id _ _ => session_id
  | .WriterLeaseRequest session_id _ _ => session_id
  | .Reading session_id => session_id
  | .DetachRequest session_id => session_id

/-- Where the task of a connection stands. `Writing` has passed the check of the lease, `Resized`
has yet to size the screen, and `Ended` has yet to release the lease. -/
inductive Phase where
  | Closed
  | Opened
  | Greeted (request_writer_lease : Bool)
  | Idle
  | Writing (request_id command_id payload bytes : List UInt8)
  | Resized (size : PtySize)
  | Ended
  deriving DecidableEq

/-- The Host with its connections. The clock is that of the cache of commands, and never goes
back. -/
structure World where
  state : RuntimeState
  phases : Nat → Phase
  clock : Nat

def World.launch (session_id : List UInt8) (rows columns : Nat) : World :=
  ⟨.launch session_id rows columns, fun _ => .Closed, 0⟩

def World.go (w : World) (c : Nat) (phase : Phase) : World :=
  { w with phases := Function.update w.phases c phase }

/-- What one step shows. -/
structure Seen where
  replies : List Reply
  command : Option Command
  deriving DecidableEq

def Seen.nothing : Seen := ⟨[], none⟩

/-- The size that a resize asks for, unless it is out of bounds. -/
def requestedSize (viewport : Option Viewport) : Option PtySize :=
  match viewport with
  | none => none
  | some viewport =>
    let rows := viewport.rows.toNat
    let cols := viewport.columns.toNat
    if rows > 65535 ∨ cols > 65535 then none
    else if rows = 0 ∨ cols = 0 then none
    else if rows > 1000 ∨ cols > 1000 then none
    else some ⟨max rows MIN_ROWS, cols⟩

/-- The connection goes on in this phase, or ends, as the request returned. -/
def World.after (w : World) (c : Nat) (phase : Phase) (o : Calls) (handled : Option Handled) :
    Option (World × Seen) :=
  handled.map fun h =>
    (({ w with state := h.state, clock := o.recorded } : World).go c
        (if h.returned then phase else .Ended), ⟨h.replies, h.command⟩)

section
variable (decode : WireEnvelope → Option Message) (crc32c : List UInt8 → UInt32)

/-- The first step of a request. Input is checked against the lease here, and written later. -/
def World.request (w : World) (c : Nat) (envelope : WireEnvelope) (limit : Nat) (o : Calls) :
    Option (World × Seen) :=
  match decode envelope with
  | none => some (w.go c .Ended, .nothing)
  | some message =>
    if !o.accepts then some (w.go c .Ended, ⟨o.send (.ProtocolError .InvalidState), none⟩)
    else if message.session_id ≠ w.state.session_id then some (w.go c .Ended, .nothing)
    else
      let request_id := envelope.request_id.val
      let payload := envelope.payload
      match message with
      | .Reading _ => some (w.go c (if o.sends then .Idle else .Ended), .nothing)
      | .InputRequest _ command_id bytes =>
        if !w.state.has_writer c then
          some (w.go c .Ended, ⟨o.send (.ProtocolError .PermissionDenied), none⟩)
        else if bytes.length > limit then some (w.go c .Ended, .nothing)
        else some (w.go c (.Writing request_id command_id payload bytes), .nothing)
      | .ResizeRequest _ command_id viewport =>
        match requestedSize viewport with
        | none => some (w.go c .Ended, .nothing)
        | some size =>
          w.after c (.Resized size) o
            (w.state.handle_mutation crc32c request_id command_id payload (fun s => s.resize size) o)
      | .InterruptRequest _ command_id =>
        w.after c .Idle o
          (w.state.handle_mutation crc32c request_id command_id payload
            (fun s => s.signal_owned .Interrupt) o)
      | .StopRequest _ command_id force =>
        w.after c .Idle o (w.state.handle_stop crc32c request_id command_id payload force o)
      | .WriterLeaseRequest _ command_id acquire =>
        if !validCommand command_id request_id then some (w.go c .Ended, .nothing)
        else
          let state := if acquire then w.state.claim_writer c else w.state.release_writer c
          let held := acquire && state.has_writer c
          some (({ w with state := state } : World).go c (if o.sends then .Idle else .Ended),
            ⟨o.send (.WriterLeaseEvent command_id held), none⟩)
      | .DetachRequest _ => some (w.go c .Ended, .nothing)

/-! ## Steps -/

/-- `Open` is a connection that was accepted, `Greet` its handshake up to the nonce and `Welcome`
the rest of it. `Write` and `Screen` go on with an input and a resize. `Leave` ends a connection
that waits, for whatever reason, and `Release` is the end of its task. -/
inductive Event where
  | Open
  | Greet (c : Nat) (nonce : List UInt8) (request_writer_lease : Bool) (o : Calls)
  | Welcome (c : Nat) (o : Calls)
  | Request (c : Nat) (envelope : WireEnvelope) (limit : Nat) (o : Calls)
  | Write (c : Nat) (o : Calls)
  | Screen (c : Nat)
  | Leave (c : Nat)
  | Release (c : Nat)

/-- `none` where the step cannot be taken: the connection is elsewhere, or the clock goes back. -/
def World.step (w : World) : Event → Option (World × Seen)
  | .Open =>
    some (({ w with state.next_connection := w.state.next_connection + 1 } : World).go
      w.state.next_connection .Opened, .nothing)
  | .Greet c nonce request_writer_lease o =>
    if w.phases c = .Opened then
      (w.state.handshake_nonces.accept nonce o.inspected).map fun (fresh, nonces) =>
        let w : World := { w with state.handshake_nonces := nonces }
        if fresh then (w.go c (.Greeted request_writer_lease), .nothing)
        else (w.go c .Ended, ⟨o.send (.ProtocolError .HandshakeReplay), none⟩)
    else none
  | .Welcome c o =>
    match w.phases c with
    | .Greeted request_writer_lease =>
      if !o.accepts then some (w.go c .Ended, ⟨o.send (.ProtocolError .ProtocolIncompatible), none⟩)
      else
        let state := if request_writer_lease then w.state.claim_writer c else w.state
        some (({ w with state := state } : World).go c (if o.sends then .Idle else .Ended),
          ⟨o.send .HandshakeResponse, none⟩)
    | _ => none
  | .Request c envelope limit o =>
    if w.phases c = .Idle ∧ w.clock ≤ o.inspected ∧ o.inspected ≤ o.recorded then
      w.request decode crc32c c envelope limit o
    else none
  | .Write c o =>
    match w.phases c with
    | .Writing request_id command_id payload bytes =>
      if w.clock ≤ o.inspected ∧ o.inspected ≤ o.recorded then
        w.after c .Idle o
          (w.state.handle_mutation crc32c request_id command_id payload (fun s => s.write_all bytes) o)
      else none
    | _ => none
  | .Screen c =>
    match w.phases c with
    | .Resized size => some (({ w with state.parser := size } : World).go c .Idle, .nothing)
    | _ => none
  | .Leave c =>
    match w.phases c with
    | .Opened | .Greeted _ | .Idle => some (w.go c .Ended, .nothing)
    | _ => none
  | .Release c =>
    if w.phases c = .Ended then
      some (({ w with state := w.state.release_writer c } : World).go c .Closed, .nothing)
    else none

def World.steps (w : World) : List Event → Option (World × List Seen)
  | [] => some (w, [])
  | e :: events =>
    match w.step decode crc32c e with
    | none => none
    | some (w, now) => (w.steps events).map fun (w, seen) => (w, now :: seen)

/-- When the cache is asked in this step. -/
def Event.inspected_at : Event → Nat
  | .Request _ _ _ o => o.inspected
  | .Write _ o => o.inspected
  | _ => 0

inductive Run : World → List Seen → World → Prop
  | nil {w : World} : Run w [] w
  | snoc {w w' w'' : World} {seen : List Seen} {e : Event} {now : Seen} : Run w seen w' →
      w'.step decode crc32c e = some (w'', now) → Run w (seen ++ [now]) w''

end

theorem run_steps {decode : WireEnvelope → Option Message} {crc32c : List UInt8 → UInt32}
    {w w' w'' : World} {seen later : List Seen} {events : List Event}
    (h : Run decode crc32c w seen w') (hs : w'.steps decode crc32c events = some (w'', later)) :
    Run decode crc32c w (seen ++ later) w'' := by
  induction events generalizing w' seen later with
  | nil =>
    cases hs
    rwa [List.append_nil]
  | cons e events ih =>
    unfold World.steps at hs
    split at hs
    · cases hs
    · rename_i w₁ now hstep
      obtain ⟨⟨w₂, rest⟩, hrest, heq⟩ := Option.map_eq_some_iff.mp hs
      cases heq
      have := ih (h.snoc hstep) hrest
      rwa [List.append_assoc] at this

/-! ## Calls that succeed -/

def sessionId : List UInt8 := List.replicate 16 1

/-- Every call succeeds at once. -/
def Calls.fine : Calls where
  inspected := 0
  recorded := 0
  accepts := true
  writes := true
  partly := 0
  gets_size := true
  resizes := true
  process := ⟨false, fun _ => true, fun _ => true⟩
  sends := true

/-- A connection comes and shakes hands. -/
def comes (c : Nat) (nonce : UInt8) (request_writer_lease : Bool) : List Event :=
  [.Open, .Greet c (List.replicate 32 nonce) request_writer_lease .fine, .Welcome c .fine]

end multiplex_session_host.requests
