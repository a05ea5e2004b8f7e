-- The relay's routing core, as `core.rs` has it: challenges and admissions,
-- forwarding between the two endpoints of a route, and every way a route is
-- closed. Channels and cancellation tokens belong to the connection tasks.
import Multiplex.Lib.SortedMap
import Multiplex.Relay.Protocol

open multiplex_relay_protocol

namespace multiplex_relay_server

def U64_MAX : Nat := 18446744073709551615

/-! ## What the connection tasks hold -/

/-- The channel of one connection: what its task has taken out, what waits in it, and whether the
receiving half is still there. -/
structure Channel where
  capacity : Nat
  taken : List (List UInt8)
  queue : List (List UInt8)
  receiving : Bool

def Channel.none : Channel := ⟨0, [], [], false⟩

/-- `mpsc::channel(capacity)`. -/
def Channel.new (capacity : Nat) : Channel := ⟨capacity, [], [], true⟩

def Channel.stream (c : Channel) : List (List UInt8) := c.taken ++ c.queue

/-- `try_send` fails when the channel is full or its receiver is gone. -/
def Channel.try_send (c : Channel) (message : List UInt8) : Option Channel :=
  if c.receiving ∧ c.queue.length < c.capacity then some { c with queue := c.queue ++ [message] }
  else Option.none

/-- The channels and the tokens of all connections. Each connection has its own, so they go by
the id that its admission gave it. -/
structure Wires where
  channels : RelayConnectionId → Channel
  cancelled : RelayConnectionId → Bool

def Wires.default : Wires := ⟨fun _ => .none, fun _ => false⟩

def Wires.cancel (w : Wires) (id : RelayConnectionId) : Wires :=
  { w with cancelled := Function.update w.cancelled id true }

def Wires.set (w : Wires) (id : RelayConnectionId) (channel : Channel) : Wires :=
  { w with channels := Function.update w.channels id channel }

/-! ## Routes -/

/-- The endpoint that a successful admission gives its connection. -/
structure ConnectedEndpoint where
  route_id : RelayRouteId
  role : RelayEndpointRole
  connection_id : RelayConnectionId
  epoch : Nat
  deriving DecidableEq

/-- An endpoint as the core holds it. Its channel and token are those of its connection. -/
structure EndpointRuntime where
  connection_id : RelayConnectionId
  epoch : Nat
  queued_messages : Nat
  queued_encoded_bytes : Nat

structure TokenBucket where
  tokens : Nat
  rate_per_second : Nat
  burst : Nat
  last_millis : Nat

def TokenBucket.new (rate_per_second burst now_millis : Nat) : TokenBucket :=
  ⟨burst, rate_per_second, burst, now_millis⟩

/-- Refills the bucket, and takes `bytes` from it when it holds that many. -/
def TokenBucket.charge (t : TokenBucket) (bytes now_millis : Nat) : TokenBucket × Bool :=
  let elapsed := now_millis - t.last_millis
  let refill := min (elapsed * t.rate_per_second) U64_MAX / 1000
  let tokens := min (min (t.tokens + refill) U64_MAX) t.burst
  if bytes > tokens then ({ t with tokens, last_millis := now_millis }, false)
  else ({ t with tokens := tokens - bytes, last_millis := now_millis }, true)

inductive RelayRouteState
  | Registered
  | HostWaiting
  | ControllerWaiting
  | Forwarding
  | Closed
  | Revoked
  deriving DecidableEq

structure RouteRuntime where
  registration : RelayRouteRegistration
  host : Option EndpointRuntime
  controller : Option EndpointRuntime
  host_next_sequence : UInt64
  controller_next_sequence : UInt64
  rate : TokenBucket
  closed : Bool
  close_code : Option RelayDiagnosticCode

def RouteRuntime.new (registration : RelayRouteRegistration) (now_millis : Nat) : RouteRuntime where
  registration
  host := none
  controller := none
  host_next_sequence := 0
  controller_next_sequence := 0
  rate := TokenBucket.new registration.quota.rate_bytes_per_second
    registration.quota.rate_burst_bytes now_millis
  closed := false
  close_code := none

def RouteRuntime.endpoint (r : RouteRuntime) : RelayEndpointRole → Option EndpointRuntime
  | .Host => r.host
  | .Controller => r.controller

/-- `*endpoint_slot_mut(role) = endpoint`. -/
def RouteRuntime.set_endpoint (r : RouteRuntime) (role : RelayEndpointRole)
    (endpoint : Option EndpointRuntime) : RouteRuntime :=
  match role with
  | .Host => { r with host := endpoint }
  | .Controller => { r with controller := endpoint }

def peer_role : RelayEndpointRole → RelayEndpointRole
  | .Host => .Controller
  | .Controller => .Host

/-- The next number that the endpoint of a role must send. -/
def RouteRuntime.next_sequence (r : RouteRuntime) : RelayEndpointRole → UInt64
  | .Host => r.host_next_sequence
  | .Controller => r.controller_next_sequence

def RouteRuntime.count_sent (r : RouteRuntime) : RelayEndpointRole → RouteRuntime
  | .Host => { r with host_next_sequence := r.host_next_sequence + 1 }
  | .Controller => { r with controller_next_sequence := r.controller_next_sequence + 1 }

def RouteRuntime.route_state (r : RouteRuntime) : RelayRouteState :=
  if r.registration.revoked then .Revoked
  else if r.closed ∧ r.host = none ∧ r.controller = none then .Closed
  else
    match r.host, r.controller with
    | none, none => .Registered
    | some _, none => .HostWaiting
    | none, some _ => .ControllerWaiting
    | some _, some _ => .Forwarding

def cancel_endpoint (w : Wires) : Option EndpointRuntime → Wires
  | none => w
  | some endpoint => w.cancel endpoint.connection_id

/-- Both endpoints are cancelled and leave. -/
def RouteRuntime.cancel_and_clear (r : RouteRuntime) (w : Wires) : RouteRuntime × Wires :=
  ({ r with host := none, controller := none, closed := true },
    cancel_endpoint (cancel_endpoint w r.host) r.controller)

/-! ## The core -/

inductive IpAddr
  | V4 (bits : UInt32)
  | V6 (bits : BitVec 128)
  deriving DecidableEq

structure PendingChallenge where
  challenge : RelayAdmissionChallenge
  source : IpAddr

structure FailedAdmissionBucket where
  window_started_seconds : Nat
  failures : Nat

structure RelayServerLimits where
  registered_routes : Nat
  forwarding_pairs : Nat
  unauthenticated_handshakes : Nat

def RelayServerLimits.default : RelayServerLimits :=
  ⟨MAX_REGISTERED_ROUTES, MAX_FORWARDING_PAIRS, MAX_UNAUTHENTICATED_HANDSHAKES⟩

def RelayServerLimits.validate (l : RelayServerLimits) : Except RelayDiagnosticCode Unit :=
  if l.registered_routes = 0 ∨ l.registered_routes > MAX_REGISTERED_ROUTES ∨
      l.forwarding_pairs = 0 ∨ l.forwarding_pairs > MAX_FORWARDING_PAIRS ∨
      l.unauthenticated_handshakes = 0 ∨
      l.unauthenticated_handshakes > MAX_UNAUTHENTICATED_HANDSHAKES then .error .InvalidConfig
  else .ok ()

/-- The counters that change. -/
structure RelayDiagnosticSnapshot where
  accepted_connections : Nat
  rejected_connections : Nat
  forwarded_messages : Nat
  dropped_messages : Nat
  ingress_encoded_bytes : Nat
  egress_encoded_bytes : Nat

def RelayDiagnosticSnapshot.default : RelayDiagnosticSnapshot := ⟨0, 0, 0, 0, 0, 0⟩

structure RelayCore where
  routes : SortedMap RelayRouteId RouteRuntime
  challenges : SortedMap Nat PendingChallenge
  failed_admissions : IpAddr → Option FailedAdmissionBucket
  next_serial : Nat
  next_connection_id : RelayConnectionId
  limits : RelayServerLimits
  diagnostics : RelayDiagnosticSnapshot

section
variable (S : Signatures)

/-- The loop of `new`. A route that is registered twice is refused. -/
def insert_routes (now_millis : Nat) : SortedMap RelayRouteId RouteRuntime →
    List RelayRouteRegistration →
      Except RelayDiagnosticCode (SortedMap RelayRouteId RouteRuntime)
  | routes, [] => .ok routes
  | routes, registration :: rest =>
    match registration.validate S with
    | .error e => .error e.code
    | .ok () =>
      if routes.contains registration.route_id then .error .StateCorrupt
      else insert_routes now_millis
        (routes.insert registration.route_id (RouteRuntime.new registration now_millis)) rest

def RelayCore.new (registrations : List RelayRouteRegistration) (limits : RelayServerLimits)
    (now_millis : Nat) : Except RelayDiagnosticCode RelayCore := do
  limits.validate
  if registrations.length > limits.registered_routes then .error .InvalidConfig
  else do
    let routes ← insert_routes S now_millis .empty registrations
    return ⟨routes, .empty, fun _ => none, 1, 1, limits, .default⟩

/-- The result of an operation that may leave the core changed when it fails. -/
abbrev CoreResult (α : Type) := RelayCore × Except RelayDiagnosticCode α

def RelayCore.insert_registration (c : RelayCore) (registration : RelayRouteRegistration)
    (now_millis : Nat) : CoreResult Unit :=
  match registration.validate S with
  | .error e => (c, .error e.code)
  | .ok () =>
    if c.routes.size ≥ c.limits.registered_routes ∨ c.routes.contains registration.route_id then
      (c, .error .InvalidConfig)
    else
      ({ c with
          routes := c.routes.insert registration.route_id
            (RouteRuntime.new registration now_millis) }, .ok ())

end

/-! ### Failed admissions -/

def RelayCore.reject {α : Type} (c : RelayCore) (code : RelayDiagnosticCode) : CoreResult α :=
  ({ c with
      diagnostics := { c.diagnostics with
        rejected_connections := c.diagnostics.rejected_connections + 1 } }, .error code)

/-- The window of a source has passed. -/
def FailedAdmissionBucket.stale (b : FailedAdmissionBucket) (now_seconds : Nat) : Bool :=
  decide (now_seconds - b.window_started_seconds > FAILED_ADMISSION_WINDOW_SECONDS)

def RelayCore.prune_expired (c : RelayCore) (now_seconds : Nat) : RelayCore :=
  { c with
    challenges := c.challenges.filter fun _ pending =>
      decide (pending.challenge.expires_at_unix_seconds ≥ now_seconds)
    failed_admissions := fun source =>
      (c.failed_admissions source).filter fun bucket => !bucket.stale now_seconds }

def RelayCore.source_is_limited (c : RelayCore) (source : IpAddr) (now_seconds : Nat) : Bool :=
  (c.failed_admissions source).any fun bucket =>
    !bucket.stale now_seconds && decide (bucket.failures ≥ MAX_FAILED_ADMISSIONS_PER_SOURCE)

def RelayCore.record_failed (c : RelayCore) (source : IpAddr) (now_seconds : Nat) : RelayCore :=
  let bucket := (c.failed_admissions source).getD ⟨now_seconds, 0⟩
  let bucket := if bucket.stale now_seconds then ⟨now_seconds, 0⟩ else bucket
  { c with
    failed_admissions := Function.update c.failed_admissions source
      (some { bucket with failures := min (bucket.failures + 1) 4294967295 }) }

/-- A failed attempt is counted against its source. -/
def RelayCore.refuse {α : Type} (c : RelayCore) (source : IpAddr) (now_seconds : Nat)
    (code : RelayDiagnosticCode) : CoreResult α :=
  (c.record_failed source now_seconds).reject code

/-! ### Challenges and admissions -/

/-- The operating system's random bytes are `nonce`. -/
def RelayCore.issue_challenge (c : RelayCore) (route_id : RelayRouteId) (role : RelayEndpointRole)
    (source : IpAddr) (now_seconds : Nat) (nonce : ByteArrayOf 32) :
    CoreResult RelayAdmissionChallenge :=
  let c := c.prune_expired now_seconds
  if c.source_is_limited source now_seconds then c.reject .AdmissionRateLimited
  else if c.challenges.size ≥ MAX_UNAUTHENTICATED_HANDSHAKES then c.reject .HandshakeLimit
  else
    match c.routes.get? route_id with
    | none => c.refuse source now_seconds .UnknownRoute
    | some route =>
      if route.registration.revoked then c.refuse source now_seconds .Revoked
      else if (route.endpoint role).isSome then c.refuse source now_seconds .DuplicateRole
      else if c.next_serial ≥ U64_MAX then (c, .error .Internal)
      else
        let challenge : RelayAdmissionChallenge :=
          { route_id, role, nonce
            verifier := route.registration.verifier_for role
            revocation_epoch := route.registration.revocation_epoch
            serial := c.next_serial
            expires_at_unix_seconds := min (now_seconds + ADMISSION_LIFETIME_SECONDS) U64_MAX }
        ({ c with
            next_serial := c.next_serial + 1
            challenges := c.challenges.insert c.next_serial ⟨challenge, source⟩ }, .ok challenge)

def RelayCore.forwarding_pairs (c : RelayCore) : Nat :=
  (c.routes.entries.filter fun e => decide (e.2.route_state = .Forwarding)).length

/-- The endpoint enters its slot. A pair that forms starts both sequences again. -/
def RouteRuntime.admit_endpoint (r : RouteRuntime) (role : RelayEndpointRole) (id : RelayConnectionId) :
    RouteRuntime :=
  let creates_pair := (r.endpoint (peer_role role)).isSome
  let r := r.set_endpoint role (some ⟨id, r.registration.revocation_epoch, 0, 0⟩)
  { r with
    closed := false
    close_code := none
    host_next_sequence := if creates_pair then 0 else r.host_next_sequence
    controller_next_sequence := if creates_pair then 0 else r.controller_next_sequence }

/-- What `admit` does once the proof is good. -/
def RelayCore.admit_to (c : RelayCore) (w : Wires) (challenge : RelayAdmissionChallenge)
    (source : IpAddr) (now_seconds capacity : Nat) :
    RelayCore × Wires × Except RelayDiagnosticCode ConnectedEndpoint :=
  match c.routes.get? challenge.route_id with
  | none => (c, w, .error .UnknownRoute)
  | some route =>
    if route.registration.revoked ∨
        route.registration.revocation_epoch ≠ challenge.revocation_epoch then
      let r := c.refuse source now_seconds .Revoked
      (r.1, w, r.2)
    else if (route.endpoint challenge.role).isSome then
      let r := c.refuse source now_seconds .DuplicateRole
      (r.1, w, r.2)
    else if (route.endpoint (peer_role challenge.role)).isSome ∧
        c.forwarding_pairs ≥ c.limits.forwarding_pairs then
      let r := c.reject .PairLimit
      (r.1, w, r.2)
    else if c.next_connection_id ≥ U64_MAX then (c, w, .error .Internal)
    else
      let id := c.next_connection_id
      ({ c with
          next_connection_id := c.next_connection_id + 1
          routes := c.routes.insert challenge.route_id (route.admit_endpoint challenge.role id)
          diagnostics := { c.diagnostics with
            accepted_connections := c.diagnostics.accepted_connections + 1 } },
        w.set id (.new capacity),
        .ok ⟨challenge.route_id, challenge.role, id, route.registration.revocation_epoch⟩)

/-- The challenge is used up whatever comes of the proof. `capacity` is that of the channel that
the connection brings. -/
def RelayCore.admit_endpoint (S : Signatures) (c : RelayCore) (w : Wires) (proof : RelayAdmissionProof)
    (source : IpAddr) (now_seconds capacity : Nat) :
    RelayCore × Wires × Except RelayDiagnosticCode ConnectedEndpoint :=
  match c.challenges.get? proof.serial with
  | none =>
    let r := c.refuse source now_seconds .ReplayedProof
    (r.1, w, r.2)
  | some pending =>
    let c := { c with challenges := c.challenges.erase proof.serial }
    if pending.source ≠ source then
      let r := c.refuse source now_seconds .InvalidProof
      (r.1, w, r.2)
    else if now_seconds > pending.challenge.expires_at_unix_seconds then
      let r := c.refuse source now_seconds .ExpiredProof
      (r.1, w, r.2)
    else
      match proof.verify S pending.challenge with
      | .error _ =>
        let r := c.refuse source now_seconds .InvalidProof
        (r.1, w, r.2)
      | .ok () => c.admit_to w pending.challenge source now_seconds capacity

/-! ### Forwarding -/

/-- The endpoint is still the one in its slot, and its route was not revoked. -/
def validate_endpoint (route : RouteRuntime) (endpoint : ConnectedEndpoint) :
    Except RelayDiagnosticCode Unit :=
  if route.registration.revoked ∨ route.registration.revocation_epoch ≠ endpoint.epoch then
    .error .RevokedLive
  else if !(route.endpoint endpoint.role).any fun runtime =>
      decide (runtime.connection_id = endpoint.connection_id ∧ runtime.epoch = endpoint.epoch) then
    .error .PeerDisconnected
  else .ok ()

/-- `checked_add`, against the largest `usize`. -/
def queue_would_exceed (current additional maximum : Nat) : Bool :=
  decide (current + additional > U64_MAX) || decide (current + additional > maximum)

/-- Both endpoints of a route are sent away. -/
def RelayCore.close_with (c : RelayCore) (w : Wires) (route_id : RelayRouteId)
    (code : RelayDiagnosticCode) : RelayCore × Wires × Except RelayDiagnosticCode Unit :=
  match c.routes.get? route_id with
  | none => (c, w, .error code)
  | some route =>
    let r := ({ route with close_code := some code } : RouteRuntime).cancel_and_clear w
    ({ c with routes := c.routes.insert route_id r.1 }, r.2, .error code)

def RelayCore.drop_message (c : RelayCore) : RelayCore :=
  { c with
    diagnostics := { c.diagnostics with dropped_messages := c.diagnostics.dropped_messages + 1 } }

/-- The message is charged to the peer that it waits for. -/
def RouteRuntime.queue_for (r : RouteRuntime) (role : RelayEndpointRole) (peer : EndpointRuntime)
    (encoded_len : Nat) : RouteRuntime :=
  r.set_endpoint role (some { peer with
    queued_messages := peer.queued_messages + 1
    queued_encoded_bytes := peer.queued_encoded_bytes + encoded_len })

def RelayCore.count_forwarded (c : RelayCore) (encoded_len : Nat) : RelayCore :=
  { c with
    diagnostics := { c.diagnostics with
      forwarded_messages := c.diagnostics.forwarded_messages + 1
      ingress_encoded_bytes := c.diagnostics.ingress_encoded_bytes + encoded_len
      egress_encoded_bytes := c.diagnostics.egress_encoded_bytes + encoded_len } }

/-- What `forward` does once the envelope is the one expected: quotas, rate, and the channel. -/
def RelayCore.deliver_to (c : RelayCore) (w : Wires) (route : RouteRuntime)
    (sender : ConnectedEndpoint) (peer : EndpointRuntime) (envelope : RelayEnvelopeV1)
    (encoded : List UInt8) (now_millis : Nat) :
    RelayCore × Wires × Except RelayDiagnosticCode Unit :=
  let quota := route.registration.quota
  if peer.queued_messages ≥ quota.queue_messages ∨
      queue_would_exceed peer.queued_encoded_bytes encoded.length quota.queue_encoded_bytes then
    c.drop_message.close_with w sender.route_id .QueueLimit
  else
    let (rate, charged) := route.rate.charge encoded.length now_millis
    let route := { route with rate }
    -- the bucket keeps its charge also when the message is then dropped
    let c := { c with routes := c.routes.insert sender.route_id route }
    if !charged then c.drop_message.close_with w sender.route_id .RateLimit
    else
      match (w.channels peer.connection_id).try_send encoded with
      | none => c.drop_message.close_with w sender.route_id .QueueLimit
      | some channel =>
        let route := (route.queue_for (peer_role sender.role) peer envelope.encoded_len).count_sent
          sender.role
        (({ c with routes := c.routes.insert sender.route_id route } :
            RelayCore).count_forwarded envelope.encoded_len,
          w.set peer.connection_id channel, .ok ())

def RelayCore.forward (c : RelayCore) (w : Wires) (sender : ConnectedEndpoint)
    (envelope : RelayEnvelopeV1) (encoded : List UInt8) (now_millis : Nat) :
    RelayCore × Wires × Except RelayDiagnosticCode Unit :=
  match c.routes.get? sender.route_id with
  | none => (c, w, .error .UnknownRoute)
  | some route =>
    match validate_endpoint route sender with
    | .error code => (c, w, .error code)
    | .ok () =>
      if route.route_state ≠ .Forwarding then (c, w, .error .PeerOffline)
      else if envelope.route_id ≠ sender.route_id then
        c.close_with w sender.route_id .RouteMismatch
      else if envelope.direction ≠ RelayDirection.for_sender sender.role then
        c.close_with w sender.route_id .DirectionMismatch
      else if envelope.sequence < route.next_sequence sender.role then
        c.close_with w sender.route_id .SequenceReplay
      else if envelope.sequence ≠ route.next_sequence sender.role then
        c.close_with w sender.route_id .SequenceGap
      else
        match route.endpoint (peer_role sender.role) with
        | none => (c, w, .error .PeerOffline)
        | some peer => c.deliver_to w route sender peer envelope encoded now_millis

/-- A message left the channel of an endpoint. -/
def RelayCore.delivered (c : RelayCore) (endpoint : ConnectedEndpoint) (encoded_bytes : Nat) :
    RelayCore :=
  match c.routes.get? endpoint.route_id with
  | none => c
  | some route =>
    match route.endpoint endpoint.role with
    | none => c
    | some runtime =>
      if runtime.connection_id = endpoint.connection_id ∧ runtime.epoch = endpoint.epoch then
        { c with
          routes := c.routes.insert endpoint.route_id (route.set_endpoint endpoint.role
            (some { runtime with
              queued_messages := runtime.queued_messages - 1
              queued_encoded_bytes := runtime.queued_encoded_bytes - encoded_bytes })) }
      else c

def RelayCore.disconnect (c : RelayCore) (w : Wires) (endpoint : ConnectedEndpoint) :
    RelayCore × Wires :=
  match c.routes.get? endpoint.route_id with
  | none => (c, w)
  | some route =>
    if (route.endpoint endpoint.role).any fun runtime =>
        decide (runtime.connection_id = endpoint.connection_id) then
      let r := ({ route with close_code := some .PeerDisconnected } :
        RouteRuntime).cancel_and_clear w
      ({ c with routes := c.routes.insert endpoint.route_id r.1 }, r.2)
    else (c, w)

/-! ### Revocation -/

/-- The route is closed for good, and its challenges are void. -/
def RelayCore.apply_revocation (c : RelayCore) (w : Wires) (route_id : RelayRouteId) (epoch : Nat) :
    RelayCore × Wires × Except RelayDiagnosticCode Unit :=
  match c.routes.get? route_id with
  | none => (c, w, .error .UnknownRoute)
  | some route =>
    if epoch ≤ route.registration.revocation_epoch then (c, w, .error .Internal)
    else
      let revoked : RouteRuntime :=
        { route with
          registration := { route.registration with revocation_epoch := epoch, revoked := true }
          close_code := some .RevokedLive }
      let r := revoked.cancel_and_clear w
      ({ c with
          routes := c.routes.insert route_id r.1
          challenges := c.challenges.filter fun _ pending =>
            decide (pending.challenge.route_id ≠ route_id) }, r.2, .ok ())

end multiplex_relay_server
