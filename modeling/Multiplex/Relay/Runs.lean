-- Runs of the relay core. A world is the core, the channels of the connection
-- tasks, and a record of what was admitted and forwarded. Everything an
-- operation can do to a route is one of seven effects.
import Multiplex.Relay.Core

open multiplex_relay_protocol

namespace multiplex_relay_server

/-- One envelope that `forward` accepted, and the connection that was then the sender's peer. -/
structure Forwarded where
  sender : ConnectedEndpoint
  peer : RelayConnectionId
  envelope : RelayEnvelopeV1
  encoded : List UInt8

structure World where
  core : RelayCore
  wires : Wires
  /-- Messages a task took from its channel and has not reported as delivered. -/
  inflight : RelayConnectionId → List (List UInt8)
  /-- The endpoints that were admitted, in order, and the serials of their challenges. -/
  admitted : List ConnectedEndpoint
  serials : List Nat
  log : List Forwarded

def World.start (core : RelayCore) : World := ⟨core, .default, fun _ => [], [], [], []⟩

/-- The calls of the server, and what the connection tasks do with their channels. -/
inductive Op
  | issue_challenge (route_id : RelayRouteId) (role : RelayEndpointRole) (source : IpAddr)
      (now_seconds : Nat) (nonce : ByteArrayOf 32)
  | admit_endpoint (proof : RelayAdmissionProof) (source : IpAddr) (now_seconds capacity : Nat)
  | forward (sender : ConnectedEndpoint) (encoded : List UInt8) (now_millis : Nat)
  | take (id : RelayConnectionId)
  | delivered (endpoint : ConnectedEndpoint) (index : Nat)
  | drop_receiver (id : RelayConnectionId)
  | disconnect (endpoint : ConnectedEndpoint)
  | insert_registration (registration : RelayRouteRegistration) (now_millis : Nat)
  | apply_revocation (route_id : RelayRouteId) (epoch : Nat)

def RelayCore.slot (c : RelayCore) (route_id : RelayRouteId) (role : RelayEndpointRole) :
    Option RelayConnectionId :=
  ((c.routes.get? route_id).bind fun route => route.endpoint role).map
    EndpointRuntime.connection_id

/-! ## The operations -/

def World.issue_challenge (w : World) (route_id : RelayRouteId) (role : RelayEndpointRole)
    (source : IpAddr) (now_seconds : Nat) (nonce : ByteArrayOf 32) : World :=
  { w with core := (w.core.issue_challenge route_id role source now_seconds nonce).1 }

def World.admit_endpoint (S : Signatures) (w : World) (proof : RelayAdmissionProof) (source : IpAddr)
    (now_seconds capacity : Nat) : World :=
  let r := w.core.admit_endpoint S w.wires proof source now_seconds capacity
  let w := { w with core := r.1, wires := r.2.1 }
  match r.2.2 with
  | .ok endpoint =>
    { w with admitted := w.admitted ++ [endpoint], serials := w.serials ++ [proof.serial] }
  | .error _ => w

/-- The envelope is decoded from what the connection sent, as `run_forwarding` does. Bytes that
are no envelope never reach the core. -/
def World.forward (w : World) (sender : ConnectedEndpoint) (encoded : List UInt8)
    (now_millis : Nat) : World :=
  match RelayEnvelopeV1.decode encoded with
  | .error _ => w
  | .ok envelope =>
    let r := w.core.forward w.wires sender envelope encoded now_millis
    let w' := { w with core := r.1, wires := r.2.1 }
    match r.2.2, w.core.slot sender.route_id (peer_role sender.role) with
    | .ok (), some peer => { w' with log := w.log ++ [⟨sender, peer, envelope, encoded⟩] }
    | _, _ => w'

def World.take (w : World) (id : RelayConnectionId) : World :=
  let channel := w.wires.channels id
  match channel.receiving, channel.queue with
  | true, message :: rest =>
    { w with
      wires := w.wires.set id { channel with taken := channel.taken ++ [message], queue := rest }
      inflight := Function.update w.inflight id (w.inflight id ++ [message]) }
  | _, _ => w

/-- A task reports one message it took, with its length. -/
def World.delivered (w : World) (endpoint : ConnectedEndpoint) (index : Nat) : World :=
  match decide (endpoint ∈ w.admitted), (w.inflight endpoint.connection_id)[index]? with
  | true, some message =>
    { w with
      core := w.core.delivered endpoint message.length
      inflight := Function.update w.inflight endpoint.connection_id
        ((w.inflight endpoint.connection_id).eraseIdx index) }
  | _, _ => w

def World.drop_receiver (w : World) (id : RelayConnectionId) : World :=
  { w with wires := w.wires.set id { w.wires.channels id with receiving := false } }

def World.disconnect (w : World) (endpoint : ConnectedEndpoint) : World :=
  let r := w.core.disconnect w.wires endpoint
  { w with core := r.1, wires := r.2 }

def World.apply_revocation (w : World) (route_id : RelayRouteId) (epoch : Nat) : World :=
  let r := w.core.apply_revocation w.wires route_id epoch
  { w with core := r.1, wires := r.2.1 }

def World.step (S : Signatures) (w : World) : Op → World
  | .issue_challenge route_id role source now_seconds nonce =>
    w.issue_challenge route_id role source now_seconds nonce
  | .admit_endpoint proof source now_seconds capacity =>
      w.admit_endpoint S proof source now_seconds capacity
  | .forward sender encoded now_millis => w.forward sender encoded now_millis
  | .take id => w.take id
  | .delivered endpoint index => w.delivered endpoint index
  | .drop_receiver id => w.drop_receiver id
  | .disconnect endpoint => w.disconnect endpoint
  | .insert_registration registration now_millis =>
    { w with core := (w.core.insert_registration S registration now_millis).1 }
  | .apply_revocation route_id epoch => w.apply_revocation route_id epoch

def World.run (S : Signatures) (w : World) (ops : List Op) : World := ops.foldl (World.step S) w

/-! ## Effects -/

/-- Two cores that differ in their challenges, counts and records only. -/
structure SameRoutes (c c' : RelayCore) : Prop where
  routes : c'.routes = c.routes
  next_connection_id : c'.next_connection_id = c.next_connection_id
  limits : c'.limits = c.limits

structure RouteSet (c c' : RelayCore) (route_id : RelayRouteId) (route : RouteRuntime) : Prop where
  routes : c'.routes = c.routes.insert route_id route
  next_connection_id : c'.next_connection_id = c.next_connection_id
  limits : c'.limits = c.limits

/-- A route without its endpoints. It may have been revoked, at a later epoch. -/
structure Cleared (route cleared : RouteRuntime) : Prop where
  host : cleared.host = none
  controller : cleared.controller = none
  quota : cleared.registration.quota = route.registration.quota
  epoch : cleared.registration = route.registration ∨
    cleared.registration.revoked = true ∧
      route.registration.revocation_epoch < cleared.registration.revocation_epoch

/-- Everything that one operation can do to the routes and the channels. -/
inductive Effect (w : World) : World → Prop
  | quiet (c : RelayCore) (same : SameRoutes w.core c) : Effect w { w with core := c }
  | admitted (c : RelayCore) (route_id : RelayRouteId) (route : RouteRuntime)
      (role : RelayEndpointRole) (serial capacity : Nat)
      (known : w.core.routes.get? route_id = some route)
      (free : route.endpoint role = none) (live : route.registration.revoked = false)
      (room : (route.endpoint (peer_role role)).isSome →
        w.core.forwarding_pairs < w.core.limits.forwarding_pairs)
      (routes : c.routes = w.core.routes.insert route_id
        (route.admit_endpoint role w.core.next_connection_id))
      (next : c.next_connection_id = w.core.next_connection_id + 1)
      (limits : c.limits = w.core.limits) :
      Effect w
        { w with
          core := c
          wires := w.wires.set w.core.next_connection_id (.new capacity)
          admitted := w.admitted ++ [⟨route_id, role, w.core.next_connection_id,
            route.registration.revocation_epoch⟩]
          serials := w.serials ++ [serial] }
  | cleared (c : RelayCore) (route_id : RelayRouteId) (route cleared : RouteRuntime)
      (known : w.core.routes.get? route_id = some route) (clear : Cleared route cleared)
      (set : RouteSet w.core c route_id cleared) :
      Effect w { w with
        core := c
        wires := cancel_endpoint (cancel_endpoint w.wires route.host) route.controller }
  | forwarded (c : RelayCore) (route : RouteRuntime) (rate : TokenBucket)
      (sender : ConnectedEndpoint) (speaker peer : EndpointRuntime) (envelope : RelayEnvelopeV1)
      (encoded : List UInt8) (channel : Channel)
      (known : w.core.routes.get? sender.route_id = some route)
      (live : route.registration.revoked = false)
      (speaks : route.endpoint sender.role = some speaker)
      (is_sender : speaker.connection_id = sender.connection_id ∧ speaker.epoch = sender.epoch)
      (hears : route.endpoint (peer_role sender.role) = some peer)
      (decoded : RelayEnvelopeV1.decode encoded = .ok envelope)
      (number : envelope.sequence = route.next_sequence sender.role)
      (messages : peer.queued_messages < route.registration.quota.queue_messages)
      (bytes : peer.queued_encoded_bytes + encoded.length ≤
        route.registration.quota.queue_encoded_bytes)
      (sent : (w.wires.channels peer.connection_id).try_send encoded = some channel)
      (set : RouteSet w.core c sender.route_id
        ((({ route with rate } : RouteRuntime).queue_for (peer_role sender.role) peer
          envelope.encoded_len).count_sent sender.role)) :
      Effect w { w with
        core := c
        wires := w.wires.set peer.connection_id channel
        log := w.log ++ [⟨sender, peer.connection_id, envelope, encoded⟩] }
  | took (id : RelayConnectionId) (message : List UInt8) (rest : List (List UInt8))
      (queue : (w.wires.channels id).queue = message :: rest) :
      Effect w { w with
        wires := w.wires.set id
          { w.wires.channels id with
            taken := (w.wires.channels id).taken ++ [message], queue := rest }
        inflight := Function.update w.inflight id (w.inflight id ++ [message]) }
  | delivered (endpoint : ConnectedEndpoint) (index : Nat) (message : List UInt8)
      (known : endpoint ∈ w.admitted)
      (taken : (w.inflight endpoint.connection_id)[index]? = some message) :
      Effect w { w with
        core := w.core.delivered endpoint message.length
        inflight := Function.update w.inflight endpoint.connection_id
          ((w.inflight endpoint.connection_id).eraseIdx index) }
  | dropped (id : RelayConnectionId) :
      Effect w { w with
        wires := w.wires.set id { w.wires.channels id with receiving := false } }
  | registered (c : RelayCore) (registration : RelayRouteRegistration) (now_millis : Nat)
      (fresh : w.core.routes.get? registration.route_id = none)
      (set : RouteSet w.core c registration.route_id (.new registration now_millis)) :
      Effect w { w with core := c }

variable (w : World) (c : RelayCore) (route_id : RelayRouteId) (role : RelayEndpointRole)
  (source : IpAddr) (endpoint : ConnectedEndpoint) (now_seconds : Nat) (nonce : ByteArrayOf 32)

theorem SameRoutes.refl : SameRoutes c c := ⟨rfl, rfl, rfl⟩

theorem Effect.none : Effect w w := Effect.quiet w.core (SameRoutes.refl _)

/-! ### Each operation has an effect -/

theorem issue_challenge_same :
    SameRoutes c (c.issue_challenge route_id role source now_seconds nonce).1 := by
  unfold RelayCore.issue_challenge
  simp only
  split
  · exact ⟨rfl, rfl, rfl⟩
  split
  · exact ⟨rfl, rfl, rfl⟩
  split
  · exact ⟨rfl, rfl, rfl⟩
  split
  · exact ⟨rfl, rfl, rfl⟩
  split
  · exact ⟨rfl, rfl, rfl⟩
  split
  · exact ⟨rfl, rfl, rfl⟩
  · exact ⟨rfl, rfl, rfl⟩

theorem effect_issue_challenge :
    Effect w (w.issue_challenge route_id role source now_seconds nonce) :=
  Effect.quiet _ (issue_challenge_same w.core route_id role source now_seconds nonce)

/-- A core whose challenges are some of those of another. -/
structure FewerChallenges (c c' : RelayCore) : Prop where
  challenges : ∀ serial pending, c'.challenges.get? serial = some pending →
    c.challenges.get? serial = some pending
  next_serial : c'.next_serial = c.next_serial

theorem fewer_erase (c' : RelayCore) (serial : Nat) (h : c'.challenges = c.challenges.erase serial)
    (hnext : c'.next_serial = c.next_serial) : FewerChallenges c c' := by
  refine ⟨fun s pending hs => ?_, hnext⟩
  rw [h] at hs
  by_cases heq : s = serial
  · subst heq
    rw [SortedMap.get?_erase_self] at hs
    cases hs
  · rwa [SortedMap.get?_erase_of_ne heq] at hs

/-- What `admit` leaves: the core unchanged but for its records, or one endpoint more. -/
theorem admit_cases (S : Signatures) (c : RelayCore) (w : Wires) (proof : RelayAdmissionProof)
    (source : IpAddr) (now_seconds capacity : Nat) :
    (∃ c' code, c.admit_endpoint S w proof source now_seconds capacity = (c', w, .error code) ∧
      SameRoutes c c' ∧ FewerChallenges c c') ∨ (∃ c' pending route,
      c.admit_endpoint S w proof source now_seconds capacity =
        (c', w.set c.next_connection_id (.new capacity),
          .ok ⟨pending.challenge.route_id, pending.challenge.role, c.next_connection_id,
            route.registration.revocation_epoch⟩) ∧ c.challenges.get? proof.serial = some pending ∧
      proof.route_id = pending.challenge.route_id ∧
      c.routes.get? pending.challenge.route_id = some route ∧
      route.endpoint pending.challenge.role = none ∧ route.registration.revoked = false ∧
      ((route.endpoint (peer_role pending.challenge.role)).isSome →
        c.forwarding_pairs < c.limits.forwarding_pairs) ∧
      c'.routes = c.routes.insert pending.challenge.route_id
        (route.admit_endpoint pending.challenge.role c.next_connection_id) ∧
      c'.next_connection_id = c.next_connection_id + 1 ∧ c'.limits = c.limits ∧
      c'.challenges = c.challenges.erase proof.serial ∧ c'.next_serial = c.next_serial) := by
  have herased : ∀ c' : RelayCore, c'.challenges = c.challenges.erase proof.serial →
      c'.next_serial = c.next_serial → FewerChallenges c c' := fun c' => fewer_erase c c' _
  unfold RelayCore.admit_endpoint
  split
  · exact .inl ⟨_, _, rfl, ⟨rfl, rfl, rfl⟩, ⟨fun _ _ h => h, rfl⟩⟩
  rename_i pending hpending
  simp only
  split
  · exact .inl ⟨_, _, rfl, ⟨rfl, rfl, rfl⟩, herased _ rfl rfl⟩
  split
  · exact .inl ⟨_, _, rfl, ⟨rfl, rfl, rfl⟩, herased _ rfl rfl⟩
  split
  · exact .inl ⟨_, _, rfl, ⟨rfl, rfl, rfl⟩, herased _ rfl rfl⟩
  rename_i hverify
  unfold RelayCore.admit_to
  split
  · exact .inl ⟨_, _, rfl, ⟨rfl, rfl, rfl⟩, herased _ rfl rfl⟩
  rename_i route hroute
  split
  · exact .inl ⟨_, _, rfl, ⟨rfl, rfl, rfl⟩, herased _ rfl rfl⟩
  rename_i hlive
  split
  · exact .inl ⟨_, _, rfl, ⟨rfl, rfl, rfl⟩, herased _ rfl rfl⟩
  rename_i hfree
  split
  · exact .inl ⟨_, _, rfl, ⟨rfl, rfl, rfl⟩, herased _ rfl rfl⟩
  rename_i hroom
  split
  · exact .inl ⟨_, _, rfl, ⟨rfl, rfl, rfl⟩, herased _ rfl rfl⟩
  · refine .inr ⟨_, pending, route, rfl, hpending, (verify_ok hverify).1, hroute, ?_, ?_, ?_, rfl,
      rfl, rfl, rfl, rfl⟩
    · simpa using hfree
    · exact eq_false_of_ne_true fun h => hlive (.inl h)
    · intro hpeer
      exact not_le.mp fun hle => hroom ⟨hpeer, hle⟩

theorem effect_admit_endpoint (S : Signatures) (w : World) (proof : RelayAdmissionProof) (source : IpAddr)
    (now_seconds capacity : Nat) : Effect w (w.admit_endpoint S proof source now_seconds capacity) := by
  unfold World.admit_endpoint
  rcases admit_cases S w.core w.wires proof source now_seconds capacity with
    ⟨c, code, heq, hsame, -⟩ | ⟨c, pending, route, heq, -, -, hroute, hfree, hlive, hroom, hroutes,
      hnext, hlimits, -, -⟩
  · rw [heq]
    exact Effect.quiet c hsame
  · rw [heq]
    exact Effect.admitted c _ route _ proof.serial capacity hroute hfree hlive hroom hroutes hnext
      hlimits

theorem cleared_clear (route : RouteRuntime) (rate : TokenBucket) (code : RelayDiagnosticCode)
    (w : Wires) : Cleared route
      (({ route with rate, close_code := some code } : RouteRuntime).cancel_and_clear w).1 :=
  ⟨rfl, rfl, rfl, .inl rfl⟩

theorem validate_endpoint_ok {route : RouteRuntime} {sender : ConnectedEndpoint}
    (h : validate_endpoint route sender = .ok ()) :
    route.registration.revoked = false ∧ route.registration.revocation_epoch = sender.epoch ∧
      ∃ runtime, route.endpoint sender.role = some runtime ∧
        runtime.connection_id = sender.connection_id ∧ runtime.epoch = sender.epoch := by
  unfold validate_endpoint at h
  split at h
  · cases h
  rename_i hlive
  split at h
  · cases h
  rename_i hany
  rw [not_or, not_not] at hlive
  simp [Option.any_eq_true] at hany
  exact ⟨eq_false_of_ne_true hlive.1, hlive.2, hany⟩

/-- What a failed `forward` leaves of its route: it is closed, its bucket charged or not. -/
structure Closes (c c' : RelayCore) (w w' : Wires) (route_id : RelayRouteId) : Prop where
  closes : ∃ route cleared, c.routes.get? route_id = some route ∧ Cleared route cleared ∧
    RouteSet c c' route_id cleared ∧
    w' = cancel_endpoint (cancel_endpoint w route.host) route.controller
  challenges : c'.challenges = c.challenges
  next_serial : c'.next_serial = c.next_serial

theorem close_with_closes (w : Wires) (route : RouteRuntime) (route_id : RelayRouteId)
    (code : RelayDiagnosticCode) (known : c.routes.get? route_id = some route)
    (diagnostics : RelayDiagnosticSnapshot) (rate : TokenBucket) (c₀ : RelayCore)
    (h₀ : c₀ = { c with diagnostics } ∨
      c₀ = { c with diagnostics, routes := c.routes.insert route_id { route with rate } }) :
    ∃ c' w', c₀.close_with w route_id code = (c', w', .error code) ∧ Closes c c' w w' route_id := by
  unfold RelayCore.close_with
  rcases h₀ with rfl | rfl
  · simp only [known]
    exact ⟨_, _, rfl, ⟨route, _, known, cleared_clear route route.rate code w, ⟨rfl, rfl, rfl⟩, rfl⟩,
      rfl, rfl⟩
  · simp only [SortedMap.get?_insert_self]
    exact ⟨_, _, rfl, ⟨route, _, known, cleared_clear route rate code w,
      ⟨SortedMap.insert_insert _ _ _ _, rfl, rfl⟩, rfl⟩, rfl, rfl⟩

structure Queues (c c' : RelayCore) (w w' : Wires) (sender : ConnectedEndpoint)
    (envelope : RelayEnvelopeV1) (encoded : List UInt8) (route : RouteRuntime) (rate : TokenBucket)
    (speaker peer : EndpointRuntime) (channel : Channel) : Prop where
  known : c.routes.get? sender.route_id = some route
  live : route.registration.revoked = false
  speaks : route.endpoint sender.role = some speaker
  is_sender : speaker.connection_id = sender.connection_id ∧ speaker.epoch = sender.epoch
  hears : route.endpoint (peer_role sender.role) = some peer
  number : envelope.sequence = route.next_sequence sender.role
  messages : peer.queued_messages < route.registration.quota.queue_messages
  bytes : peer.queued_encoded_bytes + encoded.length ≤ route.registration.quota.queue_encoded_bytes
  sent : (w.channels peer.connection_id).try_send encoded = some channel
  set : RouteSet c c' sender.route_id
    ((({ route with rate } : RouteRuntime).queue_for (peer_role sender.role) peer
      envelope.encoded_len).count_sent sender.role)
  wires : w' = w.set peer.connection_id channel
  challenges : c'.challenges = c.challenges
  next_serial : c'.next_serial = c.next_serial

/-- What `forward` does: nothing, the route is closed, or the message is queued. -/
theorem forward_cases (w : Wires) (sender : ConnectedEndpoint) (envelope : RelayEnvelopeV1)
    (encoded : List UInt8) (now_millis : Nat) :
    (∃ code, c.forward w sender envelope encoded now_millis = (c, w, .error code)) ∨
    (∃ c' w' code, c.forward w sender envelope encoded now_millis = (c', w', .error code) ∧
      Closes c c' w w' sender.route_id) ∨ (∃ c' w' route rate speaker peer channel,
      c.forward w sender envelope encoded now_millis = (c', w', .ok ()) ∧
      Queues c c' w w' sender envelope encoded route rate speaker peer channel) := by
  unfold RelayCore.forward
  split
  · exact .inl ⟨_, rfl⟩
  rename_i route hroute
  have hclose : ∀ (c₀ : RelayCore) (code : RelayDiagnosticCode)
      (diagnostics : RelayDiagnosticSnapshot) (rate : TokenBucket),
      c₀ = { c with diagnostics } ∨
        c₀ = { c with diagnostics, routes := c.routes.insert sender.route_id { route with rate } } →
      ∃ c' w' code', c₀.close_with w sender.route_id code = (c', w', .error code') ∧
        Closes c c' w w' sender.route_id := by
    intro c₀ code diagnostics rate h₀
    obtain ⟨c', w', heq, hcloses⟩ := close_with_closes c w route sender.route_id code hroute
      diagnostics rate c₀ h₀
    exact ⟨c', w', code, heq, hcloses⟩
  have hplain := fun code => hclose c code c.diagnostics route.rate (.inl rfl)
  split
  · exact .inl ⟨_, rfl⟩
  rename_i hvalid
  obtain ⟨hlive, -, speaker, hspeaks, hsender⟩ := validate_endpoint_ok hvalid
  split
  · exact .inl ⟨_, rfl⟩
  split
  · exact .inr (.inl (hplain _))
  split
  · exact .inr (.inl (hplain _))
  split
  · exact .inr (.inl (hplain _))
  split
  · exact .inr (.inl (hplain _))
  rename_i hnumber
  split
  · exact .inl ⟨_, rfl⟩
  rename_i peer hpeer
  unfold RelayCore.deliver_to
  simp only
  split
  · exact .inr (.inl (hclose _ _ _ route.rate (.inl rfl)))
  rename_i hquota
  split
  · exact .inr (.inl (hclose _ _ _ _ (.inr rfl)))
  split
  · exact .inr (.inl (hclose _ _ _ _ (.inr rfl)))
  rename_i channel hsent
  simp [queue_would_exceed] at hquota
  exact .inr (.inr ⟨_, _, route, _, speaker, peer, channel, rfl, hroute, hlive, hspeaks, hsender,
    hpeer, not_not.mp hnumber, hquota.1, hquota.2.2, hsent,
    ⟨SortedMap.insert_insert _ _ _ _, rfl, rfl⟩, rfl, rfl, rfl⟩)

theorem effect_forward (sender : ConnectedEndpoint) (encoded : List UInt8) (now_millis : Nat) :
    Effect w (w.forward sender encoded now_millis) := by
  unfold World.forward
  split
  · exact Effect.none w
  rename_i envelope hdecode
  rcases forward_cases w.core w.wires sender envelope encoded now_millis with
    ⟨code, heq⟩ | ⟨c, wires, code, heq, hcloses⟩ | ⟨c, wires, route, rate, speaker, peer, channel,
      heq, hqueues⟩
  · rw [heq]
    exact Effect.none w
  · rw [heq]
    obtain ⟨route, cleared, hroute, hcleared, hset, rfl⟩ := hcloses.closes
    exact Effect.cleared c sender.route_id route cleared hroute hcleared hset
  · have hslot : w.core.slot sender.route_id (peer_role sender.role) = some peer.connection_id := by
      unfold RelayCore.slot
      rw [hqueues.known, Option.bind_some, hqueues.hears, Option.map_some]
    rw [heq, hslot, hqueues.wires]
    exact Effect.forwarded c route rate sender speaker peer envelope encoded channel hqueues.known
      hqueues.live hqueues.speaks hqueues.is_sender hqueues.hears hdecode hqueues.number
      hqueues.messages hqueues.bytes hqueues.sent hqueues.set

theorem effect_take (id : RelayConnectionId) : Effect w (w.take id) := by
  unfold World.take
  simp only
  split
  · rename_i message rest _ hqueue
    exact Effect.took id message rest hqueue
  · exact Effect.none w

theorem effect_delivered (index : Nat) : Effect w (w.delivered endpoint index) := by
  unfold World.delivered
  split
  · rename_i message hknown htaken
    exact Effect.delivered endpoint index message (of_decide_eq_true hknown) htaken
  · exact Effect.none w

theorem effect_disconnect : Effect w (w.disconnect endpoint) := by
  unfold World.disconnect RelayCore.disconnect
  split
  · exact Effect.none w
  rename_i route hroute
  split
  · exact Effect.cleared _ endpoint.route_id route _ hroute
      (cleared_clear route route.rate .PeerDisconnected w.wires) ⟨rfl, rfl, rfl⟩
  · exact Effect.none w

theorem effect_insert_registration (S : Signatures) (w : World)
    (registration : RelayRouteRegistration) (now_millis : Nat) :
    Effect w { w with core := (w.core.insert_registration S registration now_millis).1 } := by
  unfold RelayCore.insert_registration
  split
  · exact Effect.none w
  split
  · exact Effect.none w
  rename_i hfree
  refine Effect.registered _ registration now_millis ?_ ⟨rfl, rfl, rfl⟩
  simpa [SortedMap.contains] using fun h => hfree (.inr h)

theorem effect_apply_revocation (epoch : Nat) : Effect w (w.apply_revocation route_id epoch) := by
  unfold World.apply_revocation RelayCore.apply_revocation
  split
  · exact Effect.none w
  rename_i route hroute
  split
  · exact Effect.none w
  rename_i hepoch
  refine Effect.cleared _ route_id route _ hroute ?_ ⟨rfl, rfl, rfl⟩
  exact ⟨rfl, rfl, rfl, .inr ⟨rfl, not_le.mp hepoch⟩⟩

theorem effect_step (S : Signatures) (w : World) (op : Op) : Effect w (w.step S op) := by
  cases op with
  | issue_challenge route_id role source now_seconds nonce =>
    exact effect_issue_challenge w route_id role source now_seconds nonce
  | admit_endpoint proof source now_seconds capacity =>
    exact effect_admit_endpoint S w proof source now_seconds capacity
  | forward sender encoded now_millis => exact effect_forward w sender encoded now_millis
  | take id => exact effect_take w id
  | delivered endpoint index => exact effect_delivered w endpoint index
  | drop_receiver id => exact Effect.dropped id
  | disconnect endpoint => exact effect_disconnect w endpoint
  | insert_registration registration now_millis =>
    exact effect_insert_registration S w registration now_millis
  | apply_revocation route_id epoch => exact effect_apply_revocation w route_id epoch

theorem run_invariant {P : World → Prop} (S : Signatures)
    (hstep : ∀ w w', P w → Effect w w' → P w') (ops : List Op) : ∀ w, P w → P (w.run S ops) := by
  induction ops with
  | nil => exact fun w hw => hw
  | cons op ops ih => exact fun w hw => ih (w.step S op) (hstep w _ hw (effect_step S w op))

/-! ## The core at the start -/

variable {S : Signatures} {now_millis : Nat} {registrations : List RelayRouteRegistration}

theorem insert_routes_new : ∀ {routes routes' : SortedMap RelayRouteId RouteRuntime},
      (∀ r route, routes.get? r = some route → ∃ reg, route = .new reg now_millis) →
      insert_routes S now_millis routes registrations = .ok routes' →
        ∀ r route, routes'.get? r = some route → ∃ reg, route = .new reg now_millis := by
  induction registrations with
  | nil =>
    intro routes routes' h hok
    cases hok
    exact h
  | cons registration rest ih =>
    intro routes routes' h hok
    unfold insert_routes at hok
    split at hok
    · cases hok
    split at hok
    · cases hok
    refine ih ?_ hok
    intro r route hget
    by_cases hr : r = registration.route_id
    · subst hr
      rw [SortedMap.get?_insert_self] at hget
      cases hget
      exact ⟨registration, rfl⟩
    · rw [SortedMap.get?_insert_of_ne hr] at hget
      exact h r route hget

theorem new_core {limits : RelayServerLimits} {core : RelayCore}
    (h : RelayCore.new S registrations limits now_millis = .ok core) :
    (∀ r route, core.routes.get? r = some route → ∃ reg, route = .new reg now_millis) ∧
      core.challenges = .empty ∧ core.next_serial = 1 ∧ core.next_connection_id = 1 ∧
      core.limits = limits := by
  obtain ⟨_, -, h⟩ := Checks.bind_ok_iff.mp h
  split at h
  · cases h
  obtain ⟨routes, hroutes, h⟩ := Checks.bind_ok_iff.mp h
  cases h
  refine ⟨insert_routes_new ?_ hroutes, rfl, rfl, rfl, rfl⟩
  intro r route hget
  cases hget

/-! ## One pair -/

/-- The verifying keys of the secrets `[7; 32]` and `[8; 32]`. -/
def hostKey : RelayCredentialVerifier :=
  ⟨Bytes.beBytes 32 0xEA4A6C63E29C520ABEF5507B132EC5F9954776AEBEBE7B92421EEA691446D22C,
    Bytes.length_beBytes 32 _⟩

def controllerKey : RelayCredentialVerifier :=
  ⟨Bytes.beBytes 32 0x1398F62C6D1A457C51BA6A4B5F3DBD2F69FCA93216218DC8997E416BD17D93CA,
    Bytes.length_beBytes 32 _⟩

def sampleRoute : RelayRouteId := ⟨List.replicate 32 7, rfl⟩

def zeroNonce : ByteArrayOf 32 := ⟨List.replicate 32 0, rfl⟩

def sampleRegistration : RelayRouteRegistration :=
  ⟨sampleRoute, hostKey, controllerKey, 0, .default, false⟩

def hostChallenge : RelayAdmissionChallenge := ⟨sampleRoute, .Host, hostKey, 0, 1, 31, zeroNonce⟩

def controllerChallenge : RelayAdmissionChallenge :=
  ⟨sampleRoute, .Controller, controllerKey, 0, 2, 31, zeroNonce⟩

def hostProof : RelayAdmissionProof :=
  ⟨sampleRoute, .Host, 1, ⟨Bytes.beBytes 64
    (0xE628650A691EA8FB78468FC06FD23E87521E12AD9783F1E44DBEA5403A6D771F * 2 ^ 256 +
      0x63E85A6906F583B804CC34BFE72251CF30596E4FAC9BF75BC80FCE8EA8C89F05),
    Bytes.length_beBytes 64 _⟩⟩

def controllerProof : RelayAdmissionProof :=
  ⟨sampleRoute, .Controller, 2, ⟨Bytes.beBytes 64
    (0x5BABD3707FBA04D2ECFFF8C1BC147EDAD4010D884E74AF40D516CAD7A988C0F8 * 2 ^ 256 +
      0xEEA2E8FB4126C4ACA1E0AE2ADC688FEF84216E35057F3EC8D466F36D05743004),
    Bytes.length_beBytes 64 _⟩⟩

def sampleSignatures : Signatures where
  is_key := fun key => key == hostKey.val || key == controllerKey.val
  verify := fun key message signature =>
    (key, message, signature) == (hostKey.val, hostChallenge.signing_bytes, hostProof.signature.val) ||
      (key, message, signature) ==
        (controllerKey.val, controllerChallenge.signing_bytes, controllerProof.signature.val)

def sampleCore : RelayCore :=
  ⟨SortedMap.empty.insert sampleRoute (.new sampleRegistration 0), .empty, fun _ => none, 1, 1,
    .default, .default⟩

theorem sampleCore_new :
    RelayCore.new sampleSignatures [sampleRegistration] .default 0 = .ok sampleCore := by
  rfl

def localhost : IpAddr := .V4 0x7F000001

def pairOps : List Op :=
  [.issue_challenge sampleRoute .Host localhost 1 zeroNonce,
    .admit_endpoint hostProof localhost 1 64,
    .issue_challenge sampleRoute .Controller localhost 1 zeroNonce,
    .admit_endpoint controllerProof localhost 1 64]

def hostEndpoint : ConnectedEndpoint := ⟨sampleRoute, .Host, 1, 0⟩

def controllerEndpoint : ConnectedEndpoint := ⟨sampleRoute, .Controller, 2, 0⟩

def hostMessage (sequence : Nat) (byte : UInt8) : List UInt8 :=
  ENVELOPE_MAGIC ++ [0, 1, 1, 0] ++ sampleRoute.val ++ Bytes.beBytes 8 sequence ++ [0, 0, 0, 1, byte]

example : ((World.start sampleCore).run sampleSignatures pairOps).admitted =
    [hostEndpoint, controllerEndpoint] := by decide +kernel

end multiplex_relay_server
