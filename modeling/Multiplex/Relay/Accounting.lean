-- What the relay charges and what it never does again. The counts of every
-- live endpoint are those of its channel, no quota or limit is passed, a step
-- on one route leaves the others alone, and a revoked route stays revoked.
import Multiplex.Relay.Conversation

open multiplex_relay_protocol Switchboard

namespace multiplex_relay_server

/-- The messages put into the channel of a connection and not yet reported as delivered. -/
def World.outstanding (w : World) (id : RelayConnectionId) : List (List UInt8) :=
  w.inflight id ++ (w.wires.channels id).queue

def RouteRuntime.paired (r : RouteRuntime) : Bool := r.host.isSome && r.controller.isSome

/-- The number of routes with both endpoints. -/
def RelayCore.pairs (c : RelayCore) : Nat := c.routes.entries.countP fun e => e.2.paired

/-! ## Counts -/

def totalBytes (messages : List (List UInt8)) : Nat := (messages.map List.length).sum

theorem totalBytes_append (a b : List (List UInt8)) :
    totalBytes (a ++ b) = totalBytes a + totalBytes b := by
  simp [totalBytes]

theorem totalBytes_eraseIdx {l : List (List UInt8)} {i : Nat} {m : List UInt8}
    (h : l[i]? = some m) : totalBytes (l.eraseIdx i) + m.length = totalBytes l := by
  induction l generalizing i with
  | nil => cases h
  | cons a l ih =>
    cases i with
    | zero =>
      cases h
      simp [totalBytes, Nat.add_comm]
    | succ i =>
      have ih := ih (i := i) h
      simp [totalBytes] at ih ⊢
      omega

/-- The counts of an endpoint are those of some messages, within a quota. -/
structure Charged (runtime : EndpointRuntime) (quota : RelayQuota)
    (outstanding : List (List UInt8)) : Prop where
  messages : runtime.queued_messages = outstanding.length
  bytes : runtime.queued_encoded_bytes = totalBytes outstanding
  messages_le : runtime.queued_messages ≤ quota.queue_messages
  bytes_le : runtime.queued_encoded_bytes ≤ quota.queue_encoded_bytes

structure Accounted (w : World) : Prop where
  charged : ∀ r route role runtime, w.core.routes.get? r = some route →
    route.endpoint role = some runtime →
      Charged runtime route.registration.quota (w.outstanding runtime.connection_id)
  /-- Nothing was put into the channel of a connection that does not exist yet. -/
  unused : ∀ id, w.core.next_connection_id ≤ id → w.outstanding id = []
  /-- A revoked route has no endpoint. -/
  vacant : ∀ r route role, w.core.routes.get? r = some route →
    route.registration.revoked = true → route.endpoint role = none
  pairs : w.core.pairs ≤ w.core.limits.forwarding_pairs

theorem paired_eq (r : RouteRuntime) (role : RelayEndpointRole) :
    r.paired = ((r.endpoint role).isSome && (r.endpoint (peer_role role)).isSome) := by
  cases role
  · rfl
  · exact Bool.and_comm _ _

theorem route_state_forwarding (r : RouteRuntime) (h : r.registration.revoked = true → r.host = none) :
    decide (r.route_state = .Forwarding) = r.paired := by
  unfold RouteRuntime.route_state RouteRuntime.paired
  by_cases hrevoked : r.registration.revoked = true
  · rw [if_pos hrevoked, h hrevoked]
    rfl
  · rw [if_neg hrevoked]
    cases hhost : r.host <;> cases hcontroller : r.controller <;> cases hclosed : r.closed <;> simp

variable {r : RelayRouteId} {w : World} {c : RelayCore} {route' : RouteRuntime}
  {role : RelayEndpointRole} {id : RelayConnectionId} {message : List UInt8} {now_millis : Nat}

theorem Accounted.forwarding_pairs (h : Accounted w) : w.core.forwarding_pairs = w.core.pairs := by
  unfold RelayCore.forwarding_pairs RelayCore.pairs
  rw [List.countP_eq_length_filter]
  congr 1
  apply List.filter_congr
  intro e he
  refine route_state_forwarding e.2 fun hrevoked => ?_
  exact h.vacant e.1 e.2 .Host (SortedMap.get?_eq_some_iff.mpr he) hrevoked

theorem pairs_set (c' : RelayCore) {route : RouteRuntime} (known : c.routes.get? r = some route)
    (routes : c'.routes = c.routes.insert r route') :
    c'.pairs + route.paired.toNat = c.pairs + route'.paired.toNat := by
  have hcount := SortedMap.countP_insert (m := c.routes) (k := r) (a := route')
    RouteRuntime.paired
  unfold RelayCore.pairs
  cases hp : route.paired <;> cases hp' : route'.paired <;> simp_all

variable {w' : World} {S : Signatures} {r' : RelayRouteId} {core c' : RelayCore}

theorem pairs_new (fresh : c.routes.get? r = none) (routes : c'.routes = c.routes.insert r route')
    (hpaired : route'.paired = false) : c'.pairs = c.pairs := by
  have hcount := SortedMap.countP_insert (m := c.routes) (k := r) (a := route')
    RouteRuntime.paired
  rw [fresh] at hcount
  unfold RelayCore.pairs
  rw [routes]
  simpa [hpaired] using hcount

/-! ### Every effect keeps the books -/

theorem charged_routeSet (h : Accounted w) (routes : w'.core.routes = w.core.routes.insert r route')
    (hothers : ∀ r' route role runtime, r' ≠ r → w.core.routes.get? r' = some route →
      route.endpoint role = some runtime →
        w'.outstanding runtime.connection_id = w.outstanding runtime.connection_id)
    (hroute : ∀ role runtime, route'.endpoint role = some runtime →
      Charged runtime route'.registration.quota (w'.outstanding runtime.connection_id)) :
    ∀ r route role runtime, w'.core.routes.get? r = some route →
      route.endpoint role = some runtime →
        Charged runtime route.registration.quota (w'.outstanding runtime.connection_id) := by
  intro r' route role runtime hget hruntime
  rw [routes] at hget
  by_cases heq : r' = r
  · subst heq
    rw [SortedMap.get?_insert_self] at hget
    cases hget
    exact hroute role runtime hruntime
  · rw [SortedMap.get?_insert_of_ne heq] at hget
    rw [hothers r' route role runtime heq hget hruntime]
    exact h.charged r' route role runtime hget hruntime

theorem vacant_routeSet
    (h : ∀ r route role, c.routes.get? r = some route → route.registration.revoked = true →
      route.endpoint role = none) (routes : c'.routes = c.routes.insert r route')
    (hroute : ∀ role, route'.registration.revoked = true → route'.endpoint role = none) :
    ∀ r route role, c'.routes.get? r = some route → route.registration.revoked = true →
      route.endpoint role = none := by
  intro r' route role hget hrevoked
  rw [routes] at hget
  by_cases heq : r' = r
  · subst heq
    rw [SortedMap.get?_insert_self] at hget
    cases hget
    exact hroute role hrevoked
  · rw [SortedMap.get?_insert_of_ne heq] at hget
    exact h r' route role hget hrevoked

@[simp] theorem registration_of_admitted (r : RouteRuntime) (role : RelayEndpointRole)
    (id : RelayConnectionId) : (r.admit_endpoint role id).registration = r.registration := by
  cases role <;> rfl

@[simp] theorem registration_set_endpoint (r : RouteRuntime) (role : RelayEndpointRole)
    (e : Option EndpointRuntime) : (r.set_endpoint role e).registration = r.registration := by
  cases role <;> rfl

@[simp] theorem registration_count_sent (r : RouteRuntime) (role : RelayEndpointRole) :
    (r.count_sent role).registration = r.registration := by
  cases role <;> rfl

@[simp] theorem registration_queue_for (r : RouteRuntime) (role : RelayEndpointRole)
    (peer : EndpointRuntime) (n : Nat) : (r.queue_for role peer n).registration = r.registration :=
  registration_set_endpoint r role _

theorem role_cases (role role' : RelayEndpointRole) : role' = role ∨ role' = peer_role role := by
  cases role <;> cases role' <;> simp [peer_role]

theorem accounted_admitted (hs : Sound w) (h : Accounted w) {route : RouteRuntime}
    (serials : List Nat) (capacity : Nat) (admitted : List ConnectedEndpoint)
    (known : w.core.routes.get? r = some route) (free : route.endpoint role = none)
    (live : route.registration.revoked = false) (room : (route.endpoint (peer_role role)).isSome →
      w.core.forwarding_pairs < w.core.limits.forwarding_pairs)
    (routes : c.routes = w.core.routes.insert r (route.admit_endpoint role w.core.next_connection_id))
    (next : c.next_connection_id = w.core.next_connection_id + 1)
    (limits : c.limits = w.core.limits) : Accounted { w with
      core := c
      wires := w.wires.set w.core.next_connection_id (.new capacity)
      admitted, serials } := by
  have hold : ∀ r' route' role' runtime, w.core.routes.get? r' = some route' →
      route'.endpoint role' = some runtime → runtime.connection_id ≠ w.core.next_connection_id := by
    intro r' route' role' runtime hget hruntime
    exact (hs.fresh _ (hs.held r' route' role' runtime hget hruntime)).ne
  have houtstanding : ∀ id, id ≠ w.core.next_connection_id →
      w.inflight id ++ ((w.wires.set w.core.next_connection_id (.new capacity)).channels id).queue =
        w.outstanding id := by
    intro id hid
    rw [channels_set_of_ne _ _ hid]
    rfl
  refine ⟨?_, ?_, ?_, ?_⟩
  · refine charged_routeSet h routes ?_ ?_
    · intro r' route' role' runtime hr hget hruntime
      exact houtstanding _ (hold r' route' role' runtime hget hruntime)
    · intro role' runtime hruntime
      rw [registration_of_admitted]
      rw [endpoint_of_admitted] at hruntime
      split at hruntime
      · cases hruntime
        have hnone : w.inflight w.core.next_connection_id ++
            ((w.wires.set w.core.next_connection_id (.new capacity)).channels
              w.core.next_connection_id).queue = [] := by
          rw [channels_set_self, (List.append_eq_nil_iff.mp (h.unused _ le_rfl)).1]
          rfl
        unfold World.outstanding
        rw [hnone]
        exact ⟨rfl, rfl, Nat.zero_le _, Nat.zero_le _⟩
      · unfold World.outstanding
        rw [houtstanding _ (hold r route role' runtime known hruntime)]
        exact h.charged r route role' runtime known hruntime
  · intro id hid
    rw [next] at hid
    exact (houtstanding id (Nat.lt_of_succ_le hid).ne').trans (h.unused id (Nat.le_of_succ_le hid))
  · refine vacant_routeSet h.vacant routes ?_
    intro role' hrevoked
    rw [registration_of_admitted, live] at hrevoked
    cases hrevoked
  · change c.pairs ≤ c.limits.forwarding_pairs
    rw [limits]
    have hset := pairs_set _ known routes
    have hbefore : route.paired = false := by
      rw [paired_eq route role, free]
      rfl
    have hafter : (route.admit_endpoint role w.core.next_connection_id).paired =
        (route.endpoint (peer_role role)).isSome := by
      rw [paired_eq _ role, endpoint_of_admitted, if_pos rfl, endpoint_of_admitted,
        if_neg (peer_role_ne role)]
      rfl
    rw [hbefore, hafter] at hset
    have hpairs := h.pairs
    rw [h.forwarding_pairs] at room
    cases hpeer : (route.endpoint (peer_role role)).isSome with
    | false =>
      rw [hpeer] at hset
      omega
    | true =>
      have := room hpeer
      rw [hpeer] at hset
      simp at hset
      omega

theorem accounted_cleared (h : Accounted w) {route cleared : RouteRuntime} (wires : Wires)
    (hwires : wires.channels = w.wires.channels) (known : w.core.routes.get? r = some route)
    (clear : Cleared route cleared) (set : RouteSet w.core c r cleared) :
    Accounted { w with core := c, wires } := by
  have hnone : ∀ role runtime, cleared.endpoint role ≠ some runtime := by
    intro role runtime hruntime
    rw [clear.endpoint] at hruntime
    cases hruntime
  refine ⟨?_, ?_, ?_, ?_⟩
  · refine charged_routeSet h set.routes ?_ fun role runtime hruntime => absurd hruntime (hnone role _)
    intro r' route' role runtime hr hget hruntime
    unfold World.outstanding
    rw [hwires]
  · intro id hid
    rw [set.next_connection_id] at hid
    have hunused := h.unused id hid
    unfold World.outstanding at hunused ⊢
    rwa [hwires]
  · exact vacant_routeSet h.vacant set.routes fun role _ => clear.endpoint role
  · change c.pairs ≤ c.limits.forwarding_pairs
    rw [set.limits]
    have hset := pairs_set _ known set.routes
    have hafter : cleared.paired = false := by
      rw [paired_eq cleared .Host, clear.endpoint]
      rfl
    rw [hafter] at hset
    have := h.pairs
    simp at hset
    omega

theorem queue_try_send {c c' : Channel} (h : c.try_send message = some c') :
    c'.queue = c.queue ++ [message] := by
  unfold Channel.try_send at h
  split at h
  · cases h
    rfl
  · cases h

theorem accounted_forwarded (hs : Sound w) (h : Accounted w) {route : RouteRuntime}
    {rate : TokenBucket} {sender : ConnectedEndpoint} {peer : EndpointRuntime}
    {envelope : RelayEnvelopeV1} {encoded : List UInt8} {channel : Channel} (log : List Forwarded)
    (known : w.core.routes.get? sender.route_id = some route)
    (hears : route.endpoint (peer_role sender.role) = some peer)
    (decoded : RelayEnvelopeV1.decode encoded = .ok envelope)
    (messages : peer.queued_messages < route.registration.quota.queue_messages)
    (bytes : peer.queued_encoded_bytes + encoded.length ≤
      route.registration.quota.queue_encoded_bytes)
    (sent : (w.wires.channels peer.connection_id).try_send encoded = some channel)
    (set : RouteSet w.core c sender.route_id
      ((({ route with rate } : RouteRuntime).queue_for (peer_role sender.role) peer
        envelope.encoded_len).count_sent sender.role)) :
    Accounted { w with core := c, wires := w.wires.set peer.connection_id channel, log } := by
  have hother : ∀ id, id ≠ peer.connection_id →
      w.inflight id ++ ((w.wires.set peer.connection_id channel).channels id).queue =
        w.outstanding id := by
    intro id hid
    rw [channels_set_of_ne _ _ hid]
    rfl
  have hpeer : w.inflight peer.connection_id ++
      ((w.wires.set peer.connection_id channel).channels peer.connection_id).queue =
        w.outstanding peer.connection_id ++ [encoded] := by
    rw [channels_set_self, queue_try_send sent, ← List.append_assoc]
    rfl
  have hroute : ∀ role', (({ route with rate } : RouteRuntime).endpoint role') =
      route.endpoint role' := by
    intro role'
    cases role' <;> rfl
  refine ⟨?_, ?_, ?_, ?_⟩
  · refine charged_routeSet h set.routes ?_ ?_
    · intro r' route' role runtime hr hget hruntime
      exact hother _ (hs.slots_apart hget known hruntime hears fun hand => hr hand.1)
    · intro role runtime hruntime
      rw [registration_count_sent, registration_queue_for]
      rw [endpoint_count_sent, endpoint_queue_for, hroute] at hruntime
      unfold World.outstanding
      split at hruntime
      · have hcharged := h.charged _ route _ peer known hears
        cases hruntime
        rw [hpeer]
        refine ⟨?_, ?_, messages, ?_⟩
        · simp [hcharged.messages]
        · simp only [totalBytes_append, hcharged.bytes, encoded_len_decode decoded]
          simp [totalBytes]
        · simpa only [encoded_len_decode decoded] using bytes
      · rename_i hrole
        have hne := hs.slots_apart known known hruntime hears fun hand => hrole hand.2
        rw [hother _ hne]
        exact h.charged _ route role runtime known hruntime
  · intro id hid
    rw [set.next_connection_id] at hid
    have hpeer_lt := hs.fresh _ (hs.held _ route _ peer known hears)
    exact (hother id (hpeer_lt.trans_le hid).ne').trans (h.unused id hid)
  · refine vacant_routeSet h.vacant set.routes ?_
    intro role hrevoked
    rw [registration_count_sent, registration_queue_for] at hrevoked
    have := h.vacant _ route (peer_role sender.role) known hrevoked
    rw [hears] at this
    cases this
  · change c.pairs ≤ c.limits.forwarding_pairs
    rw [set.limits]
    have hset := pairs_set _ known set.routes
    have hsame : ((({ route with rate } : RouteRuntime).queue_for (peer_role sender.role) peer
        envelope.encoded_len).count_sent sender.role).paired = route.paired := by
      rw [paired_eq _ sender.role, paired_eq route sender.role, endpoint_count_sent,
        endpoint_count_sent, endpoint_queue_for, endpoint_queue_for, if_pos rfl,
        if_neg (peer_role_ne _).symm, hroute, hears]
      rfl
    rw [hsame] at hset
    have := h.pairs
    omega

theorem accounted_took (h : Accounted w) {rest : List (List UInt8)}
    (queue : (w.wires.channels id).queue = message :: rest) : Accounted { w with
      wires := w.wires.set id
        { w.wires.channels id with
          taken := (w.wires.channels id).taken ++ [message], queue := rest }
      inflight := Function.update w.inflight id (w.inflight id ++ [message]) } := by
  have hsame : ∀ id', Function.update w.inflight id (w.inflight id ++ [message]) id' ++
      ((w.wires.set id
        { w.wires.channels id with
          taken := (w.wires.channels id).taken ++ [message], queue := rest }).channels id').queue =
        w.outstanding id' := by
    intro id'
    unfold World.outstanding
    by_cases hid : id' = id
    · subst hid
      rw [Function.update_self, channels_set_self, queue, List.append_assoc]
      rfl
    · rw [Function.update_of_ne hid, channels_set_of_ne _ _ hid]
  refine ⟨?_, ?_, h.vacant, h.pairs⟩
  · intro r route role runtime hget hruntime
    unfold World.outstanding
    rw [hsame]
    exact h.charged r route role runtime hget hruntime
  · intro id' hid'
    exact (hsame id').trans (h.unused id' hid')

theorem accounted_delivered (hs : Sound w) (h : Accounted w) {endpoint : ConnectedEndpoint}
    {index : Nat} (known : endpoint ∈ w.admitted)
    (taken : (w.inflight endpoint.connection_id)[index]? = some message) : Accounted { w with
      core := w.core.delivered endpoint message.length
      inflight := Function.update w.inflight endpoint.connection_id
        ((w.inflight endpoint.connection_id).eraseIdx index) } := by
  have hother : ∀ id, id ≠ endpoint.connection_id →
      Function.update w.inflight endpoint.connection_id
        ((w.inflight endpoint.connection_id).eraseIdx index) id ++ (w.wires.channels id).queue =
        w.outstanding id := by
    intro id hid
    rw [Function.update_of_ne hid]
    rfl
  have hunused : ∀ id, w.core.next_connection_id ≤ id →
      Function.update w.inflight endpoint.connection_id
        ((w.inflight endpoint.connection_id).eraseIdx index) id ++ (w.wires.channels id).queue =
        [] := by
    intro id hid
    exact (hother id ((hs.fresh endpoint known).trans_le hid).ne').trans (h.unused id hid)
  -- an endpoint with this id sits where the reporting one was admitted
  have hseat : ∀ r route role runtime, w.core.routes.get? r = some route →
      route.endpoint role = some runtime → runtime.connection_id = endpoint.connection_id →
        endpoint = ⟨r, role, runtime.connection_id, runtime.epoch⟩ := by
    intro r route role runtime hget hruntime hid
    exact List.inj_on_of_nodup_map hs.distinct known (hs.held r route role runtime hget hruntime)
      hid.symm
  rcases delivered_cases w.core endpoint message.length with
    ⟨heq, hnone⟩ | ⟨route, runtime, hroute, hruntime, hid, -, heq⟩
  · rw [heq]
    refine ⟨?_, hunused, h.vacant, h.pairs⟩
    intro r route role runtime hget hruntime
    unfold World.outstanding
    rw [hother]
    · exact h.charged r route role runtime hget hruntime
    · intro hid
      have hwho := hseat r route role runtime hget hruntime hid
      rw [hwho] at hnone
      exact hnone route runtime hget hruntime ⟨rfl, rfl⟩
  · rw [heq]
    refine ⟨?_, hunused, ?_, ?_⟩
    · refine charged_routeSet h rfl ?_ ?_
      · intro r' route' role runtime' hr hget hruntime'
        refine hother _ fun hid' => hr ?_
        exact (congrArg ConnectedEndpoint.route_id (hseat r' route' role runtime' hget hruntime'
          hid')).symm
      · intro role runtime' hruntime'
        rw [registration_set_endpoint]
        unfold World.outstanding
        rcases role_cases endpoint.role role with rfl | rfl
        · rw [endpoint_set_self] at hruntime'
          cases hruntime'
          have hcharged := h.charged _ route _ runtime hroute hruntime
          have hlt : index < (w.inflight endpoint.connection_id).length :=
            (List.getElem?_eq_some_iff.mp taken).1
          have hlength := List.length_eraseIdx_add_one hlt
          have hbytes := totalBytes_eraseIdx taken
          have hmessages := hcharged.messages
          have htotal := hcharged.bytes
          unfold World.outstanding at hmessages htotal
          rw [hid, List.length_append] at hmessages
          rw [hid, totalBytes_append] at htotal
          have hle := hcharged.messages_le
          have hle' := hcharged.bytes_le
          change Charged _ _ (Function.update w.inflight endpoint.connection_id _
            runtime.connection_id ++ (w.wires.channels runtime.connection_id).queue)
          rw [hid, Function.update_self]
          refine ⟨?_, ?_, ?_, ?_⟩ <;>
            simp [totalBytes_append] <;> omega
        · rw [endpoint_set_peer] at hruntime'
          rw [hother]
          · exact h.charged _ route _ runtime' hroute hruntime'
          · rw [← hid]
            exact hs.slots_apart hroute hroute hruntime' hruntime fun hand =>
              (peer_role_ne _) hand.2
    · refine vacant_routeSet h.vacant rfl ?_
      intro role hrevoked
      rw [registration_set_endpoint] at hrevoked
      have := h.vacant _ route endpoint.role hroute hrevoked
      rw [hruntime] at this
      cases this
    · have hset := pairs_set (w.core.delivered endpoint message.length) hroute
        (congrArg RelayCore.routes heq)
      rw [heq] at hset
      rw [paired_eq _ endpoint.role, paired_eq _ endpoint.role, endpoint_set_self,
        endpoint_set_peer, hruntime] at hset
      have := h.pairs
      exact (Nat.add_right_cancel hset).trans_le this

theorem accounted_registered (h : Accounted w) {registration : RelayRouteRegistration}
    (fresh : w.core.routes.get? registration.route_id = none)
    (set : RouteSet w.core c registration.route_id (.new registration now_millis)) :
    Accounted { w with core := c } := by
  have hnone : ∀ role, (RouteRuntime.new registration now_millis).endpoint role = none := by
    intro role
    cases role <;> rfl
  refine ⟨?_, ?_, ?_, ?_⟩
  · refine charged_routeSet h set.routes (fun _ _ _ _ _ _ _ => rfl) ?_
    intro role runtime hruntime
    rw [hnone] at hruntime
    cases hruntime
  · intro id hid
    rw [set.next_connection_id] at hid
    exact h.unused id hid
  · exact vacant_routeSet h.vacant set.routes fun role _ => hnone role
  · rw [set.limits, pairs_new fresh set.routes rfl]
    exact h.pairs

theorem accounted_step (hs : Sound w) (h : Accounted w) (heffect : Effect w w') : Accounted w' := by
  cases heffect with
  | quiet c same =>
    refine ⟨?_, ?_, ?_, ?_⟩
    · intro r route role runtime hget
      exact h.charged r route role runtime (same.routes ▸ hget)
    · intro id hid
      exact h.unused id (same.next_connection_id ▸ hid)
    · intro r route role hget
      exact h.vacant r route role (same.routes ▸ hget)
    · have hpairs := h.pairs
      unfold RelayCore.pairs at hpairs ⊢
      rwa [same.routes, same.limits]
  | admitted c r route role serial capacity known free live room routes next limits =>
    exact accounted_admitted hs h _ capacity _ known free live room routes next limits
  | cleared c r route cleared known clear set =>
    apply accounted_cleared h _ _ known clear set
    rw [channels_cancel_endpoint, channels_cancel_endpoint]
  | forwarded c route rate sender speaker peer envelope encoded channel known live speaks is_sender
      hears decoded number messages bytes sent set =>
    exact accounted_forwarded hs h _ known hears decoded messages bytes sent set
  | took id message rest queue => exact accounted_took h queue
  | delivered endpoint index message known taken => exact accounted_delivered hs h known taken
  | dropped id =>
    have hsame : ∀ id', w.inflight id' ++ ((w.wires.set id
        { w.wires.channels id with receiving := false }).channels id').queue =
          w.outstanding id' := by
      intro id'
      by_cases hid : id' = id
      · subst hid
        rw [channels_set_self]
        rfl
      · rw [channels_set_of_ne _ _ hid]
        rfl
    refine ⟨?_, fun id' hid' => (hsame id').trans (h.unused id' hid'), h.vacant, h.pairs⟩
    intro r route role runtime hget hruntime
    unfold World.outstanding
    rw [hsame]
    exact h.charged r route role runtime hget hruntime
  | registered c registration now_millis fresh set => exact accounted_registered h fresh set

theorem accounted_start
    (h : ∀ r route, core.routes.get? r = some route → ∃ reg, route = .new reg now_millis) :
    Accounted (World.start core) := by
  have hempty : ∀ r route role, core.routes.get? r = some route → route.endpoint role = none := by
    intro r route role hget
    obtain ⟨reg, rfl⟩ := h r route hget
    cases role <;> rfl
  refine ⟨?_, fun _ _ => rfl, fun r route role hget _ => hempty r route role hget, ?_⟩
  · intro r route role runtime hget hruntime
    rw [hempty r route role hget] at hruntime
    cases hruntime
  · have hzero : core.pairs = 0 := by
      unfold RelayCore.pairs
      rw [List.countP_eq_zero]
      rintro ⟨r, route⟩ he
      have hhost := hempty r route .Host (SortedMap.get?_eq_some_iff.mpr he)
      rw [paired_eq route .Host, hhost]
      exact Bool.false_ne_true
    exact hzero.trans_le (Nat.zero_le _)

/-! ## Serials -/

/-- What one operation does to the challenges: some are gone, one is new, or one was answered. -/
inductive Spending (w : World) (w' : World) : Prop
  | fewer (challenges : FewerChallenges w.core w'.core) (serials : w'.serials = w.serials)
      (admitted : w'.admitted = w.admitted)
  | issued (challenges : ∀ serial pending, w'.core.challenges.get? serial = some pending →
        serial = w.core.next_serial ∨ w.core.challenges.get? serial = some pending)
      (next : w'.core.next_serial = w.core.next_serial + 1) (serials : w'.serials = w.serials)
      (admitted : w'.admitted = w.admitted)
  | spent (serial : Nat) (pending : PendingChallenge) (endpoint : ConnectedEndpoint)
      (known : w.core.challenges.get? serial = some pending)
      (challenges : w'.core.challenges = w.core.challenges.erase serial)
      (next : w'.core.next_serial = w.core.next_serial) (serials : w'.serials = w.serials ++ [serial])
      (admitted : w'.admitted = w.admitted ++ [endpoint])

theorem Spending.same (challenges : w'.core.challenges = w.core.challenges)
    (next : w'.core.next_serial = w.core.next_serial) (serials : w'.serials = w.serials)
    (admitted : w'.admitted = w.admitted) : Spending w w' := by
  refine .fewer ⟨fun serial pending h => ?_, next⟩ serials admitted
  rwa [challenges] at h

theorem challenges_prune_expired {now_seconds serial : Nat} {pending : PendingChallenge}
    (h : (c.prune_expired now_seconds).challenges.get? serial = some pending) :
    c.challenges.get? serial = some pending := by
  unfold RelayCore.prune_expired at h
  rw [SortedMap.get?_filter] at h
  exact Option.eq_some_of_filter_eq_some h

theorem spending_issue_challenge (w : World) (route_id : RelayRouteId) (role : RelayEndpointRole)
    (source : IpAddr) (now_seconds : Nat) (nonce : ByteArrayOf 32) :
    Spending w (w.issue_challenge route_id role source now_seconds nonce) := by
  have hpruned : ∀ c' : RelayCore, c'.challenges = (w.core.prune_expired now_seconds).challenges →
      c'.next_serial = w.core.next_serial → Spending w { w with core := c' } := by
    intro c' hchallenges hnext
    refine .fewer ⟨fun serial pending h => ?_, hnext⟩ rfl rfl
    exact challenges_prune_expired (hchallenges ▸ h)
  unfold World.issue_challenge RelayCore.issue_challenge
  simp only
  split
  · exact hpruned _ rfl rfl
  split
  · exact hpruned _ rfl rfl
  split
  · exact hpruned _ rfl rfl
  split
  · exact hpruned _ rfl rfl
  split
  · exact hpruned _ rfl rfl
  split
  · exact hpruned _ rfl rfl
  · refine .issued (fun serial pending h => ?_) rfl rfl rfl
    by_cases hserial : serial = w.core.next_serial
    · exact .inl hserial
    · have hold : (w.core.prune_expired now_seconds).challenges.get? serial = some pending :=
        (SortedMap.get?_insert_of_ne hserial).symm.trans h
      exact .inr (challenges_prune_expired hold)

theorem spending_admit_endpoint (S : Signatures) (w : World) (proof : RelayAdmissionProof)
    (source : IpAddr)
    (now_seconds capacity : Nat) : Spending w (w.admit_endpoint S proof source now_seconds capacity) := by
  unfold World.admit_endpoint
  rcases admit_cases S w.core w.wires proof source now_seconds capacity with
    ⟨c, code, heq, -, hfewer⟩ | ⟨c, pending, route, heq, hpending, -, -, -, -, -, -, -, -,
      hchallenges, hnext⟩
  · rw [heq]
    exact .fewer hfewer rfl rfl
  · rw [heq]
    exact .spent proof.serial pending _ hpending hchallenges hnext rfl rfl

theorem spending_forward (w : World) (sender : ConnectedEndpoint) (encoded : List UInt8)
    (now_millis : Nat) : Spending w (w.forward sender encoded now_millis) := by
  unfold World.forward
  split
  · exact .same rfl rfl rfl rfl
  rename_i envelope hdecode
  simp only
  rcases forward_cases w.core w.wires sender envelope encoded now_millis with
    ⟨code, heq⟩ | ⟨c, wires, code, heq, hcloses⟩ | ⟨c, wires, route, rate, speaker, peer, channel,
      heq, hqueues⟩
  · rw [heq]
    exact .same rfl rfl rfl rfl
  · rw [heq]
    exact .same hcloses.challenges hcloses.next_serial rfl rfl
  · rw [heq]
    split
    · exact .same hqueues.challenges hqueues.next_serial rfl rfl
    · exact .same hqueues.challenges hqueues.next_serial rfl rfl

theorem spending_step (S : Signatures) (w : World) (op : Op) : Spending w (w.step S op) := by
  cases op with
  | issue_challenge route_id role source now_seconds nonce =>
    exact spending_issue_challenge w route_id role source now_seconds nonce
  | admit_endpoint proof source now_seconds capacity =>
    exact spending_admit_endpoint S w proof source now_seconds capacity
  | forward sender encoded now_millis => exact spending_forward w sender encoded now_millis
  | take id =>
    unfold World.step World.take
    simp only
    split
    · exact .same rfl rfl rfl rfl
    · exact .same rfl rfl rfl rfl
  | delivered endpoint index =>
    unfold World.step World.delivered
    simp only
    split
    · rename_i message _ _
      rcases delivered_cases w.core endpoint message.length with
        ⟨heq, -⟩ | ⟨route, runtime, -, -, -, -, heq⟩
      · rw [heq]
        exact .same rfl rfl rfl rfl
      · rw [heq]
        exact .same rfl rfl rfl rfl
    · exact .same rfl rfl rfl rfl
  | drop_receiver id => exact .same rfl rfl rfl rfl
  | disconnect endpoint =>
    unfold World.step World.disconnect RelayCore.disconnect
    simp only
    split
    · exact .same rfl rfl rfl rfl
    split
    · exact .same rfl rfl rfl rfl
    · exact .same rfl rfl rfl rfl
  | insert_registration registration now_millis =>
    unfold World.step RelayCore.insert_registration
    simp only
    split
    · exact .same rfl rfl rfl rfl
    split
    · exact .same rfl rfl rfl rfl
    · exact .same rfl rfl rfl rfl
  | apply_revocation route_id epoch =>
    unfold World.step World.apply_revocation RelayCore.apply_revocation
    simp only
    split
    · exact .same rfl rfl rfl rfl
    split
    · exact .same rfl rfl rfl rfl
    · refine .fewer ⟨fun serial pending h => ?_, rfl⟩ rfl rfl
      rw [SortedMap.get?_filter] at h
      exact Option.eq_some_of_filter_eq_some h

/-- Every serial is used once: the answered ones are not open any more, and never issued again. -/
structure SingleUse (w : World) : Prop where
  nodup : w.serials.Nodup
  each : w.serials.length = w.admitted.length
  used : ∀ serial ∈ w.serials, serial < w.core.next_serial ∧ w.core.challenges.get? serial = none
  issued : ∀ serial pending, w.core.challenges.get? serial = some pending →
    serial < w.core.next_serial

theorem singleUse_step (h : SingleUse w) (hspending : Spending w w') : SingleUse w' := by
  cases hspending with
  | fewer challenges serials admitted =>
    refine ⟨serials ▸ h.nodup, by rw [serials, admitted, h.each], ?_, ?_⟩
    · intro serial hserial
      rw [serials] at hserial
      obtain ⟨hlt, hnone⟩ := h.used serial hserial
      refine ⟨challenges.next_serial ▸ hlt, ?_⟩
      cases hget : w'.core.challenges.get? serial with
      | none => rfl
      | some pending =>
        rw [challenges.challenges serial pending hget] at hnone
        cases hnone
    · intro serial pending hget
      rw [challenges.next_serial]
      exact h.issued serial pending (challenges.challenges serial pending hget)
  | issued challenges next serials admitted =>
    refine ⟨serials ▸ h.nodup, by rw [serials, admitted, h.each], ?_, ?_⟩
    · intro serial hserial
      rw [serials] at hserial
      obtain ⟨hlt, hnone⟩ := h.used serial hserial
      refine ⟨next ▸ Nat.lt_succ_of_lt hlt, ?_⟩
      cases hget : w'.core.challenges.get? serial with
      | none => rfl
      | some pending =>
        rcases challenges serial pending hget with heq | hold
        · exact absurd heq hlt.ne
        · rw [hold] at hnone
          cases hnone
    · intro serial pending hget
      rw [next]
      rcases challenges serial pending hget with rfl | hold
      · exact Nat.lt_succ_self _
      · exact Nat.lt_succ_of_lt (h.issued serial pending hold)
  | spent serial pending endpoint known challenges next serials admitted =>
    refine ⟨?_, by rw [serials, admitted, List.length_append, List.length_append, h.each]; rfl,
      ?_, ?_⟩
    · rw [serials, List.nodup_append]
      refine ⟨h.nodup, List.nodup_singleton serial, ?_⟩
      intro s hs t ht heq
      rw [heq, List.mem_singleton.mp ht] at hs
      rw [(h.used serial hs).2] at known
      cases known
    · intro s hs
      rw [serials, List.mem_append, List.mem_singleton] at hs
      rw [next, challenges]
      rcases hs with hs | rfl
      · obtain ⟨hlt, hnone⟩ := h.used s hs
        refine ⟨hlt, ?_⟩
        by_cases heq : s = serial
        · rw [heq, SortedMap.get?_erase_self]
        · rw [SortedMap.get?_erase_of_ne heq, hnone]
      · exact ⟨h.issued s pending known, SortedMap.get?_erase_self⟩
    · intro s pending' hget
      rw [challenges] at hget
      rw [next]
      by_cases heq : s = serial
      · exact heq ▸ h.issued serial pending known
      · rw [SortedMap.get?_erase_of_ne heq] at hget
        exact h.issued s pending' hget

theorem singleUse_run (S : Signatures) (ops : List Op) :
    ∀ w, SingleUse w → SingleUse (w.run S ops) := by
  induction ops with
  | nil => exact fun w hw => hw
  | cons op ops ih => exact fun w hw => ih (w.step S op) (singleUse_step hw (spending_step S w op))

/-! ## One route at a time -/

/-- The route that an operation is on. A task acts on the route of its connection. -/
def Op.route (w : World) : Op → Option RelayRouteId
  | .issue_challenge route_id _ _ _ _ => some route_id
  | .admit_endpoint proof _ _ _ => some proof.route_id
  | .forward sender _ _ => some sender.route_id
  | .take id => (w.seat id).map Prod.fst
  | .delivered endpoint _ => some endpoint.route_id
  | .drop_receiver id => (w.seat id).map Prod.fst
  | .disconnect endpoint => some endpoint.route_id
  | .insert_registration registration _ => some registration.route_id
  | .apply_revocation route_id _ => some route_id

/-- A route with its endpoints, sequences, counts, bucket and registration is the same in two
worlds, and so are the channels, the tokens and the open messages of its endpoints. -/
structure SameAt (w w' : World) (r : RelayRouteId) : Prop where
  route : w'.core.routes.get? r = w.core.routes.get? r
  connections : ∀ role id, w.core.slot r role = some id →
    w'.wires.channels id = w.wires.channels id ∧ w'.wires.cancelled id = w.wires.cancelled id ∧
      w'.inflight id = w.inflight id

theorem sameAt_quiet (routes : c.routes = w.core.routes) (r : RelayRouteId) :
    SameAt w { w with core := c } r :=
  ⟨congrArg (SortedMap.get? · r) routes, fun _ _ _ => ⟨rfl, rfl, rfl⟩⟩

theorem Sound.slot_seat (hs : Sound w) (h : w.core.slot r role = some id) :
    w.seat id = some (r, role) :=
  hs.paired.seated r role id h

theorem Sound.slot_ne (hs : Sound w) {id' : RelayConnectionId} (h : w.core.slot r role = some id)
    (h' : (w.seat id').map Prod.fst = some r') (hne : r' ≠ r) : id ≠ id' := by
  rintro rfl
  rw [hs.slot_seat h] at h'
  exact hne (Option.some.inj h').symm

theorem cancelled_cancel_endpoint (w : Wires) {e : Option EndpointRuntime}
    (h : ∀ runtime, e = some runtime → id ≠ runtime.connection_id) :
    (cancel_endpoint w e).cancelled id = w.cancelled id := by
  cases e with
  | none => rfl
  | some runtime => exact Function.update_of_ne (h runtime rfl) true w.cancelled

theorem sameAt_cleared (hs : Sound w) (route : RouteRuntime) {cleared : RouteRuntime}
    (known : w.core.routes.get? r' = some route)
    (routes : c.routes = w.core.routes.insert r' cleared) (hne : r ≠ r') : SameAt w { w with
      core := c
      wires := cancel_endpoint (cancel_endpoint w.wires route.host) route.controller } r := by
  refine ⟨?_, ?_⟩
  · rw [routes, SortedMap.get?_insert_of_ne hne]
  · intro role id hid
    have hother : ∀ role' runtime, route.endpoint role' = some runtime →
        id ≠ runtime.connection_id := by
      intro role' runtime hruntime
      have hslot : w.core.slot r' role' = some runtime.connection_id := by
        rw [slot_eq known, hruntime]
        rfl
      refine hs.slot_ne hid ?_ hne.symm
      rw [hs.slot_seat hslot]
      rfl
    refine ⟨?_, ?_, rfl⟩
    · rw [channels_cancel_endpoint, channels_cancel_endpoint]
    · exact (cancelled_cancel_endpoint _ (hother .Controller)).trans
        (cancelled_cancel_endpoint _ (hother .Host))

theorem sameAt_admit_endpoint (hs : Sound w) (proof : RelayAdmissionProof) (source : IpAddr)
    (now_seconds capacity : Nat) (hne : proof.route_id ≠ r) :
    SameAt w (w.admit_endpoint S proof source now_seconds capacity) r := by
  unfold World.admit_endpoint
  rcases admit_cases S w.core w.wires proof source now_seconds capacity with
    ⟨c, code, heq, hsame, -⟩ | ⟨c, pending, route, heq, -, hroute, -, -, -, -, hroutes, -⟩
  · rw [heq]
    exact sameAt_quiet hsame.routes r
  · rw [heq]
    refine ⟨?_, ?_⟩
    · rw [hroutes, SortedMap.get?_insert_of_ne (hroute ▸ hne.symm)]
    · intro role id hid
      have hold : id ≠ w.core.next_connection_id := by
        rintro rfl
        have hseat := hs.slot_seat hid
        rw [seat_fresh hs.fresh] at hseat
        cases hseat
      exact ⟨channels_set_of_ne _ _ hold, rfl, rfl⟩

theorem sameAt_forward (hs : Sound w) (sender : ConnectedEndpoint) (encoded : List UInt8)
    (now_millis : Nat) (hne : sender.route_id ≠ r) :
    SameAt w (w.forward sender encoded now_millis) r := by
  unfold World.forward
  split
  · exact sameAt_quiet rfl r
  rename_i envelope hdecode
  rcases forward_cases w.core w.wires sender envelope encoded now_millis with
    ⟨code, heq⟩ | ⟨c, wires, code, heq, hcloses⟩ | ⟨c, wires, route, rate, speaker, peer, channel,
      heq, hqueues⟩
  · rw [heq]
    exact sameAt_quiet rfl r
  · rw [heq]
    obtain ⟨route, cleared, hroute, -, hset, rfl⟩ := hcloses.closes
    exact sameAt_cleared hs route hroute hset.routes hne.symm
  · have hslot : w.core.slot sender.route_id (peer_role sender.role) = some peer.connection_id := by
      rw [slot_eq hqueues.known, hqueues.hears]
      rfl
    rw [heq, hslot, hqueues.wires]
    refine ⟨?_, ?_⟩
    · rw [hqueues.set.routes, SortedMap.get?_insert_of_ne hne.symm]
    · intro role id hid
      refine ⟨channels_set_of_ne _ _ ?_, rfl, rfl⟩
      refine hs.slot_ne hid ?_ hne
      rw [hs.slot_seat hslot]
      rfl

theorem sameAt_task (hs : Sound w) (id : RelayConnectionId) (channel : Channel)
    (messages : List (List UInt8)) (hne : (w.seat id).map Prod.fst ≠ some r) : SameAt w { w with
      wires := w.wires.set id channel
      inflight := Function.update w.inflight id messages } r := by
  refine ⟨rfl, fun role id' hid' => ?_⟩
  have hother : id' ≠ id := by
    rintro rfl
    rw [hs.slot_seat hid'] at hne
    exact hne rfl
  exact ⟨channels_set_of_ne _ _ hother, rfl, Function.update_of_ne hother _ _⟩

theorem sameAt_delivered (hs : Sound w) (endpoint : ConnectedEndpoint) (index : Nat)
    (hne : endpoint.route_id ≠ r) : SameAt w (w.delivered endpoint index) r := by
  unfold World.delivered
  split
  · rename_i message hknown htaken
    refine ⟨?_, ?_⟩
    · rcases delivered_cases w.core endpoint message.length with
        ⟨heq, -⟩ | ⟨route, runtime, -, -, -, -, heq⟩
      · rw [heq]
      · rw [heq]
        exact SortedMap.get?_insert_of_ne hne.symm
    · intro role id hid
      have hother : id ≠ endpoint.connection_id := by
        refine hs.slot_ne hid ?_ hne
        rw [seat_of_mem hs.distinct (of_decide_eq_true hknown)]
        rfl
      exact ⟨rfl, rfl, Function.update_of_ne hother _ _⟩
  · exact sameAt_quiet rfl r

theorem sameAt_step (hs : Sound w) (op : Op) (hne : op.route w ≠ some r) :
    SameAt w (w.step S op) r := by
  cases op with
  | issue_challenge route_id role source now_seconds nonce =>
    exact sameAt_quiet (issue_challenge_same w.core route_id role source now_seconds nonce).routes r
  | admit_endpoint proof source now_seconds capacity =>
    exact sameAt_admit_endpoint hs proof source now_seconds capacity fun heq => hne (congrArg some heq)
  | forward sender encoded now_millis =>
    exact sameAt_forward hs sender encoded now_millis fun heq => hne (congrArg some heq)
  | take id =>
    unfold World.step World.take
    simp only
    split
    · exact sameAt_task hs id _ _ hne
    · exact sameAt_quiet rfl r
  | delivered endpoint index =>
    exact sameAt_delivered hs endpoint index fun heq => hne (congrArg some heq)
  | drop_receiver id =>
    have htask := sameAt_task hs id { w.wires.channels id with receiving := false } (w.inflight id) hne
    rwa [Function.update_eq_self] at htask
  | disconnect endpoint =>
    have hother : r ≠ endpoint.route_id := fun heq => hne (congrArg some heq.symm)
    unfold World.step World.disconnect RelayCore.disconnect
    simp only
    split
    · exact sameAt_quiet rfl r
    rename_i route hroute
    split
    · exact sameAt_cleared hs route hroute rfl hother
    · exact sameAt_quiet rfl r
  | insert_registration registration now_millis =>
    have hother : r ≠ registration.route_id := fun heq => hne (congrArg some heq.symm)
    unfold World.step RelayCore.insert_registration
    simp only
    split
    · exact sameAt_quiet rfl r
    split
    · exact sameAt_quiet rfl r
    · exact ⟨SortedMap.get?_insert_of_ne hother, fun _ _ _ => ⟨rfl, rfl, rfl⟩⟩
  | apply_revocation route_id epoch =>
    have hother : r ≠ route_id := fun heq => hne (congrArg some heq.symm)
    unfold World.step World.apply_revocation RelayCore.apply_revocation
    simp only
    split
    · exact sameAt_quiet rfl r
    rename_i route hroute
    split
    · exact sameAt_quiet rfl r
    · exact sameAt_cleared hs route hroute rfl hother

/-! ## The accounts of every run -/

theorem accounted_run {registrations : List RelayRouteRegistration} {limits : RelayServerLimits}
    (h : RelayCore.new S registrations limits now_millis = .ok core) (ops : List Op) :
    Sound ((World.start core).run S ops) ∧ Accounted ((World.start core).run S ops) ∧
      ((World.start core).run S ops).core.limits = limits := by
  obtain ⟨hroutes, -, -, -, hlimits⟩ := new_core h
  refine run_invariant (P := fun w => Sound w ∧ Accounted w ∧ w.core.limits = limits) S ?_ ops _
    ⟨(sound_start hroutes).1, accounted_start hroutes, hlimits⟩
  rintro w w' ⟨hsound, haccounted, hlim⟩ heffect
  refine ⟨sound_step hsound heffect, accounted_step hsound haccounted heffect, ?_⟩
  cases heffect with
  | quiet c same => exact same.limits.trans hlim
  | admitted c r route role serial capacity known free live room routes next limits' =>
    exact limits'.trans hlim
  | cleared c r route cleared known clear set => exact set.limits.trans hlim
  | forwarded c route rate sender speaker peer envelope encoded channel known live speaks is_sender
      hears decoded number messages bytes sent set => exact set.limits.trans hlim
  | took id message rest queue => exact hlim
  | delivered endpoint index message known taken =>
    rcases delivered_cases w.core endpoint message.length with
      ⟨heq, -⟩ | ⟨route, runtime, -, -, -, -, heq⟩
    · exact (congrArg RelayCore.limits heq).trans hlim
    · exact (congrArg RelayCore.limits heq).trans hlim
  | dropped id => exact hlim
  | registered c registration now_millis fresh set => exact set.limits.trans hlim

/-- In every run the counts of a live endpoint are those of its outstanding messages, within its
quota; the pairs stay within their limit; ids and serials are used once; and an operation on one
route leaves every other route as it is. -/
theorem relay_accounting_is_exact {S : Signatures} {registrations : List RelayRouteRegistration}
    {limits : RelayServerLimits} {now_millis : Nat} {core : RelayCore}
    (hnew : RelayCore.new S registrations limits now_millis = .ok core) (ops : List Op) :
    let w := (World.start core).run S ops
    (∀ r route role runtime, w.core.routes.get? r = some route →
      route.endpoint role = some runtime →
        runtime.queued_messages = (w.outstanding runtime.connection_id).length ∧
        runtime.queued_encoded_bytes = totalBytes (w.outstanding runtime.connection_id) ∧
        runtime.queued_messages ≤ route.registration.quota.queue_messages ∧
        runtime.queued_encoded_bytes ≤ route.registration.quota.queue_encoded_bytes) ∧
      w.core.pairs ≤ limits.forwarding_pairs ∧
      (w.admitted.map ConnectedEndpoint.connection_id).Nodup ∧
      w.serials.Nodup ∧ w.serials.length = w.admitted.length ∧
      ∀ op r, op.route w ≠ some r → SameAt w (w.step S op) r := by
  intro w
  obtain ⟨hsound, haccounted, hlimits⟩ := accounted_run hnew ops
  obtain ⟨-, hchallenges, -, -, -⟩ := new_core hnew
  have hserials : SingleUse w := by
    refine singleUse_run S ops _ ⟨List.nodup_nil, rfl, fun _ h => absurd h List.not_mem_nil, ?_⟩
    intro serial pending hget
    change core.challenges.get? serial = some pending at hget
    rw [hchallenges] at hget
    cases hget
  refine ⟨?_, ?_, hsound.distinct, hserials.nodup, hserials.each, ?_⟩
  · intro r route role runtime hget hruntime
    have hcharged := haccounted.charged r route role runtime hget hruntime
    exact ⟨hcharged.messages, hcharged.bytes, hcharged.messages_le, hcharged.bytes_le⟩
  · have hpairs := haccounted.pairs
    rwa [hlimits] at hpairs
  · intro op r hne
    exact sameAt_step hsound op hne

theorem relay_accounting_is_exact_for_a_pair :
    (((World.start sampleCore).run sampleSignatures talkOps).outstanding
        controllerEndpoint.connection_id).length = 2 ∧
      ((World.start sampleCore).run sampleSignatures talkOps).core.pairs = 1 ∧
      ((World.start sampleCore).run sampleSignatures talkOps).core.pairs ≤
        RelayServerLimits.default.forwarding_pairs := by
  have hexact := relay_accounting_is_exact sampleCore_new talkOps
  exact ⟨by decide +kernel, by decide +kernel, hexact.2.1⟩

end multiplex_relay_server
