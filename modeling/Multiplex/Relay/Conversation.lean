-- Pairing. The relay is a switchboard: each route is a line with two sides,
-- and every step of a run is a step of the switchboard. The numbers that the
-- envelopes carry then count what one peer said to the other.
import Multiplex.Lib.Switchboard
import Multiplex.Relay.Runs

open multiplex_relay_protocol Switchboard

namespace multiplex_relay_server

@[simp] theorem peer_role_peer_role (role : RelayEndpointRole) : peer_role (peer_role role) = role := by
  cases role <;> rfl

theorem peer_role_ne (role : RelayEndpointRole) : peer_role role ≠ role := by
  cases role <;> decide

/-! ## The slots of a route -/

@[simp] theorem endpoint_set_self (r : RouteRuntime) (role : RelayEndpointRole)
    (e : Option EndpointRuntime) : (r.set_endpoint role e).endpoint role = e := by
  cases role <;> rfl

@[simp] theorem endpoint_set_peer (r : RouteRuntime) (role : RelayEndpointRole)
    (e : Option EndpointRuntime) :
    (r.set_endpoint role e).endpoint (peer_role role) = r.endpoint (peer_role role) := by
  cases role <;> rfl

@[simp] theorem endpoint_count_sent (r : RouteRuntime) (role role' : RelayEndpointRole) :
    (r.count_sent role).endpoint role' = r.endpoint role' := by
  cases role <;> cases role' <;> rfl

section
variable (r : RouteRuntime) (role role' : RelayEndpointRole)

theorem endpoint_of_admitted (id : RelayConnectionId) :
    (r.admit_endpoint role id).endpoint role' =
      if role' = role then some ⟨id, r.registration.revocation_epoch, 0, 0⟩ else r.endpoint role' := by
  cases role <;> cases role' <;> rfl

theorem endpoint_queue_for (peer : EndpointRuntime) (n : Nat) :
    (r.queue_for role peer n).endpoint role' =
      if role' = role then some { peer with
        queued_messages := peer.queued_messages + 1
        queued_encoded_bytes := peer.queued_encoded_bytes + n }
      else r.endpoint role' := by
  cases role <;> cases role' <;> rfl

end

variable {route route' : RouteRuntime} {c : RelayCore} {r : RelayRouteId} {w : World}

theorem Cleared.endpoint {cleared : RouteRuntime} (h : Cleared route cleared)
    (role : RelayEndpointRole) : cleared.endpoint role = none := by
  cases role
  · exact h.host
  · exact h.controller

theorem slot_eq (h : c.routes.get? r = some route) (role : RelayEndpointRole) :
    c.slot r role = (route.endpoint role).map EndpointRuntime.connection_id := by
  unfold RelayCore.slot
  rw [h, Option.bind_some]

theorem slot_none (h : c.routes.get? r = none) (role : RelayEndpointRole) :
    c.slot r role = none := by
  unfold RelayCore.slot
  rw [h]
  rfl

variable {c' core : RelayCore} {w' : World} {role : RelayEndpointRole} {now_millis : Nat}

theorem slot_insert (h : c'.routes = c.routes.insert r route) (r' : RelayRouteId)
    (role : RelayEndpointRole) :
    c'.slot r' role = if r' = r then (route.endpoint role).map EndpointRuntime.connection_id
      else c.slot r' role := by
  unfold RelayCore.slot
  rw [h]
  split
  · rename_i heq
    subst heq
    rw [SortedMap.get?_insert_self, Option.bind_some]
  · rename_i hne
    rw [SortedMap.get?_insert_of_ne hne]

section
variable (c : RelayCore) (endpoint : ConnectedEndpoint) (n : Nat)

theorem delivered_cases :
    (c.delivered endpoint n = c ∧ ∀ route runtime,
      c.routes.get? endpoint.route_id = some route → route.endpoint endpoint.role = some runtime →
        ¬ (runtime.connection_id = endpoint.connection_id ∧ runtime.epoch = endpoint.epoch)) ∨
    ∃ route runtime, c.routes.get? endpoint.route_id = some route ∧
      route.endpoint endpoint.role = some runtime ∧
      runtime.connection_id = endpoint.connection_id ∧ runtime.epoch = endpoint.epoch ∧
      c.delivered endpoint n = { c with
          routes := c.routes.insert endpoint.route_id (route.set_endpoint endpoint.role
            (some { runtime with
              queued_messages := runtime.queued_messages - 1
              queued_encoded_bytes := runtime.queued_encoded_bytes - n })) } := by
  unfold RelayCore.delivered
  split
  · rename_i hnone
    refine .inl ⟨rfl, fun route runtime hroute => ?_⟩
    rw [hnone] at hroute
    cases hroute
  rename_i route hroute
  split
  · rename_i hnone
    refine .inl ⟨rfl, fun route' runtime hroute' hruntime => ?_⟩
    rw [hroute] at hroute'
    cases hroute'
    rw [hnone] at hruntime
    cases hruntime
  rename_i runtime hruntime
  split
  · rename_i hsame
    exact .inr ⟨route, runtime, hroute, hruntime, hsame.1, hsame.2, rfl⟩
  · rename_i hother
    refine .inl ⟨rfl, fun route' runtime' hroute' hruntime' => ?_⟩
    rw [hroute] at hroute'
    cases hroute'
    rw [hruntime] at hruntime'
    cases hruntime'
    exact hother

theorem slot_delivered (r : RelayRouteId) (role : RelayEndpointRole) :
    (c.delivered endpoint n).slot r role = c.slot r role := by
  rcases delivered_cases c endpoint n with ⟨heq, -⟩ | ⟨route, runtime, hroute, hruntime, -, -, heq⟩
  · rw [heq]
  · rw [heq, slot_insert rfl]
    split
    · rename_i hr
      subst hr
      rw [slot_eq hroute]
      rcases eq_or_ne role endpoint.role with rfl | hrole
      · rw [endpoint_set_self, hruntime]
        rfl
      · cases hrole' : endpoint.role <;> cases role <;> simp_all [RouteRuntime.set_endpoint,
          RouteRuntime.endpoint]
    · rfl

end

/-! ## The switchboard of a world -/

def World.saidBy (w : World) (id : RelayConnectionId) : List Forwarded :=
  w.log.filter fun f => decide (f.sender.connection_id = id)

def World.heardBy (w : World) (id : RelayConnectionId) : List Forwarded :=
  w.log.filter fun f => decide (f.peer = id)

def Forwarded.said (f : Forwarded) : Said RelayConnectionId Forwarded :=
  ⟨f.sender.connection_id, f.peer, f⟩

def World.seat (w : World) (id : RelayConnectionId) : Option (RelayRouteId × RelayEndpointRole) :=
  (w.admitted.find? fun e => decide (e.connection_id = id)).map fun e => (e.route_id, e.role)

def World.board (w : World) : Board RelayRouteId RelayEndpointRole RelayConnectionId Forwarded where
  slot := w.core.slot
  known := w.seat
  log := w.log.map Forwarded.said

theorem board_idle (hslot : ∀ r role, w'.core.slot r role = w.core.slot r role)
    (hadmitted : w'.admitted = w.admitted) (hlog : w'.log = w.log) :
    Step peer_role w.board w'.board := by
  have hboard : w'.board = w.board := by
    unfold World.board World.seat
    rw [hadmitted, hlog, show w'.core.slot = w.core.slot from funext fun r => funext (hslot r)]
  rw [hboard]
  exact Step.idle

/-- Ids count up, so the next one is new. -/
def World.Fresh (w : World) : Prop :=
  ∀ e ∈ w.admitted, e.connection_id < w.core.next_connection_id

theorem seat_fresh (h : w.Fresh) : w.seat w.core.next_connection_id = none := by
  unfold World.seat
  rw [Option.map_eq_none_iff, List.find?_eq_none]
  intro e he
  rw [decide_eq_true_eq]
  exact (h e he).ne

theorem seat_append (w : World) (e : ConnectedEndpoint) (h : w.seat e.connection_id = none)
    (w' : World) (h' : w'.admitted = w.admitted ++ [e]) :
    w'.seat = Function.update w.seat e.connection_id (some (e.route_id, e.role)) := by
  funext id
  unfold World.seat at h ⊢
  rw [h', List.find?_append]
  by_cases heq : id = e.connection_id
  · subst heq
    rw [Function.update_self, Option.map_eq_none_iff.mp h]
    simp
  · rw [Function.update_of_ne heq]
    cases hfound : w.admitted.find? fun e => decide (e.connection_id = id) with
    | some e' => rfl
    | none => simp [Ne.symm heq]

theorem slot_routeSet (known : c.routes.get? r = some route) (set : RouteSet c c' r route')
    (same : ∀ role, (route'.endpoint role).map EndpointRuntime.connection_id =
      (route.endpoint role).map EndpointRuntime.connection_id) (r' : RelayRouteId)
    (role : RelayEndpointRole) : c'.slot r' role = c.slot r' role := by
  rw [slot_insert set.routes]
  split
  · rename_i hr
    subst hr
    rw [same, slot_eq known]
  · rfl

theorem board_step (hfresh : w.Fresh) (h : Effect w w') : Step peer_role w.board w'.board := by
  cases h with
  | quiet c same =>
    refine board_idle (fun r role => ?_) rfl rfl
    unfold RelayCore.slot
    rw [same.routes]
  | admitted c r route role serial capacity known free live room routes next limits =>
    have hfree : w.board.slot r role = none := by
      exact (slot_eq known role).trans (by rw [free]; rfl)
    convert Step.join r role w.core.next_connection_id hfree (seat_fresh hfresh) using 1
    unfold World.board Board.join
    congr 1
    · funext r' role'
      rw [slot_insert routes]
      by_cases hr : r' = r
      · subst hr
        rw [if_pos rfl, endpoint_of_admitted]
        by_cases hrole : role' = role
        · rw [if_pos hrole, if_pos ⟨rfl, hrole⟩]
          rfl
        · rw [if_neg hrole, if_neg fun hand => hrole hand.2]
          exact (slot_eq known role').symm
      · rw [if_neg hr, if_neg fun hand => hr hand.1]
    · exact seat_append w ⟨r, role, w.core.next_connection_id, _⟩ (seat_fresh hfresh) _ rfl
  | cleared c r route cleared known clear set =>
    have hstep : Step peer_role w.board (w.board.clear r) := Step.clear r
    convert hstep using 1
    unfold World.board Board.clear
    congr 1
    funext r' role'
    rw [slot_insert set.routes, clear.endpoint]
    rfl
  | forwarded c route rate sender speaker peer envelope encoded channel known live speaks is_sender
      hears decoded number messages bytes sent set =>
    let said := Forwarded.said ⟨sender, peer.connection_id, envelope, encoded⟩
    have hspeaks : w.board.slot sender.route_id sender.role = some said.speaker := by
      exact (slot_eq known _).trans (by rw [speaks, Option.map_some, is_sender.1]; rfl)
    have hhears : w.board.slot sender.route_id (peer_role sender.role) = some said.listener := by
      exact (slot_eq known _).trans (by rw [hears]; rfl)
    convert Step.say sender.route_id sender.role said hspeaks hhears using 1
    unfold World.board Board.say
    congr 1
    · funext r role
      refine slot_routeSet known set (fun role => ?_) r role
      rw [endpoint_count_sent, endpoint_queue_for]
      split
      · rename_i hrole
        rw [hrole, hears]
        rfl
      · cases role <;> rfl
    · exact List.map_append
  | took id message rest queue =>
    exact board_idle (fun _ _ => rfl) rfl rfl
  | delivered endpoint index message known taken =>
    exact board_idle (fun r role => slot_delivered _ _ _ r role) rfl rfl
  | dropped id =>
    exact board_idle (fun _ _ => rfl) rfl rfl
  | registered c registration now_millis fresh set =>
    refine board_idle (fun r role => ?_) rfl rfl
    rw [slot_insert set.routes]
    split
    · rename_i hr
      subst hr
      rw [slot_none fresh]
      cases role <;> rfl
    · rfl

/-! ## What holds of every world -/

/-- The admissions are on record, and the log names what was admitted. -/
structure Sound (w : World) : Prop where
  fresh : w.Fresh
  distinct : (w.admitted.map ConnectedEndpoint.connection_id).Nodup
  /-- An endpoint in a slot was admitted there, at its epoch. -/
  held : ∀ r route role runtime, w.core.routes.get? r = some route →
    route.endpoint role = some runtime → ⟨r, role, runtime.connection_id, runtime.epoch⟩ ∈ w.admitted
  logged : ∀ f ∈ w.log, f.sender ∈ w.admitted ∧ RelayEnvelopeV1.decode f.encoded = .ok f.envelope
  paired : Paired peer_role w.board

theorem seat_of_mem (hdistinct : (w.admitted.map ConnectedEndpoint.connection_id).Nodup)
    {e : ConnectedEndpoint} (he : e ∈ w.admitted) :
    w.seat e.connection_id = some (e.route_id, e.role) := by
  unfold World.seat
  have hsome : (w.admitted.find? fun f => decide (f.connection_id = e.connection_id)).isSome :=
    List.find?_isSome.mpr ⟨e, he, decide_eq_true rfl⟩
  obtain ⟨f, hf⟩ := Option.isSome_iff_exists.mp hsome
  have hid : f.connection_id = e.connection_id := by simpa using List.find?_some hf
  have hfe : f = e := List.inj_on_of_nodup_map hdistinct (List.mem_of_find?_eq_some hf) he hid
  rw [hf, hfe]
  rfl

theorem held_routeSet {admitted : List ConnectedEndpoint}
    (h : ∀ r route role runtime, w.core.routes.get? r = some route →
      route.endpoint role = some runtime →
        ⟨r, role, runtime.connection_id, runtime.epoch⟩ ∈ w.admitted)
    (hmore : ∀ e ∈ w.admitted, e ∈ admitted) (routes : c'.routes = w.core.routes.insert r route')
    (hroute : ∀ role runtime, route'.endpoint role = some runtime →
      ⟨r, role, runtime.connection_id, runtime.epoch⟩ ∈ admitted) :
    ∀ r route role runtime, c'.routes.get? r = some route → route.endpoint role = some runtime →
      ⟨r, role, runtime.connection_id, runtime.epoch⟩ ∈ admitted := by
  intro r' route₁ role runtime hget hruntime
  rw [routes] at hget
  by_cases heq : r' = r
  · subst heq
    rw [SortedMap.get?_insert_self] at hget
    cases hget
    exact hroute role runtime hruntime
  · rw [SortedMap.get?_insert_of_ne heq] at hget
    exact hmore _ (h r' route₁ role runtime hget hruntime)

theorem sound_step (h : Sound w) (heffect : Effect w w') : Sound w' := by
  have hpaired : Paired peer_role w'.board :=
    paired_step h.paired peer_role_peer_role (board_step h.fresh heffect)
  cases heffect with
  | quiet c same =>
    refine ⟨?_, h.distinct, ?_, h.logged, hpaired⟩
    · intro e he
      exact (h.fresh e he).trans_eq same.next_connection_id.symm
    · intro r route role runtime hget
      exact h.held r route role runtime (same.routes ▸ hget)
  | admitted c r route role serial capacity known free live room routes next limits =>
    refine ⟨?_, ?_, ?_, ?_, hpaired⟩
    · intro e he
      rw [next]
      rcases List.mem_append.mp he with he | he
      · exact (h.fresh e he).trans (Nat.lt_succ_self _)
      · rw [List.mem_singleton.mp he]
        exact Nat.lt_succ_self _
    · rw [List.map_append, List.nodup_append]
      refine ⟨h.distinct, List.nodup_singleton _, ?_⟩
      intro id hid id' hid'
      obtain ⟨e, he, rfl⟩ := List.mem_map.mp hid
      rw [List.map_singleton, List.mem_singleton] at hid'
      rw [hid']
      exact (h.fresh e he).ne
    · refine held_routeSet h.held (fun e he => List.mem_append_left _ he) routes ?_
      intro role' runtime hruntime
      rw [endpoint_of_admitted] at hruntime
      split at hruntime
      · rename_i hrole
        cases hruntime
        rw [hrole]
        exact List.mem_append_right _ (List.mem_singleton_self _)
      · exact List.mem_append_left _ (h.held r route role' runtime known hruntime)
    · intro f hf
      exact ⟨List.mem_append_left _ (h.logged f hf).1, (h.logged f hf).2⟩
  | cleared c r route cleared known clear set =>
    refine ⟨?_, h.distinct, ?_, h.logged, hpaired⟩
    · intro e he
      exact (h.fresh e he).trans_eq set.next_connection_id.symm
    · refine held_routeSet h.held (fun e he => he) set.routes ?_
      intro role runtime hruntime
      rw [clear.endpoint] at hruntime
      cases hruntime
  | forwarded c route rate sender speaker peer envelope encoded channel known live speaks is_sender
      hears decoded number messages bytes sent set =>
    refine ⟨?_, h.distinct, ?_, ?_, hpaired⟩
    · intro e he
      exact (h.fresh e he).trans_eq set.next_connection_id.symm
    · refine held_routeSet h.held (fun e he => he) set.routes ?_
      intro role runtime hruntime
      rw [endpoint_count_sent, endpoint_queue_for] at hruntime
      split at hruntime
      · rename_i hrole
        cases hruntime
        rw [hrole]
        exact h.held _ route _ peer known hears
      · refine h.held _ route role runtime known ?_
        cases role <;> exact hruntime
    · intro f hf
      rcases List.mem_append.mp hf with hf | hf
      · exact h.logged f hf
      · rw [List.mem_singleton.mp hf]
        refine ⟨?_, decoded⟩
        have hheld := h.held _ route _ speaker known speaks
        rwa [is_sender.1, is_sender.2] at hheld
  | took id message rest queue => exact ⟨h.fresh, h.distinct, h.held, h.logged, hpaired⟩
  | delivered endpoint index message known taken =>
    rcases delivered_cases w.core endpoint message.length with
      ⟨heq, -⟩ | ⟨route, runtime, hroute, hruntime, -, -, heq⟩
    · rw [heq]
      exact ⟨h.fresh, h.distinct, h.held, h.logged, h.paired⟩
    · refine ⟨?_, h.distinct, ?_, h.logged, hpaired⟩
      · rw [heq]
        exact h.fresh
      · rw [heq]
        refine held_routeSet h.held (fun e he => he) rfl ?_
        intro role runtime' hruntime'
        by_cases hrole : role = endpoint.role
        · subst hrole
          rw [endpoint_set_self] at hruntime'
          cases hruntime'
          exact h.held _ route _ runtime hroute hruntime
        · obtain rfl : role = peer_role endpoint.role := by
            cases role <;> cases hendpoint : endpoint.role <;> simp_all [peer_role]
          rw [endpoint_set_peer] at hruntime'
          exact h.held _ route _ runtime' hroute hruntime'
  | dropped id => exact ⟨h.fresh, h.distinct, h.held, h.logged, hpaired⟩
  | registered c registration now_millis fresh set =>
    refine ⟨?_, h.distinct, ?_, h.logged, hpaired⟩
    · intro e he
      exact (h.fresh e he).trans_eq set.next_connection_id.symm
    · refine held_routeSet h.held (fun e he => he) set.routes ?_
      intro role runtime hruntime
      cases role <;> cases hruntime

/-! ## Numbers and channels -/

@[simp] theorem next_sequence_set_endpoint (r : RouteRuntime) (role role' : RelayEndpointRole)
    (e : Option EndpointRuntime) : (r.set_endpoint role e).next_sequence role' =
      r.next_sequence role' := by
  cases role <;> cases role' <;> rfl

@[simp] theorem next_sequence_queue_for (r : RouteRuntime) (role role' : RelayEndpointRole)
    (peer : EndpointRuntime) (n : Nat) :
    (r.queue_for role peer n).next_sequence role' = r.next_sequence role' :=
  next_sequence_set_endpoint r role role' _

section
variable (r : RouteRuntime) (role role' : RelayEndpointRole)

theorem next_sequence_count_sent :
    (r.count_sent role).next_sequence role' =
      if role' = role then r.next_sequence role' + 1 else r.next_sequence role' := by
  cases role <;> cases role' <;> rfl

theorem next_sequence_of_admitted (id : RelayConnectionId)
    (h : (r.endpoint (peer_role role)).isSome) :
    (r.admit_endpoint role id).next_sequence role' = 0 := by
  unfold RouteRuntime.admit_endpoint
  simp only [h]
  cases role' <;> rfl

end

@[simp] theorem channels_set_self (w : Wires) (id : RelayConnectionId) (c : Channel) :
    (w.set id c).channels id = c := by
  simp [Wires.set]

theorem channels_set_of_ne (w : Wires) {id id' : RelayConnectionId} (c : Channel) (h : id' ≠ id) :
    (w.set id c).channels id' = w.channels id' := by
  simp [Wires.set, h]

@[simp] theorem channels_cancel_endpoint (w : Wires) (e : Option EndpointRuntime) :
    (cancel_endpoint w e).channels = w.channels := by
  cases e <;> rfl

theorem stream_try_send {c c' : Channel} {message : List UInt8}
    (h : c.try_send message = some c') : c'.stream = c.stream ++ [message] := by
  unfold Channel.try_send at h
  split at h
  · cases h
    exact (List.append_assoc _ _ _).symm
  · cases h

theorem Sound.silent (h : Sound w) :
    w.saidBy w.core.next_connection_id = [] ∧ w.heardBy w.core.next_connection_id = [] := by
  have hunknown : ∀ f ∈ w.log, f.sender.connection_id ≠ w.core.next_connection_id ∧
      f.peer ≠ w.core.next_connection_id := fun f hf =>
    h.paired.not_logged (seat_fresh h.fresh) (e := f.said) (List.mem_map_of_mem hf)
  unfold World.saidBy World.heardBy
  simp
  exact ⟨fun f hf => (hunknown f hf).1, fun f hf => (hunknown f hf).2⟩

theorem Sound.alone (h : Sound w) {runtime : EndpointRuntime}
    (hroute : w.core.routes.get? r = some route) (hruntime : route.endpoint role = some runtime)
    (hpeer : route.endpoint (peer_role role) = none) : w.saidBy runtime.connection_id = [] := by
  unfold World.saidBy
  simp
  intro f hf heq
  have hslot : w.board.slot r role = some runtime.connection_id :=
    (slot_eq hroute role).trans (by rw [hruntime]; rfl)
  have hfacing := (h.paired.facing r role _ hslot f.said (List.mem_map_of_mem hf)).1 heq
  rw [show w.board.slot r (peer_role role) = none from (slot_eq hroute _).trans (by rw [hpeer]; rfl)]
    at hfacing
  cases hfacing

theorem Sound.slots_apart (h : Sound w) {r' : RelayRouteId} {role' : RelayEndpointRole}
    {e e' : EndpointRuntime} (hroute : w.core.routes.get? r = some route)
    (hroute' : w.core.routes.get? r' = some route') (he : route.endpoint role = some e)
    (he' : route'.endpoint role' = some e') (hne : ¬ (r = r' ∧ role = role')) :
    e.connection_id ≠ e'.connection_id := by
  intro heq
  have hs : w.board.slot r role = some e.connection_id := (slot_eq hroute role).trans (by rw [he]; rfl)
  have hs' : w.board.slot r' role' = some e'.connection_id :=
    (slot_eq hroute' role').trans (by rw [he']; rfl)
  have hseat := (h.paired.seated r role _ hs).symm.trans (heq ▸ h.paired.seated r' role' _ hs')
  rw [Option.some.injEq, Prod.mk.injEq] at hseat
  exact hne hseat

/-- The next number of a paired endpoint is a count that belongs to its connection. -/
def CountsNext (c : RelayCore) (count : RelayConnectionId → Nat) : Prop :=
  ∀ r route role runtime peer, c.routes.get? r = some route → route.endpoint role = some runtime →
    route.endpoint (peer_role role) = some peer →
      route.next_sequence role = UInt64.ofNat (count runtime.connection_id)

structure Numbered (w : World) : Prop where
  /-- What a connection said carries the numbers 0, 1, 2, … -/
  numbers : ∀ id, (w.saidBy id).map (fun f => f.envelope.sequence) =
    (List.range (w.saidBy id).length).map UInt64.ofNat
  /-- A paired endpoint's next number is the count of what it said. -/
  next : CountsNext w.core fun id => (w.saidBy id).length
  /-- A channel was given exactly what its connection heard. -/
  streams : ∀ id, (w.wires.channels id).stream = (w.heardBy id).map Forwarded.encoded

section
variable (w w' : World) (f : Forwarded) (h : w'.log = w.log ++ [f]) (id : RelayConnectionId)
include h

theorem saidBy_append :
    w'.saidBy id = w.saidBy id ++ if f.sender.connection_id = id then [f] else [] := by
  unfold World.saidBy
  rw [h, List.filter_append, List.filter_singleton]
  simp

theorem heardBy_append : w'.heardBy id = w.heardBy id ++ if f.peer = id then [f] else [] := by
  unfold World.heardBy
  rw [h, List.filter_append, List.filter_singleton]
  simp

end

theorem next_routeSet {count count' : RelayConnectionId → Nat} (h : CountsNext c count)
    (hcount : ∀ r' route role runtime, r' ≠ r → c.routes.get? r' = some route →
      route.endpoint role = some runtime →
        count' runtime.connection_id = count runtime.connection_id)
    (routes : c'.routes = c.routes.insert r route')
    (hroute : ∀ role runtime peer, route'.endpoint role = some runtime →
      route'.endpoint (peer_role role) = some peer →
        route'.next_sequence role = UInt64.ofNat (count' runtime.connection_id)) :
    CountsNext c' count' := by
  intro r' route₁ role runtime peer hget hruntime hpeer
  rw [routes] at hget
  by_cases heq : r' = r
  · subst heq
    rw [SortedMap.get?_insert_self] at hget
    cases hget
    exact hroute role runtime peer hruntime hpeer
  · rw [SortedMap.get?_insert_of_ne heq] at hget
    rw [hcount r' route₁ role runtime heq hget hruntime]
    exact h r' route₁ role runtime peer hget hruntime hpeer

theorem numbered_admitted (hs : Sound w) (h : Numbered w) (serials : List Nat) (capacity : Nat)
    (admitted : List ConnectedEndpoint) (known : w.core.routes.get? r = some route)
    (free : route.endpoint role = none)
    (routes : c.routes = w.core.routes.insert r (route.admit_endpoint role w.core.next_connection_id)) :
    Numbered { w with
      core := c
      wires := w.wires.set w.core.next_connection_id (.new capacity)
      admitted, serials } := by
  refine ⟨h.numbers, ?_, ?_⟩
  · refine next_routeSet h.next (fun _ _ _ _ _ _ _ => rfl) routes ?_
    intro role' runtime peer hruntime hpeer
    have hpaired : (route.endpoint (peer_role role)).isSome := by
      rw [endpoint_of_admitted] at hruntime hpeer
      cases role <;> cases role' <;> simp_all [peer_role]
    rw [next_sequence_of_admitted route role role' _ hpaired]
    -- nobody on the route has said anything: one is new, and the other was alone
    rw [endpoint_of_admitted] at hruntime
    split at hruntime
    · cases hruntime
      exact (congrArg (fun l => UInt64.ofNat (List.length l)) hs.silent.1).symm
    · have hother : peer_role role' = role := by cases role <;> cases role' <;> simp_all [peer_role]
      have halone := hs.alone known hruntime (hother ▸ free)
      exact (congrArg (fun l => UInt64.ofNat (List.length l)) halone).symm
  · intro id
    by_cases hid : id = w.core.next_connection_id
    · subst hid
      refine (congrArg Channel.stream (channels_set_self _ _ _)).trans ?_
      exact (congrArg (List.map Forwarded.encoded) hs.silent.2).symm
    · exact (congrArg Channel.stream (channels_set_of_ne _ _ hid)).trans (h.streams id)

theorem numbered_forwarded (hs : Sound w) (h : Numbered w) {rate : TokenBucket}
    {sender : ConnectedEndpoint} {speaker peer : EndpointRuntime} {envelope : RelayEnvelopeV1}
    {encoded : List UInt8} {channel : Channel}
    (known : w.core.routes.get? sender.route_id = some route)
    (speaks : route.endpoint sender.role = some speaker)
    (is_sender : speaker.connection_id = sender.connection_id)
    (hears : route.endpoint (peer_role sender.role) = some peer)
    (number : envelope.sequence = route.next_sequence sender.role)
    (sent : (w.wires.channels peer.connection_id).try_send encoded = some channel)
    (set : RouteSet w.core c sender.route_id
      ((({ route with rate } : RouteRuntime).queue_for (peer_role sender.role) peer
        envelope.encoded_len).count_sent sender.role)) : Numbered { w with
      core := c
      wires := w.wires.set peer.connection_id channel
      log := w.log ++ [⟨sender, peer.connection_id, envelope, encoded⟩] } := by
  let said : Forwarded := ⟨sender, peer.connection_id, envelope, encoded⟩
  let w' : World := { w with
    core := c, wires := w.wires.set peer.connection_id channel, log := w.log ++ [said] }
  have hsaid := saidBy_append w w' said rfl
  have hnext : route.next_sequence sender.role =
      UInt64.ofNat (w.saidBy sender.connection_id).length := by
    rw [← is_sender]
    exact h.next _ route _ speaker peer known speaks hears
  refine ⟨?_, ?_, ?_⟩
  · intro id
    rw [hsaid]
    split
    · rename_i heq
      subst heq
      rw [List.map_append, h.numbers, List.length_append, List.length_singleton, List.range_succ,
        List.map_append]
      refine congrArg _ ?_
      exact congrArg (fun n => [n]) (number.trans hnext)
    · rw [List.append_nil]
      exact h.numbers id
  · refine next_routeSet h.next ?_ set.routes ?_
    · intro r' route' role' runtime hr hget hruntime
      have hne : sender.connection_id ≠ runtime.connection_id := by
        rw [← is_sender]
        exact hs.slots_apart known hget speaks hruntime fun hand => hr hand.1.symm
      rw [hsaid, if_neg hne, List.append_nil]
    · intro role runtime peer' hruntime hpeer'
      rw [next_sequence_count_sent, next_sequence_queue_for]
      rw [endpoint_count_sent, endpoint_queue_for] at hruntime
      by_cases hrole : role = sender.role
      · subst hrole
        have hspeaker : runtime = speaker := by
          have : some runtime = some speaker := by
            rw [← hruntime, ← speaks]
            cases sender.role <;> rfl
          exact Option.some.inj this
        rw [if_pos rfl, hspeaker, is_sender, hsaid, if_pos rfl, List.length_append,
          List.length_singleton]
        have hplus : route.next_sequence sender.role + 1 =
            UInt64.ofNat ((w.saidBy sender.connection_id).length + 1) := by
          rw [hnext, UInt64.ofNat_add]
          rfl
        cases hsender : sender.role <;> rw [hsender] at hplus <;> exact hplus
      · have hother : role = peer_role sender.role := by
          cases role <;> cases hsender : sender.role <;> simp_all [peer_role]
        rw [if_pos hother] at hruntime
        rw [if_neg hrole]
        cases hruntime
        have hne : sender.connection_id ≠ peer.connection_id := by
          rw [← is_sender]
          exact hs.slots_apart known known speaks hears fun hand => (peer_role_ne _) hand.2.symm
        rw [hsaid, if_neg hne, List.append_nil]
        have hback := h.next _ route (peer_role sender.role) peer speaker known hears
          (by rw [peer_role_peer_role]; exact speaks)
        rw [← hother] at hback
        cases role <;> exact hback
  · intro id
    rw [heardBy_append w w' said rfl, List.map_append]
    by_cases hid : id = peer.connection_id
    · subst hid
      rw [if_pos rfl]
      refine (congrArg Channel.stream (channels_set_self _ _ _)).trans ?_
      rw [stream_try_send sent, h.streams]
      rfl
    · rw [if_neg (Ne.symm hid)]
      refine (congrArg Channel.stream (channels_set_of_ne _ _ hid)).trans ?_
      rw [h.streams]
      exact (List.append_nil _).symm

theorem numbered_step (hs : Sound w) (h : Numbered w) (heffect : Effect w w') : Numbered w' := by
  cases heffect with
  | quiet c same =>
    refine ⟨h.numbers, ?_, h.streams⟩
    intro r route role runtime peer hget
    exact h.next r route role runtime peer (same.routes ▸ hget)
  | admitted c r route role serial capacity known free live room routes next limits =>
    exact numbered_admitted hs h _ capacity _ known free routes
  | cleared c r route cleared known clear set =>
    refine ⟨h.numbers, ?_, ?_⟩
    · refine next_routeSet h.next (fun _ _ _ _ _ _ _ => rfl) set.routes ?_
      intro role runtime peer hruntime
      rw [clear.endpoint] at hruntime
      cases hruntime
    · intro id
      rw [channels_cancel_endpoint, channels_cancel_endpoint]
      exact h.streams id
  | forwarded c route rate sender speaker peer envelope encoded channel known live speaks is_sender
      hears decoded number messages bytes sent set =>
    exact numbered_forwarded hs h known speaks is_sender.1 hears number sent set
  | took id message rest queue =>
    refine ⟨h.numbers, h.next, ?_⟩
    intro id'
    refine Eq.trans ?_ (h.streams id')
    by_cases hid : id' = id
    · subst hid
      simp
      unfold Channel.stream
      rw [queue, List.append_assoc]
      rfl
    · exact congrArg Channel.stream (channels_set_of_ne _ _ hid)
  | delivered endpoint index message known taken =>
    refine ⟨h.numbers, ?_, h.streams⟩
    rcases delivered_cases w.core endpoint message.length with
      ⟨heq, -⟩ | ⟨route, runtime, hroute, hruntime, hid, -, heq⟩
    · rw [heq]
      exact h.next
    · rw [heq]
      refine next_routeSet h.next (fun _ _ _ _ _ _ _ => rfl) rfl ?_
      intro role runtime' peer hruntime' hpeer
      rw [next_sequence_set_endpoint]
      by_cases hrole : role = endpoint.role
      · subst hrole
        rw [endpoint_set_self] at hruntime'
        rw [endpoint_set_peer] at hpeer
        cases hruntime'
        exact h.next _ route _ runtime peer hroute hruntime hpeer
      · obtain rfl : role = peer_role endpoint.role := by
          cases role <;> cases hendpoint : endpoint.role <;> simp_all [peer_role]
        rw [endpoint_set_peer] at hruntime'
        refine h.next _ route _ runtime' runtime hroute hruntime' ?_
        rw [peer_role_peer_role]
        exact hruntime
  | dropped id =>
    refine ⟨h.numbers, h.next, ?_⟩
    intro id'
    refine Eq.trans ?_ (h.streams id')
    by_cases hid : id' = id
    · subst hid
      simp
      rfl
    · exact congrArg Channel.stream (channels_set_of_ne _ _ hid)
  | registered c registration now_millis fresh set =>
    refine ⟨h.numbers, ?_, h.streams⟩
    refine next_routeSet h.next (fun _ _ _ _ _ _ _ => rfl) set.routes ?_
    intro role runtime peer hruntime
    cases role <;> cases hruntime

/-! ## Every run -/

theorem sound_start
    (h : ∀ r route, core.routes.get? r = some route → ∃ reg, route = .new reg now_millis) :
    Sound (World.start core) ∧ Numbered (World.start core) := by
  have hempty : ∀ r route role, core.routes.get? r = some route → route.endpoint role = none := by
    intro r route role hget
    obtain ⟨reg, rfl⟩ := h r route hget
    cases role <;> rfl
  constructor
  · refine ⟨fun e he => absurd he List.not_mem_nil, List.nodup_nil, ?_,
      fun f hf => absurd hf List.not_mem_nil, ?_, ?_, ?_, ?_⟩
    · intro r route role runtime hget hruntime
      rw [hempty r route role hget] at hruntime
      cases hruntime
    · intro r role id hslot
      obtain ⟨runtime, hruntime, -⟩ := Option.map_eq_some_iff.mp hslot
      obtain ⟨route, hget, hroute⟩ := Option.bind_eq_some_iff.mp hruntime
      rw [hempty r route role hget] at hroute
      cases hroute
    · exact fun e he => absurd he List.not_mem_nil
    · exact fun e he => absurd he List.not_mem_nil
    · exact fun r role id _ e he => absurd he List.not_mem_nil
  · refine ⟨fun id => rfl, ?_, fun id => rfl⟩
    intro r route role runtime peer hget hruntime
    rw [hempty r route role hget] at hruntime
    cases hruntime

theorem sound_run {S : Signatures} {registrations : List RelayRouteRegistration}
    {limits : RelayServerLimits} (h : RelayCore.new S registrations limits now_millis = .ok core)
    (ops : List Op) :
    Sound ((World.start core).run S ops) ∧ Numbered ((World.start core).run S ops) := by
  refine run_invariant (P := fun w => Sound w ∧ Numbered w) S ?_ ops _ (sound_start (new_core h).1)
  intro w w' hw heffect
  exact ⟨sound_step hw.1 heffect, numbered_step hw.1 hw.2 heffect⟩

theorem Sound.heardBy_eq (h : Sound w) {f : Forwarded} (hf : f ∈ w.log) :
    w.heardBy f.peer = w.saidBy f.sender.connection_id := by
  have hboard := h.paired.heardBy_eq (e := f.said) (List.mem_map_of_mem hf)
  unfold Board.heardBy Board.saidBy World.board at hboard
  rw [List.filter_map, List.filter_map] at hboard
  exact List.map_injective_iff.mpr (fun a b hab => congrArg Said.message hab) hboard

/-- The channel of every admitted connection was given exactly the envelopes that one connection of
the same route and the opposite role forwarded, all of them, with the numbers 0, 1, 2, … -/
theorem relay_never_splices {S : Signatures} {registrations : List RelayRouteRegistration}
    {limits : RelayServerLimits} {now_millis : Nat} {core : RelayCore}
    (hnew : RelayCore.new S registrations limits now_millis = .ok core) (ops : List Op)
    (c : ConnectedEndpoint) (hc : c ∈ ((World.start core).run S ops).admitted) :
    let w := (World.start core).run S ops
    (w.wires.channels c.connection_id).stream =
        (w.heardBy c.connection_id).map Forwarded.encoded ∧
      (w.heardBy c.connection_id).map (fun f => f.envelope.sequence) =
        (List.range (w.heardBy c.connection_id).length).map UInt64.ofNat ∧
      ∀ f ∈ w.heardBy c.connection_id,
        f.sender ∈ w.admitted ∧ f.sender.route_id = c.route_id ∧
          f.sender.role = peer_role c.role ∧ RelayEnvelopeV1.decode f.encoded = .ok f.envelope ∧
          w.saidBy f.sender.connection_id = w.heardBy c.connection_id := by
  intro w
  obtain ⟨hsound, hnumbered⟩ := sound_run hnew ops
  have hpeer : ∀ f ∈ w.heardBy c.connection_id, f ∈ w.log ∧ f.peer = c.connection_id := by
    intro f hf
    obtain ⟨hmem, hid⟩ := List.mem_filter.mp hf
    exact ⟨hmem, of_decide_eq_true hid⟩
  have hall : ∀ f ∈ w.heardBy c.connection_id,
      w.saidBy f.sender.connection_id = w.heardBy c.connection_id := by
    intro f hf
    obtain ⟨hmem, hid⟩ := hpeer f hf
    rw [← hsound.heardBy_eq hmem, hid]
  refine ⟨hnumbered.streams _, ?_, ?_⟩
  · cases hheard : w.heardBy c.connection_id with
    | nil => rfl
    | cons f rest =>
      have hf : f ∈ w.heardBy c.connection_id := by rw [hheard]; exact List.mem_cons_self
      rw [← hheard, ← hall f hf]
      exact hnumbered.numbers _
  · intro f hf
    obtain ⟨hmem, hid⟩ := hpeer f hf
    obtain ⟨hsender, hdecode⟩ := hsound.logged f hmem
    obtain ⟨r, role, hspeaker, hlistener⟩ :=
      hsound.paired.opposite f.said (List.mem_map_of_mem hmem)
    have hs : w.seat f.sender.connection_id = some (r, role) := hspeaker
    have hl : w.seat c.connection_id = some (r, peer_role role) := hid ▸ hlistener
    rw [seat_of_mem hsound.distinct hsender, Option.some.injEq, Prod.mk.injEq] at hs
    rw [seat_of_mem hsound.distinct hc, Option.some.injEq, Prod.mk.injEq] at hl
    refine ⟨hsender, hs.1.trans hl.1.symm, ?_, hdecode, hall f hf⟩
    rw [hs.2, hl.2, peer_role_peer_role]

/-- The host of the sample route sends two messages, and the controller takes one. -/
def talkOps : List Op :=
  pairOps ++ [.forward hostEndpoint (hostMessage 0 5) 1, .forward hostEndpoint (hostMessage 1 6) 1,
    .take controllerEndpoint.connection_id]

theorem relay_never_splices_for_a_pair :
    controllerEndpoint ∈ ((World.start sampleCore).run sampleSignatures talkOps).admitted ∧
      (((World.start sampleCore).run sampleSignatures talkOps).heardBy
        controllerEndpoint.connection_id).map Forwarded.encoded =
          [hostMessage 0 5, hostMessage 1 6] ∧
      (((World.start sampleCore).run sampleSignatures talkOps).wires.channels
        controllerEndpoint.connection_id).stream =
        (((World.start sampleCore).run sampleSignatures talkOps).heardBy
          controllerEndpoint.connection_id).map Forwarded.encoded := by
  have hadmitted : controllerEndpoint ∈
      ((World.start sampleCore).run sampleSignatures talkOps).admitted := by decide +kernel
  exact ⟨hadmitted, by decide +kernel,
    (relay_never_splices sampleCore_new talkOps controllerEndpoint hadmitted).1⟩

end multiplex_relay_server
