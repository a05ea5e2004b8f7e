-- The connection tasks of the relay, as `server.rs` has them. A task enters the
-- core when its proof is admitted and leaves it after `run_forwarding`. Between
-- the two it still has to send the result of its admission.
import Multiplex.Relay.Revocation

open multiplex_relay_protocol

namespace multiplex_relay_server

/-! ## One connection -/

/-- Where `handle_connection` stands. -/
inductive Stage
  /-- `authenticate` waits for the hello. -/
  | AwaitHello
  /-- The challenge was issued, and `authenticate` waits for the proof. -/
  | AwaitProof
  /-- `admit` succeeded, and `authenticate` sends the result. -/
  | Admitted (endpoint : ConnectedEndpoint)
  /-- `run_forwarding` waits for the next thing to do. -/
  | Forwarding (endpoint : ConnectedEndpoint)
  /-- `run_forwarding` sends a message that it took from the channel. -/
  | Sending (endpoint : ConnectedEndpoint)
  /-- `run_forwarding` returned, and `disconnect` comes next. -/
  | Leaving (endpoint : ConnectedEndpoint)
  /-- The task has ended. -/
  | Ended (endpoint : Option ConnectedEndpoint)
  deriving DecidableEq

def Stage.endpoint : Stage → Option ConnectedEndpoint
  | .AwaitHello | .AwaitProof => none
  | .Admitted e | .Forwarding e | .Sending e | .Leaving e => some e
  | .Ended e => e

def Stage.holds : Stage → Option ConnectedEndpoint
  | .AwaitHello | .AwaitProof | .Ended _ => none
  | .Admitted e | .Forwarding e | .Sending e | .Leaving e => some e

/-- What the websocket gives next. A pong may fail to be sent. -/
inductive Incoming
  | Binary (bytes : List UInt8)
  | Ping (answered : Bool)
  | Pong
  | Close
  | Text
  | Failed
  | Finished

abbrev TaskId := Nat

structure Server where
  world : World
  stage : TaskId → Stage
  /-- The peer address of each connection. -/
  source : TaskId → IpAddr

def Server.start (core : RelayCore) (source : TaskId → IpAddr) : Server :=
  ⟨.start core, fun _ => .AwaitHello, source⟩

def Server.move (s : Server) (task : TaskId) (stage : Stage) : Server :=
  { s with stage := Function.update s.stage task stage }

/-! ## Steps -/

def Server.hello (s : Server) (task : TaskId) (route_id : RelayRouteId) (role : RelayEndpointRole)
    (now_seconds : Nat) (nonce : ByteArrayOf 32) : Server :=
  let r := s.world.core.issue_challenge route_id role (s.source task) now_seconds nonce
  ({ s with world := { s.world with core := r.1 } } : Server).move task
    (match r.2 with
    | .ok _ => .AwaitProof
    | .error _ => .Ended none)

def Server.proof (S : Signatures) (s : Server) (task : TaskId) (proof : RelayAdmissionProof)
    (now_seconds : Nat) : Server :=
  let r := s.world.core.admit_endpoint S s.world.wires proof (s.source task)
    now_seconds MAX_QUEUE_MESSAGES
  ({ s with
      world := s.world.admit_endpoint S proof (s.source task) now_seconds MAX_QUEUE_MESSAGES } :
    Server).move task
    (match r.2.2 with
    | .ok endpoint => .Admitted endpoint
    | .error _ => .Ended none)

/-- `authenticate` fails or is dropped: the task ends there, and its channel with it. -/
def Server.leave_admission (s : Server) (task : TaskId) : Server :=
  match s.stage task with
  | .AwaitHello | .AwaitProof => s.move task (.Ended none)
  | .Admitted endpoint =>
    ({ s with world := s.world.drop_receiver endpoint.connection_id } : Server).move task
      (.Ended (some endpoint))
  | _ => s

/-- `run_forwarding` returns, and drops the channel. -/
def Server.end_forwarding (s : Server) (task : TaskId) (endpoint : ConnectedEndpoint) : Server :=
  ({ s with world := s.world.drop_receiver endpoint.connection_id } : Server).move task
    (.Leaving endpoint)

/-- The task is dropped where it stands. -/
def Server.abort (s : Server) (task : TaskId) : Server :=
  match (s.stage task).holds with
  | none => s.move task (.Ended (s.stage task).endpoint)
  | some endpoint =>
    ({ s with world := s.world.drop_receiver endpoint.connection_id } : Server).move task
      (.Ended (some endpoint))

def validate_websocket_message_len (len : Nat) : Except RelayProtocolError Unit :=
  if len = 0 ∨ len > MAX_ENCODED_WEBSOCKET_MESSAGE_BYTES then .error .FrameLimit else .ok ()

def Server.incoming (s : Server) (task : TaskId) (endpoint : ConnectedEndpoint) (now_millis : Nat) :
    Incoming → Server
  | .Binary bytes =>
    match validate_websocket_message_len bytes.length, RelayEnvelopeV1.decode bytes with
    | .ok (), .ok envelope =>
      let r := s.world.core.forward s.world.wires endpoint envelope bytes now_millis
      let s := { s with world := s.world.forward endpoint bytes now_millis }
      match r.2.2 with
      | .ok () => s
      | .error _ => s.end_forwarding task endpoint
    | _, _ => s.end_forwarding task endpoint
  | .Ping true | .Pong => s
  | .Ping false | .Close | .Text | .Failed | .Finished => s.end_forwarding task endpoint

/-- What the tasks do and what happens to them, and the calls of the administrator. -/
inductive Event
  | hello (task : TaskId) (route_id : RelayRouteId) (role : RelayEndpointRole) (now_seconds : Nat)
      (nonce : ByteArrayOf 32)
  | proof (task : TaskId) (proof : RelayAdmissionProof) (now_seconds : Nat)
  /-- A read or a send of `authenticate` fails, or what came is malformed. -/
  | fail (task : TaskId)
  /-- The admission timeout elapses. -/
  | timeout (task : TaskId)
  /-- The result of the admission was sent. -/
  | answered (task : TaskId)
  /-- The token of the endpoint, or that of the server, was cancelled. -/
  | cancelled (task : TaskId)
  | outgoing (task : TaskId)
  | outgoing_closed (task : TaskId)
  /-- The message that was taken was sent, or its send failed. -/
  | sent (task : TaskId) (delivered : Bool)
  | incoming (task : TaskId) (message : Incoming) (now_millis : Nat)
  | heartbeat (task : TaskId) (sent : Bool)
  | disconnect (task : TaskId)
  /-- The shutdown deadline of `serve_loop` passes. -/
  | abort (task : TaskId)
  | insert_registration (registration : RelayRouteRegistration) (now_millis : Nat)
  | apply_revocation (route_id : RelayRouteId) (epoch : Nat)

def Server.step (S : Signatures) (s : Server) : Event → Server
  | .hello task route_id role now_seconds nonce =>
    match s.stage task with
    | .AwaitHello => s.hello task route_id role now_seconds nonce
    | _ => s
  | .proof task proof now_seconds =>
    match s.stage task with
    | .AwaitProof => s.proof S task proof now_seconds
    | _ => s
  | .fail task | .timeout task => s.leave_admission task
  | .answered task =>
    match s.stage task with
    | .Admitted endpoint => s.move task (.Forwarding endpoint)
    | _ => s
  | .cancelled task | .outgoing_closed task =>
    match s.stage task with
    | .Forwarding endpoint => s.end_forwarding task endpoint
    | _ => s
  | .outgoing task =>
    match s.stage task with
    | .Forwarding endpoint =>
      if (s.world.wires.channels endpoint.connection_id).queue = [] then s
      else ({ s with world := s.world.take endpoint.connection_id } : Server).move task
        (.Sending endpoint)
    | _ => s
  | .sent task delivered =>
    match s.stage task with
    | .Sending endpoint =>
      if delivered then
        ({ s with world := s.world.delivered endpoint 0 } : Server).move task (.Forwarding endpoint)
      else s.end_forwarding task endpoint
    | _ => s
  | .incoming task message now_millis =>
    match s.stage task with
    | .Forwarding endpoint => s.incoming task endpoint now_millis message
    | _ => s
  | .heartbeat task sent =>
    match s.stage task with
    | .Forwarding endpoint => if sent then s else s.end_forwarding task endpoint
    | _ => s
  | .disconnect task =>
    match s.stage task with
    | .Leaving endpoint =>
      ({ s with world := s.world.disconnect endpoint } : Server).move task (.Ended (some endpoint))
    | _ => s
  | .abort task => s.abort task
  | .insert_registration registration now_millis =>
    { s with
      world := { s.world with
        core := (s.world.core.insert_registration S registration now_millis).1 } }
  | .apply_revocation route_id epoch => { s with world := s.world.apply_revocation route_id epoch }

def Server.run (S : Signatures) (s : Server) (events : List Event) : Server :=
  events.foldl (Server.step S) s

/-! ## Who holds a slot -/

/-- A world where nobody was admitted, and slots were only emptied. -/
structure Shrinks (w w' : World) : Prop where
  slots : ∀ r role id, w'.core.slot r role = some id → w.core.slot r role = some id
  admitted : w'.admitted = w.admitted

theorem Shrinks.refl (w : World) : Shrinks w w := ⟨fun _ _ _ h => h, rfl⟩

variable {w : World} {e : ConnectedEndpoint} {s : Server} {task : TaskId} {S : Signatures}

theorem shrinks_effect {w' : World} (h : Effect w w') (hadmitted : w'.admitted = w.admitted) :
    Shrinks w w' := by
  refine ⟨?_, hadmitted⟩
  intro r role id hid
  cases h with
  | quiet c same =>
    unfold RelayCore.slot at hid ⊢
    rwa [same.routes] at hid
  | admitted c r' route role' serial capacity known free live room routes next limits =>
    have hlength := congrArg List.length hadmitted
    simp at hlength
  | cleared c r' route cleared known clear set =>
    rw [slot_insert set.routes] at hid
    split at hid
    · rw [clear.endpoint] at hid
      cases hid
    · exact hid
  | forwarded c route rate sender speaker peer envelope encoded channel known live speaks is_sender
      hears decoded number messages bytes sent set =>
    rw [slot_insert set.routes] at hid
    split at hid
    · rename_i heq
      rw [heq, slot_eq known]
      rw [endpoint_count_sent, endpoint_queue_for] at hid
      split at hid
      · rename_i hrole
        rw [hrole, hears]
        exact hid
      · cases role <;> exact hid
    · exact hid
  | took id' message rest queue => exact hid
  | delivered endpoint index message known taken => rwa [slot_delivered] at hid
  | dropped id' => exact hid
  | registered c registration now_millis fresh set =>
    rw [slot_insert set.routes] at hid
    split at hid
    · cases role <;> cases hid
    · exact hid

theorem shrinks_drop_receiver (w : World) (id : RelayConnectionId) :
    Shrinks w (w.drop_receiver id) := shrinks_effect (.dropped id) rfl

theorem shrinks_forward (w : World) (sender : ConnectedEndpoint) (encoded : List UInt8)
    (now_millis : Nat) : Shrinks w (w.forward sender encoded now_millis) := by
  apply shrinks_effect (effect_forward w sender encoded now_millis)
  unfold World.forward
  split
  · rfl
  simp only
  split <;> rfl

theorem shrinks_take (w : World) (id : RelayConnectionId) : Shrinks w (w.take id) := by
  apply shrinks_effect (effect_take w id)
  unfold World.take
  simp only
  split <;> rfl

theorem shrinks_delivered (w : World) (endpoint : ConnectedEndpoint) (index : Nat) :
    Shrinks w (w.delivered endpoint index) := by
  apply shrinks_effect (effect_delivered w endpoint index)
  unfold World.delivered
  split <;> rfl

/-- Every slot is held by one task that has not ended. -/
structure Tracked (s : Server) : Prop where
  sound : Sound s.world
  owned : ∀ r role id, s.world.core.slot r role = some id →
    ∃ task e, (s.stage task).holds = some e ∧ e.connection_id = id
  known : ∀ task e, (s.stage task).endpoint = some e → e ∈ s.world.admitted
  one : ∀ task task' e e', (s.stage task).endpoint = some e → (s.stage task').endpoint = some e' →
    e.connection_id = e'.connection_id → task = task'

theorem endpoint_of_holds {stage : Stage} (h : stage.holds = some e) : stage.endpoint = some e := by
  cases stage <;> first | exact h | cases h

theorem Tracked.released (h : Tracked s) (hended : s.stage task = .Ended (some e))
    (r : RelayRouteId) (role : RelayEndpointRole) :
    s.world.core.slot r role ≠ some e.connection_id := by
  intro hslot
  obtain ⟨task', e', hholds, hid⟩ := h.owned r role e.connection_id hslot
  have hsame : task' = task :=
    h.one task' task e' e (endpoint_of_holds hholds) (by rw [hended]; rfl) hid
  rw [hsame, hended] at hholds
  cases hholds

theorem tracked_move (h : Tracked s) (hsound : Sound w) (hshrinks : Shrinks s.world w)
    {stage : Stage} (hendpoint : stage.endpoint = (s.stage task).endpoint)
    (hholds : stage.holds = (s.stage task).holds ∨ ∀ e, (s.stage task).holds = some e →
      ∀ r role, w.core.slot r role ≠ some e.connection_id) :
    Tracked (({ s with world := w } : Server).move task stage) := by
  have hall : ∀ task', (Function.update s.stage task stage task').endpoint =
      (s.stage task').endpoint := by
    intro task'
    by_cases heq : task' = task
    · rw [heq, Function.update_self]
      exact hendpoint
    · rw [Function.update_of_ne heq]
  refine ⟨hsound, ?_, ?_, ?_⟩
  · intro r role id hid
    obtain ⟨task', e, hold, rfl⟩ := h.owned r role id (hshrinks.slots r role id hid)
    refine ⟨task', e, ?_, rfl⟩
    change (Function.update s.stage task stage task').holds = some e
    by_cases heq : task' = task
    · subst heq
      rw [Function.update_self]
      rcases hholds with hsame | hfree
      · exact hsame.trans hold
      · exact absurd hid (hfree e hold r role)
    · rwa [Function.update_of_ne heq]
  · intro task' e he
    have hadmitted := h.known task' e ((hall task').symm.trans he)
    rwa [← hshrinks.admitted] at hadmitted
  · intro task₁ task₂ e e' he he'
    exact h.one task₁ task₂ e e' ((hall task₁).symm.trans he) ((hall task₂).symm.trans he')

theorem tracked_world (h : Tracked s) (hsound : Sound w) (hshrinks : Shrinks s.world w) :
    Tracked { s with world := w } := by
  refine ⟨hsound, ?_, ?_, h.one⟩
  · intro r role id hid
    exact h.owned r role id (hshrinks.slots r role id hid)
  · intro task e he
    have hadmitted := h.known task e he
    rwa [← hshrinks.admitted] at hadmitted

theorem tracked_end_forwarding (h : Tracked s) {endpoint : ConnectedEndpoint}
    (hendpoint : (s.stage task).endpoint = some endpoint)
    (hholds : (s.stage task).holds = some endpoint) : Tracked (s.end_forwarding task endpoint) :=
  tracked_move h (sound_step h.sound (.dropped _)) (shrinks_drop_receiver _ _) hendpoint.symm
    (.inl hholds.symm)

theorem tracked_hello (h : Tracked s) (route_id : RelayRouteId) (role : RelayEndpointRole)
    (now_seconds : Nat) (nonce : ByteArrayOf 32) (hstage : s.stage task = .AwaitHello) :
    Tracked (s.hello task route_id role now_seconds nonce) := by
  have heffect := effect_issue_challenge s.world route_id role (s.source task) now_seconds nonce
  refine tracked_move h (sound_step h.sound heffect) (shrinks_effect heffect rfl) ?_ (.inl ?_)
  · rw [hstage]
    split <;> rfl
  · rw [hstage]
    split <;> rfl

theorem tracked_admitted (h : Tracked s) (hstage : (s.stage task).holds = none) (hsound : Sound w)
    (hadmitted : w.admitted = s.world.admitted ++ [e])
    (hid : e.connection_id = s.world.core.next_connection_id)
    (hslots : ∀ r role id, w.core.slot r role = some id →
      s.world.core.slot r role = some id ∨ id = e.connection_id) :
    Tracked (({ s with world := w } : Server).move task (.Admitted e)) := by
  have hold : ∀ task' e', (s.stage task').endpoint = some e' → e'.connection_id ≠ e.connection_id := by
    intro task' e' he'
    rw [hid]
    exact (h.sound.fresh e' (h.known task' e' he')).ne
  -- a task with an endpoint is the new one, or one that had its endpoint before
  have hcases : ∀ task' e', (Function.update s.stage task (.Admitted e) task').endpoint = some e' →
      (task' = task ∧ e' = e) ∨ (s.stage task').endpoint = some e' := by
    intro task' e' he'
    by_cases heq : task' = task
    · subst heq
      rw [Function.update_self] at he'
      exact .inl ⟨rfl, (Option.some.inj he').symm⟩
    · rw [Function.update_of_ne heq] at he'
      exact .inr he'
  refine ⟨hsound, ?_, ?_, ?_⟩
  · intro r role id hslot
    change ∃ task' e', (Function.update s.stage task (.Admitted e) task').holds = some e' ∧ _
    rcases hslots r role id hslot with hslot | rfl
    · obtain ⟨task', e', hholds, hid'⟩ := h.owned r role id hslot
      refine ⟨task', e', ?_, hid'⟩
      rw [Function.update_of_ne]
      · exact hholds
      · rintro rfl
        rw [hstage] at hholds
        cases hholds
    · exact ⟨task, e, congrArg Stage.holds (Function.update_self task _ s.stage), rfl⟩
  · intro task' e' he'
    change e' ∈ w.admitted
    rw [hadmitted, List.mem_append]
    rcases hcases task' e' he' with ⟨-, rfl⟩ | hbefore
    · exact .inr (List.mem_singleton_self e')
    · exact .inl (h.known task' e' hbefore)
  · intro task₁ task₂ e₁ e₂ he₁ he₂ heq
    rcases hcases task₁ e₁ he₁ with ⟨rfl, rfl⟩ | h₁ <;> rcases hcases task₂ e₂ he₂ with ⟨rfl, rfl⟩ | h₂
    · rfl
    · exact absurd heq.symm (hold task₂ e₂ h₂)
    · exact absurd heq (hold task₁ e₁ h₁)
    · exact h.one task₁ task₂ e₁ e₂ h₁ h₂ heq

theorem tracked_proof (h : Tracked s) (proof : RelayAdmissionProof) (now_seconds : Nat)
    (hstage : s.stage task = .AwaitProof) : Tracked (s.proof S task proof now_seconds) := by
  have heffect := effect_admit_endpoint S s.world proof (s.source task) now_seconds MAX_QUEUE_MESSAGES
  have hsound := sound_step h.sound heffect
  unfold Server.proof
  unfold World.admit_endpoint at heffect hsound ⊢
  rcases admit_cases S s.world.core s.world.wires proof (s.source task) now_seconds
      MAX_QUEUE_MESSAGES with
    ⟨c, code, heq, -, -⟩ | ⟨c, pending, route, heq, -, -, hroute, -, -, -, hroutes, -⟩
  · simp only [heq] at heffect hsound ⊢
    refine tracked_move h hsound (shrinks_effect heffect rfl) ?_ (.inl ?_)
    · rw [hstage]
      rfl
    · rw [hstage]
      rfl
  · simp only [heq] at hsound ⊢
    refine tracked_admitted h (by rw [hstage]; rfl) hsound rfl rfl ?_
    intro r role id hid
    rw [slot_insert hroutes] at hid
    split at hid
    · rename_i hr
      rw [endpoint_of_admitted] at hid
      split at hid
      · exact .inr (Option.some.inj hid).symm
      · rw [hr, slot_eq hroute]
        exact .inl hid
    · exact .inl hid

theorem tracked_incoming (h : Tracked s) {endpoint : ConnectedEndpoint}
    (hstage : s.stage task = .Forwarding endpoint) (now_millis : Nat) (message : Incoming) :
    Tracked (s.incoming task endpoint now_millis message) := by
  have hleaves : Tracked (s.end_forwarding task endpoint) :=
    tracked_end_forwarding h (by rw [hstage]; rfl) (by rw [hstage]; rfl)
  cases message with
  | Binary bytes =>
    have hforward : Tracked { s with world := s.world.forward endpoint bytes now_millis } :=
      tracked_world h (sound_step h.sound (effect_forward _ _ _ _)) (shrinks_forward _ _ _ _)
    unfold Server.incoming
    simp only
    split
    · split
      · exact hforward
      · exact tracked_end_forwarding hforward (by rw [hstage]; rfl) (by rw [hstage]; rfl)
    · exact hleaves
  | Ping answered =>
    cases answered
    · exact hleaves
    · exact h
  | Pong => exact h
  | Close | Text | Failed | Finished => exact hleaves

theorem disconnect_releases (hs : Sound w) (he : e ∈ w.admitted) (r : RelayRouteId)
    (role : RelayEndpointRole) : (w.disconnect e).core.slot r role ≠ some e.connection_id := by
  have hadmitted : (w.disconnect e).admitted = w.admitted := rfl
  have hshrinks := shrinks_effect (effect_disconnect w e) hadmitted
  intro hslot
  have hbefore := hshrinks.slots r role _ hslot
  have hseat := hs.slot_seat hbefore
  rw [seat_of_mem hs.distinct he] at hseat
  cases hseat
  unfold World.disconnect RelayCore.disconnect at hslot
  unfold RelayCore.slot at hbefore
  rw [Option.map_eq_some_iff] at hbefore
  obtain ⟨runtime, hbind, hid⟩ := hbefore
  rw [Option.bind_eq_some_iff] at hbind
  obtain ⟨route, hroute, hruntime⟩ := hbind
  rw [hroute] at hslot
  simp [hruntime, hid] at hslot
  rw [slot_insert rfl, if_pos rfl] at hslot
  cases hrole : e.role <;> rw [hrole] at hslot <;> cases hslot

/-! ## Orderly ends -/

/-- The event does not end a task that holds an endpoint before its `disconnect`: `authenticate`
does not fail or run out of time once `admit` succeeded, and the task is not aborted. -/
def Server.Orderly (s : Server) : Event → Prop
  | .fail task | .timeout task => ∀ endpoint, s.stage task ≠ .Admitted endpoint
  | .abort task => (s.stage task).holds = none
  | _ => True

def OrderlyRun (S : Signatures) (s : Server) : List Event → Prop
  | [] => True
  | event :: events => s.Orderly event ∧ OrderlyRun S (s.step S event) events

theorem tracked_leave_admission (h : Tracked s)
    (horderly : ∀ endpoint, s.stage task ≠ .Admitted endpoint) :
    Tracked (s.leave_admission task) := by
  unfold Server.leave_admission
  split
  · rename_i hstage
    exact tracked_move h h.sound (.refl _) (by rw [hstage]; rfl) (.inl (by rw [hstage]; rfl))
  · rename_i hstage
    exact tracked_move h h.sound (.refl _) (by rw [hstage]; rfl) (.inl (by rw [hstage]; rfl))
  · rename_i endpoint hstage
    exact absurd hstage (horderly endpoint)
  · exact h

theorem tracked_step (h : Tracked s) {event : Event} (horderly : s.Orderly event) :
    Tracked (s.step S event) := by
  cases event with
  | hello task route_id role now_seconds nonce =>
    unfold Server.step
    simp only
    split
    · rename_i hstage
      exact tracked_hello h route_id role now_seconds nonce hstage
    · exact h
  | proof task proof now_seconds =>
    unfold Server.step
    simp only
    split
    · rename_i hstage
      exact tracked_proof h proof now_seconds hstage
    · exact h
  | fail task => exact tracked_leave_admission h horderly
  | timeout task => exact tracked_leave_admission h horderly
  | answered task =>
    unfold Server.step
    simp only
    split
    · rename_i endpoint hstage
      exact tracked_move h h.sound (.refl _) (by rw [hstage]; rfl) (.inl (by rw [hstage]; rfl))
    · exact h
  | cancelled task =>
    unfold Server.step
    simp only
    split
    · rename_i endpoint hstage
      exact tracked_end_forwarding h (by rw [hstage]; rfl) (by rw [hstage]; rfl)
    · exact h
  | outgoing task =>
    unfold Server.step
    simp only
    split
    · rename_i endpoint hstage
      split
      · exact h
      · exact tracked_move h (sound_step h.sound (effect_take _ _)) (shrinks_take _ _)
          (by rw [hstage]; rfl) (.inl (by rw [hstage]; rfl))
    · exact h
  | outgoing_closed task =>
    unfold Server.step
    simp only
    split
    · rename_i endpoint hstage
      exact tracked_end_forwarding h (by rw [hstage]; rfl) (by rw [hstage]; rfl)
    · exact h
  | sent task delivered =>
    unfold Server.step
    simp only
    split
    · rename_i endpoint hstage
      split
      · exact tracked_move h (sound_step h.sound (effect_delivered _ _ _)) (shrinks_delivered _ _ _)
          (by rw [hstage]; rfl) (.inl (by rw [hstage]; rfl))
      · exact tracked_end_forwarding h (by rw [hstage]; rfl) (by rw [hstage]; rfl)
    · exact h
  | incoming task message now_millis =>
    unfold Server.step
    simp only
    split
    · rename_i endpoint hstage
      exact tracked_incoming h hstage now_millis message
    · exact h
  | heartbeat task sent =>
    unfold Server.step
    simp only
    split
    · rename_i endpoint hstage
      split
      · exact h
      · exact tracked_end_forwarding h (by rw [hstage]; rfl) (by rw [hstage]; rfl)
    · exact h
  | disconnect task =>
    unfold Server.step
    simp only
    split
    · rename_i endpoint hstage
      have hendpoint : (s.stage task).endpoint = some endpoint := by
        rw [hstage]
        rfl
      have heffect := effect_disconnect s.world endpoint
      refine tracked_move h (sound_step h.sound heffect) (shrinks_effect heffect rfl)
        hendpoint.symm (.inr ?_)
      intro e he
      rw [hstage] at he
      cases he
      exact disconnect_releases h.sound (h.known task endpoint hendpoint)
    · exact h
  | abort task =>
    change (s.stage task).holds = none at horderly
    unfold Server.step Server.abort
    simp only [horderly]
    exact tracked_move h h.sound (.refl _) rfl (.inl horderly.symm)
  | insert_registration registration now_millis =>
    have heffect := effect_insert_registration S s.world registration now_millis
    exact tracked_world h (sound_step h.sound heffect) (shrinks_effect heffect rfl)
  | apply_revocation route_id epoch =>
    have heffect := effect_apply_revocation s.world route_id epoch
    exact tracked_world h (sound_step h.sound heffect) (shrinks_effect heffect rfl)

theorem tracked_run (events : List Event) :
    ∀ s, Tracked s → OrderlyRun S s events → Tracked (s.run S events) := by
  induction events with
  | nil => exact fun s h _ => h
  | cons event events ih =>
    intro s h horderly
    exact ih (s.step S event) (tracked_step h horderly.1) horderly.2

theorem tracked_start {registrations : List RelayRouteRegistration} {limits : RelayServerLimits}
    {now_millis : Nat} {core : RelayCore}
    (h : RelayCore.new S registrations limits now_millis = .ok core) (source : TaskId → IpAddr) :
    Tracked (Server.start core source) := by
  obtain ⟨hroutes, -⟩ := new_core h
  refine ⟨(sound_start hroutes).1, ?_, ?_, ?_⟩
  · intro r role id hid
    change core.slot r role = some id at hid
    unfold RelayCore.slot at hid
    cases hget : core.routes.get? r with
    | none =>
      rw [hget] at hid
      cases hid
    | some route =>
      obtain ⟨reg, rfl⟩ := hroutes r route hget
      rw [hget] at hid
      cases role <;> cases hid
  · intro task e he
    cases he
  · intro task task' e e' he
    cases he

theorem leave_admission_keeps (hstage : s.stage task = .Admitted e) :
    (s.leave_admission task).stage task = .Ended (some e) ∧
      ∀ r role, (s.leave_admission task).world.core.slot r role = s.world.core.slot r role := by
  unfold Server.leave_admission
  rw [hstage]
  exact ⟨Function.update_self _ _ _, fun _ _ => rfl⟩

/-- In every run where no task that holds an endpoint ends before its `disconnect`, an ended task
is in no slot, and every slot is held by a task that has not ended. A task that ends while it sends
the result of its admission leaves every slot as it is, its own too. -/
theorem admitted_endpoints_are_released {S : Signatures}
    {registrations : List RelayRouteRegistration} {limits : RelayServerLimits} {now_millis : Nat}
    {core : RelayCore} (hnew : RelayCore.new S registrations limits now_millis = .ok core)
    (source : TaskId → IpAddr) (events : List Event)
    (horderly : OrderlyRun S (Server.start core source) events) :
    let s := (Server.start core source).run S events
    (∀ task e, s.stage task = .Ended (some e) →
      ∀ r role, s.world.core.slot r role ≠ some e.connection_id) ∧
    (∀ r role id, s.world.core.slot r role = some id →
      ∃ task e, (s.stage task).holds = some e ∧ e.connection_id = id) ∧
    ∀ task e event, s.stage task = .Admitted e → event = .fail task ∨ event = .timeout task →
      (s.step S event).stage task = .Ended (some e) ∧
        ∀ r role, (s.step S event).world.core.slot r role = s.world.core.slot r role := by
  intro s
  have htracked : Tracked s := tracked_run events _ (tracked_start hnew source) horderly
  refine ⟨fun task e hended => htracked.released hended, htracked.owned, ?_⟩
  rintro task e event hstage (rfl | rfl)
  · exact leave_admission_keeps hstage
  · exact leave_admission_keeps hstage

/-- The host comes, is admitted and answered, and goes away again. -/
def visitEvents : List Event :=
  [.hello 0 sampleRoute .Host 1 zeroNonce, .proof 0 hostProof 1, .answered 0,
    .incoming 0 .Close 2, .disconnect 0]

theorem admitted_endpoints_are_released_after_a_visit :
    ((Server.start sampleCore fun _ => localhost).run sampleSignatures visitEvents).stage 0 =
        .Ended (some hostEndpoint) ∧
      ((Server.start sampleCore fun _ => localhost).run sampleSignatures
        visitEvents).world.core.slot sampleRoute .Host ≠ some hostEndpoint.connection_id := by
  have hended : ((Server.start sampleCore fun _ => localhost).run sampleSignatures
      visitEvents).stage 0 = .Ended (some hostEndpoint) := by
    decide +kernel
  have horderly : OrderlyRun sampleSignatures (Server.start sampleCore fun _ => localhost)
      visitEvents := ⟨trivial, trivial, trivial, trivial, trivial, trivial⟩
  have hreleased := admitted_endpoints_are_released sampleCore_new (fun _ => localhost) visitEvents
    horderly
  exact ⟨hended, hreleased.1 0 hostEndpoint hended sampleRoute .Host⟩

/-- The result of the host's admission cannot be sent. -/
def lostEvents : List Event :=
  [.hello 0 sampleRoute .Host 1 zeroNonce, .proof 0 hostProof 1, .fail 0]

/-- The result of the host's admission takes too long. -/
def lateEvents : List Event :=
  [.hello 0 sampleRoute .Host 1 zeroNonce, .proof 0 hostProof 1, .timeout 0]

/-- The task is over, its endpoint is not, and the host is turned away when it comes back. -/
theorem unsent_admission_keeps_the_role :
    (((Server.start sampleCore fun _ => localhost).run sampleSignatures lostEvents).stage 0 =
        .Ended (some hostEndpoint) ∧
      ((Server.start sampleCore fun _ => localhost).run sampleSignatures
        lostEvents).world.core.slot sampleRoute .Host = some hostEndpoint.connection_id ∧
      (((Server.start sampleCore fun _ => localhost).run sampleSignatures
        lostEvents).world.core.issue_challenge sampleRoute .Host localhost 60 zeroNonce).2 =
          .error .DuplicateRole) ∧
    ((Server.start sampleCore fun _ => localhost).run sampleSignatures lateEvents).stage 0 =
        .Ended (some hostEndpoint) ∧
      ((Server.start sampleCore fun _ => localhost).run sampleSignatures
        lateEvents).world.core.slot sampleRoute .Host = some hostEndpoint.connection_id :=
  ⟨⟨by decide +kernel, by decide +kernel, rfl⟩, by decide +kernel, by decide +kernel⟩

end multiplex_relay_server
