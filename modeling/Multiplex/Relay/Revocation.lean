-- Revocation is final. Once a route was revoked, whatever was handed out before
-- is worth nothing: no proof is admitted, no message is forwarded, and no later
-- step takes the mark off again.
import Multiplex.Relay.Accounting

open multiplex_relay_protocol

namespace multiplex_relay_server

/-- A route was revoked, at some epoch or a later one. -/
def RevokedAt (r : RelayRouteId) (epoch : Nat) (w : World) : Prop :=
  ∃ route, w.core.routes.get? r = some route ∧ route.registration.revoked = true ∧
    epoch ≤ route.registration.revocation_epoch

/-! ## What stays -/

variable {r : RelayRouteId} {epoch : Nat}

theorem revokedAt_routeSet {r' : RelayRouteId} {w w' : World} {route route' : RouteRuntime}
    (h : RevokedAt r epoch w) (known : w.core.routes.get? r' = some route)
    (routes : w'.core.routes = w.core.routes.insert r' route')
    (hroute : route.registration.revoked = true → route'.registration.revoked = true ∧
      route.registration.revocation_epoch ≤ route'.registration.revocation_epoch) :
    RevokedAt r epoch w' := by
  obtain ⟨old, hold, hrevoked, hepoch⟩ := h
  unfold RevokedAt
  rw [routes]
  by_cases heq : r = r'
  · subst heq
    rw [known] at hold
    cases hold
    obtain ⟨hrevoked', hle⟩ := hroute hrevoked
    exact ⟨route', SortedMap.get?_insert_self, hrevoked', hepoch.trans hle⟩
  · exact ⟨old, (SortedMap.get?_insert_of_ne heq).trans hold, hrevoked, hepoch⟩

theorem revokedAt_step {w w' : World} (h : RevokedAt r epoch w) (heffect : Effect w w') :
    RevokedAt r epoch w' := by
  cases heffect with
  | quiet c same =>
    unfold RevokedAt
    rw [same.routes]
    exact h
  | admitted c r' route role serial capacity known free live room routes next limits =>
    refine revokedAt_routeSet h known routes fun hrevoked => ?_
    rw [registration_of_admitted]
    exact ⟨hrevoked, le_rfl⟩
  | cleared c r' route cleared known clear set =>
    refine revokedAt_routeSet h known set.routes fun hrevoked => ?_
    rcases clear.epoch with hsame | ⟨hrevoked', hlt⟩
    · rw [hsame]
      exact ⟨hrevoked, le_rfl⟩
    · exact ⟨hrevoked', hlt.le⟩
  | forwarded c route rate sender speaker peer envelope encoded channel known live speaks is_sender
      hears decoded number messages bytes sent set =>
    refine revokedAt_routeSet h known set.routes fun hrevoked => ?_
    rw [live] at hrevoked
    cases hrevoked
  | took id message rest queue => exact h
  | delivered endpoint index message known taken =>
    rcases delivered_cases w.core endpoint message.length with
      ⟨heq, -⟩ | ⟨route, runtime, hroute, -, -, -, heq⟩
    · rw [heq]
      exact h
    · refine revokedAt_routeSet h hroute (congrArg RelayCore.routes heq) fun hrevoked => ?_
      rw [registration_set_endpoint]
      exact ⟨hrevoked, le_rfl⟩
  | dropped id => exact h
  | registered c registration now_millis fresh set =>
    obtain ⟨route, hget, hrevoked, hepoch⟩ := h
    refine ⟨route, ?_, hrevoked, hepoch⟩
    rw [set.routes, SortedMap.get?_insert_of_ne ?_]
    · exact hget
    · rintro rfl
      rw [fresh] at hget
      cases hget

theorem cancelled_cancel_of_cancelled {w : Wires} {id : RelayConnectionId}
    (h : w.cancelled id = true) (e : Option EndpointRuntime) :
    (cancel_endpoint w e).cancelled id = true := by
  cases e with
  | none => exact h
  | some runtime =>
    by_cases heq : id = runtime.connection_id
    · rw [heq]
      exact Function.update_self _ _ _
    · exact (Function.update_of_ne heq _ _).trans h

theorem cancelled_step {id : RelayConnectionId} {w w' : World}
    (h : w.wires.cancelled id = true) (heffect : Effect w w') : w'.wires.cancelled id = true := by
  cases heffect with
  | cleared c r route cleared known clear set =>
    exact cancelled_cancel_of_cancelled (cancelled_cancel_of_cancelled h _) _
  | quiet | admitted | forwarded | took | delivered | dropped | registered => exact h

theorem cancelled_endpoint (w : Wires) (route : RouteRuntime) {role : RelayEndpointRole}
    {runtime : EndpointRuntime} (h : route.endpoint role = some runtime) :
    (cancel_endpoint (cancel_endpoint w route.host) route.controller).cancelled
      runtime.connection_id = true := by
  have hself : ∀ w : Wires, (w.cancel runtime.connection_id).cancelled runtime.connection_id = true :=
    fun w => Function.update_self _ _ _
  cases role with
  | Host =>
    apply cancelled_cancel_of_cancelled
    change route.host = some runtime at h
    rw [h]
    exact hself w
  | Controller =>
    change route.controller = some runtime at h
    rw [h]
    exact hself _

/-! ## What fails -/

theorem apply_revocation_ok {c : RelayCore} {w : Wires}
    (h : (c.apply_revocation w r epoch).2.2 = .ok ()) :
    ∃ route, c.routes.get? r = some route ∧ route.registration.revocation_epoch < epoch ∧
      (∃ revoked, (c.apply_revocation w r epoch).1.routes.get? r = some revoked ∧
        revoked.registration.revoked = true ∧ revoked.registration.revocation_epoch = epoch) ∧
      (c.apply_revocation w r epoch).2.1 =
        cancel_endpoint (cancel_endpoint w route.host) route.controller := by
  unfold RelayCore.apply_revocation at h ⊢
  cases hroute : c.routes.get? r with
  | none =>
    rw [hroute] at h
    cases h
  | some route =>
    rw [hroute] at h
    simp only at h ⊢
    split at h
    · cases h
    rename_i hepoch
    rw [if_neg hepoch]
    exact ⟨route, rfl, not_le.mp hepoch, ⟨_, SortedMap.get?_insert_self, rfl, rfl⟩, rfl⟩

theorem admit_revoked {S : Signatures} {w : World} (h : RevokedAt r epoch w)
    {proof : RelayAdmissionProof} {source : IpAddr} {now_seconds capacity : Nat}
    {endpoint : ConnectedEndpoint}
    (hok : (w.core.admit_endpoint S w.wires proof source now_seconds capacity).2.2 = .ok endpoint) :
    proof.route_id ≠ r ∧ endpoint.route_id ≠ r := by
  obtain ⟨route, hget, hrevoked, -⟩ := h
  rcases admit_cases S w.core w.wires proof source now_seconds capacity with
    ⟨c, code, heq, -⟩ | ⟨c, pending, route', heq, -, hproof, hroute, -, hlive, -⟩
  · rw [heq] at hok
    cases hok
  · rw [heq] at hok
    cases hok
    have hother : pending.challenge.route_id ≠ r := by
      rintro rfl
      rw [hroute] at hget
      cases hget
      rw [hlive] at hrevoked
      cases hrevoked
    exact ⟨hproof ▸ hother, hother⟩

theorem forward_revoked {w : World} (h : RevokedAt r epoch w) {sender : ConnectedEndpoint}
    {envelope : RelayEnvelopeV1} {encoded : List UInt8} {now_millis : Nat}
    (hok : (w.core.forward w.wires sender envelope encoded now_millis).2.2 = .ok ()) :
    sender.route_id ≠ r := by
  obtain ⟨route, hget, hrevoked, -⟩ := h
  rintro rfl
  rcases forward_cases w.core w.wires sender envelope encoded now_millis with
    ⟨code, heq⟩ | ⟨c, wires, code, heq, -⟩ | ⟨c, wires, route', rate, speaker, peer, channel,
      heq, hqueues⟩
  · rw [heq] at hok
    cases hok
  · rw [heq] at hok
    cases hok
  · have hknown := hqueues.known
    rw [hget] at hknown
    cases hknown
    rw [hqueues.live] at hrevoked
    cases hrevoked

/-! ## Every run after a revocation -/

/-- After a successful revocation, and after anything that comes later, the route is revoked, at
the epoch given or a later one, nothing is admitted or forwarded on it, and every endpoint that was
connected is cancelled. Each successful revocation raises the epoch. -/
theorem relay_revocation_is_final (S : Signatures) (core : RelayCore) (before after : List Op)
    (r : RelayRouteId) (epoch : Nat) (hok : (((World.start core).run S before).core.apply_revocation
      ((World.start core).run S before).wires r epoch).2.2 = .ok ()) :
    let w := (World.start core).run S before
    let revoked := w.step S (.apply_revocation r epoch)
    let later := revoked.run S after
    (∃ old new route, w.core.routes.get? r = some old ∧ revoked.core.routes.get? r = some new ∧
      later.core.routes.get? r = some route ∧
      old.registration.revocation_epoch < new.registration.revocation_epoch ∧
      new.registration.revocation_epoch = epoch ∧
      epoch ≤ route.registration.revocation_epoch ∧ route.route_state = .Revoked) ∧
    (∀ proof source now_seconds capacity endpoint,
      (later.core.admit_endpoint S later.wires proof source now_seconds capacity).2.2 = .ok endpoint →
        proof.route_id ≠ r ∧ endpoint.route_id ≠ r) ∧
    (∀ sender envelope encoded now_millis,
      (later.core.forward later.wires sender envelope encoded now_millis).2.2 = .ok () →
        sender.route_id ≠ r) ∧
    ∀ role id, w.core.slot r role = some id →
      revoked.wires.cancelled id = true ∧ later.wires.cancelled id = true := by
  intro w revoked later
  obtain ⟨old, hold, hlt, ⟨new, hnew, hrevoked, hepoch⟩, hwires⟩ := apply_revocation_ok hok
  have hlater : RevokedAt r epoch later :=
    run_invariant S (fun _ _ => revokedAt_step) after revoked ⟨new, hnew, hrevoked, hepoch.ge⟩
  refine ⟨?_, ?_, ?_, ?_⟩
  · obtain ⟨route, hget, hroute, hle⟩ := hlater
    refine ⟨old, new, route, hold, hnew, hget, hepoch.symm ▸ hlt, hepoch, hle, ?_⟩
    unfold RouteRuntime.route_state
    rw [if_pos hroute]
  · intro proof source now_seconds capacity endpoint
    exact admit_revoked hlater
  · intro sender envelope encoded now_millis
    exact forward_revoked hlater
  · intro role id hid
    rw [slot_eq hold, Option.map_eq_some_iff] at hid
    obtain ⟨runtime, hruntime, rfl⟩ := hid
    have hcancelled : revoked.wires.cancelled runtime.connection_id = true := by
      change (w.core.apply_revocation w.wires r epoch).2.1.cancelled _ = true
      rw [hwires]
      exact cancelled_endpoint w.wires old hruntime
    exact ⟨hcancelled, run_invariant S (fun _ _ => cancelled_step) after revoked hcancelled⟩

/-- Both endpoints of the sample talk when their route is revoked, and the host tries to come back. -/
def comebackOps : List Op :=
  [.issue_challenge sampleRoute .Host localhost 1 zeroNonce, .admit_endpoint hostProof localhost 1 64,
    .forward hostEndpoint (hostMessage 2 7) 1]

theorem relay_revocation_is_final_for_a_pair :
    (((World.start sampleCore).run sampleSignatures talkOps).core.apply_revocation
        ((World.start sampleCore).run sampleSignatures talkOps).wires sampleRoute 1).2.2 = .ok () ∧
      ((World.start sampleCore).run sampleSignatures talkOps).core.slot sampleRoute .Host = some 1 ∧
      ((((World.start sampleCore).run sampleSignatures talkOps).step sampleSignatures
        (.apply_revocation sampleRoute 1)).run sampleSignatures comebackOps).wires.cancelled 1 =
          true := by
  have hok : (((World.start sampleCore).run sampleSignatures talkOps).core.apply_revocation
      ((World.start sampleCore).run sampleSignatures talkOps).wires sampleRoute 1).2.2 = .ok () := by
    decide +kernel
  have hslot : ((World.start sampleCore).run sampleSignatures talkOps).core.slot sampleRoute .Host =
      some 1 := by
    decide +kernel
  have hfinal := relay_revocation_is_final sampleSignatures sampleCore talkOps comebackOps
    sampleRoute 1 hok
  exact ⟨hok, hslot, (hfinal.2.2.2 .Host 1 hslot).2⟩

end multiplex_relay_server
