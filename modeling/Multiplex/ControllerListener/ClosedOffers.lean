-- An offer that was rejected, has expired or is acknowledged is closed. Nothing
-- that the store does by itself opens it again; a connection that writes the
-- state it has reached does, when another one has closed the offer before.
import Multiplex.ControllerListener.Offers

open Checks
open multiplex_domain.controller_devices multiplex_store.controller_devices

namespace multiplex_controller_listener

open ControllerDeviceAuthority

variable {env : Surroundings} {offer_id : PairingOfferId}

/-! ## Closed offers -/

def is_closed : PairingOfferState → Bool
  | .Acknowledged | .Expired | .Rejected => true
  | _ => false

def closed (a : ControllerDeviceAuthority) (offer_id : PairingOfferId) : Bool :=
  (a.offer? offer_id).any fun offer => is_closed offer.state

def pending (a : ControllerDeviceAuthority) (offer_id : PairingOfferId) : Bool :=
  (a.offer? offer_id).any fun offer => offer.is_pending

variable {a : ControllerDeviceAuthority}

theorem not_pending_of_closed (h : closed a offer_id = true) : pending a offer_id = false := by
  unfold closed pending at *
  cases hoffer : a.offer? offer_id with
  | none => rfl
  | some offer =>
    rw [hoffer] at h
    simp [PairingOfferRecord.is_pending] at h ⊢
    revert h
    cases offer.state <;> simp [is_closed, PairingOfferState.is_pending]

theorem closed_iff :
    closed a offer_id = true ↔ ∃ offer, a.offer? offer_id = some offer ∧
      is_closed offer.state = true := by
  unfold closed
  rw [Option.any_eq_true]

/-! ## What the store does to a closed offer -/

variable {a' : ControllerDeviceAuthority} {h : Host} {c : Choice}

/-- The offer that the task writes a state into which is not a closed one. -/
def Task.opens (c : Choice) : Task → Option PairingOfferId
  | .connected _ id | .handshaking _ id | .uncertain _ id | .reopen id => some id
  | .sas_ready kind id => if kind = .sas ∧ c.decision = .Reject then none else some id
  | _ => none

/-- A state that is not a closed one is only written into an offer that is not closed. -/
def writesIntoOpenOffers (s : Pairing) : PairingEvent → Bool
  | .act n (.go c) =>
    ((s.workers[n]?).bind (Task.opens c)).all fun id => !closed s.shared.file.authority id
  | _ => true

end multiplex_controller_listener
