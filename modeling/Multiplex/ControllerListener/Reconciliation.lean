-- A pairing whose acknowledgement is lost: the device is saved, and the next
-- time it connects the Host acknowledges the offer it came from. That takes an
-- offer which still says that its device is saved.
import Multiplex.ControllerListener.CodeAttempts

open Checks
open multiplex_domain.controller_devices multiplex_store.controller_devices

namespace multiplex_controller_listener

open ControllerDeviceAuthority

/-! ## The next connection of the device -/

variable {env : Surroundings} {offer_id : PairingOfferId} {device_id : ControllerDeviceId} {key : Key}

/-! ## Offers whose device is saved -/

def awaits : PairingOfferState → Bool
  | .Persisted | .Uncertain => true
  | _ => false

def acknowledged : PairingOfferState → Bool
  | .Acknowledged => true
  | _ => false

/-- The stored offer is in such a state. -/
def inState (p : PairingOfferState → Bool) (a : ControllerDeviceAuthority) (offer_id : PairingOfferId) :
    Bool :=
  (a.offer? offer_id).any fun offer => p offer.state

variable {a : ControllerDeviceAuthority} {id : PairingOfferId} {file : ControllerDeviceDocument}
  {c : Choice}

variable {p : PairingOfferState → Bool} {a' : ControllerDeviceAuthority} {peer : AuthenticatedPeer}
  {offer : PairingOfferRecord} {record : PairedDeviceRecord} {h : Host} {s : Pairing} {kind : Kind}

/-- What carries this through a run: the offer is acknowledged, or its device is found by its id and
key with the offer it came from. -/
inductive Kept (a : ControllerDeviceAuthority) (offer_id : PairingOfferId)
    (device_id : ControllerDeviceId) (key : Key) : Prop where
  | acknowledged (state : inState acknowledged a offer_id = true)
  | waiting (state : inState awaits a offer_id = true) (device : PairedDeviceRecord)
      (found : a.devices.find? (fun d => d.device_id = device_id ∧ d.public_key = key) = some device)
      (source : device.source_offer_id = offer_id)

end multiplex_controller_listener
