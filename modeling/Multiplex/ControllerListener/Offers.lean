-- The Host while it pairs: the offers in its store, the code it shows, and the
-- calls and connections that work on both at the same time. A step of a task
-- is what it does under one lock, and the steps of all of them interleave.
import Multiplex.Lib.Workers
import Multiplex.ControllerListener.Handshake

open Checks
open multiplex_domain.controller_devices multiplex_store.controller_devices

namespace multiplex_controller_listener

def PAIRING_OFFER_LIFETIME_SECONDS : Nat := 5 * 60
def MAX_CODE_PAIRING_ATTEMPTS : Nat := 3
def MAX_PAIRING_ROUTES : Nat := 8

/-! ## The Host and what comes from outside -/

/-- The code the desktop shows. The digits only matter to the key exchange, so they are left out. -/
structure ActiveCodeOffer where
  offer_id : PairingOfferId
  expires_at : Nat
  attempts_left : Nat
  attempt_running : Bool
  deriving DecidableEq

/-- The store, the code on the screen, and the next id that no offer has had. -/
structure Host where
  file : ControllerDeviceDocument
  code_offer : Option ActiveCodeOffer
  next_offer : Nat

inductive HostPairingDecision where
  | Confirm
  | Reject
  deriving DecidableEq

/-- What one step meets: the revision its load saw and what becomes of its write, the time, whether
its connection or its file holds out, and what the user and the device say. -/
structure Choice where
  expected : Nat
  write : AtomicWrite
  now : Nat
  goes_on : Bool
  decision : HostPairingDecision
  nonce : Key
  routes : List String
  device_id : ControllerDeviceId
  device_key : Key
  display_name : String

inductive Kind where
  | sas
  | code
  deriving DecidableEq

/-- Where a call or a connection stands. -/
inductive Task where
  /-- The offer is stored and its code is about to be shown. -/
  | show_code (offer : ActiveCodeOffer)
  /-- The offer is off the screen and about to be rejected. -/
  | reject (offer_id : PairingOfferId)
  | expire (offer_id : PairingOfferId)
  /-- An attempt is taken, and the stored offer is about to be read. -/
  | read (offer_id : PairingOfferId)
  | connected (kind : Kind) (offer_id : PairingOfferId)
  | handshaking (kind : Kind) (offer_id : PairingOfferId)
  | sas_ready (kind : Kind) (offer_id : PairingOfferId)
  | confirmed (kind : Kind) (offer_id : PairingOfferId)
  /-- The device is saved and its acknowledgement about to be written. -/
  | saved (kind : Kind) (offer_id : PairingOfferId) (device_key : Key)
  | uncertain (kind : Kind) (offer_id : PairingOfferId)
  | written (kind : Kind) (offer_id : PairingOfferId) (device_key : Key)
  /-- The attempt is over and about to be reported. -/
  | finish (offer_id : PairingOfferId) (paired : Bool)
  | reopen (offer_id : PairingOfferId)
  | ended (ok : Bool)
  deriving DecidableEq

/-- A connection that fails: a code attempt still has to be reported. -/
def Task.fail (kind : Kind) (offer_id : PairingOfferId) : Task :=
  match kind with
  | .sas => .ended false
  | .code => .finish offer_id false

/-- A connection that has paired its device. -/
def Task.succeed (kind : Kind) (offer_id : PairingOfferId) : Task :=
  match kind with
  | .sas => .ended true
  | .code => .finish offer_id true

section
variable (env : Surroundings)

/-! ## The store -/

/-- An update of the store, and whether it answers that it went through. -/
def Host.store (h : Host) (operation : Operation) (c : Choice) : Bool × Host :=
  let call : Call := ⟨c.expected, operation, c.write⟩
  (call.succeeds env h.file, { h with file := step env h.file call })

def Host.set_offer_state (h : Host) (offer_id : PairingOfferId) (state : PairingOfferState)
    (c : Choice) : Bool × Host := h.store env (.set_offer_state offer_id state) c

structure PairingAuthoritySnapshot where
  expires_at : Nat
  nonce : Key
  host_key : Key
  capabilities : ControllerCapabilities
  identity_generation : Nat
  revocation_epoch : Nat
  session_generation : Nat
  deriving DecidableEq

/-- What a pairing starts from, if the offer is pending. -/
def snapshot (file : ControllerDeviceDocument) (offer_id : PairingOfferId) :
    Listened PairingAuthoritySnapshot := do
  let loaded ← (load env file).mapError fun _ => authentication_failed
  match loaded.authority.offers.find? fun o => o.offer_id = offer_id ∧ o.is_pending with
  | none => throw authentication_failed
  | some offer =>
    match loaded.authority.identity with
    | none => throw authentication_failed
    | some identity =>
      let capabilities ← (ControllerCapabilities.from_bits offer.capabilities.bits).mapError fun _ =>
        authentication_failed
      pure ⟨offer.expires_at, offer.nonce, identity.public_key, capabilities, identity.generation,
        loaded.authority.revocation_epoch, loaded.authority.session_generation⟩

def Host.snapshots (h : Host) (offer_id : PairingOfferId) (c : Choice) : Bool :=
  c.goes_on && (snapshot env h.file offer_id).toBool

/-- An offer to watch sessions, under an id of its own. -/
def Host.create_offer (h : Host) (c : Choice) : Bool × Host :=
  let (stored, h') := h.store env
    (.create_offer h.next_offer c.nonce c.now (min (c.now + PAIRING_OFFER_LIFETIME_SECONDS) (2 ^ 64 - 1))
      ⟨3⟩ (c.routes.take MAX_PAIRING_ROUTES)) c
  (stored && c.goes_on, { h' with next_offer := h.next_offer + 1 })

/-! ## The code on the screen -/

/-- The part of `begin_code_attempt` under the lock. -/
def begin_code_attempt (code_offer : Option ActiveCodeOffer) (now : Nat) :
    Option ActiveCodeOffer × Option Task :=
  match code_offer with
  | none => (none, none)
  | some offer =>
    if offer.expires_at < now then (none, some (.expire offer.offer_id))
    else if offer.attempt_running ∨ offer.attempts_left = 0 then (some offer, none)
    else
      (some { offer with attempts_left := offer.attempts_left - 1, attempt_running := true },
        some (.read offer.offer_id))

/-- The part of `finish_code_attempt` under the lock. -/
def finish_code_attempt (code_offer : Option ActiveCodeOffer) (offer_id : PairingOfferId)
    (paired : Bool) : Option ActiveCodeOffer × Task :=
  match code_offer with
  | none => (none, .ended paired)
  | some offer =>
    if offer.offer_id ≠ offer_id then (some offer, .ended paired)
    else if paired then (none, .ended true)
    else if offer.attempts_left = 0 then (none, .reject offer_id)
    else (some { offer with attempt_running := false }, .reopen offer_id)

/-- What is left to do when another code takes the place of the one on the screen. -/
def replace : Option ActiveCodeOffer → Task
  | none => .ended true
  | some replaced => .reject replaced.offer_id

/-- The part of `cancel_code_offer` under the lock. -/
def cancel_code_offer (code_offer : Option ActiveCodeOffer) (offer_id : PairingOfferId) :
    Option ActiveCodeOffer × Option Task :=
  if code_offer.map (·.offer_id) = some offer_id then (none, some (.reject offer_id))
  else (code_offer, none)

/-! ## The steps -/

/-- What comes from outside: the user's commands and new connections. -/
inductive HostCommand where
  | create_code_offer (c : Choice)
  | create_offer (c : Choice)
  | cancel_code_offer (offer_id : PairingOfferId)
  | pair_controller_with_code (c : Choice)
  | pair_controller (offer_id : PairingOfferId) (c : Choice)

def start (command : HostCommand) (h : Host) : Host × Option Task :=
  match command with
  | .create_code_offer c =>
    let (created, h') := h.create_offer env c
    let offer : ActiveCodeOffer :=
      ⟨h.next_offer, min (c.now + PAIRING_OFFER_LIFETIME_SECONDS) (2 ^ 64 - 1),
        MAX_CODE_PAIRING_ATTEMPTS, false⟩
    (h', if created then some (.show_code offer) else none)
  | .create_offer c => ((h.create_offer env c).2, none)
  | .cancel_code_offer offer_id =>
    let (code_offer, task) := cancel_code_offer h.code_offer offer_id
    ({ h with code_offer }, task)
  | .pair_controller_with_code c =>
    let (code_offer, task) := begin_code_attempt h.code_offer c.now
    ({ h with code_offer }, task)
  | .pair_controller offer_id c =>
    (h, if h.snapshots env offer_id c then some (.connected .sas offer_id) else none)

/-- What a step does next: it goes on, its connection ends, or the task is dropped as it stands. -/
inductive Turn where
  | go (c : Choice)
  | stop
  | drop

/-- The next step of a connection that writes a state of its offer: on where it is written. -/
def Host.advance (h : Host) (kind : Kind) (offer_id : PairingOfferId) (state : PairingOfferState)
    (c : Choice) (next : Task) : Host × Task :=
  let (stored, h') := h.set_offer_state env offer_id state c
  (h', if stored then next else .fail kind offer_id)

def go (c : Choice) (h : Host) (task : Task) : Host × Task :=
  match task with
  | .show_code offer =>
    ({ h with code_offer := some offer }, replace h.code_offer)
  | .reject offer_id => ((h.set_offer_state env offer_id .Rejected c).2, .ended false)
  | .expire offer_id => ((h.set_offer_state env offer_id .Expired c).2, .ended false)
  | .read offer_id =>
    (h, if h.snapshots env offer_id c then .connected .code offer_id else .finish offer_id false)
  | .connected kind offer_id =>
    h.advance env kind offer_id .Handshaking c (.handshaking kind offer_id)
  | .handshaking kind offer_id => h.advance env kind offer_id .SasReady c (.sas_ready kind offer_id)
  | .sas_ready kind offer_id =>
    -- The code has proved both keys, so only the SAS waits for a decision.
    if kind = .sas ∧ c.decision = .Reject then
      ((h.set_offer_state env offer_id .Rejected c).2, .ended false)
    else h.advance env kind offer_id .HostConfirmed c (.confirmed kind offer_id)
  | .confirmed kind offer_id =>
    let (stored, h') := h.store env
      (.persist_pairing offer_id c.device_id c.device_key c.display_name c.now) c
    (h', if stored then .saved kind offer_id c.device_key else .fail kind offer_id)
  | .saved kind offer_id device_key =>
    (h, if c.goes_on then .written kind offer_id device_key else .uncertain kind offer_id)
  | .uncertain kind offer_id =>
    ((h.set_offer_state env offer_id .Uncertain c).2, .fail kind offer_id)
  | .written kind offer_id device_key =>
    let (stored, h') := h.store env (.acknowledge_pairing offer_id device_key) c
    (h', if stored && c.goes_on then .succeed kind offer_id else .fail kind offer_id)
  | .finish offer_id paired =>
    let (code_offer, task) := finish_code_attempt h.code_offer offer_id paired
    ({ h with code_offer }, task)
  | .reopen offer_id => ((h.set_offer_state env offer_id .Offered c).2, .ended false)
  | .ended ok => (h, .ended ok)

/-- A connection ends where it waits for the other side; the other tasks do not wait. -/
def stop (task : Task) : Task :=
  match task with
  | .connected kind offer_id | .handshaking kind offer_id | .sas_ready kind offer_id
  | .confirmed kind offer_id | .saved kind offer_id _ => .fail kind offer_id
  | task => task

def act (turn : Turn) (h : Host) (task : Task) : Host × Task :=
  match turn with
  | .go c => go env c h task
  | .stop => (h, stop task)
  | .drop => (h, .ended false)

def pairing : Workers.Program Host Task HostCommand Turn := ⟨start env, act env⟩

end

abbrev Pairing := Workers.State Host Task
abbrev PairingEvent := Workers.Event HostCommand Turn

/-- The Host when it starts: nothing is shown and nobody is connected. -/
def Host.idle (file : ControllerDeviceDocument) (next_offer : Nat) : Pairing :=
  ⟨⟨file, none, next_offer⟩, []⟩

/-! ## A Host that pairs a phone -/

end multiplex_controller_listener
