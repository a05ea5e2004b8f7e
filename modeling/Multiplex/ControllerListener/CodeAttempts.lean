-- How often a pairing code may be guessed: an attempt is spent before the code
-- is handed out, one at a time, and what a finished attempt leaves behind is
-- about its own offer only. The offer is read after the lock is released, and a
-- code that was taken off by then is handed out unless its offer is closed.
import Multiplex.ControllerListener.ClosedOffers

open Checks
open multiplex_domain.controller_devices multiplex_store.controller_devices

namespace multiplex_controller_listener

open ControllerDeviceAuthority

variable {env : Surroundings}

/-! ## What a step holds -/

/-- The task has an attempt at the code of this offer that is not reported yet. -/
def Task.holds (offer_id : PairingOfferId) : Task → Bool
  | .read id => id = offer_id
  | .connected kind id | .handshaking kind id | .sas_ready kind id | .confirmed kind id
  | .saved kind id _ | .uncertain kind id | .written kind id _ => kind = .code ∧ id = offer_id
  | .finish id _ => id = offer_id
  | .show_code _ | .reject _ | .expire _ | .reopen _ | .ended _ => false

/-- The right to be the one attempt at the code that runs. -/
def turnsLeft (offer_id : PairingOfferId) : Option ActiveCodeOffer → Nat
  | some offer => if offer.offer_id = offer_id ∧ offer.attempt_running = false then 1 else 0
  | none => 0

def Task.turns (offer_id : PairingOfferId) : Task → Nat
  | .show_code offer => if offer.offer_id = offer_id then 1 else 0
  | task => if task.holds offer_id then 1 else 0

def yetToCome (next_offer : Nat) (offer_id : PairingOfferId) : Nat :=
  if next_offer ≤ offer_id then 1 else 0

def Host.turns (offer_id : PairingOfferId) (h : Host) : Nat :=
  turnsLeft offer_id h.code_offer + yetToCome h.next_offer offer_id

def attemptsLeft (offer_id : PairingOfferId) : Option ActiveCodeOffer → Nat
  | some offer => if offer.offer_id = offer_id then offer.attempts_left else 0
  | none => 0

def Task.attempts (offer_id : PairingOfferId) : Task → Nat
  | .show_code offer => if offer.offer_id = offer_id then offer.attempts_left else 0
  | .read id => if id = offer_id then 1 else 0
  | _ => 0

def Host.attempts (offer_id : PairingOfferId) (h : Host) : Nat :=
  attemptsLeft offer_id h.code_offer + MAX_CODE_PAIRING_ATTEMPTS * yetToCome h.next_offer offer_id

/-- One when the step hands the code of the offer out to a connection. -/
def handed (env : Surroundings) (offer_id : PairingOfferId) (turn : Turn) (h : Host) (task : Task) :
    Nat :=
  match turn, task with
  | .go c, .read id => if id = offer_id ∧ h.snapshots env id c = true then 1 else 0
  | _, _ => 0

variable {code_offer : Option ActiveCodeOffer} {id offer_id : PairingOfferId} {kind : Kind}

section
variable (offer_id : PairingOfferId) (code_offer : Option ActiveCodeOffer)

end

/-! ## No step gives turns or attempts -/

section
variable (env : Surroundings) (offer_id : PairingOfferId) (h : Host) (c : Choice)
include h

end

variable (task : Task) (command : HostCommand)

variable {file : ControllerDeviceDocument} {h : Host} {paired : Bool} {next : Task}

/-- What stands about an offer is the same: its code on the screen, and its record in the store. -/
structure Untouched (offer_id : PairingOfferId) (h h' : Host) : Prop where
  code : ∀ offer, offer.offer_id = offer_id → (h.code_offer = some offer ↔ h'.code_offer = some offer)
  stored : h'.file.authority.offer? offer_id = h.file.authority.offer? offer_id

theorem Untouched.rfl : Untouched offer_id h h := ⟨fun _ _ => Iff.rfl, Eq.refl _⟩

/-- The offer that the task is about to close, with the state that it writes. -/
def Task.closes : Task → Option (PairingOfferId × PairingOfferState)
  | .reject id => some (id, .Rejected)
  | .expire id => some (id, .Expired)
  | _ => none

def Task.closing (offer_id : PairingOfferId) (task : Task) : Bool :=
  task.closes.any fun written => written.1 = offer_id

/-- An attempt reads its offer neither between the step that takes the code off the screen and the
write that closes the offer, nor after the code on the screen has expired; and the store has no
second offer of that id. -/
def readsInTurn (s : Pairing) : PairingEvent → Bool
  | .act n (.go c) =>
    match s.workers[n]? with
    | some (.read offer_id) => !s.workers.any (Task.closing offer_id) &&
      (s.shared.code_offer.all fun offer => offer.offer_id ≠ offer_id ∨ c.now ≤ offer.expires_at) &&
      (s.shared.file.authority.offers.filter (·.offer_id = offer_id)).length ≤ 1
    | _ => true
  | _ => true

/-- While an attempt waits to read its offer, the write that closes the offer is not lost. -/
def closesForReaders (env : Surroundings) (s : Pairing) : PairingEvent → Bool
  | .act n turn =>
    match (s.workers[n]?).bind Task.closes, turn with
    | some (offer_id, state), .go c =>
      .read offer_id ∉ s.workers ∨ (s.shared.set_offer_state env offer_id state c).1
    | some (offer_id, _), .drop => .read offer_id ∉ s.workers
    | _, _ => true
  | .start _ => true

/-- No state opens a closed offer, offers are closed for those who wait, and these wait for it. -/
def inTurn (env : Surroundings) (s : Pairing) (e : PairingEvent) : Bool :=
  writesIntoOpenOffers s e && closesForReaders env s e && readsInTurn s e

theorem load_ok {snapshot : ControllerDeviceSnapshot} (h : load env file = .ok snapshot) :
    read_document env file = .ok file ∧ snapshot = ⟨file.revision, file.authority⟩ ∧
      file.authority.validate env.sha256 = .ok () := by
  unfold load at h
  rw [bind_ok_iff] at h
  obtain ⟨document, hread, hsnapshot⟩ := h
  obtain ⟨rfl, hvalid⟩ := read_document_ok hread
  exact ⟨hread, (pure_ok_iff.mp hsnapshot).symm, hvalid⟩

section
variable {s : Pairing} {command : HostCommand} {c : Choice} {task : Task}

end

/-- Where the code of an offer stands: on the screen, about to be closed, or closed. -/
def Followed (offer_id : PairingOfferId) (s : Pairing) : Prop :=
  s.shared.code_offer.map (·.offer_id) = some offer_id ∨
    (∃ task ∈ s.workers, task.closing offer_id = true) ∨
    closed s.shared.file.authority offer_id = true

/-- Each offer has one turn at most, and the code of an offer that an attempt waits to read is
followed. -/
structure Awaited (s : Pairing) : Prop where
  turns : ∀ offer_id, Workers.weigh (Host.turns offer_id) (Task.turns offer_id) s ≤ 1
  waits : ∀ offer_id, .read offer_id ∈ s.workers → Followed offer_id s

section
variable {s : Pairing} {n : Nat} {turn : Turn} {task : Task}

theorem not_snapshots_of_closed {h : Host} {c : Choice}
    (hone : (h.file.authority.offers.filter (·.offer_id = offer_id)).length ≤ 1)
    (hclosed : closed h.file.authority offer_id = true) : h.snapshots env offer_id c = false := by
  cases hsnapshot : snapshot env h.file offer_id with
  | error e => simp [Host.snapshots, hsnapshot, Except.toBool]
  | ok value =>
    unfold snapshot at hsnapshot
    obtain ⟨loaded, hload, hfound⟩ := bind_ok_iff.mp hsnapshot
    cases hread : load env h.file with
    | error e => simp [hread, Except.mapError] at hload
    | ok document =>
      simp only [hread, Except.mapError, Except.ok.injEq] at hload
      obtain ⟨-, rfl, -⟩ := load_ok hread
      subst hload
      split at hfound
      · cases hfound
      rename_i offer hpending
      -- No other stored offer has this id, so the pending one would be the closed one.
      obtain ⟨old, hold, hstate⟩ := closed_iff.mp hclosed
      have hoffer := List.find?_some hpending
      simp only [decide_eq_true_eq] at hoffer
      have hfirst := List.mem_filter.mpr ⟨List.mem_of_find?_eq_some hold, List.find?_some hold⟩
      have hnew := List.mem_filter (p := (·.offer_id = offer_id)).mpr
        ⟨List.mem_of_find?_eq_some hpending, decide_eq_true hoffer.1⟩
      obtain ⟨only, honly⟩ := List.length_eq_one_iff.mp (hone.antisymm (List.length_pos_of_mem hnew))
      rw [honly, List.mem_singleton] at hnew hfirst
      rw [hnew, ← hfirst] at hoffer
      have hquiet := not_pending_of_closed hclosed
      simp [pending, hold, hoffer.2] at hquiet

end

/-! ## Whole runs -/

/-- The code of the offer is on the screen and has not expired. -/
def Host.shows (h : Host) (offer_id : PairingOfferId) (now : Nat) : Bool :=
  h.code_offer.any fun offer => offer.offer_id = offer_id ∧ now ≤ offer.expires_at

/-- What an attempt hands out is still shown. -/
theorem Awaited.shows {s : Pairing} {n : Nat} {c : Choice} (h : Awaited s)
    (hturn : inTurn env s (.act n (.go c)) = true) (hread : s.workers[n]? = some (.read offer_id))
    (hsnapshot : s.shared.snapshots env offer_id c = true) : s.shared.shows offer_id c.now = true := by
  unfold inTurn at hturn
  rw [Bool.and_eq_true] at hturn
  have hreads := hturn.2
  simp only [readsInTurn, hread, Bool.and_eq_true, Bool.not_eq_true', List.any_eq_false] at hreads
  rcases h.waits offer_id (List.mem_of_getElem? hread) with hscreen | ⟨task, hmem, hclosing⟩ | hclosed
  · obtain ⟨offer, hcode, hsame⟩ := Option.map_eq_some_iff.mp hscreen
    simp [hcode, hsame] at hreads
    simpa [Host.shows, hcode, hsame] using hreads.1.2
  · exact (hreads.1.1 task hmem hclosing).elim
  · rw [not_snapshots_of_closed (decide_eq_true_eq.mp hreads.2) hclosed] at hsnapshot
    cases hsnapshot

variable {next_offer : Nat}

end multiplex_controller_listener
