-- The tickets that tie a session of the shared screen to the command that allowed it. Each ticket
-- is spent at most once, only the newest one can be, and it grants what it was issued for.
import Multiplex.ControllerListener.Handshake
import Multiplex.Lib.Runs

namespace multiplex_controller_listener.screen_tickets

open multiplex_domain.controller_devices

/-! ## The tickets of one connection -/

structure ScreenGrants where
  device_id : ControllerDeviceId
  can_view : Bool
  can_control_pointer : Bool
  can_control_keyboard : Bool

structure ScreenTicketStore where
  issued : Option (Key × ScreenGrants)
  spent : Option ScreenGrants

namespace ScreenTicketStore

def issue (store : ScreenTicketStore) (grants : ScreenGrants) (entropy : Listened Key) :
    Listened Key × ScreenTicketStore :=
  if grants.can_view then
    match entropy with
    | .error e => (.error e, store)
    | .ok ticket => (.ok ticket, ⟨some (ticket, grants), none⟩)
  else (.error (.new .Unauthorized), store)

def spend (store : ScreenTicketStore) (presented : Key) :
    Option ScreenGrants × ScreenTicketStore :=
  match store.issued with
  | none => (none, store)
  | some (ticket, grants) =>
    if ticket = presented then (some grants, ⟨none, some grants⟩) else (none, store)

def active (store : ScreenTicketStore) : Option ScreenGrants := store.spent

def close (_ : ScreenTicketStore) : ScreenTicketStore := ⟨none, none⟩

end ScreenTicketStore

/-! ## Whole connections -/

inductive Event where
  | issue (grants : ScreenGrants) (entropy : Listened Key)
  | spend (presented : Key)
  | close

/-- The store, the tickets that were issued, and those that were accepted, with what they granted. -/
structure World where
  store : ScreenTicketStore
  issued : List (Key × ScreenGrants)
  accepted : List (Key × ScreenGrants)

def World.start : World := ⟨⟨none, none⟩, [], []⟩

def World.step (w : World) : Event → World
  | .issue grants entropy =>
    match w.store.issue grants entropy with
    | (.error _, store) => { w with store }
    | (.ok ticket, store) => { w with store, issued := w.issued ++ [(ticket, grants)] }
  | .spend presented =>
    match w.store.spend presented with
    | (none, store) => { w with store }
    | (some grants, store) => { w with store, accepted := w.accepted ++ [(presented, grants)] }
  | .close => { w with store := w.store.close }

/-- The accepted tickets are among the issued ones, in their order and each once; a ticket that can
still be spent is the newest and was not; and who watches spent the newest, and may view. -/
structure World.Tidy (w : World) : Prop where
  once : w.accepted.Sublist w.issued
  newest : ∀ ticket ∈ w.store.issued, ∃ older, w.issued = older ++ [ticket] ∧
    w.accepted.Sublist older
  viewed : ∀ ticket ∈ w.issued, ticket.2.can_view = true
  watching : ∀ grants ∈ w.store.active, ∃ ticket,
    w.issued.getLast? = some (ticket, grants) ∧ w.accepted.getLast? = some (ticket, grants)

theorem tidy_issue {w : World} (h : w.Tidy) (grants : ScreenGrants) (entropy : Listened Key) :
    (w.step (.issue grants entropy)).Tidy := by
  by_cases hview : grants.can_view = true
  · simp only [World.step, ScreenTicketStore.issue, if_pos hview]
    cases entropy with
    | error e => exact h
    | ok ticket =>
      refine ⟨h.once.trans (List.sublist_append_left _ _), ?_, ?_, nofun⟩
      · rintro _ ⟨rfl⟩
        exact ⟨w.issued, rfl, h.once⟩
      · intro other hother
        rcases List.mem_append.mp hother with hold | hnew
        · exact h.viewed other hold
        · exact List.mem_singleton.mp hnew ▸ hview
  · simp only [World.step, ScreenTicketStore.issue, if_neg hview]
    exact h

theorem tidy_spend {w : World} (h : w.Tidy) (presented : Key) :
    (w.step (.spend presented)).Tidy := by
  simp only [World.step, ScreenTicketStore.spend]
  cases hissued : w.store.issued with
  | none => exact h
  | some issued =>
    obtain ⟨ticket, grants⟩ := issued
    obtain ⟨older, holder, honce⟩ := h.newest _ hissued
    by_cases hsame : ticket = presented
    · subst hsame
      simp only [if_pos]
      refine ⟨?_, nofun, h.viewed, ?_⟩
      · show (w.accepted ++ [(ticket, grants)]).Sublist w.issued
        rw [holder]
        exact honce.append (List.Sublist.refl _)
      · rintro _ ⟨rfl⟩
        exact ⟨ticket, by simp [holder], by simp⟩
    · simp only [if_neg hsame]
      exact h

theorem tidy_start : World.start.Tidy := by
  constructor <;> simp [World.start, ScreenTicketStore.active]

/-- Whatever a connection asks for, in any order, its tickets are used once. -/
theorem tickets_are_used_once (events : List Event) : (Runs.run World.step .start events).Tidy := by
  refine Runs.keeps_always World.Tidy ?_ tidy_start events
  intro w event h
  cases event with
  | issue grants entropy => exact tidy_issue h grants entropy
  | spend presented => exact tidy_spend h presented
  | close => exact ⟨h.once, nofun, h.viewed, nofun⟩

end multiplex_controller_listener.screen_tickets
