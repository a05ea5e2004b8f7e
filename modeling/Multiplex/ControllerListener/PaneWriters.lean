-- Who may write to a desktop pane. A pane has one writer, and only the writer
-- reaches its transport. A connection that leaves gives up what it holds,
-- unless it attaches without having been attached anywhere else.
import Multiplex.Lib.Runs
import Multiplex.ControllerListener.DesktopPaneLaws

open multiplex_domain.session (HostedSessionId OutputSequence)
open multiplex_controller_listener.protocol

namespace multiplex_controller_listener.desktop_panes

/-! ## Writers -/

namespace Bridge

/-- A connection that has been there and is there no more. -/
def gone (b : Bridge) (c : ConnectionId) : Prop := c < b.next_connection ∧ ¬ b.live c

def writes (b : Bridge) (c : ConnectionId) (id : HostedSessionId) : Prop :=
  ∃ pane, b.registry.pane? id = some pane ∧ pane.writer_connection = some c

/-- The writer and the size it has given its pane go together, and only who is there can write. -/
structure OneWriter (b : Bridge) : Prop where
  single : ∀ {id c c'}, b.writes c id → b.writes c' id → c = c'
  writer_is_live : ∀ {id c}, b.writes c id → b.live c
  viewport_of_writer : ∀ {id pane}, b.registry.pane? id = some pane →
    pane.controller_viewport ≠ none → pane.writer_connection ≠ none

/-- A call is the writer's own, or takes its pane back to the size it has on the desktop. -/
def ReachedByWriter (b : Bridge) (e : BridgeEvent) (call : TransportCall) : Prop :=
  ∃ c pane, e.connection = some c ∧ b.registry.pane? call.session_id = some pane ∧
    pane.writer_connection = some c ∧
    match call with
    | .send_input id bytes =>
      ∃ command_id generation outside,
        e = .request c (.Execute command_id (.Input id generation bytes)) outside
    | .send_resize id columns rows =>
      (∃ command_id generation asked_columns asked_rows outside,
        e = .request c (.Execute command_id (.Resize id generation asked_columns asked_rows)) outside ∧
          columns = clamp asked_columns ∧ rows = clamp asked_rows) ∨
      columns = pane.columns ∧ rows = pane.rows ∧ ¬ (b.step e).bridge.writes c id

end Bridge

/-! ## What a step does to the lease of one pane -/

/-- The lease of a pane stays, or is taken, used or given up by one connection. -/
inductive LeaseStep (c : ConnectionId) (id : HostedSessionId) (pane : DesktopPaneRecord)
    (calls : List TransportCall) (pane' : DesktopPaneRecord) : Prop
  | stays (hwriter : pane'.writer_connection = pane.writer_connection)
      (hviewport : pane'.controller_viewport = pane.controller_viewport)
  | used (hbefore : pane.writer_connection = some c) (hafter : pane'.writer_connection = some c)
  | taken (hbefore : pane.writer_connection = none) (hafter : pane'.writer_connection = some c)
  | given_up (hbefore : pane.writer_connection = some c) (hafter : pane'.writer_connection = none)
      (hviewport : pane'.controller_viewport = none)
      (hcall : .send_resize id pane.columns pane.rows ∈ calls)

variable {calls : List TransportCall}

theorem lease_released {c : ConnectionId} {id : HostedSessionId} {pane : DesktopPaneRecord}
    (h : pane.writer_connection = some c → .send_resize id pane.columns pane.rows ∈ calls) :
    LeaseStep c id pane calls (released c pane) := by
  unfold released
  split
  · rename_i hwriter
    exact .given_up hwriter rfl rfl (h hwriter)
  · exact .stays rfl rfl

/-- A request takes each pane through one step of its lease, and no pane comes or goes. -/
theorem lease_moved {registry registry' : DesktopPaneRegistry} {c : ConnectionId}
    {request : BridgeRequest} (h : Moved registry c request registry' calls)
    (id : HostedSessionId) :
    Option.Rel (fun pane pane' => LeaseStep c id pane calls pane') (registry.pane? id)
      (registry'.pane? id) := by
  have kept : ∀ calls, Option.Rel (fun pane pane' => LeaseStep c id pane calls pane')
      (registry.pane? id) (registry.pane? id) := by
    intro calls
    cases registry.pane? id with
    | none => exact .none
    | some pane => exact .some (.stays rfl rfl)
  have changed : ∀ {session_id pane} {calls : List TransportCall}
      {change : DesktopPaneRecord → DesktopPaneRecord},
      registry.pane? session_id = some pane → LeaseStep c session_id pane calls (change pane) →
      Option.Rel (fun pane pane' => LeaseStep c id pane calls pane') (registry.pane? id)
        ((registry.with_pane session_id change).pane? id) := by
    intro session_id pane calls change hpane hstep
    rw [DesktopPaneRegistry.pane?_with_pane]
    by_cases hid : id = session_id
    · subst hid
      simp only [hpane, Option.map_some, if_true]
      exact .some hstep
    · simp [hid, Option.map_id']
      exact kept calls
  cases h with
  | keeps | writes _ _ | asks _ _ => exact kept _
  | resizes hpane hwriter => exact changed hpane (.used hwriter hwriter)
  | acquires hpane hfree =>
    refine changed hpane ?_
    rcases hfree with hfree | hwriter
    · exact .taken hfree rfl
    · exact .used hwriter rfl
  | releases hpane =>
    refine changed hpane (lease_released fun hwriter => ?_)
    simp [hwriter]
  | leaves =>
    rw [DesktopPaneRegistry.pane?_release_connection]
    cases hpane : registry.pane? id with
    | none => exact .none
    | some pane =>
      refine .some (lease_released fun hwriter => ?_)
      exact (DesktopPaneRegistry.mem_release_connection registry).mpr ⟨id, pane, hpane, hwriter, rfl⟩

variable (pane : DesktopPaneRecord)

theorem push_chunks_lease (chunks : List (List UInt8)) :
    (push_chunks pane chunks).1.writer_connection = pane.writer_connection ∧
      (push_chunks pane chunks).1.controller_viewport = pane.controller_viewport := by
  induction chunks generalizing pane with
  | nil => exact ⟨rfl, rfl⟩
  | cons chunk rest ih =>
    unfold push_chunks
    split
    · exact ⟨rfl, rfl⟩
    · exact ih _

theorem append_to_lease (bytes snapshot : List UInt8) :
    (append_to pane bytes snapshot).writer_connection = pane.writer_connection ∧
      (append_to pane bytes snapshot).controller_viewport = pane.controller_viewport := by
  have hpushed := push_chunks_lease pane (Chunks.chunks MAX_OUTPUT_CHUNK_BYTES bytes)
  unfold append_to
  simp only
  split <;> exact hpushed

/-! ## What a step of the app does to it -/

section
variable {b : Bridge} {e : BridgeEvent} {c : ConnectionId} {id : HostedSessionId}

theorem calls_of_app (hc : e.connection = none) : (b.step e).calls = [] := by
  cases e <;> simp [BridgeEvent.connection] at hc <;> rfl

variable {pane' : DesktopPaneRecord}

theorem lease_of_app (hc : e.connection = none)
    (h : (b.step e).bridge.registry.pane? id = some pane') :
    (b.registry.pane? id = none ∧ pane'.writer_connection = none ∧ pane'.controller_viewport = none) ∨
      ∃ pane, b.registry.pane? id = some pane ∧ pane'.writer_connection = pane.writer_connection ∧
        pane'.controller_viewport = pane.controller_viewport := by
  cases e <;> simp [BridgeEvent.connection] at hc
  all_goals simp only [Bridge.step, Bridge.of_registry] at h
  case register r =>
    rw [DesktopPaneRegistry.pane?_register] at h
    split at h
    · cases hpane : b.registry.pane? id with
      | none =>
        simp [hpane] at h
        subst h
        exact .inl ⟨rfl, rfl, rfl⟩
      | some pane =>
        simp [hpane] at h
        subst h
        exact .inr ⟨pane, rfl, rfl, rfl⟩
    · exact .inr ⟨pane', h, rfl, rfl⟩
  case update_title session_id title =>
    rw [DesktopPaneRegistry.pane?_update_title, Option.map_eq_some_iff] at h
    obtain ⟨pane, hpane, rfl⟩ := h
    exact .inr ⟨pane, hpane, by split <;> rfl, by split <;> rfl⟩
  case update_size session_id columns rows =>
    rw [DesktopPaneRegistry.pane?_update_size, Option.map_eq_some_iff] at h
    obtain ⟨pane, hpane, rfl⟩ := h
    exact .inr ⟨pane, hpane, by split <;> rfl, by split <;> rfl⟩
  case remove session_id =>
    rw [DesktopPaneRegistry.pane?_remove] at h
    split at h
    · cases h
    · exact .inr ⟨pane', h, rfl, rfl⟩
  case append_output session_id bytes snapshot =>
    rw [DesktopPaneRegistry.pane?_append_output, Option.map_eq_some_iff] at h
    obtain ⟨pane, hpane, rfl⟩ := h
    refine .inr ⟨pane, hpane, ?_⟩
    split
    · exact append_to_lease pane bytes snapshot
    · exact ⟨rfl, rfl⟩
  case accept => exact .inr ⟨pane', h, rfl, rfl⟩

/-- A pane that is there after a step is new and free, or went through one step of its lease. -/
theorem lease_step (h : (b.step e).bridge.registry.pane? id = some pane') :
    (b.registry.pane? id = none ∧ pane'.writer_connection = none ∧ pane'.controller_viewport = none) ∨
      ∃ pane, b.registry.pane? id = some pane ∧ ((pane'.writer_connection = pane.writer_connection ∧
            pane'.controller_viewport = pane.controller_viewport) ∨
          ∃ c, e.connection = some c ∧ b.live c ∧ LeaseStep c id pane (b.step e).calls pane') := by
  cases hc : e.connection with
  | none =>
    rcases lease_of_app hc h with hnew | ⟨pane, hpane, hlease⟩
    · exact .inl hnew
    · exact .inr ⟨pane, hpane, .inl hlease⟩
  | some c =>
    by_cases hlive : b.live c
    · obtain ⟨request, hmoved⟩ := step_moved hc hlive
      have hrel := lease_moved hmoved id
      rw [h] at hrel
      cases hpane : b.registry.pane? id with
      | none =>
        rw [hpane] at hrel
        cases hrel
      | some pane =>
        rw [hpane] at hrel
        cases hrel with
        | some hstep => exact .inr ⟨pane, rfl, .inr ⟨c, rfl, hlive, hstep⟩⟩
    · rw [step_of_gone hc hlive] at h
      exact .inr ⟨pane', h, .inl ⟨rfl, rfl⟩⟩

/-- Whoever writes to a pane after a step did so before, or has just asked for it. -/
theorem writes_step (h : (b.step e).bridge.writes c id) :
    b.writes c id ∨ (e.connection = some c ∧ b.live c) := by
  obtain ⟨pane', hpane', hwriter⟩ := h
  rcases lease_step hpane' with ⟨-, hfree, -⟩ | ⟨pane, hpane, ⟨hsame, -⟩ | ⟨c', hc, hlive, hstep⟩⟩
  · rw [hfree] at hwriter
    cases hwriter
  · exact .inl ⟨pane, hpane, hsame ▸ hwriter⟩
  · cases hstep with
    | stays hsame _ => exact .inl ⟨pane, hpane, hsame ▸ hwriter⟩
    | used _ hafter | taken _ hafter =>
      obtain rfl : c' = c := by
        rw [hafter] at hwriter
        exact Option.some.inj hwriter
      exact .inr ⟨hc, hlive⟩
    | given_up _ hafter _ _ =>
      rw [hafter] at hwriter
      cases hwriter

theorem not_writes_released {registry : DesktopPaneRegistry} {pane : DesktopPaneRecord}
    (h : (registry.release_connection c).1.pane? id = some pane) : pane.writer_connection ≠ some c := by
  rw [DesktopPaneRegistry.pane?_release_connection, Option.map_eq_some_iff] at h
  obtain ⟨before, -, rfl⟩ := h
  unfold released
  split
  · simp
  · assumption

theorem not_writes_ended (hlive : b.live c) : ¬ (b.step (.ended c)).bridge.writes c id := by
  rintro ⟨pane, hpane, hwriter⟩
  rw [(step_of_ended hlive).1] at hpane
  exact not_writes_released hpane hwriter

theorem live_step (h : b.live c) (hended : e ≠ .ended c) : (b.step e).bridge.live c := by
  have inserted : ∀ {connections : SortedMap ConnectionId BridgeConnectionState} {k state},
      (connections.get? c).isSome → ((connections.insert k state).get? c).isSome := by
    intro connections k state hsome
    by_cases hk : c = k
    · subst hk
      simp
    · rwa [SortedMap.get?_insert_of_ne hk]
  unfold Bridge.live at *
  cases e with
  | request c' request outside =>
    simp only [Bridge.step]
    split
    · exact h
    · exact inserted h
  | ended c' =>
    simp only [Bridge.step]
    split
    · exact h
    · rwa [SortedMap.get?_erase_of_ne fun hc => hended (by rw [hc])]
  | accept => exact inserted h
  | _ => exact h

end

/-! ## What holds in every state -/

variable {b : Bridge}

theorem Bridge.OneWriter.step (h : b.OneWriter) (e : BridgeEvent) :
    (b.step e).bridge.OneWriter where
  single := by
    rintro id c c' ⟨pane, hpane, hc⟩ ⟨pane', hpane', hc'⟩
    obtain rfl : pane = pane' := Option.some.inj (hpane.symm.trans hpane')
    exact Option.some.inj (hc.symm.trans hc')
  writer_is_live := by
    intro id c hwrites
    have hlive : b.live c := (writes_step hwrites).elim h.writer_is_live (·.2)
    refine live_step hlive ?_
    rintro rfl
    exact not_writes_ended hlive hwrites
  viewport_of_writer := by
    intro id pane' hpane' hviewport
    rcases lease_step hpane' with ⟨-, -, hnone⟩ | ⟨pane, hpane, ⟨hwriter, hsame⟩ | ⟨c, -, -, hstep⟩⟩
    · exact absurd hnone hviewport
    · rw [hwriter]
      exact h.viewport_of_writer hpane (hsame ▸ hviewport)
    · cases hstep with
      | stays hwriter hsame =>
        rw [hwriter]
        exact h.viewport_of_writer hpane (hsame ▸ hviewport)
      | used _ hafter | taken _ hafter =>
        rw [hafter]
        simp
      | given_up _ _ hnone _ => exact absurd hnone hviewport

theorem one_writer_start : Bridge.start.OneWriter where
  single := by
    rintro id c c' ⟨pane, hpane, -⟩
    cases hpane
  writer_is_live := by
    rintro id c ⟨pane, hpane, -⟩
    cases hpane
  viewport_of_writer := by
    intro id pane hpane
    cases hpane

theorem live_lt_step (h : ∀ c, b.live c → c < b.next_connection) (e : BridgeEvent) :
    ∀ c, (b.step e).bridge.live c → c < (b.step e).bridge.next_connection := by
  intro c hlive
  cases e with
  | accept =>
    simp only [Bridge.step, Bridge.live] at hlive ⊢
    by_cases hc : c = b.next_connection
    · exact hc ▸ Nat.lt_succ_self _
    · rw [SortedMap.get?_insert_of_ne hc] at hlive
      exact Nat.lt_succ_of_lt (h c hlive)
  | request c' request outside =>
    simp only [Bridge.step] at hlive ⊢
    split
    · rename_i hnone
      simp only [hnone] at hlive
      exact h c hlive
    · rename_i connection hconnection
      simp only [hconnection, Bridge.live] at hlive
      refine h c ?_
      by_cases hc : c = c'
      · subst hc
        simp [Bridge.live, hconnection]
      · rwa [SortedMap.get?_insert_of_ne hc] at hlive
  | ended c' =>
    simp only [Bridge.step] at hlive ⊢
    split
    · rename_i hnone
      simp only [hnone] at hlive
      exact h c hlive
    · rename_i connection hconnection
      simp only [hconnection, Bridge.live] at hlive
      refine h c ?_
      by_cases hc : c = c'
      · subst hc
        simp at hlive
      · rwa [SortedMap.get?_erase_of_ne hc] at hlive
  | _ => exact h c hlive

theorem gone_step {c : ConnectionId} (h : b.gone c) (e : BridgeEvent) :
    (b.step e).bridge.gone c := by
  obtain ⟨hlt, hdead⟩ := h
  cases e with
  | accept =>
    refine ⟨Nat.lt_succ_of_lt hlt, ?_⟩
    have hc : c ≠ b.next_connection := Nat.ne_of_lt hlt
    simpa only [Bridge.step, Bridge.live, SortedMap.get?_insert_of_ne hc] using hdead
  | request c' request outside =>
    by_cases hlive : b.live c'
    · obtain ⟨connection, hconnection⟩ := Option.isSome_iff_exists.mp hlive
      have hc : c ≠ c' := fun hc => hdead (hc ▸ hlive)
      simp only [Bridge.gone, Bridge.step, hconnection]
      refine ⟨hlt, ?_⟩
      simpa only [Bridge.live, SortedMap.get?_insert_of_ne hc] using hdead
    · rw [step_of_gone rfl hlive]
      exact ⟨hlt, hdead⟩
  | ended c' =>
    by_cases hlive : b.live c'
    · obtain ⟨connection, hconnection⟩ := Option.isSome_iff_exists.mp hlive
      have hc : c ≠ c' := fun hc => hdead (hc ▸ hlive)
      simp only [Bridge.gone, Bridge.step, hconnection]
      refine ⟨hlt, ?_⟩
      simpa only [Bridge.live, SortedMap.get?_erase_of_ne hc] using hdead
    · rw [step_of_gone rfl hlive]
      exact ⟨hlt, hdead⟩
  | _ => exact ⟨hlt, hdead⟩

theorem gone_of_ended {c : ConnectionId} (hlive : b.live c) (hlt : c < b.next_connection) :
    (b.step (.ended c)).bridge.gone c := by
  obtain ⟨connection, hconnection⟩ := Option.isSome_iff_exists.mp hlive
  simp only [Bridge.gone, Bridge.step, hconnection]
  exact ⟨hlt, by simp [Bridge.live]⟩

/-! ## Who reaches a transport -/

section
variable {b : Bridge} {e : BridgeEvent} {c : ConnectionId}

theorem reached_by_released {call : TransportCall} {id : HostedSessionId} {pane : DesktopPaneRecord}
    (hc : e.connection = some c) (hpane : b.registry.pane? id = some pane)
    (hwriter : pane.writer_connection = some c)
    (hafter : ∀ pane', (b.step e).bridge.registry.pane? id = some pane' →
      pane'.writer_connection ≠ some c)
    (hcall : call = .send_resize id pane.columns pane.rows) : b.ReachedByWriter e call := by
  subst hcall
  refine ⟨c, pane, hc, hpane, hwriter, .inr ⟨rfl, rfl, ?_⟩⟩
  rintro ⟨pane', hpane', hwriter'⟩
  exact hafter pane' hpane' hwriter'

theorem reached_by_writer (b : Bridge) (e : BridgeEvent) :
    ∀ call ∈ (b.step e).calls, b.ReachedByWriter e call := by
  intro call hcall
  cases hc : e.connection with
  | none =>
    rw [calls_of_app hc] at hcall
    cases hcall
  | some c =>
    by_cases hlive : b.live c
    swap
    · rw [step_of_gone hc hlive] at hcall
      cases hcall
    have of_leaving : (b.step e).bridge.registry = (b.registry.release_connection c).1 →
        call ∈ (b.registry.release_connection c).2 → b.ReachedByWriter e call := by
      intro hregistry hmem
      obtain ⟨id, pane, hpane, hwriter, rfl⟩ :=
        (DesktopPaneRegistry.mem_release_connection b.registry).mp hmem
      refine reached_by_released hc hpane hwriter ?_ rfl
      intro pane' hpane'
      rw [hregistry] at hpane'
      exact not_writes_released hpane'
    cases e <;> simp [BridgeEvent.connection] at hc
    case ended =>
      subst hc
      rw [(step_of_ended hlive).2] at hcall
      exact of_leaving (step_of_ended hlive).1 hcall
    case request c' request outside =>
      obtain rfl : c' = c := hc
      obtain ⟨connection, hconnection⟩ := Option.isSome_iff_exists.mp hlive
      obtain ⟨hregistry, hcalls⟩ := step_of_request hconnection request outside
      rw [hcalls] at hcall
      have hmoved := moved b.registry c' connection request outside
      generalize hcalls' : (handle_request b.registry c' connection request outside).calls = calls
        at hcall
      generalize hregistry' : (handle_request b.registry c' connection request outside).registry =
        registry' at hregistry
      rw [hcalls', hregistry'] at hmoved
      cases hmoved with
      | keeps | acquires _ _ => cases hcall
      | writes hpane hwriter =>
        obtain rfl := List.mem_singleton.mp hcall
        exact ⟨_, _, rfl, hpane, hwriter, _, _, outside, rfl⟩
      | asks hpane hwriter | resizes hpane hwriter =>
        obtain rfl := List.mem_singleton.mp hcall
        exact ⟨_, _, rfl, hpane, hwriter, .inl ⟨_, _, _, _, outside, rfl, rfl, rfl⟩⟩
      | @releases _ id pane hpane =>
        split at hcall
        · rename_i hwriter
          refine reached_by_released rfl hpane hwriter ?_ (List.mem_singleton.mp hcall)
          intro pane' hpane'
          rw [hregistry, DesktopPaneRegistry.pane?_with_pane, hpane] at hpane'
          simp at hpane'
          subst hpane'
          simp [released, hwriter]
        · cases hcall
      | leaves => exact of_leaving hregistry hcall

end

/-! ## What a connection leaves behind -/

/-- The app, with the panes that each connection has resized and that were not asked back since. -/
structure Watched where
  bridge : Bridge
  resized : List (ConnectionId × HostedSessionId)

namespace Watched

def start : Watched := ⟨Bridge.start, []⟩

def resizes (b : Bridge) (e : BridgeEvent) : List (ConnectionId × HostedSessionId) :=
  match e with
  | .request c (.Execute _ (.Resize id ..)) _ => if (b.step e).calls = [] then [] else [(c, id)]
  | _ => []

def asked_back (b : Bridge) (e : BridgeEvent) (id : HostedSessionId) : Bool :=
  (b.registry.pane? id).any fun pane => .send_resize id pane.columns pane.rows ∈ (b.step e).calls

def step (w : Watched) (e : BridgeEvent) : Watched where
  bridge := (w.bridge.step e).bridge
  resized := resizes w.bridge e ++ w.resized.filter fun entry =>
    ¬ asked_back w.bridge e entry.2 ∧ ((w.bridge.step e).bridge.registry.pane? entry.2).isSome

def run (w : Watched) (events : List BridgeEvent) : Watched := Runs.run step w events

end Watched

/-- The connection that an event takes off what it held, and the pane that it may still hold: the
one that it attaches to, unless it comes from another. -/
def Bridge.leaves (b : Bridge) : BridgeEvent → Option (ConnectionId × Option HostedSessionId)
  | .ended c => (b.connections.get? c).map fun _ => (c, none)
  | .request c .Reset _ => (b.connections.get? c).map fun _ => (c, none)
  | .request c (.Execute _ (.Detach id _)) _ =>
    if (b.connections.get? c).any (·.active.any (·.session_id = id)) then some (c, none) else none
  | .request c (.Execute _ (.Attach id generation ..)) _ =>
    if (presented b.registry id generation).isSome then
      (b.connections.get? c).map fun connection =>
        (c, if connection.active.any (·.session_id ≠ id) then none else some id)
    else none
  | _ => none

/-- The connection writes to no other pane, and what it has resized was asked back. -/
def LeavesNothing (w : Watched) (e : BridgeEvent) : Prop :=
  ∀ c target, w.bridge.leaves e = some (c, target) → ∀ id, some id ≠ target →
    ¬ (w.step e).bridge.writes c id ∧ (c, id) ∉ (w.step e).resized

/-- An attach that is taken comes from another pane, or from a connection that holds no other. -/
def AttachesFromElsewhere (b : Bridge) (e : BridgeEvent) : Prop :=
  ∀ c connection command_id id generation from_sequence columns rows outside,
    e = .request c (.Execute command_id (.Attach id generation from_sequence columns rows)) outside →
    b.connections.get? c = some connection → (presented b.registry id generation).isSome →
    connection.active.any (·.session_id ≠ id) = true ∨ ∀ other, other ≠ id → ¬ b.writes c other

section
variable {w : Watched} {e : BridgeEvent} {c : ConnectionId} {id : HostedSessionId}

variable {registry : DesktopPaneRegistry} {connection : BridgeConnectionState}
  {command_id : CommandId} {generation : OccupantGeneration}

theorem resize_writes {columns rows : Nat} {takes : Bool} {served : Served}
    (h : resize registry c connection command_id id generation columns rows takes = served)
    (hcalls : served.calls ≠ []) :
    ∃ pane, served.registry.pane? id = some pane ∧ pane.writer_connection = some c := by
  subst h
  unfold resize at *
  cases hpresented : presented registry id generation with
  | none => exact absurd (by simp only [hpresented, unchanged]) hcalls
  | some pane =>
    have hpane := (presented_eq_some.mp hpresented).1
    simp only [hpresented] at hcalls ⊢
    by_cases hwriter : pane.writer_connection = some c
    · simp [hwriter] at hcalls ⊢
      split
      · refine ⟨{ pane with controller_viewport := some (clamp columns, clamp rows) }, ?_, hwriter⟩
        simp [DesktopPaneRegistry.pane?_with_pane, hpane]
      · exact ⟨pane, hpane, hwriter⟩
    · simp [hwriter] at hcalls
      exact absurd rfl hcalls

theorem writes_of_resizes (h : (c, id) ∈ Watched.resizes b e) :
    (b.step e).bridge.writes c id := by
  unfold Watched.resizes at h
  split at h
  · rename_i c' command_id id' generation columns rows outside
    split at h
    · cases h
    · rename_i hcalls
      obtain ⟨rfl, rfl⟩ := Prod.mk.inj (List.mem_singleton.mp h)
      by_cases hlive : b.live c
      · obtain ⟨connection, hconnection⟩ := Option.isSome_iff_exists.mp hlive
        obtain ⟨hregistry, hcalls'⟩ := step_of_request hconnection
          (.Execute command_id (.Resize id generation columns rows)) outside
        unfold Bridge.writes
        rw [hregistry]
        rw [hcalls'] at hcalls
        exact resize_writes rfl hcalls
      · rw [step_of_gone rfl hlive] at hcalls
        exact absurd rfl hcalls
  · cases h

/-- Only a pane that its writer holds stands resized by it. -/
theorem resized_step (h : ∀ c id, (c, id) ∈ w.resized → w.bridge.writes c id) :
    ∀ c id, (c, id) ∈ (w.step e).resized → (w.step e).bridge.writes c id := by
  intro c id hmem
  rcases List.mem_append.mp hmem with hnew | hold
  · exact writes_of_resizes hnew
  · rw [List.mem_filter] at hold
    obtain ⟨hold, hkept⟩ := hold
    simp only [decide_eq_true_eq] at hkept
    obtain ⟨hasked, hsome⟩ := hkept
    obtain ⟨pane, hpane, hwriter⟩ := h c id hold
    obtain ⟨pane', hpane'⟩ := Option.isSome_iff_exists.mp hsome
    refine ⟨pane', hpane', ?_⟩
    rcases lease_step hpane' with ⟨hnone, -, -⟩ | ⟨before, hbefore, hcases⟩
    · rw [hnone] at hpane
      cases hpane
    · obtain rfl : pane = before := Option.some.inj (hpane.symm.trans hbefore)
      rcases hcases with ⟨hsame, -⟩ | ⟨c', -, -, hstep⟩
      · exact hsame.trans hwriter
      · cases hstep with
        | stays hsame _ => exact hsame.trans hwriter
        | used hbefore hafter => exact hafter.trans (hbefore.symm.trans hwriter)
        | taken hfree _ =>
          rw [hfree] at hwriter
          cases hwriter
        | given_up _ _ _ hcall => exact absurd (by simp [Watched.asked_back, hpane, hcall]) hasked

theorem writes_nothing_of_release
    (h : (b.step e).bridge.registry = (b.registry.release_connection c).1) :
    ¬ (b.step e).bridge.writes c id := by
  rintro ⟨pane, hpane, hwriter⟩
  rw [h] at hpane
  exact not_writes_released hpane hwriter

theorem attach_registry {from_sequence : OutputSequence} :
    (attach registry c connection command_id id generation from_sequence).registry =
      (switched registry c connection id).1 := by
  unfold attach
  simp only
  split <;> rfl

/-- Leaving is clean but for an attach by a connection that no other pane had. -/
theorem leaves_nothing_iff (hresized : ∀ c id, (c, id) ∈ w.resized → w.bridge.writes c id) :
    LeavesNothing w e ↔ AttachesFromElsewhere w.bridge e := by
  have enough : ∀ {c id}, ¬ (w.step e).bridge.writes c id →
      ¬ (w.step e).bridge.writes c id ∧ (c, id) ∉ (w.step e).resized :=
    fun h => ⟨h, fun hmem => h (resized_step hresized _ _ hmem)⟩
  constructor
  · rintro h c connection command_id id generation from_sequence columns rows outside rfl hconnection
      htaken
    by_cases helse : connection.active.any (·.session_id ≠ id) = true
    · exact .inl helse
    · refine .inr fun other hother hwrites => ?_
      have hleaves : w.bridge.leaves (.request c (.Execute command_id
          (.Attach id generation from_sequence columns rows)) outside) = some (c, some id) := by
        simp only [Bridge.leaves, hconnection, htaken, if_true, Option.map_some, if_neg helse]
      refine (h c (some id) hleaves other (by simpa using hother)).1 ?_
      show (w.bridge.step _).bridge.writes c other
      unfold Bridge.writes
      rw [(step_of_request hconnection _ _).1]
      show ∃ pane, (attach w.bridge.registry c connection command_id id generation
        from_sequence).registry.pane? other = some pane ∧ _
      rw [attach_registry, switched, if_neg (by simpa using helse)]
      exact hwrites
  · intro h c target hleaves id hid
    refine enough ?_
    show ¬ (w.bridge.step e).bridge.writes c id
    unfold Bridge.leaves at hleaves
    split at hleaves
    · obtain ⟨connection, hconnection, heq⟩ := Option.map_eq_some_iff.mp hleaves
      obtain ⟨rfl, rfl⟩ := Prod.mk.inj heq
      exact not_writes_ended (by simp [Bridge.live, hconnection])
    · obtain ⟨connection, hconnection, heq⟩ := Option.map_eq_some_iff.mp hleaves
      obtain ⟨rfl, rfl⟩ := Prod.mk.inj heq
      exact writes_nothing_of_release (step_of_request hconnection _ _).1
    · rename_i c' command_id id' generation outside
      split at hleaves
      · rename_i hactive
        obtain ⟨rfl, rfl⟩ := Prod.mk.inj (Option.some.inj hleaves)
        obtain ⟨connection, hconnection, hactive⟩ := (Option.any_eq_true _ _).mp hactive
        refine writes_nothing_of_release ((step_of_request hconnection _ _).1.trans ?_)
        show (detach w.bridge.registry c' connection command_id id').registry = _
        rw [detach, if_pos hactive]
      · cases hleaves
    · rename_i c' command_id id' generation from_sequence columns rows outside
      split at hleaves
      · rename_i htaken
        obtain ⟨connection, hconnection, heq⟩ := Option.map_eq_some_iff.mp hleaves
        obtain ⟨rfl, htarget⟩ := Prod.mk.inj heq
        have hregistry : (w.bridge.step (.request c' (.Execute command_id (.Attach id' generation
            from_sequence columns rows)) outside)).bridge.registry =
            (switched w.bridge.registry c' connection id').1 :=
          (step_of_request hconnection _ _).1.trans attach_registry
        rw [switched] at hregistry
        split at hregistry
        · exact writes_nothing_of_release hregistry
        · rename_i hhere
          rw [if_neg hhere] at htarget
          rcases h _ _ _ _ _ _ _ _ _ rfl hconnection htaken with helse | hnone
          · exact absurd helse hhere
          · rintro ⟨pane, hpane, hwriter⟩
            rw [hregistry] at hpane
            exact hnone id (by simpa [← htarget] using hid) ⟨pane, hpane, hwriter⟩
      · cases hleaves
    · cases hleaves

end

/-- What holds of the app and of the resizes that stand, in every state. -/
structure Watched.Kept (w : Watched) : Prop where
  one_writer : w.bridge.OneWriter
  live_lt : ∀ c, w.bridge.live c → c < w.bridge.next_connection
  writes_of_resized : ∀ c id, (c, id) ∈ w.resized → w.bridge.writes c id

theorem kept_start : Watched.start.Kept where
  one_writer := one_writer_start
  live_lt := by
    intro c hlive
    simp [Watched.start, Bridge.start, Bridge.live] at hlive
  writes_of_resized := by
    intro c id hmem
    simp [Watched.start] at hmem

theorem watched_run (events : List BridgeEvent) : (Watched.start.run events).Kept := by
  refine Runs.keeps_always Watched.Kept (fun w e h => ?_) kept_start events
  exact ⟨h.one_writer.step e, live_lt_step h.live_lt e, resized_step h.writes_of_resized⟩

/-- A pane has one writer, only the writer reaches its transport, and who leaves keeps nothing
but where an attach comes from no other pane. -/
theorem panes_have_one_writer_and_leaving_is_clean_from_elsewhere (events : List BridgeEvent)
    (e : BridgeEvent) :
    let w := Watched.start.run events
    (w.step e).bridge.OneWriter ∧
      (∀ call ∈ (w.bridge.step e).calls, w.bridge.ReachedByWriter e call) ∧
      (∀ c, w.bridge.gone c ∨ e = .ended c ∧ w.bridge.live c →
        (w.step e).bridge.gone c ∧ ∀ id, ¬ (w.step e).bridge.writes c id) ∧
      (LeavesNothing w e ↔ AttachesFromElsewhere w.bridge e) := by
  obtain ⟨hone, hlive, hresized⟩ := watched_run events
  refine ⟨hone.step e, reached_by_writer _ e, ?_, leaves_nothing_iff hresized⟩
  intro c hc
  have hgone : ((Watched.start.run events).bridge.step e).bridge.gone c := by
    rcases hc with hgone | ⟨rfl, hlives⟩
    · exact gone_step hgone e
    · exact gone_of_ended hlives (hlive c hlives)
  exact ⟨hgone, fun id hwrites => hgone.2 ((hone.step e).writer_is_live hwrites)⟩

/-- A connection takes the lease of a pane without attaching to it, resizes it, and attaches to
another one. -/
theorem a_lease_taken_without_attaching_is_kept :
    let pane := fun id => DesktopPaneRegistration.mk id "shell" "ssh" 80 24 ⟨id, true⟩
    let ask := fun command => BridgeEvent.request 1 (.Execute 9 command) ⟨true, .busy⟩
    let w := Watched.start.run
      [.register (pane 1), .register (pane 2), .accept, ask (.AcquireWriter 1 1),
        ask (.Resize 1 1 40 12)]
    let e := ask (.Attach 2 1 0 40 12)
    ¬ LeavesNothing w e ∧ (w.step e).bridge.writes 1 1 ∧ (1, 1) ∈ (w.step e).resized := by
  refine ⟨fun h => (h 1 (some 2) (by decide +kernel) 1 (by decide)).2 (by decide +kernel), ?_,
    by decide +kernel⟩
  exact ⟨_, rfl, rfl⟩

end multiplex_controller_listener.desktop_panes
