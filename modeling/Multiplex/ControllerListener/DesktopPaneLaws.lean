-- What each call of the registry does to one pane, and what a request of a
-- connection can do to the panes at all.
import Multiplex.ControllerListener.DesktopPanes

open multiplex_domain.session (HostedSessionId OutputSequence)
open multiplex_controller_listener.protocol

namespace multiplex_controller_listener.desktop_panes

/-! ## One pane of the registry -/

namespace DesktopPaneRegistry

section
variable (registry : DesktopPaneRegistry) (id : HostedSessionId)

variable (session_id : HostedSessionId)

theorem pane?_with_pane (change : DesktopPaneRecord → DesktopPaneRecord) :
    (registry.with_pane session_id change).pane? id =
      (registry.pane? id).map fun pane => if id = session_id then change pane else pane := by
  simp [pane?, with_pane]

theorem pane?_register (r : DesktopPaneRegistration) : (registry.register r).pane? id =
      if id = r.session_id then some ((registry.pane? id).elim r.record r.existing)
      else registry.pane? id := by
  unfold DesktopPaneRegistry.register
  by_cases hid : id = r.session_id
  · subst hid
    split
    · rename_i pane hpane
      simp [pane?_with_pane, hpane]
    · rename_i hpane
      simp only [pane?] at hpane
      simp [hpane, pane?]
  · split
    · simp [pane?_with_pane, hid]
    · simp [pane?, hid, SortedMap.get?_insert_of_ne]

theorem pane?_update_title (title : String) : (registry.update_title session_id title).pane? id =
      (registry.pane? id).map fun pane =>
        if id = session_id then { pane with title := bounded_title title } else pane := by
  unfold update_title
  by_cases hchanged : (registry.pane? session_id).any (·.title ≠ bounded_title title) = true
  · simp only [hchanged, if_true]
    exact pane?_with_pane registry id session_id _
  · simp only [hchanged]
    by_cases hid : id = session_id
    · subst hid
      cases hpane : registry.pane? id with
      | none => simp [hpane]
      | some pane =>
        have htitle : pane.title = bounded_title title := by simpa [hpane] using hchanged
        simp [hpane, ← htitle]
    · simp [hid]

theorem pane?_update_size (columns rows : Nat) :
    (registry.update_size session_id columns rows).pane? id =
      (registry.pane? id).map fun pane =>
        if id = session_id then { pane with columns := clamp columns, rows := clamp rows } else pane :=
  pane?_with_pane registry id session_id _

theorem pane?_remove :
    (registry.remove session_id).pane? id = if id = session_id then none else registry.pane? id := by
  unfold remove
  by_cases hid : id = session_id
  · subst hid
    split
    · simp [pane?]
    · rename_i hpane
      simpa using hpane
  · split
    · exact SortedMap.get?_erase_of_ne hid
    · rfl

theorem pane?_append_output (bytes snapshot : List UInt8) :
    (registry.append_output session_id bytes snapshot).pane? id =
      (registry.pane? id).map fun pane =>
        if id = session_id ∧ bytes ≠ [] then append_to pane bytes snapshot else pane := by
  unfold append_output
  by_cases hempty : bytes = []
  · simp [hempty]
  · simp [hempty, pane?_with_pane]

theorem pane?_release_connection (connection_id : ConnectionId) :
    (registry.release_connection connection_id).1.pane? id =
      (registry.pane? id).map (released connection_id) := by
  simp [release_connection, pane?]

theorem mem_release_connection {connection_id : ConnectionId} {call : TransportCall} :
    call ∈ (registry.release_connection connection_id).2 ↔
      ∃ id pane, registry.pane? id = some pane ∧ pane.writer_connection = some connection_id ∧
        call = .send_resize id pane.columns pane.rows := by
  simp only [release_connection, List.mem_filterMap, Prod.exists, pane?,
    SortedMap.get?_eq_some_iff, Option.ite_none_right_eq_some, Option.some.injEq]
  constructor
  · rintro ⟨id, pane, hmem, hwriter, rfl⟩
    exact ⟨id, pane, hmem, hwriter, rfl⟩
  · rintro ⟨id, pane, hmem, hwriter, rfl⟩
    exact ⟨id, pane, hmem, hwriter, rfl⟩

end

end DesktopPaneRegistry

theorem presented_eq_some {registry : DesktopPaneRegistry} {id : HostedSessionId}
    {generation : OccupantGeneration} {pane : DesktopPaneRecord} :
    presented registry id generation = some pane ↔
      registry.pane? id = some pane ∧ pane.generation = generation := by
  simp [presented, Option.filter_eq_some_iff]

@[simp] theorem released_generation (connection_id : ConnectionId) (pane : DesktopPaneRecord) :
    (released connection_id pane).generation = pane.generation := by
  unfold released
  split <;> rfl

theorem presented_switched (registry : DesktopPaneRegistry) (connection_id : ConnectionId)
    (connection : BridgeConnectionState) (id : HostedSessionId) (generation : OccupantGeneration) :
    (presented (switched registry connection_id connection id).1 id generation).isSome =
      (presented registry id generation).isSome := by
  unfold switched
  split
  · simp only [presented, DesktopPaneRegistry.pane?_release_connection]
    cases registry.pane? id with
    | none => rfl
    | some pane => by_cases h : pane.generation = generation <;> simp [Option.filter, h]
  · rfl

/-! ## What a request can do to the panes -/

/-- The ways in which a request of a connection can leave the panes, with the calls it makes. -/
inductive Moved (registry : DesktopPaneRegistry) (c : ConnectionId) :
    BridgeRequest → DesktopPaneRegistry → List TransportCall → Prop
  | keeps {request : BridgeRequest} : Moved registry c request registry []
  | writes {command_id : CommandId} {id : HostedSessionId} {generation : OccupantGeneration}
      {bytes : List UInt8} {pane : DesktopPaneRecord} (hpane : registry.pane? id = some pane)
      (hwriter : pane.writer_connection = some c) :
      Moved registry c (.Execute command_id (.Input id generation bytes)) registry
        [.send_input id bytes]
  | asks {command_id : CommandId} {id : HostedSessionId} {generation : OccupantGeneration}
      {columns rows : Nat} {pane : DesktopPaneRecord} (hpane : registry.pane? id = some pane)
      (hwriter : pane.writer_connection = some c) :
      Moved registry c (.Execute command_id (.Resize id generation columns rows)) registry
        [.send_resize id (clamp columns) (clamp rows)]
  | resizes {command_id : CommandId} {id : HostedSessionId} {generation : OccupantGeneration}
      {columns rows : Nat} {pane : DesktopPaneRecord} (hpane : registry.pane? id = some pane)
      (hwriter : pane.writer_connection = some c) :
      Moved registry c (.Execute command_id (.Resize id generation columns rows))
        (registry.with_pane id fun pane =>
          { pane with controller_viewport := some (clamp columns, clamp rows) })
        [.send_resize id (clamp columns) (clamp rows)]
  | acquires {request : BridgeRequest} {id : HostedSessionId} {pane : DesktopPaneRecord}
      (hpane : registry.pane? id = some pane)
      (hfree : pane.writer_connection = none ∨ pane.writer_connection = some c) :
      Moved registry c request
        (registry.with_pane id fun pane => { pane with writer_connection := some c }) []
  | releases {request : BridgeRequest} {id : HostedSessionId} {pane : DesktopPaneRecord}
      (hpane : registry.pane? id = some pane) :
      Moved registry c request (registry.with_pane id (released c))
        (if pane.writer_connection = some c then [.send_resize id pane.columns pane.rows] else [])
  | leaves {request : BridgeRequest} :
      Moved registry c request (registry.release_connection c).1 (registry.release_connection c).2

section
variable {registry : DesktopPaneRegistry} {c : ConnectionId} {connection : BridgeConnectionState}
  {command_id : CommandId} {id : HostedSessionId} {generation : OccupantGeneration}
  {request : BridgeRequest}

theorem moved_switched : Moved registry c request (switched registry c connection id).1
    (switched registry c connection id).2 := by
  unfold switched
  split
  · exact .leaves
  · exact .keeps

variable {served : Served}

theorem moved_attach {from_sequence : OutputSequence}
    (h : attach registry c connection command_id id generation from_sequence = served) :
    Moved registry c request served.registry served.calls := by
  subst h
  have hswitched : Moved registry c request (switched registry c connection id).1
      (switched registry c connection id).2 := moved_switched
  unfold attach
  simp only
  split <;> exact hswitched

theorem moved_acquire_writer
    (h : acquire_writer registry c connection command_id id generation = served) :
    Moved registry c request served.registry served.calls := by
  subst h
  unfold acquire_writer
  split
  · exact .keeps
  · rename_i pane hpane
    split
    · exact .keeps
    · rename_i hfree
      refine .acquires (presented_eq_some.mp hpane).1 ?_
      cases hwriter : pane.writer_connection with
      | none => exact .inl rfl
      | some owner => exact .inr (by simpa [hwriter] using hfree)

theorem moved_release_writer
    (h : release_writer registry c connection command_id id generation = served) :
    Moved registry c request served.registry served.calls := by
  subst h
  unfold release_writer
  split
  · exact .keeps
  · rename_i pane hpane
    exact .releases (presented_eq_some.mp hpane).1

variable {takes : Bool}

theorem moved_input {bytes : List UInt8}
    (h : input registry c connection command_id id generation bytes takes = served) :
    Moved registry c (.Execute command_id (.Input id generation bytes)) served.registry
      served.calls := by
  subst h
  unfold input
  split
  · exact .keeps
  · rename_i pane hpane
    split
    · rename_i hwriter
      exact .writes (presented_eq_some.mp hpane).1 hwriter
    · exact .keeps

theorem moved_resize {columns rows : Nat}
    (h : resize registry c connection command_id id generation columns rows takes = served) :
    Moved registry c (.Execute command_id (.Resize id generation columns rows)) served.registry
      served.calls := by
  subst h
  unfold resize
  split
  · exact .keeps
  · rename_i pane hpane
    have hpane := (presented_eq_some.mp hpane).1
    by_cases hwriter : pane.writer_connection = some c
    · simp [hwriter]
      split
      · exact .resizes hpane hwriter
      · exact .asks hpane hwriter
    · simp [hwriter]
      exact .keeps

theorem moved_detach (h : detach registry c connection command_id id = served) :
    Moved registry c request served.registry served.calls := by
  subst h
  unfold detach
  split
  · exact .leaves
  · exact .keeps

theorem moved (registry : DesktopPaneRegistry) (c : ConnectionId) (connection : BridgeConnectionState)
    (request : BridgeRequest) (outside : Outside) :
    Moved registry c request (handle_request registry c connection request outside).registry
      (handle_request registry c connection request outside).calls := by
  cases request with
  | List => exact .keeps
  | Context session_id => exact .keeps
  | Reset => exact .leaves
  | Next =>
    simp only [handle_request, next_desktop_output]
    repeat' split
    all_goals exact .keeps
  | Execute command_id command =>
    cases command
    case Attach => exact moved_attach rfl
    case AcquireWriter => exact moved_acquire_writer rfl
    case ReleaseWriter => exact moved_release_writer rfl
    case Input => exact moved_input rfl
    case Resize => exact moved_resize rfl
    case Detach => exact moved_detach rfl
    all_goals exact .keeps

end

/-! ## Events of connections -/

def BridgeEvent.connection : BridgeEvent → Option ConnectionId
  | .request c .. | .ended c => some c
  | _ => none

def Bridge.live (b : Bridge) (c : ConnectionId) : Prop := (b.connections.get? c).isSome

section
variable {b : Bridge} {e : BridgeEvent} {c : ConnectionId}

theorem step_of_gone (hc : e.connection = some c) (hlive : ¬ b.live c) : b.step e = ⟨b, none, []⟩ := by
  have hnone : b.connections.get? c = none := by simpa [Bridge.live] using hlive
  cases e <;> simp [BridgeEvent.connection] at hc
  all_goals
    subst hc
    simp only [Bridge.step, hnone]

theorem step_of_request {connection : BridgeConnectionState}
    (hconnection : b.connections.get? c = some connection) (request : BridgeRequest)
    (outside : Outside) : (b.step (.request c request outside)).bridge.registry =
        (handle_request b.registry c connection request outside).registry ∧
      (b.step (.request c request outside)).calls =
        (handle_request b.registry c connection request outside).calls := by
  simp [Bridge.step, hconnection]

theorem step_of_ended (hlive : b.live c) :
    (b.step (.ended c)).bridge.registry = (b.registry.release_connection c).1 ∧
      (b.step (.ended c)).calls = (b.registry.release_connection c).2 := by
  obtain ⟨connection, hconnection⟩ := Option.isSome_iff_exists.mp hlive
  simp [Bridge.step, hconnection]

theorem step_moved (hc : e.connection = some c) (hlive : b.live c) :
    ∃ request, Moved b.registry c request (b.step e).bridge.registry (b.step e).calls := by
  obtain ⟨connection, hconnection⟩ := Option.isSome_iff_exists.mp hlive
  cases e <;> simp [BridgeEvent.connection] at hc
  case request request outside =>
    subst hc
    obtain ⟨hregistry, hcalls⟩ := step_of_request hconnection request outside
    rw [hregistry, hcalls]
    exact ⟨request, moved b.registry _ connection request outside⟩
  case ended =>
    subst hc
    obtain ⟨hregistry, hcalls⟩ := step_of_ended hlive
    rw [hregistry, hcalls]
    exact ⟨.Reset, .leaves⟩

end

end multiplex_controller_listener.desktop_panes
