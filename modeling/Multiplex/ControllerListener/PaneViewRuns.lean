-- A connection that goes on only with panes that are still there sees each of
-- them exactly, through any number of attaches and compactions.
import Multiplex.ControllerListener.PaneViews

open multiplex_domain.session (HostedSessionId OutputSequence)
open multiplex_controller_listener.protocol

namespace multiplex_controller_listener.desktop_panes

/-! ## Requests leave what panes have put out -/

/-- Two records of a pane that differ in who may write to it only. -/
structure SameOutput (pane pane' : DesktopPaneRecord) : Prop where
  latest : pane'.latest_sequence = pane.latest_sequence
  snapshot : pane'.snapshot_sequence = pane.snapshot_sequence
  outputs : pane'.outputs = pane.outputs

theorem SameOutput.refl (pane : DesktopPaneRecord) : SameOutput pane pane := ⟨rfl, rfl, rfl⟩

theorem same_output_released (c : ConnectionId) (pane : DesktopPaneRecord) :
    SameOutput pane (released c pane) := by
  unfold released
  split
  · exact ⟨rfl, rfl, rfl⟩
  · exact .refl pane

theorem SameOutput.retains {history : List (List UInt8)} {pane pane' : DesktopPaneRecord}
    (h : SameOutput pane pane') (hretains : Retains history pane) : Retains history pane' where
  latest := h.latest.trans hretains.latest
  snapshot := h.snapshot ▸ hretains.snapshot
  outputs := by rw [h.outputs, h.snapshot, hretains.outputs]

theorem output_moved {registry registry' : DesktopPaneRegistry} {c : ConnectionId}
    {request : BridgeRequest} {calls : List TransportCall} {id : HostedSessionId}
    {pane' : DesktopPaneRecord} (h : Moved registry c request registry' calls)
    (hpane' : registry'.pane? id = some pane') :
    ∃ pane, registry.pane? id = some pane ∧ SameOutput pane pane' := by
  have changed : ∀ {session_id} {change : DesktopPaneRecord → DesktopPaneRecord},
      (∀ pane, SameOutput pane (change pane)) →
      (registry.with_pane session_id change).pane? id = some pane' →
      ∃ pane, registry.pane? id = some pane ∧ SameOutput pane pane' := by
    intro session_id change hchange hpane'
    rw [DesktopPaneRegistry.pane?_with_pane, Option.map_eq_some_iff] at hpane'
    obtain ⟨pane, hpane, rfl⟩ := hpane'
    refine ⟨pane, hpane, ?_⟩
    split
    · exact hchange pane
    · exact .refl pane
  cases h with
  | keeps | writes _ _ | asks _ _ => exact ⟨pane', hpane', .refl pane'⟩
  | resizes _ _ | acquires _ _ => exact changed (fun pane => by exact ⟨rfl, rfl, rfl⟩) hpane'
  | releases _ => exact changed (same_output_released c) hpane'
  | leaves =>
    rw [DesktopPaneRegistry.pane?_release_connection, Option.map_eq_some_iff] at hpane'
    obtain ⟨pane, hpane, rfl⟩ := hpane'
    exact ⟨pane, hpane, same_output_released c pane⟩

/-! ## The answer to an attach, read back -/

section
variable {command_id : CommandId} {id : HostedSessionId} {boundary columns rows : Nat}
  {bytes : List UInt8}

theorem mem_append_snapshot_responses {response : ControllerResponse}
    (h : response ∈ append_snapshot_responses command_id id boundary columns rows bytes) :
    ∃ index count chunk, response = .Snapshot command_id id boundary columns rows index count chunk := by
  unfold append_snapshot_responses at h
  split at h
  · exact ⟨0, 1, [], List.mem_singleton.mp h⟩
  · obtain ⟨⟨chunk, index⟩, -, rfl⟩ := List.mem_map.mp h
    exact ⟨_, _, chunk, rfl⟩

theorem append_snapshot_responses_ne_nil (command_id : CommandId) (id : HostedSessionId)
    (boundary columns rows : Nat) (bytes : List UInt8) :
    append_snapshot_responses command_id id boundary columns rows bytes ≠ [] := by
  unfold append_snapshot_responses
  split
  · exact List.cons_ne_nil _ _
  · rename_i hbytes
    intro hnil
    simp at hnil
    have hflatten := Chunks.flatten_chunks (n := MAX_SNAPSHOT_CHUNK_BYTES) (by decide) bytes
    rw [hnil] at hflatten
    exact hbytes hflatten.symm

@[simp] theorem outputs_append (r r' : List ControllerResponse) :
    outputs (r ++ r') = outputs r ++ outputs r' := List.filterMap_append

theorem outputs_snapshot :
    outputs (append_snapshot_responses command_id id boundary columns rows bytes) = [] := by
  rw [outputs, List.filterMap_eq_nil_iff]
  intro response hmem
  obtain ⟨index, count, chunk, rfl⟩ := mem_append_snapshot_responses hmem
  rfl

theorem outputs_replayed (l : List DesktopPaneOutput) :
    outputs (l.map fun output => .Output id output.sequence output.bytes) = l := by
  induction l with
  | nil => rfl
  | cons output l ih =>
    unfold outputs at ih ⊢
    simp [outputOf, ih]

variable (rest : List ControllerResponse)

theorem snapshot_boundary_snapshot :
    snapshot_boundary (append_snapshot_responses command_id id boundary columns rows bytes ++ rest) =
      some boundary := by
  obtain ⟨response, others, heq⟩ := List.exists_cons_of_ne_nil
    (append_snapshot_responses_ne_nil command_id id boundary columns rows bytes)
  obtain ⟨index, count, chunk, rfl⟩ :=
    mem_append_snapshot_responses (heq ▸ List.mem_cons_self : response ∈ _)
  rw [heq]
  rfl

theorem attached_through_snapshot :
    attached_through (append_snapshot_responses command_id id boundary columns rows bytes ++ rest) =
      attached_through rest := by
  rw [attached_through, List.findSome?_append]
  have hnone : (append_snapshot_responses command_id id boundary columns rows bytes).findSome?
      throughOf = none := by
    rw [List.findSome?_eq_none_iff]
    intro response hmem
    obtain ⟨index, count, chunk, rfl⟩ := mem_append_snapshot_responses hmem
    rfl
  rw [hnone]
  rfl

end

section
variable (command_id : CommandId) (id : HostedSessionId) (c : ConnectionId)
  (pane : DesktopPaneRecord) (from_sequence : OutputSequence)

theorem outputs_attach_responses :
    outputs (attach_responses command_id id c pane from_sequence) = replayed pane from_sequence := by
  unfold attach_responses
  rw [outputs_append, outputs_append, outputs_replayed]
  split
  · rw [outputs_snapshot]
    rfl
  · split
    · rfl
    · rfl

theorem attached_through_attach_responses :
    attached_through (attach_responses command_id id c pane from_sequence) =
      some (replay_through pane from_sequence) := by
  unfold attach_responses
  rw [List.append_assoc]
  split
  · rw [attached_through_snapshot]
    rfl
  · split
    · rfl
    · rfl

theorem snapshot_boundary_attach_responses :
    snapshot_boundary (attach_responses command_id id c pane from_sequence) =
      if needs_snapshot pane from_sequence then some pane.snapshot_sequence
      else if from_sequence = 0 then some 0 else none := by
  unfold attach_responses
  rw [List.append_assoc]
  split
  · rw [snapshot_boundary_snapshot]
  · split
    · rw [snapshot_boundary_snapshot]
    · rw [List.nil_append, snapshot_boundary, List.findSome?_eq_none_iff]
      intro response hmem
      rcases List.mem_append.mp hmem with hattached | houtput
      · obtain rfl := List.mem_singleton.mp hattached
        rfl
      · obtain ⟨output, -, rfl⟩ := List.mem_map.mp houtput
        rfl

theorem getD_snapshot_boundary :
    (snapshot_boundary (attach_responses command_id id c pane from_sequence)).getD from_sequence =
      replay_from pane from_sequence := by
  rw [snapshot_boundary_attach_responses, replay_from]
  split
  · rfl
  · split
    · rename_i hzero
      rw [hzero]
      rfl
    · rfl

end

/-! ## What a step keeps -/

theorem PaneView.Holds.append {view : PaneView} {history : List (List UInt8)} (h : view.Holds history)
    (more : List (List UInt8)) : view.Holds (history ++ more) where
  within := by
    rw [List.length_append]
    exact Nat.le_add_right_of_le h.within
  exact := by
    rw [after, Cursor.take_after_append _ h.within]
    exact h.exact

section
variable {c : ConnectionId} {w : Viewed} {e : BridgeEvent}

theorem Viewed.Has.mono {w' : Viewed} {id : HostedSessionId} {k : Nat} {n : OutputSequence}
    (h : w.Has c id k n) (hreceipts : ∀ r ∈ w.receipts, r ∈ w'.receipts) : w'.Has c id k n := by
  obtain ⟨r, hmem, hr⟩ := h
  exact ⟨r, hreceipts r hmem, hr⟩

section
variable (w : Viewed) (e : BridgeEvent) (id : HostedSessionId)

theorem history_grows (k : Nat) : ∃ more, w.history_after e id k = w.history id k ++ more := by
  cases e with
  | append_output session_id bytes snapshot => exact ⟨_, rfl⟩
  | _ => exact ⟨[], (List.append_nil _).symm⟩

theorem incarnation_grows : w.incarnation id ≤ w.incarnation_after e id := by
  unfold Viewed.incarnation_after
  split
  · split
    · exact Nat.le_succ _
    · exact le_rfl
  · exact le_rfl

end

theorem unborn_step (h : Received c w) (id : HostedSessionId) (k : Nat)
    (hk : w.incarnation_after e id < k) : w.history_after e id k = [] := by
  have hold := h.unborn id k (Nat.lt_of_le_of_lt (incarnation_grows w e id) hk)
  cases e with
  | append_output session_id bytes snapshot =>
    have hlt : w.incarnation id < k := hk
    simp only [Viewed.history_after, hold, List.nil_append]
    rw [if_neg]
    rintro ⟨-, heq⟩
    exact absurd heq (Nat.ne_of_gt hlt)
  | _ => exact hold

theorem panes_step (h : Received c w) {id : HostedSessionId} {pane' : DesktopPaneRecord}
    (hpane' : (w.bridge.step e).bridge.registry.pane? id = some pane') :
    Retains (w.history_after e id (w.incarnation_after e id)) pane' := by
  have of_connection : ∀ {c'}, e.connection = some c' →
      Retains (w.history id (w.incarnation id)) pane' := by
    intro c' hc
    by_cases hlive : w.bridge.live c'
    · obtain ⟨request, hmoved⟩ := step_moved hc hlive
      obtain ⟨pane, hpane, hsame⟩ := output_moved hmoved hpane'
      exact hsame.retains (h.panes hpane)
    · rw [step_of_gone hc hlive] at hpane'
      exact h.panes hpane'
  cases e with
  | request c' request outside => exact of_connection rfl
  | ended c' => exact of_connection rfl
  | accept => exact h.panes hpane'
  | register r =>
    simp only [Bridge.step, Bridge.of_registry, DesktopPaneRegistry.pane?_register] at hpane'
    simp only [Viewed.history_after, Viewed.incarnation_after]
    split at hpane'
    · rename_i hid
      cases hpane : w.bridge.registry.pane? id with
      | none =>
        simp [hpane] at hpane'
        subst hpane'
        rw [if_pos ⟨hid, rfl⟩, h.unborn id _ (Nat.lt_succ_self _)]
        exact retains_record r
      | some pane =>
        simp [hpane] at hpane'
        subst hpane'
        rw [if_neg (by simp)]
        exact (h.panes hpane).existing r
    · rename_i hid
      rw [if_neg fun hnew => hid hnew.1]
      exact h.panes hpane'
  | update_title session_id title =>
    simp [Bridge.step, Bridge.of_registry, DesktopPaneRegistry.pane?_update_title] at hpane'
    obtain ⟨pane, hpane, rfl⟩ := hpane'
    have hretains := h.panes hpane
    split
    · exact ⟨hretains.latest, hretains.snapshot, hretains.outputs⟩
    · exact hretains
  | update_size session_id columns rows =>
    simp [Bridge.step, Bridge.of_registry, DesktopPaneRegistry.pane?_update_size] at hpane'
    obtain ⟨pane, hpane, rfl⟩ := hpane'
    have hretains := h.panes hpane
    split
    · exact ⟨hretains.latest, hretains.snapshot, hretains.outputs⟩
    · exact hretains
  | remove session_id =>
    simp only [Bridge.step, Bridge.of_registry, DesktopPaneRegistry.pane?_remove] at hpane'
    split at hpane'
    · cases hpane'
    · exact h.panes hpane'
  | append_output session_id bytes snapshot =>
    simp [Bridge.step, Bridge.of_registry, DesktopPaneRegistry.pane?_append_output] at hpane'
    obtain ⟨pane, hpane, rfl⟩ := hpane'
    have hretains := h.panes hpane
    simp [Viewed.history_after, Viewed.incarnation_after, hpane]
    by_cases hid : id = session_id
    · by_cases hbytes : bytes = []
      · have hnone : Chunks.chunks MAX_OUTPUT_CHUNK_BYTES ([] : List UInt8) = [] := rfl
        simpa [hid, hbytes, numbered_chunks, hnone] using hretains
      · simpa [hid, hbytes] using hretains.append_to bytes snapshot
    · simpa [hid] using hretains

theorem Received.bridged (h : Received c w) (e : BridgeEvent) : Received c (w.bridged e) where
  panes := panes_step h
  unborn := unborn_step h
  last := by
    intro id generation k n hlast
    obtain ⟨hle, hhas⟩ := h.last hlast
    obtain ⟨more, heq⟩ := history_grows w e id k
    simp [Viewed.bridged, heq]
    exact ⟨Nat.le_add_right_of_le hle, hhas⟩
  view := by
    intro view hview
    obtain ⟨more, heq⟩ := history_grows w e view.session_id view.incarnation
    simp only [Viewed.bridged, heq]
    exact (h.view hview).append more

end

/-! ## What is handed over -/

section
variable {c : ConnectionId} {w : Viewed} {id : HostedSessionId} {generation : OccupantGeneration}

variable {responses : List ControllerResponse} {a : ActiveDesktopAttach}

@[simp] theorem history_attached {from_sequence through : OutputSequence} :
    (w.attached c id generation from_sequence through responses).history = w.history := rfl

@[simp] theorem history_went_on {output : DesktopPaneOutput} :
    (w.went_on c a output).history = w.history := rfl

theorem Received.attached (h : Received c w) {from_sequence base : OutputSequence}
    (hbase : (snapshot_boundary responses).getD from_sequence = base)
    (hle : base ≤ (w.history id (w.incarnation id)).length)
    (houtputs : outputs responses = after (w.history id (w.incarnation id)) base)
    (hhas : ∀ m, 0 < m → m ≤ base →
      snapshot_boundary responses = some base ∨ w.Has c id (w.incarnation id) m) :
    Received c (w.attached c id generation from_sequence (w.history id (w.incarnation id)).length
      responses) where
  panes := h.panes
  unborn := h.unborn
  last := by
    intro id' generation' k n hlast
    have hold : ∀ {id' k m}, w.Has c id' k m → (w.attached c id generation from_sequence
        (w.history id (w.incarnation id)).length responses).Has c id' k m :=
      fun hm => hm.mono fun r hr => List.mem_append_right _ hr
    simp [Viewed.attached, Viewed.set_last] at hlast
    split at hlast
    · rename_i hkey
      obtain ⟨rfl, rfl⟩ := hkey
      obtain ⟨rfl, rfl⟩ := Prod.mk.inj (Option.some.inj hlast)
      refine ⟨le_rfl, fun m hpos hm => ?_⟩
      by_cases hm' : m ≤ base
      · -- the snapshot stands for it, or the connection had it before
        rcases hhas m hpos hm' with hsnapshot | hhas
        · refine ⟨⟨c, id', w.incarnation id', 0, base⟩, ?_, rfl, rfl, rfl, Nat.zero_le m, hm'⟩
          simp [Viewed.attached, hsnapshot]
        · exact hold hhas
      · have hfound : ∃ output ∈ after (w.history id' (w.incarnation id')) base, output.sequence = m :=
          Cursor.exists_of_after (fun _ _ => rfl) (Nat.lt_of_not_le hm') hm
        obtain ⟨output, hmem, hsequence⟩ := hfound
        refine ⟨w.receipt c id' output, ?_, rfl, rfl, rfl, Nat.le_of_eq hsequence,
          Nat.le_of_eq hsequence.symm⟩
        have hreceipt : w.receipt c id' output ∈ (outputs responses).map (w.receipt c id') :=
          List.mem_map_of_mem (houtputs ▸ hmem)
        exact List.mem_append_left _ (List.mem_append_right _ hreceipt)
    · obtain ⟨hle, hall⟩ := h.last hlast
      exact ⟨hle, fun m hpos hm => hold (hall m hpos hm)⟩
  view := by
    intro view hview
    simp [Viewed.attached] at hview
    subst hview
    have hlength : (outputs responses).length =
        (w.history id (w.incarnation id)).length - base := by
      rw [houtputs, after, Cursor.length_after]
    refine ⟨?_, ?_⟩
    · simp only [hbase, hlength]
      exact Nat.le_of_eq (Nat.add_sub_of_le hle)
    · simp [hbase, hlength]
      rw [houtputs, List.take_of_length_le (by rw [after, Cursor.length_after])]

theorem Received.went_on (h : Received c w) {view : PaneView} {bytes : List UInt8}
    (hview : w.views c = some view) (hid : view.session_id = a.session_id)
    (hcurrent : view.incarnation = w.incarnation a.session_id)
    (hlast : w.last c a.session_id a.generation = some (view.incarnation, a.cursor))
    (hbase : view.base + view.delivered.length = a.cursor)
    (hbytes : (w.history a.session_id view.incarnation)[a.cursor]? = some bytes) :
    Received c (w.went_on c a ⟨a.cursor + 1, bytes⟩) where
  panes := h.panes
  unborn := h.unborn
  last := by
    intro id' generation' k n hlast'
    have hold : ∀ {id' k m}, w.Has c id' k m →
        (w.went_on c a ⟨a.cursor + 1, bytes⟩).Has c id' k m :=
      fun hm => hm.mono fun r hr => List.mem_cons_of_mem _ hr
    simp [Viewed.went_on, Viewed.set_last] at hlast'
    split at hlast'
    · rename_i hkey
      obtain ⟨rfl, rfl⟩ := hkey
      obtain ⟨rfl, rfl⟩ := Prod.mk.inj (Option.some.inj hlast')
      rw [hcurrent] at hbytes hlast
      refine ⟨(List.getElem?_eq_some_iff.mp hbytes).1, fun m hpos hm => ?_⟩
      by_cases hm' : m ≤ a.cursor
      · exact hold ((h.last hlast).2 m hpos hm')
      · refine ⟨w.receipt c a.session_id ⟨a.cursor + 1, bytes⟩, List.mem_cons_self, rfl, rfl, rfl,
          Nat.lt_of_not_le hm', hm⟩
    · obtain ⟨hle, hall⟩ := h.last hlast'
      exact ⟨hle, fun m hpos hm => hold (hall m hpos hm)⟩
  view := by
    intro view' hview'
    simp [Viewed.went_on, hview] at hview'
    subst hview'
    have hbytes' : (w.history view.session_id view.incarnation)[view.base + view.delivered.length]? =
        some bytes := by rw [hid, hbase, hbytes]
    refine ⟨?_, ?_⟩
    · simp
      exact (List.getElem?_eq_some_iff.mp hbytes').1
    · simp [after]
      have hexact := (h.view hview).exact
      rw [after] at hexact
      rw [Cursor.take_after_succ _ hbytes', ← hexact, hbase]

end

/-! ## Steps of other connections and of the app -/

section
variable {c : ConnectionId} {w : Viewed} {e : BridgeEvent}

/-- What a step leaves to a connection that it is not about. -/
structure LeavesTo (c : ConnectionId) (w w' : Viewed) : Prop where
  bridge : w'.bridge = w.bridge
  incarnation : w'.incarnation = w.incarnation
  history : w'.history = w.history
  views : w'.views c = w.views c
  last : w'.last c = w.last c
  receipts : ∀ r ∈ w.receipts, r ∈ w'.receipts

theorem LeavesTo.refl (w : Viewed) : LeavesTo c w w := ⟨rfl, rfl, rfl, rfl, rfl, fun _ h => h⟩

variable {w' : Viewed}

theorem LeavesTo.received (h : LeavesTo c w w') (hreceived : Received c w) : Received c w' where
  panes := by
    rw [h.bridge, h.history, h.incarnation]
    exact hreceived.panes
  unborn := by
    rw [h.history, h.incarnation]
    exact hreceived.unborn
  last := by
    rw [h.last, h.history]
    intro id generation k n hlast
    obtain ⟨hle, hhas⟩ := hreceived.last hlast
    exact ⟨hle, fun m hpos hm => (hhas m hpos hm).mono h.receipts⟩
  view := by
    rw [h.views, h.history]
    exact hreceived.view

theorem LeavesTo.standing (h : LeavesTo c w w') (hstanding : Standing c w) : Standing c w' := by
  intro a ha
  rw [Viewed.active, h.bridge] at ha
  rw [h.views, h.last]
  exact hstanding a ha

theorem leaves_step (he : e.connection ≠ some c) : LeavesTo c (w.bridged e) (w.step e) := by
  unfold Viewed.step
  split
  · rename_i c' command_id id generation from_sequence columns rows outside responses hreply
    have hc : c ≠ c' := fun hc => he (by rw [hc]; rfl)
    split
    · refine ⟨rfl, rfl, rfl, if_neg hc, ?_, fun r hr => List.mem_append_right _ hr⟩
      funext id' generation'
      exact if_neg fun hkey => hc hkey.1
    · exact .refl _
  · rename_i c' outside id sequence bytes hreply
    have hc : c ≠ c' := fun hc => he (by rw [hc]; rfl)
    split
    · refine ⟨rfl, rfl, rfl, if_neg hc, ?_, fun r hr => List.mem_cons_of_mem _ hr⟩
      funext id' generation'
      exact if_neg fun hkey => hc hkey.1
    · exact .refl _
  · exact .refl _

theorem active_bridged (he : e.connection ≠ some c) {a : ActiveDesktopAttach}
    (h : (w.bridged e).active c = some a) : w.active c = some a := by
  have inserted : ∀ {k state}, c ≠ k →
      (((w.bridge.connections.insert k state).get? c).bind (·.active)) = some a →
      w.active c = some a := by
    intro k state hk h
    rwa [SortedMap.get?_insert_of_ne hk] at h
  simp only [Viewed.active, Viewed.bridged] at h
  cases e with
  | accept =>
    by_cases hc : c = w.bridge.next_connection
    · subst hc
      simp [Bridge.step] at h
    · exact inserted hc h
  | request c' request outside =>
    have hc : c ≠ c' := fun hc => he (by rw [hc]; rfl)
    simp only [Bridge.step] at h
    split at h
    · exact h
    · exact inserted hc h
  | ended c' =>
    have hc : c ≠ c' := fun hc => he (by rw [hc]; rfl)
    simp only [Bridge.step] at h
    split at h
    · exact h
    · rwa [SortedMap.get?_erase_of_ne hc] at h
  | _ => exact h

theorem Standing.bridged (h : Standing c w)
    (hactive : ∀ a, (w.bridged e).active c = some a → w.active c = some a) :
    Standing c (w.bridged e) := fun a ha => h a (hactive a ha)

end

/-! ## Steps of the connection itself -/

section
variable {c : ConnectionId} {w : Viewed} {connection : BridgeConnectionState}
  {command_id : CommandId} {id : HostedSessionId} {generation : OccupantGeneration}
  {from_sequence : OutputSequence} {columns rows : Nat} {outside : Outside}
  {pane : DesktopPaneRecord}

theorem active_eq (hconnection : w.bridge.connections.get? c = some connection) :
    w.active c = connection.active := by
  simp [Viewed.active, hconnection]

theorem reply_of_request (hconnection : w.bridge.connections.get? c = some connection)
    (request : BridgeRequest) (outside : Outside) :
    (w.bridge.step (.request c request outside)).reply =
        some (handle_request w.bridge.registry c connection request outside).reply ∧
      (w.bridged (.request c request outside)).active c =
        (handle_request w.bridge.registry c connection request outside).connection.active := by
  simp [Bridge.step, Viewed.active, Viewed.bridged, hconnection]

section
variable (h : Received c w)
  (hpane : presented (switched w.bridge.registry c connection id).1 id generation = some pane)
include h hpane

/-- The pane that an attach finds, in what the connection has left of the registry. -/
theorem attached_pane :
    Retains (w.history id (w.incarnation id)) pane ∧
      ∃ before, presented w.bridge.registry id generation = some before ∧ SameOutput before pane := by
  have hpresented := presented_switched w.bridge.registry c connection id generation
  rw [hpane] at hpresented
  obtain ⟨before, hbefore⟩ := Option.isSome_iff_exists.mp hpresented.symm
  have hmoved : Moved w.bridge.registry c .Reset (switched w.bridge.registry c connection id).1
      (switched w.bridge.registry c connection id).2 := moved_switched
  obtain ⟨found, hfound, hsame⟩ := output_moved hmoved (presented_eq_some.mp hpane).1
  obtain rfl : before = found :=
    Option.some.inj ((presented_eq_some.mp hbefore).1.symm.trans hfound)
  exact ⟨hsame.retains (h.panes hfound), before, hbefore, hsame⟩

/-- The sequence that a connection presents is one that the pane has reached, and the connection
has all up to it unless a snapshot comes. -/
theorem within_of_resumes
    (hresumes : from_sequence = 0 ∨ (w.last c id generation).any (·.2 = from_sequence) = true)
    (hsame : from_sequence = 0 ∨ same_pane c w id generation from_sequence = true) :
    from_sequence ≤ (w.history id (w.incarnation id)).length ∧
      (from_sequence = 0 ∨ from_sequence < pane.snapshot_sequence ∨
        ∀ m, 0 < m → m ≤ from_sequence → w.Has c id (w.incarnation id) m) := by
  obtain ⟨hretains, before, hbefore, hsameOutput⟩ := attached_pane h hpane
  rcases hresumes with rfl | hlast
  · exact ⟨Nat.zero_le _, .inl rfl⟩
  rcases hsame with rfl | hsame
  · exact ⟨Nat.zero_le _, .inl rfl⟩
  obtain ⟨⟨k, n⟩, hsome, hn⟩ := (Option.any_eq_true _ _).mp hlast
  obtain rfl : n = from_sequence := of_decide_eq_true hn
  simp [same_pane, hbefore, hsome] at hsame
  rcases hsame with hbeyond | rfl
  · rw [← hsameOutput.snapshot] at hbeyond
    exact ⟨Nat.le_trans (Nat.le_of_lt hbeyond) hretains.snapshot, .inr (.inl hbeyond)⟩
  · obtain ⟨hle, hhas⟩ := h.last hsome
    exact ⟨hle, .inr (.inr hhas)⟩

end

theorem attach_reply (hconnection : w.bridge.connections.get? c = some connection)
    (command_id : CommandId) (id : HostedSessionId) (generation : OccupantGeneration)
    (from_sequence : OutputSequence) (columns rows : Nat) (outside : Outside) :
    (w.bridge.step (.request c (.Execute command_id (.Attach id generation from_sequence columns
      rows)) outside)).reply = some (.Responses
        ((presented (switched w.bridge.registry c connection id).1 id generation).elim
          [error_response command_id] fun pane =>
            attach_responses command_id id c pane from_sequence)) := by
  rw [(reply_of_request hconnection _ _).1]
  simp only [handle_request, execute_desktop_command, attach]
  cases presented (switched w.bridge.registry c connection id).1 id generation <;> rfl

theorem sees_attach (h : Received c w) (hstanding : Standing c w)
    (hconnection : w.bridge.connections.get? c = some connection)
    (hresumes : from_sequence = 0 ∨ (w.last c id generation).any (·.2 = from_sequence) = true)
    (hsame : from_sequence = 0 ∨ same_pane c w id generation from_sequence = true) :
    let e := BridgeEvent.request c
      (.Execute command_id (.Attach id generation from_sequence columns rows)) outside
    Received c (w.step e) ∧ Standing c (w.step e) := by
  intro e
  have hreply := attach_reply hconnection command_id id generation from_sequence columns rows outside
  have hactive : (w.bridged e).active c =
      (attach w.bridge.registry c connection command_id id generation
        from_sequence).connection.active := (reply_of_request hconnection _ _).2
  unfold attach at hactive
  cases hpane : presented (switched w.bridge.registry c connection id).1 id generation with
  | none =>
    have hstep : w.step e = w.bridged e := by
      simp only [Viewed.step, e, hreply, hpane]
      rfl
    simp only [hpane] at hactive
    rw [hstep]
    refine ⟨h.bridged e, hstanding.bridged fun a ha => ?_⟩
    rw [active_eq hconnection, ← hactive]
    exact ha
  | some pane =>
    have hstep : w.step e = (w.bridged e).attached c id generation from_sequence
        (replay_through pane from_sequence)
        (attach_responses command_id id c pane from_sequence) := by
      simp [Viewed.step, e, hreply, hpane, attached_through_attach_responses]
    obtain ⟨hretains, -⟩ := attached_pane h hpane
    obtain ⟨hfrom, hhas⟩ := within_of_resumes h hpane hresumes hsame
    have hbase : replay_from pane from_sequence ≤ (w.history id (w.incarnation id)).length := by
      rw [hretains.replay_from_eq]
      exact max_le hfrom hretains.snapshot
    have houtputs : outputs (attach_responses command_id id c pane from_sequence) =
        after (w.history id (w.incarnation id)) (replay_from pane from_sequence) := by
      rw [outputs_attach_responses, hretains.replayed_eq]
    simp only [hpane] at hactive
    rw [hretains.replay_through_eq hfrom] at hstep hactive
    rw [hstep]
    refine ⟨(h.bridged e).attached (getD_snapshot_boundary command_id id c pane from_sequence) hbase
      houtputs fun m hpos hm => ?_, fun a ha => ?_⟩
    · rw [snapshot_boundary_attach_responses]
      by_cases hneeds : needs_snapshot pane from_sequence = true
      · exact .inl (by rw [if_pos hneeds, replay_from, if_pos hneeds])
      · have heq : replay_from pane from_sequence = from_sequence := by rw [replay_from, if_neg hneeds]
        rcases hhas with hzero | hbeyond | hhas
        · exact .inl (by rw [if_neg hneeds, if_pos hzero, heq, hzero])
        · exact absurd ((hretains.needs_snapshot_iff from_sequence).mpr hbeyond) hneeds
        · exact .inr (hhas m hpos (heq ▸ hm))
    · have ha' : (w.bridged e).active c = some a := ha
      obtain rfl := Option.some.inj (hactive.symm.trans ha')
      refine ⟨⟨id, w.incarnation id, replay_from pane from_sequence,
        after (w.history id (w.incarnation id)) (replay_from pane from_sequence)⟩, ?_, rfl, ?_, ?_⟩
      · simp [Viewed.attached, getD_snapshot_boundary, houtputs]
        rfl
      · simp [Viewed.attached, Viewed.set_last]
        rfl
      · simp [after]
        exact Nat.add_sub_of_le hbase

theorem sees_next (h : Received c w) (hstanding : Standing c w)
    (hconnection : w.bridge.connections.get? c = some connection)
    (hsame : (w.active c).all (fun a => same_pane c w a.session_id a.generation a.cursor) = true) :
    Received c (w.step (.request c .Next outside)) ∧ Standing c (w.step (.request c .Next outside)) := by
  generalize he : BridgeEvent.request c .Next outside = e
  obtain ⟨hreply, hactive⟩ := reply_of_request hconnection .Next outside
  rw [he] at hreply hactive
  simp only [handle_request] at hreply hactive
  have unmoved : w.step e = w.bridged e →
      (next_desktop_output w.bridge.registry connection).connection = connection →
      Received c (w.step e) ∧ Standing c (w.step e) := by
    intro hstep hkept
    rw [hstep]
    refine ⟨h.bridged e, hstanding.bridged fun a ha => ?_⟩
    rw [active_eq hconnection, ← hkept, ← hactive]
    exact ha
  subst he
  unfold next_desktop_output at hreply hactive unmoved
  cases hat : connection.active with
  | none =>
    simp only [hat] at hreply unmoved
    exact unmoved (by simp only [Viewed.step, hreply, unchanged]) rfl
  | some a =>
    simp only [hat] at hreply unmoved hactive
    cases hpane : presented w.bridge.registry a.session_id a.generation with
    | none =>
      simp only [hpane] at hreply unmoved
      exact unmoved (by simp only [Viewed.step, hreply, unchanged]) rfl
    | some pane =>
      simp only [hpane] at hreply unmoved hactive
      by_cases hbehind : a.cursor < pane.snapshot_sequence
      · simp [hbehind] at hreply unmoved
        exact unmoved (by simp only [Viewed.step, hreply, unchanged]) rfl
      · simp [hbehind] at hreply unmoved hactive
        have hretains := h.panes (presented_eq_some.mp hpane).1
        rw [hretains.next_eq (Nat.le_of_not_lt hbehind)] at hreply unmoved hactive
        cases hbytes : (w.history a.session_id (w.incarnation a.session_id))[a.cursor]? with
        | none =>
          simp [hbytes] at hreply unmoved
          exact unmoved (by simp only [Viewed.step, hreply, unchanged]) rfl
        | some bytes =>
          simp [hbytes] at hreply hactive
          obtain ⟨view, hview, hid, hlast, hbase⟩ := hstanding a (by rw [active_eq hconnection, hat])
          have hcurrent : view.incarnation = w.incarnation a.session_id := by
            rw [active_eq hconnection, hat, Option.all_some] at hsame
            simp [same_pane, hpane, hlast, hbehind] at hsame
            exact hsame
          have hstep : w.step (.request c .Next outside) =
              (w.bridged (.request c .Next outside)).went_on c a ⟨a.cursor + 1, bytes⟩ := by
            simp only [Viewed.step, hreply, active_eq hconnection, hat]
          rw [hstep]
          refine ⟨(h.bridged _).went_on hview hid hcurrent hlast hbase ?_, fun a' ha => ?_⟩
          · rw [hcurrent]
            exact hbytes
          · have ha' : (w.bridged (.request c .Next outside)).active c = some a' := ha
            obtain rfl := Option.some.inj (hactive.symm.trans ha')
            refine ⟨{ view with delivered := view.delivered ++ [⟨a.cursor + 1, bytes⟩] }, ?_, hid, ?_, ?_⟩
            · have hview' : (w.bridged (.request c .Next outside)).views c = some view := hview
              simp [Viewed.went_on, hview']
            · simp [Viewed.went_on, Viewed.set_last, hcurrent]
              rfl
            · simp [← hbase]
              rfl

theorem sees_other (h : Received c w) (hstanding : Standing c w)
    (hconnection : w.bridge.connections.get? c = some connection) (request : BridgeRequest)
    (outside : Outside)
    (hstep : w.step (.request c request outside) = w.bridged (.request c request outside))
    (hkept : (handle_request w.bridge.registry c connection request outside).connection = connection ∨
      (handle_request w.bridge.registry c connection request outside).connection = ⟨none⟩) :
    Received c (w.step (.request c request outside)) ∧
      Standing c (w.step (.request c request outside)) := by
  rw [hstep]
  refine ⟨h.bridged _, hstanding.bridged fun a ha => ?_⟩
  rw [(reply_of_request hconnection request outside).2] at ha
  rw [active_eq hconnection]
  rcases hkept with hkept | hkept
  · rwa [hkept] at ha
  · rw [hkept] at ha
    cases ha

end

section
variable {c : ConnectionId} {w : Viewed} {e : BridgeEvent}

theorem sees_request {connection : BridgeConnectionState} {request : BridgeRequest}
    {outside : Outside} (h : Received c w) (hstanding : Standing c w)
    (hconnection : w.bridge.connections.get? c = some connection)
    (hresumes : resumes c w (.request c request outside) = true)
    (hsame : goes_on_with_the_same c w (.request c request outside) = true) :
    Received c (w.step (.request c request outside)) ∧
      Standing c (w.step (.request c request outside)) := by
  have other := sees_other h hstanding hconnection request outside
  cases request with
  | List => exact other rfl (.inl rfl)
  | Context session_id => exact other rfl (.inl rfl)
  | Reset => exact other rfl (.inr rfl)
  | Next =>
    refine sees_next h hstanding hconnection ?_
    simpa [goes_on_with_the_same] using hsame
  | Execute command_id command =>
    cases command
    case Attach id generation from_sequence columns rows =>
      simp [resumes] at hresumes
      simp [goes_on_with_the_same] at hsame
      exact sees_attach h hstanding hconnection hresumes hsame
    case AcquireWriter =>
      refine other rfl (.inl ?_)
      simp only [handle_request, execute_desktop_command, acquire_writer]
      repeat' split
      all_goals rfl
    case ReleaseWriter =>
      refine other rfl (.inl ?_)
      simp only [handle_request, execute_desktop_command, release_writer]
      repeat' split
      all_goals rfl
    case Input =>
      refine other rfl (.inl ?_)
      simp only [handle_request, execute_desktop_command, input]
      repeat' split
      all_goals rfl
    case Resize =>
      refine other rfl (.inl ?_)
      simp only [handle_request, execute_desktop_command, resize]
      repeat' split
      all_goals rfl
    case Detach =>
      refine other rfl ?_
      simp only [handle_request, execute_desktop_command, detach]
      split
      · exact .inr rfl
      · exact .inl rfl
    all_goals exact other rfl (.inl rfl)

theorem sees_step (h : Received c w) (hstanding : Standing c w) (hresumes : resumes c w e = true)
    (hsame : goes_on_with_the_same c w e = true) : Received c (w.step e) ∧ Standing c (w.step e) := by
  by_cases hmine : e.connection = some c
  · cases hconnection : w.bridge.connections.get? c with
    | none =>
      have hgone : w.bridge.step e = ⟨w.bridge, none, []⟩ :=
        step_of_gone hmine (by simp [Bridge.live, hconnection])
      have hstep : w.step e = w.bridged e := by
        simp only [Viewed.step, hgone]
      have hactive : (w.bridged e).active c = w.active c := by
        simp only [Viewed.active, Viewed.bridged, hgone]
      rw [hstep]
      exact ⟨h.bridged e, hstanding.bridged fun a ha => hactive ▸ ha⟩
    | some connection =>
      cases e <;> simp [BridgeEvent.connection] at hmine
      case request request outside =>
        subst hmine
        exact sees_request h hstanding hconnection hresumes hsame
      case ended =>
        subst hmine
        refine ⟨h.bridged _, hstanding.bridged fun a ha => ?_⟩
        simp only [Viewed.active, Viewed.bridged, Bridge.step, hconnection,
          SortedMap.get?_erase_self] at ha
        cases ha
  · have hleaves := leaves_step (w := w) hmine
    exact ⟨hleaves.received (h.bridged e),
      hleaves.standing (hstanding.bridged fun a ha => active_bridged hmine ha)⟩

/-! ## The answers -/

theorem attach_is_exact (h : Received c w) (hresumes : resumes c w e = true)
    (hsame : goes_on_with_the_same c w e = true) : AttachIsExact c w e := by
  rintro command_id id generation from_sequence columns rows outside responses rfl hreply
  cases hconnection : w.bridge.connections.get? c with
  | none =>
    simp only [Bridge.step, hconnection] at hreply
    cases hreply
  | some connection =>
    rw [attach_reply hconnection] at hreply
    obtain rfl := BridgeReply.Responses.inj (Option.some.inj hreply)
    cases hpane : presented (switched w.bridge.registry c connection id).1 id generation with
    | none => exact .inl rfl
    | some pane =>
      obtain ⟨hretains, -⟩ := attached_pane h hpane
      refine .inr ⟨replay_from pane from_sequence, ?_, ?_⟩
      · simp [outputs_attach_responses, hretains.replayed_eq]
      · simp only [Option.elim_some, snapshot_boundary_attach_responses, replay_from]
        by_cases hneeds : needs_snapshot pane from_sequence = true
        · rw [if_pos hneeds, if_pos hneeds]
          exact .inr ⟨rfl, Nat.le_of_lt ((hretains.needs_snapshot_iff from_sequence).mp hneeds)⟩
        · rw [if_neg hneeds, if_neg hneeds]
          by_cases hzero : from_sequence = 0
          · subst hzero
            exact .inr ⟨rfl, le_rfl⟩
          · exact .inl ⟨if_neg hzero, rfl⟩

theorem next_misses_nothing (h : Received c w) (hstanding : Standing c w)
    (hsame : goes_on_with_the_same c w e = true) : NextMissesNothing c w e := by
  rintro outside a rfl hat hreply pane output hpane hmem
  obtain ⟨connection, hconnection, hat'⟩ := Option.bind_eq_some_iff.mp hat
  obtain ⟨view, -, -, hlast, -⟩ := hstanding a hat
  rw [(reply_of_request hconnection .Next outside).1] at hreply
  simp only [handle_request, next_desktop_output, hat'] at hreply
  cases hpresented : presented w.bridge.registry a.session_id a.generation with
  | none =>
    simp only [hpresented] at hreply
    cases hreply
  | some found =>
    obtain rfl : pane = found :=
      Option.some.inj (hpane.symm.trans (presented_eq_some.mp hpresented).1)
    simp only [hpresented] at hreply
    split at hreply
    · cases hreply
    · rename_i hbehind
      have hretains := h.panes hpane
      rw [hretains.next_eq (Nat.le_of_not_lt hbehind)] at hreply
      have hcurrent : view.incarnation = w.incarnation a.session_id := by
        simpa [goes_on_with_the_same, hat, same_pane, hpresented, hlast, hbehind] using hsame
      cases hbytes : (w.history a.session_id (w.incarnation a.session_id))[a.cursor]? with
      | some bytes =>
        simp only [hbytes, Option.map_some] at hreply
        cases hreply
      | none =>
        -- the connection stands behind the last chunk, and has all up to where it stands
        have hall : (w.history a.session_id (w.incarnation a.session_id)).length ≤ a.cursor :=
          List.getElem?_eq_none_iff.mp hbytes
        rw [hretains.outputs] at hmem
        have hnumber : pane.snapshot_sequence < output.sequence ∧ output.sequence ≤
            (w.history a.session_id (w.incarnation a.session_id)).length :=
          Cursor.number_of_mem_after (fun _ _ => rfl) hmem
        rw [hcurrent] at hlast
        exact (h.last hlast).2 output.sequence (Nat.zero_lt_of_lt hnumber.1)
          (Nat.le_trans hnumber.2 hall)

end

/-! ## Runs -/

theorem received_start (c : ConnectionId) : Received c Viewed.start where
  panes := fun hpane => by cases hpane
  unborn := fun _ _ _ => rfl
  last := fun hlast => by cases hlast
  view := fun hview => by cases hview

theorem sees_run (c : ConnectionId) (events : List BridgeEvent)
    (hsteps : Viewed.start.steps (fun w e => resumes c w e && goes_on_with_the_same c w e) events =
      true) : Received c (Viewed.start.run events) ∧ Standing c (Viewed.start.run events) := by
  refine Runs.keeps (fun w => Received c w ∧ Standing c w) ?_
    ⟨received_start c, fun a ha => by cases ha⟩ hsteps
  rintro w e ⟨h, hstanding⟩ hboth
  rw [Bool.and_eq_true] at hboth
  exact sees_step h hstanding hboth.1 hboth.2

/-- A connection that goes on only with panes that are still there sees each of them exactly. -/
theorem a_pane_that_stays_is_seen_exactly (c : ConnectionId) (events : List BridgeEvent)
    (e : BridgeEvent)
    (h : Viewed.start.steps (fun w e => resumes c w e && goes_on_with_the_same c w e)
      (events ++ [e]) = true) :
    let w := Viewed.start.run events
    AttachIsExact c w e ∧ NextMissesNothing c w e ∧ ViewIsExact c (w.step e) := by
  intro w
  rw [Viewed.steps, Runs.steps_append, Bool.and_eq_true, Bool.and_eq_true] at h
  obtain ⟨hsteps, hresumes, hsame⟩ := h
  obtain ⟨hreceived, hstanding⟩ := sees_run c events hsteps
  refine ⟨attach_is_exact hreceived hresumes hsame, next_misses_nothing hreceived hstanding hsame, ?_⟩
  intro view hview
  exact ((sees_step hreceived hstanding hresumes hsame).1.view hview).exact

/-- A pane puts out, a connection attaches, and one more chunk comes. -/
theorem a_connection_sees_three_chunks :
    let w := Viewed.start.run
      [.register ⟨1, "shell", "ssh", 80, 24, ⟨1, true⟩⟩, .accept, .append_output 1 [97] [],
        .append_output 1 [98] [], .request 1 (.Execute 9 (.Attach 1 1 0 80 24)) ⟨true, .busy⟩,
        .append_output 1 [99] []]
    let e := BridgeEvent.request 1 .Next ⟨true, .busy⟩
    AttachIsExact 1 w e ∧ NextMissesNothing 1 w e ∧ ViewIsExact 1 (w.step e) ∧
      (w.step e).views 1 = some ⟨1, 1, 0, [⟨1, [97]⟩, ⟨2, [98]⟩, ⟨3, [99]⟩]⟩ := by
  intro w e
  obtain ⟨hattach, hnext, hview⟩ := a_pane_that_stays_is_seen_exactly 1
    [.register ⟨1, "shell", "ssh", 80, 24, ⟨1, true⟩⟩, .accept, .append_output 1 [97] [],
      .append_output 1 [98] [], .request 1 (.Execute 9 (.Attach 1 1 0 80 24)) ⟨true, .busy⟩,
      .append_output 1 [99] []] e (by decide +kernel)
  exact ⟨hattach, hnext, hview, by rfl⟩

/-- A pane is closed and another one comes under its id, while a connection stands behind the
second chunk. -/
theorem a_pane_that_came_again_is_not_seen :
    let pane := BridgeEvent.register ⟨1, "shell", "ssh", 80, 24, ⟨1, true⟩⟩
    let events : List BridgeEvent :=
      [pane, .accept, .append_output 1 [97] [], .append_output 1 [98] [],
        .request 1 (.Execute 9 (.Attach 1 1 0 80 24)) ⟨true, .busy⟩, .remove 1, pane,
        .append_output 1 [99] []]
    let e := BridgeEvent.request 1 .Next ⟨true, .busy⟩
    Viewed.start.steps (resumes 1) (events ++ [e]) = true ∧
      ¬ NextMissesNothing 1 (Viewed.start.run events) e := by
  intro pane events e
  refine ⟨by decide +kernel, fun h => ?_⟩
  have hhas := h ⟨true, .busy⟩ ⟨1, 1, 2⟩ rfl rfl rfl _ ⟨1, [99]⟩ rfl List.mem_cons_self
  obtain ⟨r, hmem, -, -, hincarnation, -⟩ := hhas
  have hold : ∀ r ∈ (Viewed.start.run events).receipts, r.incarnation = 1 := by decide +kernel
  have htwo : (Viewed.start.run events).incarnation 1 = 2 := by decide +kernel
  have heq : (1 : Nat) = 2 := (hold r hmem).symm.trans (hincarnation.trans htwo)
  exact absurd heq (by decide)

end multiplex_controller_listener.desktop_panes
