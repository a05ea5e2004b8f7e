-- What a connection sees of a desktop pane. The chunks of a pane are numbered,
-- an attach goes on where the connection stood or starts over with a snapshot,
-- and each later request takes the next chunk. The numbers start again when a
-- pane is registered anew under the same id and the same generation.
import Multiplex.Lib.Cursor
import Multiplex.Lib.Runs
import Multiplex.ControllerListener.DesktopPaneLaws

open multiplex_domain.session (HostedSessionId OutputSequence)
open multiplex_controller_listener.protocol

namespace multiplex_controller_listener.desktop_panes

/-! ## Panes and their histories -/

def after (history : List (List UInt8)) (sequence : OutputSequence) : List DesktopPaneOutput :=
  Cursor.after DesktopPaneOutput.mk history sequence

/-- The pane counts what it has put out, and keeps what its snapshot does not stand for. -/
structure Retains (history : List (List UInt8)) (pane : DesktopPaneRecord) : Prop where
  latest : pane.latest_sequence = history.length
  snapshot : pane.snapshot_sequence ≤ history.length
  outputs : pane.outputs = after history pane.snapshot_sequence

theorem retains_record (r : DesktopPaneRegistration) : Retains [] r.record := ⟨rfl, le_rfl, rfl⟩

variable {history : List (List UInt8)}

variable {pane : DesktopPaneRecord}

theorem Retains.existing
    (h : Retains history pane) (r : DesktopPaneRegistration) : Retains history (r.existing pane) :=
  ⟨h.latest, h.snapshot, h.outputs⟩

/-- The chunks that found a number, of those that came. -/
def numbered_chunks (pane : DesktopPaneRecord) (bytes snapshot : List UInt8) : List (List UInt8) :=
  (Chunks.chunks MAX_OUTPUT_CHUNK_BYTES bytes).take
    ((append_to pane bytes snapshot).latest_sequence - pane.latest_sequence)

theorem Retains.push_chunks
    (h : Retains history pane) (chunks : List (List UInt8)) :
    pane.latest_sequence ≤ (push_chunks pane chunks).1.latest_sequence ∧ Retains (history ++
          chunks.take ((push_chunks pane chunks).1.latest_sequence - pane.latest_sequence))
        (push_chunks pane chunks).1 := by
  induction chunks generalizing history pane with
  | nil => exact ⟨le_rfl, by simpa [desktop_panes.push_chunks] using h⟩
  | cons chunk rest ih =>
    unfold desktop_panes.push_chunks
    split
    · exact ⟨le_rfl, by simpa using h⟩
    · rename_i sequence hsequence
      have hnext : sequence = pane.latest_sequence + 1 := by
        unfold multiplex_domain.checked_add at hsequence
        split at hsequence
        · exact (Option.some.inj hsequence).symm
        · cases hsequence
      subst hnext
      have hpushed : Retains (history ++ [chunk])
          { pane with
            latest_sequence := pane.latest_sequence + 1
            output_bytes := pane.output_bytes + chunk.length
            outputs := pane.outputs ++ [⟨pane.latest_sequence + 1, chunk⟩] } := by
        refine ⟨by simp [h.latest], by simpa using Nat.le_succ_of_le h.snapshot, ?_⟩
        simp only [after, Cursor.after_append DesktopPaneOutput.mk h.snapshot]
        rw [h.outputs, h.latest]
        rfl
      obtain ⟨hle, hretains⟩ := ih hpushed
      generalize (desktop_panes.push_chunks _ rest).1 = pushed at hle hretains ⊢
      refine ⟨Nat.le_of_succ_le hle, ?_⟩
      have htake : pushed.latest_sequence - pane.latest_sequence =
          (pushed.latest_sequence - (pane.latest_sequence + 1)) + 1 :=
        (Nat.succ_pred_eq_of_pos (Nat.sub_pos_of_lt hle)).symm
      rw [htake, List.take_succ_cons]
      simpa using hretains

/-- Output goes to the end of the history, and a snapshot at most takes the place of it all. -/
theorem Retains.append_to
    (h : Retains history pane) (bytes snapshot : List UInt8) :
    Retains (history ++ numbered_chunks pane bytes snapshot) (append_to pane bytes snapshot) := by
  have hpushed := (h.push_chunks (Chunks.chunks MAX_OUTPUT_CHUNK_BYTES bytes)).2
  unfold numbered_chunks desktop_panes.append_to
  simp only
  split
  · refine ⟨hpushed.latest, Nat.le_of_eq hpushed.latest, ?_⟩
    exact (Cursor.after_eq_nil _ (Nat.le_of_eq hpushed.latest.symm)).symm
  · exact hpushed

/-! ## What an attach and a next are answered -/

section
variable {history : List (List UInt8)} {pane : DesktopPaneRecord} (h : Retains history pane)
include h

section
variable (from_sequence : OutputSequence)

theorem Retains.needs_snapshot_iff :
    needs_snapshot pane from_sequence = true ↔ from_sequence < pane.snapshot_sequence := by
  unfold needs_snapshot
  rw [h.outputs, after, Cursor.head?_after]
  simp only [Bool.decide_or, Bool.or_eq_true, decide_eq_true_eq]
  constructor
  · rintro (hlt | hearly)
    · exact hlt
    · cases hfirst : history[pane.snapshot_sequence]? with
      | none => simp [hfirst] at hearly
      | some bytes =>
        simp [hfirst, multiplex_domain.checked_add] at hearly
        split at hearly
        · simpa using hearly
        · simp at hearly
  · exact .inl

theorem Retains.replay_from_eq :
    replay_from pane from_sequence = max from_sequence pane.snapshot_sequence := by
  unfold replay_from
  by_cases hneeds : needs_snapshot pane from_sequence = true
  · rw [if_pos hneeds]
    exact (max_eq_right (Nat.le_of_lt ((h.needs_snapshot_iff from_sequence).mp hneeds))).symm
  · rw [if_neg hneeds]
    have hle := Nat.le_of_not_lt (mt (h.needs_snapshot_iff from_sequence).mpr hneeds)
    exact (max_eq_left hle).symm

theorem Retains.replayed_eq :
    replayed pane from_sequence = after history (replay_from pane from_sequence) := by
  have hfrom : pane.snapshot_sequence ≤ replay_from pane from_sequence := by
    rw [h.replay_from_eq]
    exact le_max_right _ _
  unfold replayed
  rw [h.outputs]
  exact Cursor.filter_after (fun _ _ => rfl) hfrom history

end

theorem Retains.replay_through_eq {from_sequence : OutputSequence}
    (hfrom : from_sequence ≤ history.length) :
    replay_through pane from_sequence = history.length := by
  have hle : replay_from pane from_sequence ≤ history.length := by
    rw [h.replay_from_eq]
    exact max_le hfrom h.snapshot
  unfold replay_through
  rw [h.replayed_eq]
  exact Cursor.last_of_after (fun _ _ => rfl) hle

theorem Retains.next_eq {cursor : OutputSequence} (hcursor : pane.snapshot_sequence ≤ cursor) :
    (pane.outputs.find? fun output => cursor < output.sequence) =
      history[cursor]?.map (DesktopPaneOutput.mk (cursor + 1)) := by
  rw [h.outputs]
  exact Cursor.find?_after (fun _ _ => rfl) hcursor history

end

/-! ## What connections have received -/

/-- What a connection was given since its last attach, of the pane that was there then. -/
structure PaneView where
  session_id : HostedSessionId
  incarnation : Nat
  base : OutputSequence
  delivered : List DesktopPaneOutput

/-- A connection has what a pane put out from the first number through the last. -/
structure Receipt where
  connection_id : ConnectionId
  session_id : HostedSessionId
  incarnation : Nat
  first : OutputSequence
  last : OutputSequence

/-- The app, with what each of its panes has put out and what each connection has received. A pane
that is removed and registered again is the next incarnation of its id. -/
structure Viewed where
  bridge : Bridge
  incarnation : HostedSessionId → Nat
  history : HostedSessionId → Nat → List (List UInt8)
  views : ConnectionId → Option PaneView
  receipts : List Receipt
  last : ConnectionId → HostedSessionId → OccupantGeneration → Option (Nat × OutputSequence)

def outputOf : ControllerResponse → Option DesktopPaneOutput
  | .Output _ sequence bytes => some ⟨sequence, bytes⟩
  | _ => none

def boundaryOf : ControllerResponse → Option OutputSequence
  | .Snapshot _ _ boundary_sequence .. => some boundary_sequence
  | _ => none

def throughOf : ControllerResponse → Option OutputSequence
  | .Attached _ _ _ replay_through_sequence _ => some replay_through_sequence
  | _ => none

def outputs (responses : List ControllerResponse) : List DesktopPaneOutput :=
  responses.filterMap outputOf

def snapshot_boundary (responses : List ControllerResponse) : Option OutputSequence :=
  responses.findSome? boundaryOf

/-- How far an attach that was taken goes. -/
def attached_through (responses : List ControllerResponse) : Option OutputSequence :=
  responses.findSome? throughOf

namespace Viewed

def start : Viewed where
  bridge := Bridge.start
  incarnation := fun _ => 0
  history := fun _ _ => []
  views := fun _ => none
  receipts := []
  last := fun _ _ _ => none

def active (w : Viewed) (c : ConnectionId) : Option ActiveDesktopAttach :=
  (w.bridge.connections.get? c).bind (·.active)

/-- The connection has the chunk with this number, or a snapshot that stands for it. -/
def Has (w : Viewed) (c : ConnectionId) (id : HostedSessionId) (incarnation : Nat)
    (sequence : OutputSequence) : Prop :=
  ∃ r ∈ w.receipts, r.connection_id = c ∧ r.session_id = id ∧ r.incarnation = incarnation ∧
    r.first ≤ sequence ∧ sequence ≤ r.last

def set_last (w : Viewed) (c : ConnectionId) (id : HostedSessionId) (generation : OccupantGeneration)
    (sequence : OutputSequence) : Viewed :=
  { w with
    last := fun c' id' generation' =>
      if c' = c ∧ id' = id ∧ generation' = generation then some (w.incarnation id, sequence)
      else w.last c' id' generation' }

def receipt (w : Viewed) (c : ConnectionId) (id : HostedSessionId) (output : DesktopPaneOutput) :
    Receipt := ⟨c, id, w.incarnation id, output.sequence, output.sequence⟩

/-- An attach that was taken starts a view, and a snapshot stands for all up to its boundary. -/
def attached (w : Viewed) (c : ConnectionId) (id : HostedSessionId) (generation : OccupantGeneration)
    (from_sequence through : OutputSequence) (responses : List ControllerResponse) : Viewed :=
  { w.set_last c id generation through with
    views := fun c' =>
      if c' = c then
        some ⟨id, w.incarnation id, (snapshot_boundary responses).getD from_sequence,
          outputs responses⟩
      else w.views c'
    receipts :=
      (snapshot_boundary responses).toList.map (fun boundary =>
        ⟨c, id, w.incarnation id, 0, boundary⟩) ++
      (outputs responses).map (w.receipt c id) ++ w.receipts }

def went_on (w : Viewed) (c : ConnectionId) (active : ActiveDesktopAttach)
    (output : DesktopPaneOutput) : Viewed :=
  { w.set_last c active.session_id active.generation output.sequence with
    views := fun c' =>
      if c' = c then
        (w.views c).map fun view => { view with delivered := view.delivered ++ [output] }
      else w.views c'
    receipts := w.receipt c active.session_id output :: w.receipts }

def incarnation_after (w : Viewed) : BridgeEvent → HostedSessionId → Nat
  | .register r, id =>
    if id = r.session_id ∧ w.bridge.registry.pane? id = none then w.incarnation id + 1
    else w.incarnation id
  | _, id => w.incarnation id

def history_after (w : Viewed) : BridgeEvent → HostedSessionId → Nat → List (List UInt8)
  | .append_output session_id bytes snapshot, id, k =>
    w.history id k ++
      if id = session_id ∧ k = w.incarnation id then
        (w.bridge.registry.pane? id).elim [] fun pane => numbered_chunks pane bytes snapshot
      else []
  | _, id, k => w.history id k

def bridged (w : Viewed) (e : BridgeEvent) : Viewed :=
  { w with
    bridge := (w.bridge.step e).bridge
    incarnation := w.incarnation_after e
    history := w.history_after e }

def step (w : Viewed) (e : BridgeEvent) : Viewed :=
  let w' := w.bridged e
  match e, (w.bridge.step e).reply with
  | .request c (.Execute _ (.Attach id generation from_sequence _ _)) _,
      some (.Responses responses) =>
    match attached_through responses with
    | some through => w'.attached c id generation from_sequence through responses
    | none => w'
  | .request c .Next _, some (.Next (some (.Output _ sequence bytes))) =>
    match w.active c with
    | some active => w'.went_on c active ⟨sequence, bytes⟩
    | none => w'
  | _, _ => w'

def run (w : Viewed) (events : List BridgeEvent) : Viewed := Runs.run step w events

/-- Every step of a run meets a condition on the state before it. -/
def steps (p : Viewed → BridgeEvent → Bool) (w : Viewed) (events : List BridgeEvent) : Bool :=
  Runs.steps step p w events

end Viewed

/-! ## The view of one connection -/

section
variable (c : ConnectionId) (w : Viewed)

/-- The connection attaches from zero, or from the last sequence it has received. -/
def resumes : BridgeEvent → Bool
  | .request c' (.Execute _ (.Attach id generation from_sequence _ _)) _ =>
    c' ≠ c ∨ from_sequence = 0 ∨ (w.last c id generation).any (·.2 = from_sequence)
  | _ => true

/-- The pane is the one that the connection has its last sequence from, or its snapshot is beyond. -/
def same_pane (id : HostedSessionId) (generation : OccupantGeneration) (sequence : OutputSequence) :
    Bool :=
  (presented w.bridge.registry id generation).all fun pane =>
    sequence < pane.snapshot_sequence ∨ (w.last c id generation).all (·.1 = w.incarnation id)

/-- The connection goes on with a pane only while that was not removed and registered again. -/
def goes_on_with_the_same : BridgeEvent → Bool
  | .request c' (.Execute _ (.Attach id generation from_sequence _ _)) _ =>
    c' ≠ c ∨ from_sequence = 0 ∨ same_pane c w id generation from_sequence
  | .request c' .Next _ =>
    c' ≠ c ∨ (w.active c).all fun a => same_pane c w a.session_id a.generation a.cursor
  | _ => true

/-- An attach is refused, or gives all that the pane has put out after the sequence it asks for or
after a snapshot further on. -/
def AttachIsExact (e : BridgeEvent) : Prop :=
  ∀ command_id id generation from_sequence columns rows outside responses,
    e = .request c (.Execute command_id (.Attach id generation from_sequence columns rows)) outside →
    (w.bridge.step e).reply = some (.Responses responses) →
    attached_through responses = none ∨
      ∃ base, outputs responses = after (w.history id (w.incarnation id)) base ∧
        (snapshot_boundary responses = none ∧ base = from_sequence ∨
          snapshot_boundary responses = some base ∧ from_sequence ≤ base)

/-- Next has nothing only where the connection has all that the pane keeps. -/
def NextMissesNothing (e : BridgeEvent) : Prop :=
  ∀ outside active, e = .request c .Next outside → w.active c = some active →
    (w.bridge.step e).reply = some (.Next none) →
    ∀ pane output, w.bridge.registry.pane? active.session_id = some pane → output ∈ pane.outputs →
      w.Has c active.session_id (w.incarnation active.session_id) output.sequence

/-- What was delivered since the attach are the chunks of one pane, in order and without a gap. -/
def ViewIsExact : Prop :=
  ∀ view, w.views c = some view →
    view.delivered =
      (after (w.history view.session_id view.incarnation) view.base).take view.delivered.length

end

/-- What was delivered is there, in order and without a gap after the base. -/
structure PaneView.Holds (view : PaneView) (history : List (List UInt8)) : Prop where
  within : view.base + view.delivered.length ≤ history.length
  exact : view.delivered = (after history view.base).take view.delivered.length

/-- What a connection has received holds of the panes, whatever the others do. -/
structure Received (c : ConnectionId) (w : Viewed) : Prop where
  panes : ∀ {id pane}, w.bridge.registry.pane? id = some pane →
    Retains (w.history id (w.incarnation id)) pane
  unborn : ∀ id k, w.incarnation id < k → w.history id k = []
  last : ∀ {id generation k n}, w.last c id generation = some (k, n) →
    n ≤ (w.history id k).length ∧ ∀ m, 0 < m → m ≤ n → w.Has c id k m
  view : ∀ {view}, w.views c = some view →
    view.Holds (w.history view.session_id view.incarnation)

/-- The cursor of the app is where the connection stands. -/
def Standing (c : ConnectionId) (w : Viewed) : Prop :=
  ∀ a, w.active c = some a → ∃ view, w.views c = some view ∧
    view.session_id = a.session_id ∧
    w.last c a.session_id a.generation = some (view.incarnation, a.cursor) ∧
    view.base + view.delivered.length = a.cursor

end multiplex_controller_listener.desktop_panes
