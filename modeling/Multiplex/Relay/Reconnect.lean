-- The commands that a relay client has sent. Only an acknowledgement makes one done, and one that a
-- lost connection left open stays unknown until then.
import Multiplex.Lib.Runs

namespace multiplex_relay_client.reconnect

inductive MutationDisposition where
  | Pending
  | Acknowledged
  | UnknownCompletion
  deriving DecidableEq

structure MutationReconciliation (CommandId : Type) where
  commands : CommandId → Option MutationDisposition

variable {CommandId : Type} [DecidableEq CommandId]

namespace MutationReconciliation
variable (mutations : MutationReconciliation CommandId)

def sent (command_id : CommandId) : MutationReconciliation CommandId :=
  ⟨Function.update mutations.commands command_id (some .Pending)⟩

def acknowledged (command_id : CommandId) : MutationReconciliation CommandId :=
  ⟨Function.update mutations.commands command_id
    ((mutations.commands command_id).map fun _ => .Acknowledged)⟩

def disconnected : MutationReconciliation CommandId :=
  ⟨fun id => (mutations.commands id).map fun status =>
    if status = .Pending then .UnknownCompletion else status⟩

end MutationReconciliation

inductive Event (CommandId : Type) where
  | sent (command_id : CommandId)
  | acknowledged (command_id : CommandId)
  | disconnected
  deriving DecidableEq

def step (mutations : MutationReconciliation CommandId) :
    Event CommandId → MutationReconciliation CommandId
  | .sent command_id => mutations.sent command_id
  | .acknowledged command_id => mutations.acknowledged command_id
  | .disconnected => mutations.disconnected

/-- What became of a command that was sent, from what came after. -/
def outcome (id : CommandId) (after : List (Event CommandId)) : MutationDisposition :=
  if .acknowledged id ∈ after then .Acknowledged
  else if .disconnected ∈ after then .UnknownCompletion
  else .Pending

variable {mutations : MutationReconciliation CommandId} {id : CommandId}

theorem step_outcome {after : List (Event CommandId)} {event : Event CommandId}
    (h : mutations.commands id = some (outcome id after)) (hevent : event ≠ .sent id) :
    (step mutations event).commands id = some (outcome id (after ++ [event])) := by
  cases event with
  | sent other =>
    have hne : id ≠ other := fun heq => hevent (heq ▸ rfl)
    simp [step, MutationReconciliation.sent, hne, h, outcome]
  | acknowledged other =>
    by_cases heq : id = other
    · simp [step, MutationReconciliation.acknowledged, ← heq, h, outcome]
    · simp [step, MutationReconciliation.acknowledged, heq, h, outcome]
  | disconnected =>
    simp only [step, MutationReconciliation.disconnected, h, outcome]
    split_ifs <;> simp_all

theorem step_unsent {event : Event CommandId} (h : mutations.commands id = none)
    (hevent : event ≠ .sent id) : (step mutations event).commands id = none := by
  cases event with
  | sent other =>
    have hne : id ≠ other := fun heq => hevent (heq ▸ rfl)
    simpa [step, MutationReconciliation.sent, hne] using h
  | acknowledged other =>
    by_cases heq : id = other
    · simp [step, MutationReconciliation.acknowledged, ← heq, h]
    · simpa [step, MutationReconciliation.acknowledged, heq] using h
  | disconnected => simp [step, MutationReconciliation.disconnected, h]

/-- Whatever is sent, acknowledged and lost, in any order, a command is known once it was sent, and
its disposition is what came after it was sent last. -/
theorem commands_are_done_when_acknowledged (events : List (Event CommandId)) (id : CommandId) :
    let mutations := Runs.run step ⟨fun _ => none⟩ events
    (.sent id ∉ events → mutations.commands id = none) ∧
      ∀ before after, events = before ++ .sent id :: after → .sent id ∉ after →
        mutations.commands id = some (outcome id after) := by
  induction events using List.reverseRecOn with
  | nil => exact ⟨fun _ => rfl, fun before after h => by simp at h⟩
  | append_singleton events event ih =>
    rw [Runs.run_append_singleton]
    refine ⟨fun hunsent => ?_, fun before after hsplit hlast => ?_⟩
    · simp only [List.mem_append, List.mem_singleton, not_or] at hunsent
      exact step_unsent (ih.1 hunsent.1) (Ne.symm hunsent.2)
    · rcases List.eq_nil_or_concat after with rfl | ⟨after, event', rfl⟩
      · obtain ⟨-, hevent⟩ := List.append_inj' hsplit rfl
        rw [List.singleton_inj.mp hevent]
        simp [step, MutationReconciliation.sent, outcome]
      · rw [List.concat_eq_append] at hsplit hlast ⊢
        rw [← List.cons_append, ← List.append_assoc] at hsplit
        obtain ⟨hevents, hevent⟩ := List.append_inj' hsplit rfl
        simp only [List.mem_append, List.mem_singleton, not_or] at hlast
        rw [← List.singleton_inj.mp hevent] at hlast ⊢
        exact step_outcome (ih.2 before after hevents hlast.1) (Ne.symm hlast.2)

end multiplex_relay_client.reconnect
