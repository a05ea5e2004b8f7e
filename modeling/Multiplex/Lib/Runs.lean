-- Runs of a machine whose steps are a function of the state and of an event,
-- and what holds along those runs whose steps all meet a condition on the
-- state before them.
import Mathlib.Logic.Relation
import Mathlib.Tactic

namespace Runs

variable {σ ε : Type}

def run (step : σ → ε → σ) (s : σ) (events : List ε) : σ := events.foldl step s

/-- Every step of a run meets a condition on the state before it. -/
def steps (step : σ → ε → σ) (p : σ → ε → Bool) (s : σ) : List ε → Bool
  | [] => true
  | e :: events => p s e && steps step p (step s e) events

section
variable {step : σ → ε → σ} {p : σ → ε → Bool}

@[simp] theorem run_nil (s : σ) : run step s [] = s := rfl

@[simp] theorem run_cons (s : σ) (e : ε) (events : List ε) :
    run step s (e :: events) = run step (step s e) events := rfl

theorem run_append_singleton (s : σ) (events : List ε) (e : ε) :
    run step s (events ++ [e]) = step (run step s events) e := by
  simp [run, List.foldl_append]

theorem steps_append (s : σ) (events : List ε) (e : ε) :
    steps step p s (events ++ [e]) = (steps step p s events && p (run step s events) e) := by
  induction events generalizing s with
  | nil => simp [steps]
  | cons e' events ih => simp [steps, ih, Bool.and_assoc]

theorem keeps (P : σ → Prop) (hstep : ∀ s e, P s → p s e = true → P (step s e)) {s : σ}
    {events : List ε} (h : P s) (hsteps : steps step p s events = true) : P (run step s events) := by
  induction events generalizing s with
  | nil => exact h
  | cons e events ih =>
    simp [steps] at hsteps
    exact ih (hstep s e h hsteps.1) hsteps.2

theorem keeps_always (P : σ → Prop) (hstep : ∀ s e, P s → P (step s e)) {s : σ} (h : P s)
    (events : List ε) : P (run step s events) := by
  induction events generalizing s with
  | nil => exact h
  | cons e events ih => exact ih (hstep s e h)

/-- What each move keeps, any number of them keeps. -/
theorem keeps_moves {r : σ → σ → Prop} (P : σ → Prop) (hmove : ∀ {s s'}, P s → r s s' → P s')
    {s s' : σ} (h : P s) (hmoves : Relation.ReflTransGen r s s') : P s' := by
  induction hmoves with
  | refl => exact h
  | tail _ hlast ih => exact hmove ih hlast

end

end Runs
