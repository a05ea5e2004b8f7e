-- The history of a run: what each of its steps has, what one of them has, and
-- how the state at its end relates to every state before.
import Multiplex.Lib.Runs

namespace Runs

variable {σ ε : Type}

/-- Every step of a run has this, of the state before it. -/
def Each (step : σ → ε → σ) (P : σ → ε → Prop) (s : σ) : List ε → Prop
  | [] => True
  | e :: events => P s e ∧ Each step P (step s e) events

/-- Some step of a run has this, of the state before it. -/
def Sometime (step : σ → ε → σ) (P : σ → ε → Prop) (s : σ) : List ε → Prop
  | [] => False
  | e :: events => P s e ∨ Sometime step P (step s e) events

section
variable {step : σ → ε → σ} {P Q : σ → ε → Prop} {p : σ → ε → Bool}

theorem each_append_singleton (s : σ) (events : List ε) (e : ε) :
    Each step P s (events ++ [e]) ↔ Each step P s events ∧ P (run step s events) e := by
  induction events generalizing s with
  | nil => simp [Each]
  | cons e' events ih => simp [Each, ih, and_assoc]

theorem sometime_append_singleton (s : σ) (events : List ε) (e : ε) :
    Sometime step P s (events ++ [e]) ↔ Sometime step P s events ∨ P (run step s events) e := by
  induction events generalizing s with
  | nil => simp [Sometime]
  | cons e' events ih => simp [Sometime, ih, or_assoc]

/-- What holds of every history holds of it one step longer. -/
theorem history {K : List ε → Prop} {s : σ} (hnil : K [])
    (hsnoc : ∀ events e, steps step p s events = true → p (run step s events) e = true →
      K events → K (events ++ [e])) {events : List ε} (hsteps : steps step p s events = true) :
    K events := by
  induction events using List.reverseRecOn with
  | nil => exact hnil
  | append_singleton events e ih =>
    rw [steps_append, Bool.and_eq_true] at hsteps
    exact hsnoc events e hsteps.1 hsteps.2 (ih hsteps.1)

end

end Runs
