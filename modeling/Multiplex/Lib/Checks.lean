-- Checks that either pass or name what they refuse, in sequence and over
-- lists: what a run that passes has seen.
import Mathlib.Data.List.Basic
import Mathlib.Tactic

namespace Checks

variable {ε α β : Type}

/-- Refuses with `failure` when the condition holds. -/
def refuseIf (failure : ε) (condition : Prop) [Decidable condition] : Except ε Unit :=
  if condition then .error failure else .ok ()

variable {failure : ε} {condition : Prop} {x : Except ε α} {f : α → Except ε β}

@[simp] theorem refuseIf_ok_iff [Decidable condition] {u : Unit} :
    refuseIf failure condition = .ok u ↔ ¬ condition := by
  unfold refuseIf
  split
  case isTrue h => simp [h]
  case isFalse h => simp [h]

@[simp] theorem bind_ok_iff {b : β} : x >>= f = .ok b ↔ ∃ a, x = .ok a ∧ f a = .ok b := by
  cases x with
  | error e => simp [bind, Except.bind]
  | ok a => simp [bind, Except.bind]

@[simp] theorem pure_ok_iff {a b : α} : (pure a : Except ε α) = .ok b ↔ a = b := by
  simp [pure, Except.pure]

@[simp] theorem throw_ok_iff {e : ε} {a : α} : (throw e : Except ε α) = .ok a ↔ False := by
  simp [throw, throwThe, MonadExceptOf.throw]

theorem bind_error_iff {e : ε} :
    x >>= f = .error e ↔ x = .error e ∨ ∃ a, x = .ok a ∧ f a = .error e := by
  cases x with
  | error e' => simp [bind, Except.bind]
  | ok a => simp [bind, Except.bind]

theorem refuseIf_error_iff {e : ε} [Decidable condition] :
    refuseIf failure condition = .error e ↔ condition ∧ failure = e := by
  unfold refuseIf
  split
  case isTrue h => simp [h]
  case isFalse h => simp [h]

@[simp] theorem forM_ok_iff {check : α → Except ε Unit} {l : List α} {u : Unit} :
    forM l check = .ok u ↔ ∀ a ∈ l, check a = .ok () := by
  induction l with
  | nil => simp
  | cons a l ih =>
    rw [List.forM_cons, bind_ok_iff, List.forall_mem_cons]
    constructor
    · rintro ⟨_, ha, hl⟩
      exact ⟨ha, ih.mp hl⟩
    · rintro ⟨ha, hl⟩
      exact ⟨(), ha, ih.mpr hl⟩

theorem eq_of_ok_iff {x y : Except ε Unit} (hx : x = .ok () ∨ x = .error failure)
    (hy : y = .ok () ∨ y = .error failure) (h : x = .ok () ↔ y = .ok ()) : x = y := by
  rcases hx with hx | hx
  · rw [hx, h.mp hx]
  · rcases hy with hy | hy
    · rw [hy, h.mpr hy]
    · rw [hx, hy]

end Checks
