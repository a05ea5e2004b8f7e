-- Workers over one shared state. Events from outside change the state and may
-- start a worker, and each worker then takes its steps between those of the
-- others, in any order. What all of them hold together is weighed in numbers.
import Mathlib.Data.List.Basic
import Mathlib.Tactic

namespace Workers

variable {σ τ ι κ : Type}

/-- What an event from outside does, with the worker it starts, and one step of a worker. -/
structure Program (σ τ ι κ : Type) where
  start : ι → σ → σ × Option τ
  act : κ → σ → τ → σ × τ

structure State (σ τ : Type) where
  shared : σ
  workers : List τ

inductive Event (ι κ : Type) where
  | start (input : ι)
  | act (n : Nat) (input : κ)

def step (p : Program σ τ ι κ) (s : State σ τ) : Event ι κ → State σ τ
  | .start input => ⟨(p.start input s.shared).1, s.workers ++ (p.start input s.shared).2.toList⟩
  | .act n input =>
    match s.workers[n]? with
    | none => s
    | some t => ⟨(p.act input s.shared t).1, s.workers.set n (p.act input s.shared t).2⟩

def run (p : Program σ τ ι κ) (s : State σ τ) (events : List (Event ι κ)) : State σ τ :=
  events.foldl (step p) s

@[simp] theorem run_nil (p : Program σ τ ι κ) (s : State σ τ) : run p s [] = s := rfl

@[simp] theorem run_cons (p : Program σ τ ι κ) (s : State σ τ) (e : Event ι κ)
    (events : List (Event ι κ)) : run p s (e :: events) = run p (step p s e) events := rfl

theorem run_append (p : Program σ τ ι κ) (s : State σ τ) (events later : List (Event ι κ)) :
    run p s (events ++ later) = run p (run p s events) later := by
  exact List.foldl_append

/-- The condition holds at every step of the run. -/
def Along (p : Program σ τ ι κ) (Fine : State σ τ → Event ι κ → Prop) :
    State σ τ → List (Event ι κ) → Prop
  | _, [] => True
  | s, e :: events => Fine s e ∧ Along p Fine (step p s e) events

instance decidableAlong (p : Program σ τ ι κ) (Fine : State σ τ → Event ι κ → Prop)
    [∀ s e, Decidable (Fine s e)] :
    (s : State σ τ) → (events : List (Event ι κ)) → Decidable (Along p Fine s events)
  | _, [] => isTrue trivial
  | s, e :: events =>
    have : Decidable (Along p Fine (step p s e) events) := decidableAlong p Fine (step p s e) events
    inferInstanceAs (Decidable (_ ∧ _))

variable {p : Program σ τ ι κ} {Fine : State σ τ → Event ι κ → Prop} {s : State σ τ}

theorem run_keeps {I : State σ τ → Prop} (hstep : ∀ s e, Fine s e → I s → I (step p s e))
    {events : List (Event ι κ)} (hfine : Along p Fine s events) (h : I s) : I (run p s events) := by
  induction events generalizing s with
  | nil => exact h
  | cons e events ih => exact ih hfine.2 (hstep s e hfine.1 h)

/-! ## What is held -/

def weigh (f : σ → Nat) (g : τ → Nat) (s : State σ τ) : Nat := f s.shared + (s.workers.map g).sum

def paidAt (pay : κ → σ → τ → Nat) (s : State σ τ) : Event ι κ → Nat
  | .start _ => 0
  | .act n input =>
    match s.workers[n]? with
    | none => 0
    | some t => pay input s.shared t

/-- Whatever is paid out comes from what is held, and nothing else comes in. -/
structure Spends (p : Program σ τ ι κ) (f : σ → Nat) (g : τ → Nat) (pay : κ → σ → τ → Nat) : Prop where
  start : ∀ input s, f (p.start input s).1 + ((p.start input s).2.toList.map g).sum ≤ f s
  act : ∀ input s t, pay input s t + (f (p.act input s t).1 + g (p.act input s t).2) ≤ f s + g t

theorem sum_set {g : τ → Nat} {l : List τ} {n : Nat} {t u : τ} (h : l[n]? = some t) :
    ((l.set n u).map g).sum + g t = (l.map g).sum + g u := by
  induction l generalizing n with
  | nil => simp at h
  | cons a l ih =>
    cases n with
    | zero =>
      simp at h
      subst h
      simp
      omega
    | succ n =>
      have := ih h
      simp only [List.set_cons_succ, List.map_cons, List.sum_cons]
      omega

variable {f : σ → Nat} {g : τ → Nat} {pay : κ → σ → τ → Nat}

theorem le_sum {l : List τ} {n : Nat} {t : τ} (h : l[n]? = some t) : g t ≤ (l.map g).sum := by
  induction l generalizing n with
  | nil => simp at h
  | cons a l ih =>
    cases n with
    | zero =>
      simp at h
      subst h
      exact Nat.le_add_right _ _
    | succ n => exact (ih h).trans (Nat.le_add_left _ _)

theorem add_le_sum {l : List τ} {m n : Nat} {t u : τ} (hlt : m < n) (hm : l[m]? = some t)
    (hn : l[n]? = some u) : g t + g u ≤ (l.map g).sum := by
  induction l generalizing m n with
  | nil => simp at hm
  | cons a l ih =>
    obtain ⟨n, rfl⟩ := Nat.exists_eq_succ_of_ne_zero (Nat.ne_of_gt (Nat.zero_lt_of_lt hlt))
    rw [List.getElem?_cons_succ] at hn
    cases m with
    | zero =>
      simp at hm
      subst hm
      exact Nat.add_le_add_left (le_sum hn) _
    | succ m => exact (ih (Nat.lt_of_succ_lt_succ hlt) hm hn).trans (Nat.le_add_left _ _)

theorem weigh_step (h : Spends p f g pay) (e : Event ι κ) :
    paidAt pay s e + weigh f g (step p s e) ≤ weigh f g s := by
  cases e with
  | start input =>
    have := h.start input s.shared
    simp [paidAt, step, weigh]
    omega
  | act n input =>
    cases hn : s.workers[n]? with
    | none => simp [paidAt, step, hn]
    | some t =>
      have hact := h.act input s.shared t
      have hset := @sum_set τ g s.workers n t (p.act input s.shared t).2 hn
      simp only [paidAt, step, hn, weigh]
      omega

end Workers
