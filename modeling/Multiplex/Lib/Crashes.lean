-- Programs that can be cut off. A program makes calls on a state; what becomes
-- of each call is the environment's to say, so a law about every environment is
-- a law about every point at which the program can fail or its process can end.
import Mathlib.Tactic

namespace Crashes

/-- What becomes of a call. One that does not go through was carried out to a part of it. -/
inductive Fate (φ : Type) where
  | goes
  | fails (failure : φ) (part : Nat)
  | ends (part : Nat)
deriving DecidableEq

inductive Outcome (ε α : Type) where
  | done (result : α)
  | failed (error : ε)
  | ended
deriving DecidableEq

/-- A program over the calls `ι`, for every fate of each of them. -/
def Script (ι φ σ ε α : Type) : Type := (ι → Fate φ) → σ → Outcome ε α × σ

namespace Script

variable {ι φ σ ε α β : Type}

def bind (x : Script ι φ σ ε α) (f : α → Script ι φ σ ε β) : Script ι φ σ ε β :=
  fun fates s => match x fates s with
    | (.done a, s') => f a fates s'
    | (.failed e, s') => (.failed e, s')
    | (.ended, s') => (.ended, s')

instance : Monad (Script ι φ σ ε) where
  pure a := fun _ s => (.done a, s)
  bind := bind

def throw (e : ε) : Script ι φ σ ε α := fun _ s => (.failed e, s)

def ofExcept : Except ε α → Script ι φ σ ε α
  | .ok a => pure a
  | .error e => throw e

def refuseIf (e : ε) (condition : Prop) [Decidable condition] : Script ι φ σ ε Unit :=
  if condition then throw e else pure ()

/-- A call that changes the state by `f`, and by a part of it where it fails or the process ends. -/
def call (i : ι) (toError : φ → ε) (f : σ → σ) (failing ending : Nat → σ → σ) :
    Script ι φ σ ε Unit :=
  fun fates s => match fates i with
    | .goes => (.done (), f s)
    | .fails failure part => (.failed (toError failure), failing part s)
    | .ends part => (.ended, ending part s)

/-- What the program makes of the state, with no call of its own. -/
def see (g : σ → Except ε α) : Script ι φ σ ε α := fun fates s => ofExcept (g s) fates s

/-- A call that reads the state, and what the program makes of what it reads. -/
def read (i : ι) (toError : φ → ε) (g : σ → Except ε α) : Script ι φ σ ε α :=
  fun fates s => match fates i with
    | .goes => see g fates s
    | .fails failure _ => (.failed (toError failure), s)
    | .ends _ => (.ended, s)

/-- Goes on after a failure, with the failure as a value. -/
def attempt (x : Script ι φ σ ε α) : Script ι φ σ ε (Except ε α) :=
  fun fates s => match x fates s with
    | (.done a, s') => (.done (.ok a), s')
    | (.failed e, s') => (.done (.error e), s')
    | (.ended, s') => (.ended, s')

def orElse (x : Script ι φ σ ε α) (handler : ε → Script ι φ σ ε α) : Script ι φ σ ε α := do
  match ← attempt x with
  | .ok a => pure a
  | .error e => handler e

def each (l : List α) (body : α → Script ι φ σ ε Unit) : Script ι φ σ ε Unit :=
  match l with
  | [] => pure ()
  | a :: rest => do
    body a
    each rest body

end Script

/-- A change that is made whole or not at all. -/
def atomic {σ : Type} (f : σ → σ) (part : Nat) (s : σ) : σ := if part = 0 then s else f s

/-- A change that is made only where its call goes through. -/
def untouched {σ : Type} (_ : Nat) (s : σ) : σ := s

theorem atomic_cases {σ : Type} (f : σ → σ) (n : Nat) (s : σ) :
    atomic f n s = s ∨ atomic f n s = f s := by
  unfold atomic
  split
  · exact .inl rfl
  · exact .inr rfl

/-! ## Programs that leave something behind -/

section
variable {ι φ σ ε α β : Type} {fates : ι → Fate φ} {P P' : σ → Prop} {S S' T : σ → Prop}
  {Q Q' : α → σ → Prop} {R : β → σ → Prop} {x : Script ι φ σ ε α} {f : α → Script ι φ σ ε β}

/-- The program is done with `Q`, or it has stopped with `S`. -/
def Ends (Q : α → σ → Prop) (S : σ → Prop) : Outcome ε α × σ → Prop
  | (.done a, s) => Q a s
  | (.failed _, s) => S s
  | (.ended, s) => S s

/-- From `P` the program is done with `Q`, or it has stopped and left `S`. -/
def Leaves (fates : ι → Fate φ) (P : σ → Prop) (x : Script ι φ σ ε α) (Q : α → σ → Prop)
    (S : σ → Prop) : Prop :=
  ∀ s, P s → Ends Q S (x fates s)

/-- The value of a program that was tried: its result with `Q`, or its failure with `S`. -/
def Tried (Q : α → σ → Prop) (S : σ → Prop) : Except ε α → σ → Prop
  | .ok a => Q a
  | .error _ => S

def AllGo (fates : ι → Fate φ) (calls : List ι) : Prop := ∀ i ∈ calls, fates i = .goes

@[simp] theorem allGo_nil : AllGo fates [] := by simp [AllGo]

@[simp] theorem allGo_cons {i : ι} {calls : List ι} :
    AllGo fates (i :: calls) ↔ fates i = .goes ∧ AllGo fates calls := by
  simp [AllGo]

@[simp] theorem allGo_append {calls later : List ι} :
    AllGo fates (calls ++ later) ↔ AllGo fates calls ∧ AllGo fates later := by
  simp [AllGo, or_imp, forall_and]

/-- From `P` the program is done with `Q` when all these calls go through, and has stopped and
left `S` when one of them does not. -/
def Completes (fates : ι → Fate φ) (P : σ → Prop) (x : Script ι φ σ ε α) (calls : List ι)
    (Q : α → σ → Prop) (S : σ → Prop) : Prop :=
  Leaves fates P x (fun a s => Q a s ∧ AllGo fates calls) (fun s => S s ∧ ¬ AllGo fates calls)

variable {o : Outcome ε α × σ}

theorem Ends.weaken (h : Ends Q S o) (hQ : ∀ a s, Q a s → Q' a s) (hS : ∀ s, S s → S' s) :
    Ends Q' S' o := by
  obtain ⟨_ | _ | _, s⟩ := o
  · exact hQ _ _ h
  · exact hS _ h
  · exact hS _ h

theorem Ends.next {s : σ} (h : Ends Q S (x fates s))
    (hf : ∀ a s', Q a s' → Ends R S' (f a fates s')) (hS : ∀ s', S s' → S' s') :
    Ends R S' ((x >>= f) fates s) := by
  have hbind : (x >>= f) fates s = Script.bind x f fates s := rfl
  rw [hbind]
  unfold Script.bind
  revert h
  rcases x fates s with ⟨a | e | _, s'⟩
  · exact hf a s'
  · exact hS s'
  · exact hS s'

/-- What a program leaves in every way it can end is so of the state it ends in. -/
theorem Ends.state (h : Ends Q S o) (hQ : ∀ a s, Q a s → P s) (hS : ∀ s, S s → P s) : P o.2 := by
  obtain ⟨_ | _ | _, s⟩ := o
  · exact hQ _ _ h
  · exact hS _ h
  · exact hS _ h

/-- A program that cannot have stopped is done. -/
theorem Ends.is_done (h : Ends Q S o) (hS : ∀ s, ¬ S s) : ∃ a s, o = (.done a, s) ∧ Q a s := by
  obtain ⟨a | _ | _, s⟩ := o
  · exact ⟨a, s, rfl, h⟩
  · exact absurd h (hS s)
  · exact absurd h (hS s)

namespace Leaves

theorem weaken (h : Leaves fates P x Q S) (hP : ∀ s, P' s → P s) (hQ : ∀ a s, Q a s → Q' a s)
    (hS : ∀ s, S s → S' s) : Leaves fates P' x Q' S' :=
  fun s hs => (h s (hP s hs)).weaken hQ hS

theorem done (a : α) (h : ∀ s, P s → Q a s) : Leaves fates P (pure a : Script ι φ σ ε α) Q S := h

/-- What every state before the program says of its environment can be used of the program. -/
theorem given {c : Prop} (hc : ∀ s, P s → c) (hx : c → Leaves fates P x Q S) :
    Leaves fates P x Q S :=
  fun s hs => hx (hc s hs) s hs

theorem impossible (h : ∀ s, ¬ P s) : Leaves fates P x Q S := fun s hs => absurd hs (h s)

theorem thrown (e : ε) (h : ∀ s, P s → S s) :
    Leaves fates P (Script.throw e : Script ι φ σ ε α) Q S := h

theorem next (hx : Leaves fates P x Q S) (hf : ∀ a, Leaves fates (Q a) (f a) R S) :
    Leaves fates P (x >>= f) R S :=
  fun s hs => (hx s hs).next (fun a s' h => hf a s' h) fun _ h => h

variable {g : σ → Except ε α}

section
variable (hdone : ∀ s a, P s → g s = .ok a → Q a s) (hstop : ∀ s, P s → S s)
include hdone hstop

theorem see : Leaves fates P (Script.see g : Script ι φ σ ε α) Q S := by
  intro s hs
  unfold Script.see
  cases hg : g s with
  | error e => exact hstop s hs
  | ok a => exact hdone s a hs hg

theorem read {i : ι} {toError : φ → ε} :
    Leaves fates P (Script.read i toError g : Script ι φ σ ε α) Q S := by
  intro s hs
  unfold Script.read
  cases fates i with
  | goes => exact see hdone hstop s hs
  | fails failure part => exact hstop s hs
  | ends part => exact hstop s hs

end

theorem refuses {e : ε} {condition : Prop} [Decidable condition] (h : ∀ s, P s → S s) :
    Leaves fates P (Script.refuseIf e condition : Script ι φ σ ε Unit)
      (fun _ s => P s ∧ ¬ condition) S := by
  unfold Script.refuseIf
  split
  · exact thrown e h
  · rename_i hc
    exact done () fun s hs => ⟨hs, hc⟩

theorem attempt (h : Leaves fates P x Q S) : Leaves fates P (Script.attempt x) (Tried Q S) S := by
  intro s hs
  have hx := h s hs
  unfold Script.attempt
  revert hx
  rcases x fates s with ⟨a | e | _, s'⟩
  · exact id
  · exact id
  · exact id

theorem each {l : List α} {body : α → Script ι φ σ ε Unit} (I : List α → σ → Prop)
    (hbody : ∀ before a after, l = before ++ a :: after →
      Leaves fates (I before) (body a) (fun _ => I (before ++ [a])) S) :
    Leaves fates (I []) (Script.each l body) (fun _ => I l) S := by
  have go : ∀ before after, l = before ++ after →
      Leaves fates (I before) (Script.each after body) (fun _ => I l) S := by
    intro before after
    induction after generalizing before with
    | nil =>
      intro h s hs
      rwa [h, List.append_nil]
    | cons a after ih =>
      intro h
      exact next (hbody before a after h) fun _ => ih (before ++ [a]) (by simp [h])
  exact go [] l rfl

end Leaves

namespace Completes

variable {c c' : List ι}

section
variable (h : Completes fates P x c Q S)
include h

theorem weaken (hP : ∀ s, P' s → P s) (hQ : ∀ a s, Q a s → Q' a s) (hS : ∀ s, S s → S' s) :
    Completes fates P' x c Q' S' :=
  Leaves.weaken h hP (fun a s => And.imp_left (hQ a s)) fun s => And.imp_left (hS s)

/-- The calls can be listed in any way. -/
theorem listed (hc : AllGo fates c ↔ AllGo fates c') : Completes fates P x c' Q S :=
  Leaves.weaken h (fun _ hs => hs) (fun _ _ => And.imp_right hc.mp)
    fun _ => And.imp_right (mt hc.mpr)

/-- What is done was done with every call gone through. -/
theorem went : Completes fates P x c (fun a s => Q a s ∧ AllGo fates c) S :=
  Leaves.weaken h (fun _ hs => hs) (fun _ _ hQ => ⟨hQ, hQ.2⟩) fun _ hS => hS

end

theorem given {q : Prop} (hq : ∀ s, P s → q) (hx : q → Completes fates P x c Q S) :
    Completes fates P x c Q S :=
  Leaves.given hq hx

theorem leaves (h : Completes fates P x c Q S) : Leaves fates P x Q S :=
  Leaves.weaken h (fun _ hs => hs) (fun _ _ => And.left) fun _ => And.left

/-- With every call of its environment going through, the program does not stop. -/
theorem undisturbed (h : Completes fates P x c Q S) :
    Leaves fates P x Q (fun s => S s ∧ ¬ ∀ i, fates i = .goes) :=
  Leaves.weaken h (fun _ hs => hs) (fun _ _ => And.left)
    fun _ hS => ⟨hS.1, fun hgo => hS.2 fun i _ => hgo i⟩

theorem done (a : α) (h : ∀ s, P s → Q a s) :
    Completes fates P (pure a : Script ι φ σ ε α) [] Q S :=
  Leaves.done a fun s hs => ⟨h s hs, allGo_nil⟩

theorem next (hx : Completes fates P x c Q S) (hf : ∀ a, Completes fates (Q a) (f a) c' R S) :
    Completes fates P (x >>= f) (c ++ c') R S := by
  intro s hs
  simp only [allGo_append]
  apply (hx s hs).next
  · rintro a s' ⟨hQ, hcalls⟩
    refine (hf a s' hQ).weaken ?_ ?_
    · rintro b s'' ⟨hR, hlater⟩
      exact ⟨hR, hcalls, hlater⟩
    · rintro s'' ⟨hS, hnot⟩
      exact ⟨hS, fun h => hnot h.2⟩
  · rintro s' ⟨hS, hnot⟩
    exact ⟨hS, fun h => hnot h.1⟩

theorem passes {e : ε} {condition : Prop} [Decidable condition] {Q : Unit → σ → Prop}
    (hc : ¬ condition) (h : ∀ s, P s → Q () s) :
    Completes fates P (Script.refuseIf e condition : Script ι φ σ ε Unit) [] Q S := by
  unfold Script.refuseIf
  rw [if_neg hc]
  exact done () h

variable {toError : φ → ε} {g : σ → Except ε α}

theorem call {i : ι} {g : σ → σ} {failing ending : Nat → σ → σ} {Q : Unit → σ → Prop}
    (hdone : fates i = .goes → ∀ s, P s → Q () (g s))
    (hfail : ∀ e n, fates i = .fails e n → ∀ s, P s → S (failing n s))
    (hend : ∀ n, fates i = .ends n → ∀ s, P s → S (ending n s)) :
    Completes fates P (Script.call i toError g failing ending : Script ι φ σ ε Unit) [i] Q S := by
  intro s hs
  unfold Script.call
  cases h : fates i with
  | goes => exact ⟨hdone h s hs, by simp [h]⟩
  | fails failure part => exact ⟨hfail failure part h s hs, by simp [h]⟩
  | ends part => exact ⟨hend part h s hs, by simp [h]⟩

theorem see (h : ∀ s, P s → ∃ a, g s = .ok a ∧ Q a s) :
    Completes fates P (Script.see g : Script ι φ σ ε α) [] Q S := by
  intro s hs
  obtain ⟨a, ha, hQ⟩ := h s hs
  unfold Script.see
  rw [ha]
  exact ⟨hQ, allGo_nil⟩

theorem read {i : ι} (hdone : fates i = .goes → ∀ s, P s → ∃ a, g s = .ok a ∧ Q a s)
    (hstop : fates i ≠ .goes → ∀ s, P s → S s) :
    Completes fates P (Script.read i toError g : Script ι φ σ ε α) [i] Q S := by
  intro s hs
  unfold Script.read
  cases h : fates i with
  | goes =>
    refine (see (S := S) (hdone h) s hs).weaken ?_ ?_
    · exact fun a s' hQ => ⟨hQ.1, by simp [h]⟩
    · exact fun s' hS => absurd allGo_nil hS.2
  | fails failure part => exact ⟨hstop (by simp [h]) s hs, by simp [h]⟩
  | ends part => exact ⟨hstop (by simp [h]) s hs, by simp [h]⟩

/-- A handler that never goes on leaves the program done exactly where it was. -/
theorem orElse {handler : ε → Script ι φ σ ε α}
    (hx : Completes fates P x c Q T) (hT : ∀ s, T s → S s)
    (hh : ∀ e, Leaves fates T (handler e) (fun _ _ => False) S) :
    Completes fates P (Script.orElse x handler) c Q S := by
  intro s hs
  refine Ends.next (Leaves.attempt hx s hs) ?_ fun s' => And.imp_left (hT s')
  rintro (e | a) s' h
  · exact (hh e s' h.1).weaken (fun _ _ => False.elim) fun _ hS => ⟨hS, h.2⟩
  · exact h

/-- A loop, with what holds after the items that are behind it. -/
theorem each {l : List α} {body : α → Script ι φ σ ε Unit} {calls : α → List ι}
    (I : List α → σ → Prop) (hbody : ∀ before a after, l = before ++ a :: after →
      Completes fates (I before) (body a) (calls a) (fun _ => I (before ++ [a])) S) :
    Completes fates (I []) (Script.each l body) (l.flatMap calls) (fun _ => I l) S := by
  have go : ∀ before after, l = before ++ after →
      Completes fates (I before) (Script.each after body) (after.flatMap calls) (fun _ => I l) S := by
    intro before after
    induction after generalizing before with
    | nil =>
      intro h
      refine done () ?_
      intro s hs
      rwa [h, List.append_nil]
    | cons a after ih =>
      intro h
      exact next (hbody before a after h) fun _ => ih (before ++ [a]) (by simp [h])
  exact go [] l rfl

end Completes

/-! ## What a program never changes -/

/-- However the program ends, what held before it holds after it. -/
def Keeps (fates : ι → Fate φ) (I : σ → Prop) (x : Script ι φ σ ε α) : Prop :=
  Leaves fates I x (fun _ => I) I

namespace Keeps

variable {I : σ → Prop}

theorem done (a : α) : Keeps fates I (pure a : Script ι φ σ ε α) := fun _ hs => hs

theorem thrown (e : ε) : Keeps fates I (Script.throw e : Script ι φ σ ε α) := fun _ hs => hs

theorem next {f : α → Script ι φ σ ε β} (hx : Keeps fates I x) (hf : ∀ a, Keeps fates I (f a)) :
    Keeps fates I (x >>= f) :=
  Leaves.next hx hf

variable {toError : φ → ε} {g : σ → Except ε α}

theorem call {i : ι} {g : σ → σ} {failing ending : Nat → σ → σ} (hdone : ∀ s, I s → I (g s))
    (hfail : ∀ n s, I s → I (failing n s)) (hend : ∀ n s, I s → I (ending n s)) :
    Keeps fates I (Script.call i toError g failing ending : Script ι φ σ ε Unit) :=
  Completes.leaves (Completes.call (fun _ => hdone) (fun _ n _ => hfail n) fun n _ => hend n)

theorem read {i : ι} : Keeps fates I (Script.read i toError g : Script ι φ σ ε α) :=
  Leaves.read (fun _ _ hs _ => hs) fun _ hs => hs

theorem see : Keeps fates I (Script.see g : Script ι φ σ ε α) :=
  Leaves.see (fun _ _ hs _ => hs) fun _ hs => hs

theorem refuseIf {e : ε} {condition : Prop} [Decidable condition] :
    Keeps fates I (Script.refuseIf e condition : Script ι φ σ ε Unit) :=
  Leaves.weaken (Leaves.refuses fun _ hs => hs) (fun _ => id) (fun _ _ => And.left) fun _ => id

theorem ofExcept {r : Except ε α} : Keeps fates I (Script.ofExcept r : Script ι φ σ ε α) := by
  cases r with
  | error e => exact thrown e
  | ok a => exact done a

theorem attempt (hx : Keeps fates I x) : Keeps fates I (Script.attempt x) := by
  refine Leaves.weaken (Leaves.attempt hx) (fun _ => id) ?_ fun _ => id
  rintro (e | a) s hs
  · exact hs
  · exact hs

theorem orElse {handler : ε → Script ι φ σ ε α} (hx : Keeps fates I x)
    (hh : ∀ e, Keeps fates I (handler e)) : Keeps fates I (Script.orElse x handler) := by
  refine next (attempt hx) ?_
  rintro (e | a)
  · exact hh e
  · exact done a

theorem each {l : List α} {body : α → Script ι φ σ ε Unit}
    (hbody : ∀ a ∈ l, Keeps fates I (body a)) : Keeps fates I (Script.each l body) :=
  Leaves.each (fun _ => I) fun _ a _ h => hbody a (by simp [h])

end Keeps

end

end Crashes
