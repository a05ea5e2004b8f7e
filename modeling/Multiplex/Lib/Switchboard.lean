-- A switchboard joins two callers at each line. A caller joins a free side of
-- a line and stays until the line is cleared, which sends both sides away. So
-- a caller only ever hears one other caller, and all that this one ever says.
import Mathlib.Logic.Function.Basic
import Mathlib.Tactic

namespace Switchboard

variable {L S I M : Type}

/-- One message: who said it, and who was on the other side then. -/
structure Said (I M : Type) where
  speaker : I
  listener : I
  message : M

/-- Who is on each side of each line, where each caller joined, and what was said. -/
structure Board (L S I M : Type) where
  slot : L → S → Option I
  known : I → Option (L × S)
  log : List (Said I M)

def Board.saidBy [DecidableEq I] (b : Board L S I M) (i : I) : List (Said I M) :=
  b.log.filter fun e => decide (e.speaker = i)

def Board.heardBy [DecidableEq I] (b : Board L S I M) (i : I) : List (Said I M) :=
  b.log.filter fun e => decide (e.listener = i)

def Board.join [DecidableEq L] [DecidableEq S] [DecidableEq I] (b : Board L S I M) (l : L) (s : S)
    (i : I) : Board L S I M where
  slot := fun l' s' => if l' = l ∧ s' = s then some i else b.slot l' s'
  known := Function.update b.known i (some (l, s))
  log := b.log

def Board.clear [DecidableEq L] (b : Board L S I M) (l : L) : Board L S I M :=
  { b with slot := fun l' s' => if l' = l then none else b.slot l' s' }

def Board.say (b : Board L S I M) (e : Said I M) : Board L S I M := { b with log := b.log ++ [e] }

section
variable (other : S → S)

inductive Step [DecidableEq L] [DecidableEq S] [DecidableEq I] (b : Board L S I M) :
    Board L S I M → Prop
  | idle : Step b b
  | join (l : L) (s : S) (i : I) (free : b.slot l s = none) (fresh : b.known i = none) :
      Step b (b.join l s i)
  | clear (l : L) : Step b (b.clear l)
  | say (l : L) (s : S) (e : Said I M) (speaks : b.slot l s = some e.speaker)
      (hears : b.slot l (other s) = some e.listener) : Step b (b.say e)

structure Paired (b : Board L S I M) : Prop where
  /-- A caller sits where it joined. -/
  seated : ∀ l s i, b.slot l s = some i → b.known i = some (l, s)
  /-- Both callers of a message joined the same line, on two sides. -/
  opposite : ∀ e ∈ b.log, ∃ l s, b.known e.speaker = some (l, s) ∧
    b.known e.listener = some (l, other s)
  /-- Nobody speaks to two callers, or hears two. -/
  single : ∀ e ∈ b.log, ∀ f ∈ b.log, e.speaker = f.speaker ↔ e.listener = f.listener
  /-- Whoever a seated caller spoke to, or heard, sits on the other side. -/
  facing : ∀ l s i, b.slot l s = some i → ∀ e ∈ b.log,
    (e.speaker = i → b.slot l (other s) = some e.listener) ∧
      (e.listener = i → b.slot l (other s) = some e.speaker)

variable {other} {b b' : Board L S I M}

section
variable (h : Paired other b)
include h

theorem Paired.not_logged {i : I} (hi : b.known i = none) {e : Said I M} (he : e ∈ b.log) :
    e.speaker ≠ i ∧ e.listener ≠ i := by
  obtain ⟨l, s, hs, hl⟩ := h.opposite e he
  constructor
  · rintro rfl
    rw [hi] at hs
    cases hs
  · rintro rfl
    rw [hi] at hl
    cases hl

theorem paired_join [DecidableEq L] [DecidableEq S] [DecidableEq I] (l : L) (s : S) (i : I)
    (free : b.slot l s = none) (fresh : b.known i = none) : Paired other (b.join l s i) := by
  have hstays : ∀ j l' s', b.known j = some (l', s') → j ≠ i := by
    rintro j l' s' hj rfl
    rw [fresh] at hj
    cases hj
  have hslot : ∀ l' s' j, b.slot l' s' = some j → (b.join l s i).slot l' s' = some j := by
    intro l' s' j hj
    have hne : ¬ (l' = l ∧ s' = s) := by
      rintro ⟨rfl, rfl⟩
      rw [free] at hj
      cases hj
    exact (if_neg hne).trans hj
  refine ⟨?_, ?_, h.single, ?_⟩
  · intro l' s' j hj
    simp only [Board.join] at hj ⊢
    split at hj
    · rename_i hat
      obtain ⟨rfl, rfl⟩ := hat
      cases hj
      exact Function.update_self i _ b.known
    · rw [Function.update_of_ne (hstays j l' s' (h.seated l' s' j hj))]
      exact h.seated l' s' j hj
  · intro e he
    obtain ⟨l', s', hspeaker, hlistener⟩ := h.opposite e he
    refine ⟨l', s', ?_, ?_⟩
    · exact (Function.update_of_ne (hstays _ _ _ hspeaker) _ _).trans hspeaker
    · exact (Function.update_of_ne (hstays _ _ _ hlistener) _ _).trans hlistener
  · intro l' s' j hj e he
    obtain ⟨hspeaker, hlistener⟩ := h.not_logged fresh he
    simp only [Board.join] at hj
    split at hj
    · cases hj
      exact ⟨fun heq => absurd heq hspeaker, fun heq => absurd heq hlistener⟩
    · obtain ⟨hto, hfrom⟩ := h.facing l' s' j hj e he
      exact ⟨fun heq => hslot _ _ _ (hto heq), fun heq => hslot _ _ _ (hfrom heq)⟩

theorem paired_clear [DecidableEq L] (l : L) : Paired other (b.clear l) := by
  refine ⟨?_, h.opposite, h.single, ?_⟩
  · intro l' s' j hj
    simp only [Board.clear] at hj
    split at hj
    · cases hj
    · exact h.seated l' s' j hj
  · intro l' s' j hj e he
    simp only [Board.clear] at hj ⊢
    split at hj
    · cases hj
    · rename_i hne
      rw [if_neg hne]
      exact h.facing l' s' j hj e he

theorem paired_say (flip : ∀ s, other (other s) = s) (l : L) (s : S) (e : Said I M)
    (speaks : b.slot l s = some e.speaker) (hears : b.slot l (other s) = some e.listener) :
    Paired other (b.say e) := by
  have hsingle : ∀ f ∈ b.log, e.speaker = f.speaker ↔ e.listener = f.listener := by
    intro f hf
    have hto := (h.facing l s e.speaker speaks f hf).1
    have hfrom := (h.facing l (other s) e.listener hears f hf).2
    constructor
    · intro heq
      have := hto heq.symm
      rw [hears] at this
      exact Option.some.inj this
    · intro heq
      have := hfrom heq.symm
      rw [flip, speaks] at this
      exact Option.some.inj this
  refine ⟨h.seated, ?_, ?_, ?_⟩
  · intro f hf
    rcases List.mem_append.mp hf with hf | hf
    · exact h.opposite f hf
    · rw [List.mem_singleton.mp hf]
      exact ⟨l, s, h.seated l s _ speaks, h.seated l _ _ hears⟩
  · intro f hf g hg
    rcases List.mem_append.mp hf with hf | hf <;> rcases List.mem_append.mp hg with hg | hg
    · exact h.single f hf g hg
    · rw [List.mem_singleton.mp hg]
      exact ⟨fun heq => ((hsingle f hf).mp heq.symm).symm,
        fun heq => ((hsingle f hf).mpr heq.symm).symm⟩
    · rw [List.mem_singleton.mp hf]
      exact hsingle g hg
    · rw [List.mem_singleton.mp hf, List.mem_singleton.mp hg]
      exact ⟨fun _ => rfl, fun _ => rfl⟩
  · intro l' s' j hj f hf
    rcases List.mem_append.mp hf with hf | hf
    · exact h.facing l' s' j hj f hf
    · rw [List.mem_singleton.mp hf]
      -- the two callers of the message sit at `l` only
      constructor
      · rintro rfl
        have hat := (h.seated l' s' _ hj).symm.trans (h.seated l s _ speaks)
        cases hat
        exact hears
      · rintro rfl
        have hat := (h.seated l' s' _ hj).symm.trans (h.seated l (other s) _ hears)
        cases hat
        exact (congrArg (b.slot l) (flip s)).trans speaks

theorem paired_step [DecidableEq L] [DecidableEq S] [DecidableEq I]
    (flip : ∀ s, other (other s) = s) (hstep : Step other b b') : Paired other b' := by
  cases hstep with
  | idle => exact h
  | join l s i free fresh => exact paired_join h l s i free fresh
  | clear l => exact paired_clear h l
  | say l s e speaks hears => exact paired_say h flip l s e speaks hears

/-- All that a caller heard is all that one other caller said. -/
theorem Paired.heardBy_eq [DecidableEq I] {e : Said I M} (he : e ∈ b.log) :
    b.heardBy e.listener = b.saidBy e.speaker := by
  apply List.filter_congr
  intro f hf
  rw [decide_eq_decide]
  exact (h.single f hf e he).symm

end

end

end Switchboard
