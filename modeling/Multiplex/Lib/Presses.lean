-- Presses and releases sent through a channel that may lose them. A tracker
-- notes what it has pressed and takes a note away when it sends the release.
-- What is down is what the delivered events say; the laws say when the notes
-- and what is down agree.
import Mathlib.Tactic

namespace Presses

variable {κ : Type} [DecidableEq κ]

/-- A press or a release that was sent, and whether it was delivered. -/
structure Post (κ : Type) where
  control : κ
  pressed : Bool
  delivered : Bool

/-- The last delivered event of the control was a press. -/
def down (trace : List (Post κ)) (c : κ) : Bool :=
  trace.foldl (fun d p => if p.control = c ∧ p.delivered then p.pressed else d) false

/-- Every delivered release comes after a press since the last release. -/
def Balanced (trace : List (Post κ)) : Prop :=
  ∀ before p after, trace = before ++ p :: after → p.delivered = true → p.pressed = false →
    down before p.control = true

def LostRelease (trace : List (Post κ)) : Prop :=
  ∃ p ∈ trace, p.pressed = false ∧ p.delivered = false

/-- What is noted as pressed, and what was sent. -/
structure Tracker (κ : Type) where
  noted : κ → Prop
  trace : List (Post κ)

/-- The release of a noted control: its note goes, delivered or not. -/
def Tracker.release (t : Tracker κ) (c : κ) (delivered : Bool) : Tracker κ :=
  ⟨fun c' => t.noted c' ∧ c' ≠ c, t.trace ++ [⟨c, false, delivered⟩]⟩

/-- A press, which is noted once it is delivered. -/
def Tracker.press (t : Tracker κ) (c : κ) (delivered : Bool) : Tracker κ :=
  ⟨fun c' => t.noted c' ∨ (delivered = true ∧ c' = c), t.trace ++ [⟨c, true, delivered⟩]⟩

/-- Releases of noted controls, one after the other. -/
inductive Releases : Tracker κ → Tracker κ → Prop
  | done (t : Tracker κ) : Releases t t
  | more {t t' : Tracker κ} (c : κ) (delivered : Bool) (hnoted : t.noted c)
      (rest : Releases (t.release c delivered) t') : Releases t t'

/-- What one call sends: one press, or some releases. -/
inductive Burst : Tracker κ → Tracker κ → Prop
  | press (t : Tracker κ) (c : κ) (delivered : Bool) : Burst t (t.press c delivered)
  | releases {t t' : Tracker κ} (h : Releases t t') : Burst t t'

variable {t : Tracker κ}

variable {t' : Tracker κ} {trace : List (Post κ)} {p : Post κ}

omit [DecidableEq κ] in
theorem Releases.trans {t'' : Tracker κ} (h : Releases t t') (h' : Releases t' t'') :
    Releases t t'' := by
  induction h with
  | done t => exact h'
  | more c delivered hnoted _ ih => exact Releases.more c delivered hnoted (ih h')

/-! ## What is down -/

theorem down_append (trace : List (Post κ)) (p : Post κ) (c : κ) :
    down (trace ++ [p]) c = if p.control = c ∧ p.delivered then p.pressed else down trace c := by
  unfold down
  rw [List.foldl_append]
  rfl

theorem balanced_append (h : Balanced trace)
    (hp : p.delivered = true → p.pressed = false → down trace p.control = true) :
    Balanced (trace ++ [p]) := by
  intro before q after heq hd hr
  rcases List.eq_nil_or_concat after with rfl | ⟨after', x, rfl⟩
  · obtain ⟨rfl, hq⟩ := List.append_inj' heq rfl
    cases hq
    exact hp hd hr
  · rw [List.concat_eq_append, ← List.cons_append, ← List.append_assoc] at heq
    obtain ⟨rfl, -⟩ := List.append_inj' heq rfl
    exact h before q after' rfl hd hr

/-- What holds however many events are lost. -/
structure Sound (t : Tracker κ) : Prop where
  noted_down : ∀ c, t.noted c → down t.trace c = true
  balanced : Balanced t.trace

theorem Sound.press (h : Sound t) (c : κ) (delivered : Bool) : Sound (t.press c delivered) where
  noted_down c' hc := by
    simp only [Tracker.press, down_append] at hc ⊢
    rcases hc with hc | ⟨hd, rfl⟩
    · split
      · rfl
      · exact h.noted_down c' hc
    · simp [hd]
  balanced := balanced_append h.balanced (by simp)

theorem Sound.release (h : Sound t) {c : κ} (hnoted : t.noted c) (delivered : Bool) :
    Sound (t.release c delivered) where
  noted_down c' hc := by
    obtain ⟨hn, hne⟩ := hc
    simp only [Tracker.release, down_append]
    rw [if_neg (by rintro ⟨rfl, -⟩; exact hne rfl)]
    exact h.noted_down c' hn
  balanced := balanced_append h.balanced fun _ _ => h.noted_down c hnoted

theorem Sound.releases (h : Sound t) (hr : Releases t t') : Sound t' := by
  induction hr with
  | done t => exact h
  | more c delivered hnoted _ ih => exact ih (h.release hnoted delivered)

theorem Sound.burst (h : Sound t) (hb : Burst t t') : Sound t' := by
  cases hb with
  | press c delivered => exact h.press c delivered
  | releases hr => exact h.releases hr

/-! ## Lost releases -/

/-- Everything that is down is noted. -/
def Complete (t : Tracker κ) : Prop := ∀ c, down t.trace c = true → t.noted c

omit [DecidableEq κ] in
theorem lostRelease_append : LostRelease (trace ++ [p]) ↔
      LostRelease trace ∨ (p.pressed = false ∧ p.delivered = false) := by
  simp only [LostRelease, List.mem_append, List.mem_singleton]
  constructor
  · rintro ⟨q, hq | rfl, h⟩
    · exact .inl ⟨q, hq, h⟩
    · exact .inr h
  · rintro (⟨q, hq, h⟩ | h)
    · exact ⟨q, .inl hq, h⟩
    · exact ⟨p, .inr rfl, h⟩

omit [DecidableEq κ] in
theorem lost_forever (hr : Releases t t') (h : LostRelease t.trace) : LostRelease t'.trace := by
  induction hr with
  | done t => exact h
  | more c delivered _ _ ih => exact ih (lostRelease_append.mpr (.inl h))

omit [DecidableEq κ] in
theorem lost_in_burst (hb : Burst t t') (h : LostRelease t.trace) : LostRelease t'.trace := by
  cases hb with
  | press c delivered => exact lostRelease_append.mpr (.inl h)
  | releases hr => exact lost_forever hr h

theorem Complete.press (h : Complete t) (c : κ) (delivered : Bool) :
    Complete (t.press c delivered) := by
  intro c' hc
  simp only [Tracker.press, down_append] at hc ⊢
  split at hc
  · rename_i hp
    exact .inr ⟨hp.2, hp.1.symm⟩
  · exact .inl (h c' hc)

theorem Complete.releases (h : Complete t) (hr : Releases t t') (hlost : ¬ LostRelease t'.trace) :
    Complete t' := by
  induction hr with
  | done t => exact h
  | @more t t' c delivered hnoted rest ih =>
    refine ih ?_ hlost
    have hd : delivered = true := by
      by_contra hd
      exact hlost (lost_forever rest (lostRelease_append.mpr (.inr ⟨rfl, by simpa using hd⟩)))
    intro c' hc
    simp only [Tracker.release, down_append] at hc ⊢
    split at hc
    · cases hc
    · rename_i hne
      exact ⟨h c' hc, fun heq => hne ⟨heq.symm, hd⟩⟩

/-- A control that is down and not noted stays so while only noted ones are released. -/
theorem stays_lost (hr : Releases t t') {c : κ} (hdown : down t.trace c = true)
    (hnot : ¬ t.noted c) : down t'.trace c = true ∧ ¬ t'.noted c := by
  induction hr with
  | done t => exact ⟨hdown, hnot⟩
  | more c' delivered hnoted _ ih =>
    have hne : c' ≠ c := by
      rintro rfl
      exact hnot hnoted
    refine ih ?_ fun hn => hnot hn.1
    simp only [Tracker.release, down_append]
    rw [if_neg fun hp => hne hp.1]
    exact hdown

/-- A release lost in a burst leaves its control down and not noted. -/
theorem lost_in_releases (h : Sound t) (hr : Releases t t') (hbefore : ¬ LostRelease t.trace)
    (hlost : LostRelease t'.trace) : ∃ c, down t'.trace c = true ∧ ¬ t'.noted c := by
  induction hr with
  | done t => exact absurd hlost hbefore
  | @more t t' c delivered hnoted rest ih =>
    cases delivered with
    | true =>
      refine ih (h.release hnoted true) ?_ hlost
      simp only [Tracker.release, lostRelease_append]
      simpa using hbefore
    | false =>
      refine ⟨c, stays_lost rest ?_ fun hn => hn.2 rfl⟩
      simp only [Tracker.release, down_append]
      exact h.noted_down c hnoted

/-- One burst: what is down is noted after it exactly when it lost no release, given that it was
so before. -/
theorem complete_burst_iff (hs : Sound t) (hc : Complete t) (hbefore : ¬ LostRelease t.trace)
    (hb : Burst t t') : Complete t' ↔ ¬ LostRelease t'.trace := by
  cases hb with
  | press c delivered =>
    refine ⟨fun _ => ?_, fun _ => hc.press c delivered⟩
    simp only [Tracker.press, lostRelease_append]
    simpa using hbefore
  | releases hr =>
    refine ⟨fun hcomplete hlost => ?_, hc.releases hr⟩
    obtain ⟨c, hdown, hnot⟩ := lost_in_releases hs hr hbefore hlost
    exact hnot (hcomplete c hdown)

end Presses
