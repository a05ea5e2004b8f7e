-- A value that carries a number, one higher with each replacement, and a
-- backup of the value before it. The value can be lost and the backup put in
-- its place, after which numbers are given out again. A token is a number and
-- the value somebody saw under it.
import Mathlib.Logic.Relation
import Mathlib.Tactic

namespace Numbered

variable {α : Type}

structure Cell (α : Type) where
  current : Option (Nat × α)
  backup : Option (Nat × α)

/-- A number, the value seen under it, and whether the number was given out
again since. -/
structure Token (α : Type) where
  number : Nat
  value : α
  reissued : Bool
  deriving DecidableEq

/-- Giving out a number makes the tokens that carry it doubtful. -/
def Token.mark (number : Nat) (t : Token α) : Token α :=
  { t with reissued := t.reissued || decide (t.number = number) }

/-- What can happen to the cell and to the tokens. -/
inductive Step : Cell α × List (Token α) → Cell α × List (Token α) → Prop
  | first {c : Cell α} {tokens : List (Token α)} (n : Nat) (a : α) (hcurrent : c.current = none)
      (hbackup : c.backup = none) :
      Step (c, tokens) (⟨some (n, a), none⟩, tokens.map (Token.mark n))
  | seeCurrent {c : Cell α} {tokens : List (Token α)} {n : Nat} {a : α}
      (h : c.current = some (n, a)) : Step (c, tokens) (c, ⟨n, a, false⟩ :: tokens)
  | seeBackup {c : Cell α} {tokens : List (Token α)} {n : Nat} {a : α}
      (hcurrent : c.current = none) (h : c.backup = some (n, a)) :
      Step (c, tokens) (c, ⟨n, a, false⟩ :: tokens)
  | save {c : Cell α} {tokens : List (Token α)} {n : Nat} {a : α} (h : c.current = some (n, a)) :
      Step (c, tokens) ({ c with backup := some (n, a) }, tokens)
  | issue {c : Cell α} {tokens : List (Token α)} {n : Nat} {a : α} (b : α)
      (h : c.current = some (n, a)) (hbackup : c.backup = some (n, a)) :
      Step (c, tokens) ({ c with current := some (n + 1, b) }, tokens.map (Token.mark (n + 1)))
  | lose {c : Cell α} {tokens : List (Token α)} :
      Step (c, tokens) ({ c with current := none }, tokens)
  | restore {c : Cell α} {tokens : List (Token α)} (h : c.current = none) :
      Step (c, tokens) ({ c with current := c.backup }, tokens)

/-- The value under the token's number is the one that was seen. -/
def Token.Agrees (t : Token α) (held : Option (Nat × α)) : Prop :=
  ∀ a, held = some (t.number, a) → a = t.value

/-- No number stands for two values, as far as the tokens whose number was not
given out again can tell. -/
structure Faithful (s : Cell α × List (Token α)) : Prop where
  current : ∀ t ∈ s.2, t.reissued = false → t.Agrees s.1.current
  backup : ∀ t ∈ s.2, t.reissued = false → t.Agrees s.1.backup
  same : ∀ n a b, s.1.current = some (n, a) → s.1.backup = some (n, b) → a = b

theorem Token.Agrees.of_mark {n : Nat} {t : Token α} {held : Option (Nat × α)}
    (h : t.Agrees held) : (t.mark n).Agrees held := h

theorem Token.reissued_of_mark {n : Nat} {t : Token α} (h : (t.mark n).reissued = false) :
    t.reissued = false ∧ t.number ≠ n := by
  unfold Token.mark at h
  simpa using h

/-- Under a number just given out no undoubted token stands. -/
theorem Token.agrees_issued {n : Nat} {a : α} {t : Token α}
    (h : (t.mark n).reissued = false) : (t.mark n).Agrees (some (n, a)) := by
  intro b hb
  have hnumber := congrArg Prod.fst (Option.some.inj hb)
  exact absurd hnumber.symm (Token.reissued_of_mark h).2

theorem Faithful.step {s s' : Cell α × List (Token α)} (h : Faithful s) (hstep : Step s s') :
    Faithful s' := by
  cases hstep with
  | first n a hcurrent hbackup =>
    refine ⟨fun t ht hfresh => ?_, fun t ht _ b hb => ?_, fun n a b _ hb => ?_⟩
    · obtain ⟨t, _, rfl⟩ := List.mem_map.mp ht
      exact Token.agrees_issued hfresh
    · cases hb
    · cases hb
  | @seeCurrent c tokens n a hcurrent =>
    have hnew : ∀ held, (∀ b, held = some (n, b) → a = b) →
        Token.Agrees (⟨n, a, false⟩ : Token α) held := fun held hheld b hb => (hheld b hb).symm
    refine ⟨?_, ?_, h.same⟩
    · refine List.forall_mem_cons.mpr ⟨fun _ => hnew _ fun b hb => ?_, h.current⟩
      rw [hcurrent] at hb
      exact congrArg Prod.snd (Option.some.inj hb)
    · refine List.forall_mem_cons.mpr ⟨fun _ => hnew _ fun b hb => ?_, h.backup⟩
      exact h.same n a b hcurrent hb
  | @seeBackup c tokens n a hcurrent hbackup =>
    refine ⟨?_, ?_, h.same⟩
    · refine List.forall_mem_cons.mpr ⟨fun _ b hb => ?_, h.current⟩
      rw [hcurrent] at hb
      cases hb
    · refine List.forall_mem_cons.mpr ⟨fun _ b hb => ?_, h.backup⟩
      rw [hbackup] at hb
      exact (congrArg Prod.snd (Option.some.inj hb)).symm
  | @save c tokens n a hcurrent =>
    refine ⟨h.current, fun t ht hfresh => ?_, fun m x y hx hy => ?_⟩
    · rw [← hcurrent]
      exact h.current t ht hfresh
    · have heq := hx.symm.trans (hcurrent.trans hy)
      exact congrArg Prod.snd (Option.some.inj heq)
  | @issue c tokens n a b hcurrent hbackup =>
    refine ⟨fun t ht hfresh => ?_, fun t ht hfresh => ?_, fun m x y hx hy => ?_⟩
    · obtain ⟨t, _, rfl⟩ := List.mem_map.mp ht
      exact Token.agrees_issued hfresh
    · obtain ⟨u, hu, rfl⟩ := List.mem_map.mp ht
      exact (h.backup u hu (Token.reissued_of_mark hfresh).1).of_mark
    · -- the new number is above the one in the backup
      have hnew := congrArg Prod.fst (Option.some.inj hx)
      have hold := congrArg Prod.fst (Option.some.inj (hbackup.symm.trans hy))
      omega
  | lose =>
    refine ⟨fun t _ _ b hb => ?_, h.backup, fun m x y hx _ => ?_⟩
    · cases hb
    · cases hx
  | restore hcurrent =>
    refine ⟨h.backup, h.backup, fun m x y hx hy => ?_⟩
    exact congrArg Prod.snd (Option.some.inj (hx.symm.trans hy))

/-- Whatever happens, an undoubted token tells the value. -/
theorem Faithful.steps {s s' : Cell α × List (Token α)} (h : Faithful s)
    (hsteps : Relation.ReflTransGen Step s s') : Faithful s' := by
  induction hsteps with
  | refl => exact h
  | tail _ hstep ih => exact ih.step hstep

theorem faithful_empty : Faithful ((⟨none, none⟩, []) : Cell α × List (Token α)) :=
  ⟨fun _ h => absurd h List.not_mem_nil, fun _ h => absurd h List.not_mem_nil,
    fun _ _ _ h => by cases h⟩

end Numbered
