-- Changing the first element of a list that a test accepts, and leaving the
-- others where they are.
import Mathlib.Data.List.Basic
import Mathlib.Tactic

namespace FirstMatch

variable {α β : Type}

/-- The list with `f` applied to the first element that satisfies `p`. -/
def updateFirst (p : α → Bool) (f : α → α) : List α → List α
  | [] => []
  | a :: l => if p a then f a :: l else a :: updateFirst p f l

variable {p q : α → Bool} {f : α → α} {l : List α}

/-- The changed element is the first one again. -/
theorem find?_updateFirst (hp : ∀ a, p a = true → p (f a) = true) :
    (updateFirst p f l).find? p = (l.find? p).map f := by
  induction l with
  | nil => rfl
  | cons a l ih =>
    unfold updateFirst
    split
    · rename_i ha
      simp [ha, hp a ha]
    · rename_i ha
      simp [ha, ih]

/-- A test that accepts neither the old nor the new element sees no change. -/
theorem find?_updateFirst_other (h : ∀ a, p a = true → q a = false ∧ q (f a) = false) :
    (updateFirst p f l).find? q = l.find? q := by
  induction l with
  | nil => rfl
  | cons a l ih =>
    unfold updateFirst
    split
    · rename_i ha
      simp [(h a ha).1, (h a ha).2]
    · simp only [List.find?_cons, ih]

/-- What `f` leaves alone is the same all through the list. -/
theorem map_updateFirst {g : α → β} (hg : ∀ a, g (f a) = g a) :
    (updateFirst p f l).map g = l.map g := by
  induction l with
  | nil => rfl
  | cons a l ih =>
    unfold updateFirst
    split
    · simp [hg]
    · simp [ih]

/-- Where a key tells all elements apart, changing the one with that key is a map. -/
theorem updateFirst_key {κ : Type} [DecidableEq κ] {key : α → κ} {k : κ} (h : (l.map key).Nodup) :
    updateFirst (fun a => decide (key a = k)) f l = l.map fun a => if key a = k then f a else a := by
  induction l with
  | nil => rfl
  | cons a l ih =>
    rw [List.map_cons, List.nodup_cons] at h
    unfold updateFirst
    rw [List.map_cons]
    split
    · rename_i ha
      rw [decide_eq_true_eq] at ha
      rw [if_pos ha]
      congr 1
      conv_lhs => rw [← List.map_id l]
      apply List.map_congr_left
      intro b hb
      refine (if_neg ?_).symm
      rintro rfl
      exact h.1 (List.mem_map.mpr ⟨b, hb, ha.symm⟩)
    · rename_i ha
      rw [decide_eq_true_eq] at ha
      rw [if_neg ha, ih h.2]

/-- Where a key tells all elements apart, dropping the one with that key is a filter. -/
theorem eraseP_key {κ : Type} [DecidableEq κ] {key : α → κ} {k : κ} (h : (l.map key).Nodup) :
    l.eraseP (fun a => decide (key a = k)) = l.filter fun a => key a ≠ k := by
  induction l with
  | nil => rfl
  | cons a l ih =>
    rw [List.map_cons, List.nodup_cons] at h
    by_cases ha : key a = k
    · rw [List.eraseP_cons_of_pos (by simpa using ha), List.filter_cons_of_neg (by simpa using ha)]
      symm
      rw [List.filter_eq_self]
      intro b hb
      rw [decide_eq_true_eq]
      rintro rfl
      exact h.1 (List.mem_map.mpr ⟨b, hb, ha.symm⟩)
    · rw [List.eraseP_cons_of_neg (by simpa using ha), List.filter_cons_of_pos (by simpa using ha),
        ih h.2]

/-- The first element that a test accepts, and the list without it. -/
theorem perm_eraseP {a : α} (h : l.find? p = some a) : (a :: l.eraseP p).Perm l := by
  induction l with
  | nil => cases h
  | cons b l ih =>
    cases hb : p b with
    | true =>
      rw [List.find?_cons_of_pos hb, Option.some.injEq] at h
      rw [List.eraseP_cons_of_pos hb, h]
    | false =>
      rw [List.find?_cons_of_neg (Bool.eq_false_iff.mp hb)] at h
      rw [List.eraseP_cons_of_neg (Bool.eq_false_iff.mp hb)]
      exact (List.Perm.swap _ _ _).trans ((ih h).cons b)

end FirstMatch
