-- Entries that are numbered from one on as they come, and readers that stand
-- behind one of them. A log keeps only the entries after some number, and a
-- reader further on takes what it has not seen out of these.
import Mathlib.Tactic

namespace Cursor

variable {α β : Type} (mk : Nat → α → β)

/-- Entries with their numbers, when so many came before. -/
def numbered : Nat → List α → List β
  | _, [] => []
  | n, a :: l => mk (n + 1) a :: numbered (n + 1) l

/-- The entries that a reader behind a number has not seen. -/
def after (l : List α) (n : Nat) : List β := numbered mk n (l.drop n)

@[simp] theorem length_numbered (n : Nat) (l : List α) : (numbered mk n l).length = l.length := by
  induction l generalizing n with
  | nil => rfl
  | cons a l ih => simp [numbered, ih]

@[simp] theorem length_after (l : List α) (n : Nat) : (after mk l n).length = l.length - n := by
  simp [after]

theorem numbered_append (n : Nat) (l r : List α) :
    numbered mk n (l ++ r) = numbered mk n l ++ numbered mk (n + l.length) r := by
  induction l generalizing n with
  | nil => simp [numbered]
  | cons a l ih =>
    have hlength : n + 1 + l.length = n + (a :: l).length := by simp; omega
    simp [numbered, ih, hlength]

variable {l : List α}

theorem after_append {n : Nat} (h : n ≤ l.length) (r : List α) :
    after mk (l ++ r) n = after mk l n ++ numbered mk l.length r := by
  have hlength : n + (l.drop n).length = l.length := by simp; omega
  simp only [after, List.drop_append_of_le_length h, numbered_append, hlength]

/-- What a reader has seen of a log stays, whatever comes after. -/
theorem take_after_append {n k : Nat} (h : n + k ≤ l.length) (r : List α) :
    (after mk (l ++ r) n).take k = (after mk l n).take k := by
  rw [after_append mk (by omega)]
  exact List.take_append_of_le_length (by simp; omega)

theorem after_eq_nil {n : Nat} (h : l.length ≤ n) : after mk l n = [] := by
  simp [after, List.drop_eq_nil_of_le h, numbered]

theorem head?_after (l : List α) (n : Nat) : (after mk l n).head? = l[n]?.map (mk (n + 1)) := by
  unfold after
  rw [← List.head?_drop]
  cases l.drop n with
  | nil => rfl
  | cons a r => rfl

theorem after_step {n : Nat} {a : α} (h : l[n]? = some a) :
    after mk l n = mk (n + 1) a :: after mk l (n + 1) := by
  obtain ⟨hn, rfl⟩ := List.getElem?_eq_some_iff.mp h
  simp only [after, List.drop_eq_getElem_cons hn, numbered]

theorem take_after_succ {n k : Nat} {a : α} (h : l[n + k]? = some a) :
    (after mk l n).take (k + 1) = (after mk l n).take k ++ [mk (n + k + 1) a] := by
  induction k generalizing n with
  | zero =>
    rw [Nat.add_zero] at h
    simp [after_step mk h]
  | succ k ih =>
    have hlt : n + (k + 1) < l.length := (List.getElem?_eq_some_iff.mp h).1
    have hfirst : l[n]? = some l[n] := List.getElem?_eq_getElem (by omega)
    rw [after_step mk hfirst, List.take_succ_cons, List.take_succ_cons, List.cons_append]
    rw [ih (by rw [← h]; congr 1; omega)]
    congr 4
    omega

section
variable {mk} {number : β → Nat} (hmk : ∀ n a, number (mk n a) = n)
include hmk

theorem filter_numbered_of_le {m n : Nat} (h : m ≤ n) (l : List α) :
    (numbered mk n l).filter (fun b => m < number b) = numbered mk n l := by
  induction l generalizing n with
  | nil => rfl
  | cons a l ih =>
    have hlt : m < number (mk (n + 1) a) := by rw [hmk]; omega
    simp [numbered, hlt, ih (n := n + 1) (by omega)]

theorem filter_numbered {m n : Nat} (h : n ≤ m) (l : List α) :
    (numbered mk n l).filter (fun b => m < number b) = numbered mk m (l.drop (m - n)) := by
  induction l generalizing n with
  | nil => simp [numbered]
  | cons a l ih =>
    by_cases heq : n = m
    · subst heq
      simp only [Nat.sub_self, List.drop_zero]
      exact filter_numbered_of_le hmk (Nat.le_refl n) _
    · have hlt : ¬ m < number (mk (n + 1) a) := by rw [hmk]; omega
      have hdrop : m - n = (m - (n + 1)) + 1 := by omega
      simp [numbered, hlt]
      rw [ih (by omega), hdrop, List.drop_succ_cons]

/-- A log kept from a number on has all that a reader further on has not seen. -/
theorem filter_after {m n : Nat} (h : n ≤ m) (l : List α) :
    (after mk l n).filter (fun b => m < number b) = after mk l m := by
  have hdrop : n + (m - n) = m := by omega
  rw [after, filter_numbered hmk h, List.drop_drop, hdrop, after]

theorem find?_after {m n : Nat} (h : n ≤ m) (l : List α) :
    (after mk l n).find? (fun b => m < number b) = l[m]?.map (mk (m + 1)) := by
  rw [← List.head?_filter, filter_after hmk h, head?_after]

variable {l : List α}

theorem number_of_mem_numbered {n : Nat} {b : β} (h : b ∈ numbered mk n l) :
    n < number b ∧ number b ≤ n + l.length := by
  induction l generalizing n with
  | nil => cases h
  | cons a l ih =>
    simp
    rcases List.mem_cons.mp h with rfl | h
    · rw [hmk]
      omega
    · have := ih h
      omega

theorem number_of_mem_after {n : Nat} {b : β} (h : b ∈ after mk l n) :
    n < number b ∧ number b ≤ l.length := by
  have hmem := number_of_mem_numbered hmk h
  rw [List.length_drop] at hmem
  omega

theorem exists_of_numbered {m n : Nat} (hn : n < m) (hm : m ≤ n + l.length) :
    ∃ b ∈ numbered mk n l, number b = m := by
  induction l generalizing n with
  | nil =>
    simp at hm
    omega
  | cons a l ih =>
    by_cases heq : m = n + 1
    · exact ⟨mk (n + 1) a, List.mem_cons_self, by rw [hmk, heq]⟩
    · obtain ⟨b, hb, hnumber⟩ := ih (n := n + 1) (by omega) (by simp at hm; omega)
      exact ⟨b, List.mem_cons_of_mem _ hb, hnumber⟩

theorem exists_of_after {m n : Nat} (hn : n < m) (hm : m ≤ l.length) :
    ∃ b ∈ after mk l n, number b = m :=
  exists_of_numbered hmk hn (by rw [List.length_drop]; omega)

/-- A reader that takes all there is stands behind the last entry. -/
theorem last_of_after {n : Nat} (h : n ≤ l.length) :
    (after mk l n).getLast?.elim n number = l.length := by
  rcases List.eq_nil_or_concat l with rfl | ⟨r, a, rfl⟩
  · obtain rfl : n = 0 := by simpa using h
    rfl
  · rw [List.concat_eq_append] at h ⊢
    by_cases heq : n = (r ++ [a]).length
    · rw [after_eq_nil mk (by omega)]
      exact heq
    · have hle : n ≤ r.length := by simp at *; omega
      rw [after_append mk hle]
      simp [numbered, hmk]

end

end Cursor
