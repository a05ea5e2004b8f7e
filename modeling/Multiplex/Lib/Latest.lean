-- Values that come one after the other, of which the one with the largest key
-- stays. What stays in the end depends on which values came, and neither on
-- their order nor on how often they came.
import Mathlib.Tactic

namespace Latest

variable {α κ : Type} [LinearOrder κ] (key : α → κ)

/-- A value with a larger key takes the place of the one that is there. -/
def keep (a b : α) : α := if key a < key b then b else a

theorem key_keep (a b : α) : key (keep key a b) = max (key a) (key b) := by
  unfold keep
  split
  · rename_i hlt
    exact (max_eq_right hlt.le).symm
  · rename_i hle
    exact (max_eq_left (not_lt.mp hle)).symm

theorem foldl_keep_mem (l : List α) (a : α) : l.foldl (keep key) a ∈ a :: l := by
  induction l generalizing a with
  | nil => exact List.mem_singleton_self a
  | cons b l ih =>
    rw [List.foldl_cons]
    rcases List.mem_cons.mp (ih (keep key a b)) with heq | hmem
    · rw [heq]
      unfold keep
      split
      · simp
      · simp
    · exact List.mem_cons_of_mem _ (List.mem_cons_of_mem _ hmem)

variable {key}

theorem key_le_foldl_keep (l : List α) (a : α) :
    ∀ b ∈ a :: l, key b ≤ key (l.foldl (keep key) a) := by
  induction l generalizing a with
  | nil => simp
  | cons c l ih =>
    intro b hb
    have hhead := ih (keep key a c) _ List.mem_cons_self
    rw [key_keep key] at hhead
    rcases List.mem_cons.mp hb with rfl | hb
    · exact (le_max_left _ _).trans hhead
    rcases List.mem_cons.mp hb with rfl | hb
    · exact (le_max_right _ _).trans hhead
    · exact ih _ b (List.mem_cons_of_mem _ hb)

/-- Where no two values have one key, the values that came determine what stays. -/
theorem foldl_keep_eq {l l' : List α} {a : α} (hsame : ∀ b, b ∈ l ↔ b ∈ l')
    (hkey : ∀ b ∈ a :: l, ∀ c ∈ a :: l, key b = key c → b = c) :
    l.foldl (keep key) a = l'.foldl (keep key) a := by
  have hcons : ∀ b, b ∈ a :: l ↔ b ∈ a :: l' := by
    intro b
    rw [List.mem_cons, List.mem_cons, hsame]
  have hleft := foldl_keep_mem key l a
  have hright := (hcons _).mpr (foldl_keep_mem key l' a)
  apply hkey _ hleft _ hright
  apply le_antisymm
  · exact key_le_foldl_keep l' a _ ((hcons _).mp hleft)
  · exact key_le_foldl_keep l a _ hright

end Latest
