-- Queues of what happened lately, by a clock that does not go back. What happens
-- joins at the end, and what is too old leaves from the front, so that a queue
-- that was just pruned holds all that happened in the window that ends now.
import Mathlib.Data.List.TakeWhile
import Mathlib.Tactic

namespace Windows

variable {α : Type} (time : α → Nat)

def prune (window now : Nat) (queue : List α) : List α :=
  queue.dropWhile fun a => window ≤ now - time a

/-- What happened in the window that ends now. -/
def recent (window now : Nat) (history : List α) : List α :=
  history.filter fun a => now - time a < window

/-- All that left the queue is too old by now. -/
structure Holds (window now : Nat) (history queue : List α) : Prop where
  sorted : history.Pairwise fun a b => time a ≤ time b
  past : ∀ a ∈ history, time a ≤ now
  kept : ∃ dropped, history = dropped ++ queue ∧ ∀ a ∈ dropped, window ≤ now - time a

namespace Holds

variable {time} {window now : Nat} {history queue : List α}

theorem empty (window now : Nat) : Holds time window now [] [] where
  sorted := List.Pairwise.nil
  past := by simp
  kept := ⟨[], rfl, by simp⟩

section
variable (h : Holds time window now history queue)
include h

theorem later {now' : Nat} (hle : now ≤ now') :
    Holds time window now' history queue where
  sorted := h.sorted
  past a ha := (h.past a ha).trans hle
  kept := by
    obtain ⟨dropped, hsplit, hold⟩ := h.kept
    exact ⟨dropped, hsplit, fun a ha => (hold a ha).trans (Nat.sub_le_sub_right hle _)⟩

theorem prune :
    Holds time window now history (prune time window now queue) where
  sorted := h.sorted
  past := h.past
  kept := by
    obtain ⟨dropped, hsplit, hold⟩ := h.kept
    refine ⟨dropped ++ queue.takeWhile fun a => window ≤ now - time a, ?_, ?_⟩
    · rw [List.append_assoc, Windows.prune, List.takeWhile_append_dropWhile, hsplit]
    · intro a ha
      rcases List.mem_append.mp ha with ha | ha
      · exact hold a ha
      · simpa using List.mem_takeWhile_imp ha

theorem push {a : α} (ha : time a = now) :
    Holds time window now (history ++ [a]) (queue ++ [a]) where
  sorted := by
    rw [List.pairwise_append]
    refine ⟨h.sorted, List.pairwise_singleton _ _, ?_⟩
    intro b hb c hc
    rw [List.mem_singleton.mp hc, ha]
    exact h.past b hb
  past b hb := by
    rcases List.mem_append.mp hb with hb | hb
    · exact h.past b hb
    · rw [List.mem_singleton.mp hb, ha]
  kept := by
    obtain ⟨dropped, hsplit, hold⟩ := h.kept
    exact ⟨dropped, by rw [hsplit, List.append_assoc], hold⟩

theorem queue_sorted : queue.Pairwise fun a b => time a ≤ time b := by
  obtain ⟨dropped, hsplit, -⟩ := h.kept
  have hsorted := h.sorted
  rw [hsplit, List.pairwise_append] at hsorted
  exact hsorted.2.1

theorem pruned : Windows.prune time window now queue = recent time window now history := by
  obtain ⟨dropped, hsplit, hold⟩ := h.kept
  have hdropped : recent time window now dropped = [] := by
    unfold recent
    rw [List.filter_eq_nil_iff]
    intro a ha
    simpa using hold a ha
  have hqueue : ∀ queue : List α, (queue.Pairwise fun a b => time a ≤ time b) →
      Windows.prune time window now queue = recent time window now queue := by
    intro queue hsorted
    induction queue with
    | nil => rfl
    | cons a queue ih =>
      obtain ⟨hfirst, hrest⟩ := List.pairwise_cons.mp hsorted
      unfold Windows.prune recent
      by_cases hold : window ≤ now - time a
      · rw [List.dropWhile_cons_of_pos (by simpa using hold),
          List.filter_cons_of_neg (by simpa using hold)]
        exact ih hrest
      · rw [List.dropWhile_cons_of_neg (by simpa using hold)]
        -- what came later is recent too
        symm
        rw [List.filter_eq_self]
        intro b hb
        have hle : time a ≤ time b := by
          rcases List.mem_cons.mp hb with rfl | hb
          · exact le_rfl
          · exact hfirst b hb
        simp
        omega
  rw [hqueue queue h.queue_sorted, hsplit]
  unfold recent at hdropped ⊢
  rw [List.filter_append, hdropped, List.nil_append]

end

end Holds

/-! ## Any window -/

/-- Nothing happened while `limit` or more were recent. -/
def Spaced (limit window : Nat) (history : List α) : Prop :=
  ∀ before a after, history = before ++ a :: after →
    (recent time window (time a) before).length < limit

variable {time} {limit window now : Nat} {history : List α}

theorem spaced_nil : Spaced time limit window [] := by
  intro before a after h
  simp at h

theorem Spaced.push (h : Spaced time limit window history) {a : α}
    (ha : (recent time window (time a) history).length < limit) :
    Spaced time limit window (history ++ [a]) := by
  intro before b after hsplit
  rcases List.eq_nil_or_concat after with rfl | ⟨after, c, rfl⟩
  · obtain ⟨rfl, hb⟩ := List.append_inj' hsplit rfl
    cases hb
    exact ha
  · rw [List.concat_eq_append, ← List.cons_append, ← List.append_assoc] at hsplit
    obtain ⟨hhistory, -⟩ := List.append_inj' hsplit rfl
    exact h before b after hhistory

theorem Spaced.count_le (h : Spaced time limit window history)
    (hsorted : history.Pairwise fun a b => time a ≤ time b) (start : Nat) :
    (history.filter fun a => start ≤ time a ∧ time a < start + window).length ≤ limit := by
  induction history using List.reverseRecOn with
  | nil => simp
  | append_singleton history a ih =>
    have hrest : Spaced time limit window history := by
      intro before b after hsplit
      apply h before b (after ++ [a])
      rw [hsplit, List.append_assoc, List.cons_append]
    rw [List.pairwise_append] at hsorted
    obtain ⟨hbefore, -, hlast⟩ := hsorted
    rw [List.filter_append, List.length_append]
    by_cases hin : start ≤ time a ∧ time a < start + window
    · -- all that is in the window came shortly before the last one
      have hrecent := h history a [] rfl
      have hsub : (history.filter fun b => start ≤ time b ∧ time b < start + window).length ≤
          (recent time window (time a) history).length := by
        apply List.Sublist.length_le
        apply List.monotone_filter_right
        intro b hb
        simp at hb ⊢
        omega
      rw [List.filter_cons_of_pos (by simpa using hin), List.filter_nil, List.length_singleton]
      omega
    · rw [List.filter_cons_of_neg (by simpa using hin), List.filter_nil, List.length_nil]
      exact ih hrest hbefore

/-! ## Queues of different keys, with a bound -/

def cap (limit : Nat) (queue : List α) : List α := queue.drop (queue.length - limit)

variable {κ : Type} [DecidableEq κ] {key : α → κ}

/-- How many keys other than that of `a` there are. -/
def others (key : α → κ) (a : α) (l : List α) : Nat := ((l.map key).toFinset.erase (key a)).card

theorem others_mono {a : α} {l l' : List α} (h : l ⊆ l') : others key a l ≤ others key a l' := by
  apply Finset.card_le_card
  apply Finset.erase_subset_erase
  intro k hk
  rw [List.mem_toFinset] at hk ⊢
  exact List.map_subset key h hk

/-- What left the queue is too old, or enough other keys came after it. -/
structure Remembers (key : α → κ) (time : α → Nat) (window limit now : Nat)
    (history queue : List α) : Prop where
  past : ∀ a ∈ history, time a ≤ now
  different : (queue.map key).Nodup
  kept : ∃ dropped, history = dropped ++ queue ∧ ∀ before a after, dropped = before ++ a :: after →
    window ≤ now - time a ∨ limit ≤ others key a (after ++ queue)

namespace Remembers

variable {queue : List α}

theorem empty (key : α → κ) (time : α → Nat) (window limit now : Nat) :
    Remembers key time window limit now [] [] where
  past := by simp
  different := List.nodup_nil
  kept := ⟨[], rfl, fun before a after h => by simp at h⟩

theorem later (h : Remembers key time window limit now history queue) {now' : Nat}
    (hle : now ≤ now') : Remembers key time window limit now' history queue where
  past a ha := (h.past a ha).trans hle
  different := h.different
  kept := by
    obtain ⟨dropped, hsplit, hleft⟩ := h.kept
    refine ⟨dropped, hsplit, fun before a after heq => ?_⟩
    exact (hleft before a after heq).imp_left fun hold => hold.trans (Nat.sub_le_sub_right hle _)

theorem drop {front : List α} (h : Remembers key time window limit now history (front ++ queue))
    (hfront : ∀ before a after, front = before ++ a :: after →
      window ≤ now - time a ∨ limit ≤ others key a (after ++ queue)) :
    Remembers key time window limit now history queue where
  past := h.past
  different := by
    have hdifferent := h.different
    rw [List.map_append, List.nodup_append] at hdifferent
    exact hdifferent.2.1
  kept := by
    obtain ⟨dropped, hsplit, hleft⟩ := h.kept
    refine ⟨dropped ++ front, by rw [hsplit, List.append_assoc], fun before a after heq => ?_⟩
    rcases List.append_eq_append_iff.mp heq with ⟨mid, hbefore, hfront'⟩ | ⟨mid, hdropped, hrest⟩
    · exact hfront mid a after hfront'
    · cases mid with
      | nil =>
        exact hfront [] a after hrest.symm
      | cons c mid =>
        rw [List.cons_append, List.cons.injEq] at hrest
        obtain ⟨rfl, hafter⟩ := hrest
        have hold := hleft before a mid hdropped
        rwa [← List.append_assoc, ← hafter] at hold

section
variable (h : Remembers key time window limit now history queue)
include h

theorem prune : Remembers key time window limit now history (prune time window now queue) := by
  have hsplit := List.takeWhile_append_dropWhile (p := fun a => window ≤ now - time a) (l := queue)
  rw [← hsplit] at h
  apply h.drop
  intro before a after hfront
  left
  have hmem : a ∈ queue.takeWhile fun a => window ≤ now - time a := by
    rw [hfront]
    simp
  simpa using List.mem_takeWhile_imp hmem

theorem push {a : α} (ha : time a = now) (hnew : key a ∉ queue.map key) :
    Remembers key time window limit now (history ++ [a]) (queue ++ [a]) where
  past b hb := by
    rcases List.mem_append.mp hb with hb | hb
    · exact h.past b hb
    · rw [List.mem_singleton.mp hb, ha]
  different := by
    rw [List.map_append, List.nodup_append]
    refine ⟨h.different, List.nodup_singleton _, fun k hk k' hk' heq => ?_⟩
    rw [List.map_singleton, List.mem_singleton] at hk'
    exact hnew (hk' ▸ heq ▸ hk)
  kept := by
    obtain ⟨dropped, hsplit, hleft⟩ := h.kept
    refine ⟨dropped, by rw [hsplit, List.append_assoc], fun before b after heq => ?_⟩
    refine (hleft before b after heq).imp_right fun hmany => hmany.trans (others_mono ?_)
    rw [← List.append_assoc]
    exact List.subset_append_left _ _

theorem cap : Remembers key time window limit now history (cap limit queue) := by
  have hsplit := List.take_append_drop (queue.length - limit) queue
  rw [← hsplit] at h
  apply h.drop
  intro before a after hfront
  right
  let rest := queue.drop (queue.length - limit)
  -- the ones that stay have different keys, and none has the key of one that leaves
  have hdifferent := h.different
  rw [hfront, List.map_append, List.nodup_append] at hdifferent
  obtain ⟨-, hrest, hapart⟩ := hdifferent
  have hlength : rest.length = limit := by
    have htake := congrArg List.length hfront
    rw [List.length_take, List.length_append, List.length_cons] at htake
    rw [List.length_drop]
    omega
  have hnot : key a ∉ (rest.map key).toFinset := by
    rw [List.mem_toFinset]
    intro hmem
    exact hapart (key a) (List.mem_map_of_mem (by simp)) (key a) hmem rfl
  calc limit = (rest.map key).toFinset.card := by
        rw [List.toFinset_card_of_nodup hrest, List.length_map, hlength]
    _ = others key a rest := by
        unfold others
        rw [Finset.erase_eq_of_notMem hnot]
    _ ≤ others key a (after ++ rest) := others_mono (List.subset_append_right _ _)

/-- A key that left the queue comes back late, or after enough others. -/
theorem again {a : α} (hnew : key a ∉ queue.map key) {before mid : List α} {b : α}
    (hhistory : history = before ++ b :: mid) (hkey : key b = key a) :
    window ≤ now - time b ∨ limit ≤ others key b mid := by
  obtain ⟨dropped, hsplit, hleft⟩ := h.kept
  rw [hsplit] at hhistory
  rcases List.append_eq_append_iff.mp hhistory with ⟨front, hbefore, hqueue⟩ |
    ⟨after, hdropped, hrest⟩
  · -- it would still be in the queue
    exfalso
    apply hnew
    rw [hqueue, ← hkey]
    exact List.mem_map_of_mem (by simp)
  · cases after with
    | nil =>
      exfalso
      apply hnew
      rw [List.nil_append] at hrest
      rw [← hrest, ← hkey]
      exact List.mem_map_of_mem List.mem_cons_self
    | cons c after =>
      obtain ⟨rfl, rfl⟩ := hrest
      exact hleft before b after hdropped

end

end Remembers

theorem length_cap_le (limit : Nat) (queue : List α) : (cap limit queue).length ≤ limit := by
  unfold cap
  rw [List.length_drop]
  omega

/-- No key comes back early, unless enough others came in between. -/
def Apart (key : α → κ) (time : α → Nat) (window limit : Nat) (history : List α) : Prop :=
  ∀ before a mid b after, history = before ++ a :: (mid ++ b :: after) → key a = key b →
    window ≤ time b - time a ∨ limit ≤ others key a mid

theorem apart_nil : Apart key time window limit [] := by
  intro before a mid b after h
  simp at h

theorem Apart.push (h : Apart key time window limit history) {queue : List α}
    (hqueue : Remembers key time window limit now history queue) {a : α} (ha : time a = now)
    (hnew : key a ∉ queue.map key) : Apart key time window limit (history ++ [a]) := by
  intro before b mid c after hsplit hkey
  rcases List.eq_nil_or_concat after with rfl | ⟨after, d, rfl⟩
  · rw [← List.cons_append, ← List.append_assoc] at hsplit
    obtain ⟨hhistory, hlast⟩ := List.append_inj' hsplit rfl
    cases hlast
    rw [ha]
    exact hqueue.again hnew hhistory hkey
  · rw [List.concat_eq_append, ← List.cons_append, ← List.append_assoc, ← List.cons_append,
      ← List.append_assoc] at hsplit
    obtain ⟨hhistory, -⟩ := List.append_inj' hsplit rfl
    rw [List.append_assoc, List.cons_append] at hhistory
    exact h before b mid c after hhistory hkey

end Windows
