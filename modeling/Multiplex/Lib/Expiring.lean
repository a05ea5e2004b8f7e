-- A map and a queue of its keys, oldest first. Keys leave from the front of the
-- queue when they expire and when the map is full. While both hold the same keys
-- the loops end, and a key stays until it expires or enough newer ones follow.
import Mathlib.Data.List.AList
import Mathlib.Tactic

namespace Expiring

variable {κ υ : Type} [DecidableEq κ]

abbrev Entries (κ υ : Type) := AList fun _ : κ => υ

def len (entries : Entries κ υ) : Nat := entries.entries.length

/-! ## The loops -/

/-- While the key in front has expired it is dropped. A key without an entry counts as expired. -/
def prune (expired : υ → Bool) : List κ → Entries κ υ → List κ × Entries κ υ
  | [], entries => ([], entries)
  | k :: order, entries =>
    if (entries.lookup k).all expired then prune expired order (entries.erase k)
    else (k :: order, entries)

/-- While the map is full the key in front is dropped. With nothing in front of a full map the
loop goes on for ever. -/
def evict (limit : Nat) : List κ → Entries κ υ → Option (List κ × Entries κ υ)
  | [], entries => if len entries ≥ limit then none else some ([], entries)
  | k :: order, entries =>
    if len entries ≥ limit then evict limit order (entries.erase k) else some (k :: order, entries)

/-! ## The map and the queue hold the same keys -/

structure Agree (order : List κ) (entries : Entries κ υ) : Prop where
  nodup : order.Nodup
  same : ∀ k, k ∈ order ↔ k ∈ entries

omit [DecidableEq κ] in
theorem agree_empty : Agree ([] : List κ) (∅ : Entries κ υ) where
  nodup := List.nodup_nil
  same k := by simp

variable {order : List κ} {entries : Entries κ υ}

omit [DecidableEq κ] in
theorem Agree.length (h : Agree order entries) : len entries = order.length := by
  have hperm : entries.keys.Perm order := by
    rw [List.perm_ext_iff_of_nodup entries.keys_nodup h.nodup]
    intro k
    rw [h.same k, AList.mem_keys]
  rw [← hperm.length_eq]
  exact (List.length_map Sigma.fst).symm

variable {k : κ}

theorem Agree.erase (h : Agree (k :: order) entries) : Agree order (entries.erase k) where
  nodup := h.nodup.of_cons
  same k' := by
    have hk := (List.nodup_cons.mp h.nodup).1
    rw [AList.mem_erase, ← h.same k', List.mem_cons]
    constructor
    · intro hk'
      exact ⟨fun heq => hk (heq ▸ hk'), .inr hk'⟩
    · rintro ⟨hne, heq | hk'⟩
      · exact absurd heq hne
      · exact hk'

theorem Agree.push (h : Agree order entries) (hk : k ∉ entries) (v : υ) :
    Agree (order ++ [k]) (entries.insert k v) where
  nodup := by
    rw [List.nodup_append]
    refine ⟨h.nodup, List.nodup_singleton k, ?_⟩
    intro a ha b hb heq
    rw [List.mem_singleton] at hb
    exact hk ((h.same k).mp (hb ▸ heq ▸ ha))
  same k' := by
    rw [AList.mem_insert, List.mem_append, List.mem_singleton, h.same k', or_comm]

theorem Agree.replace (h : Agree order entries) (hk : k ∈ entries) (v : υ) :
    Agree order (entries.insert k v) where
  nodup := h.nodup
  same k' := by
    rw [AList.mem_insert, h.same k']
    constructor
    · exact .inr
    · rintro (rfl | hk')
      · exact hk
      · exact hk'

theorem Agree.prune (expired : υ → Bool) (h : Agree order entries) :
    Agree (prune expired order entries).1 (prune expired order entries).2 := by
  induction order generalizing entries with
  | nil => exact h
  | cons k order ih =>
    unfold Expiring.prune
    split
    · exact ih h.erase
    · exact h

/-- The loop of `evict` ends, and leaves room. -/
theorem Agree.evict {limit : Nat} (hl : 0 < limit) (h : Agree order entries) :
    ∃ order' entries', evict limit order entries = some (order', entries') ∧
      Agree order' entries' ∧ len entries' < limit := by
  induction order generalizing entries with
  | nil =>
    have hlen := h.length
    rw [List.length_nil] at hlen
    refine ⟨[], entries, ?_, h, by omega⟩
    unfold Expiring.evict
    rw [if_neg (by omega)]
  | cons k order ih =>
    unfold Expiring.evict
    by_cases hfull : len entries ≥ limit
    · rw [if_pos hfull]
      exact ih h.erase
    · rw [if_neg hfull]
      exact ⟨_, _, rfl, h, not_le.mp hfull⟩

/-! ## What leaves -/

theorem notMem_prune {expired : υ → Bool} (h : k ∉ entries) :
    k ∉ (prune expired order entries).2 := by
  induction order generalizing entries with
  | nil => exact h
  | cons k' order ih =>
    unfold prune
    split
    · apply ih
      rw [AList.mem_erase]
      exact fun hk => h hk.2
    · exact h

theorem notMem_evict {limit : Nat} {order' : List κ} {entries' : Entries κ υ}
    (he : evict limit order entries = some (order', entries')) (h : k ∉ entries) :
    k ∉ entries' := by
  induction order generalizing entries with
  | nil =>
    unfold evict at he
    split at he <;> cases he
    exact h
  | cons k' order ih =>
    unfold evict at he
    split at he
    · apply ih he
      rw [AList.mem_erase]
      exact fun hk => h hk.2
    · cases he
      exact h

/-! ## What stays -/

/-- The key is there with its value, and at most `n` newer keys are in the queue. -/
structure Remembers (order : List κ) (entries : Entries κ υ) (k : κ) (v : υ) (n : Nat) : Prop where
  value : entries.lookup k = some v
  place : ∃ pre post, order = pre ++ k :: post ∧ post.length ≤ n

variable {v : υ} {n : Nat}

theorem Remembers.mem (h : Remembers order entries k v n) : k ∈ entries :=
  AList.lookup_isSome.mp (by rw [h.value]; rfl)

theorem Remembers.erase {k' : κ} (h : Remembers (k' :: order) entries k v n) (hne : k' ≠ k) :
    Remembers order (entries.erase k') k v n := by
  obtain ⟨hvalue, pre, post, heq, hlen⟩ := h
  refine ⟨by rw [AList.lookup_erase_ne (Ne.symm hne), hvalue], ?_⟩
  cases pre with
  | nil =>
    cases heq
    exact absurd rfl hne
  | cons a pre =>
    cases heq
    exact ⟨pre, post, rfl, hlen⟩

section
variable (h : Remembers order entries k v n)
include h

theorem Remembers.prune {expired : υ → Bool} (hv : expired v = false) :
    Remembers (prune expired order entries).1 (prune expired order entries).2 k v n := by
  induction order generalizing entries with
  | nil => exact h
  | cons k' order ih =>
    unfold Expiring.prune
    split
    · rename_i hexpired
      apply ih
      apply h.erase
      rintro rfl
      rw [h.value, Option.all_some, hv] at hexpired
      cases hexpired
    · exact h

/-- A key with few newer ones stays when room is made for one more. -/
theorem Remembers.evict {limit : Nat} (hagree : Agree order entries) (hn : n + 1 < limit)
    {order' : List κ} {entries' : Entries κ υ}
    (he : evict limit order entries = some (order', entries')) :
    Remembers order' entries' k v n := by
  induction order generalizing entries with
  | nil =>
    obtain ⟨-, pre, post, heq, -⟩ := h
    simp at heq
  | cons k' order ih =>
    unfold Expiring.evict at he
    split at he
    · refine ih (h.erase ?_) hagree.erase he
      -- with the key in front, the newer ones would fill the map
      rintro rfl
      obtain ⟨-, pre, post, heq, hlen⟩ := h
      cases pre with
      | nil =>
        cases heq
        have := hagree.length
        rw [List.length_cons] at this
        omega
      | cons a pre =>
        cases heq
        exact (List.nodup_cons.mp hagree.nodup).1 (by simp)
    · cases he
      exact h

theorem Remembers.push {k' : κ} (hk : k' ∉ entries) (v' : υ) :
    Remembers (order ++ [k']) (entries.insert k' v') k v (n + 1) := by
  have hne : k ≠ k' := fun heq => hk (heq ▸ h.mem)
  obtain ⟨hvalue, pre, post, rfl, hlen⟩ := h
  refine ⟨by rw [AList.lookup_insert_ne hne, hvalue], pre, post ++ [k'], by simp, ?_⟩
  rw [List.length_append, List.length_singleton]
  omega

end

theorem remembers_last (order : List κ) (entries : Entries κ υ) (k : κ) (v : υ) :
    Remembers (order ++ [k]) (entries.insert k v) k v 0 :=
  ⟨AList.lookup_insert entries, order, [], rfl, Nat.le_refl 0⟩

end Expiring
