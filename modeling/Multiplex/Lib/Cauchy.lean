-- Cauchy systems over a field: sums of `a i / (x - y i)` that are zero at as
-- many points `x` as there are terms have every `a i` zero. The sum is a
-- polynomial of small degree over the product of the `x - y i`.
import Mathlib.LinearAlgebra.Lagrange

namespace Cauchy

open Polynomial

variable {K ι : Type} [Field K] [DecidableEq ι]

/-- The numerator of the sum over the common denominator. -/
noncomputable def numerator (s : Finset ι) (y a : ι → K) : K[X] :=
  ∑ i ∈ s, C (a i) * ∏ k ∈ s.erase i, (X - C (y k))

variable (s : Finset ι) (y a : ι → K)

/-- Away from the poles the sum is the numerator over the product. -/
theorem eval_numerator (x : K) (hx : ∀ i ∈ s, x - y i ≠ 0) :
    (numerator s y a).eval x = (∏ i ∈ s, (x - y i)) * ∑ i ∈ s, a i / (x - y i) := by
  unfold numerator
  rw [eval_finsetSum, Finset.mul_sum]
  apply Finset.sum_congr rfl
  intro i hi
  rw [eval_mul, eval_C, eval_prod, ← Finset.mul_prod_erase s (fun k => x - y k) hi]
  have hne := hx i hi
  simp
  field_simp

theorem eval_numerator_pole {i : ι} (hi : i ∈ s) :
    (numerator s y a).eval (y i) = a i * ∏ k ∈ s.erase i, (y i - y k) := by
  unfold numerator
  rw [eval_finsetSum, Finset.sum_eq_single i]
  · rw [eval_mul, eval_C, eval_prod]
    simp
  · intro j _ hji
    rw [eval_mul, eval_prod]
    have hmem : i ∈ s.erase j := Finset.mem_erase.mpr ⟨Ne.symm hji, hi⟩
    rw [Finset.prod_eq_zero hmem (by simp), mul_zero]
  · intro hni
    exact absurd hi hni

theorem degree_numerator_lt (hs : s.Nonempty) : (numerator s y a).degree < s.card := by
  apply lt_of_le_of_lt (degree_sum_le _ _)
  rw [Finset.sup_lt_iff (WithBot.bot_lt_coe _)]
  intro i hi
  have hprod : (∏ k ∈ s.erase i, (X - C (y k))).degree = ((s.card - 1 : Nat) : WithBot Nat) := by
    rw [degree_prod]
    simp
    rw [Finset.card_erase_of_mem hi]
  have hterm : (C (a i) * ∏ k ∈ s.erase i, (X - C (y k))).degree ≤
      ((s.card - 1 : Nat) : WithBot Nat) := by
    rw [degree_mul, hprod]
    calc (C (a i)).degree + ((s.card - 1 : Nat) : WithBot Nat)
        ≤ 0 + ((s.card - 1 : Nat) : WithBot Nat) := by
          gcongr
          exact degree_C_le
      _ = ((s.card - 1 : Nat) : WithBot Nat) := zero_add _
  apply lt_of_le_of_lt hterm
  have hpos := Finset.card_pos.mpr hs
  exact_mod_cast Nat.sub_lt hpos Nat.one_pos

/-- A Cauchy system with as many equations as unknowns has only the solution zero. -/
theorem unknowns_are_zero (hy : Set.InjOn y s) (points : Finset K)
    (hpoles : ∀ x ∈ points, ∀ i ∈ s, x ≠ y i) (hcard : s.card ≤ points.card)
    (hsum : ∀ x ∈ points, ∑ i ∈ s, a i / (x - y i) = 0) : ∀ i ∈ s, a i = 0 := by
  intro i hi
  have hzero : numerator s y a = 0 := by
    apply eq_zero_of_degree_lt_of_eval_finset_eq_zero points
    · exact lt_of_lt_of_le (degree_numerator_lt s y a ⟨i, hi⟩) (by exact_mod_cast hcard)
    · intro x hx
      rw [eval_numerator s y a x fun k hk => sub_ne_zero.mpr (hpoles x hx k hk), hsum x hx, mul_zero]
  have hpole := eval_numerator_pole s y a hi
  rw [hzero, eval_zero] at hpole
  refine (mul_eq_zero.mp hpole.symm).resolve_right ?_
  apply Finset.prod_ne_zero_iff.mpr
  intro k hk
  rw [Finset.mem_erase] at hk
  exact sub_ne_zero.mpr fun h => hk.1 (hy hk.2 hi h.symm)

end Cauchy
