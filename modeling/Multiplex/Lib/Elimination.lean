-- Gauss–Jordan elimination over a field. The rows of a second matrix go
-- through the same operations, so that it ends as the inverse. A pivot is
-- missing only when some vector other than zero is sent to zero.
import Mathlib.Data.Matrix.Mul
import Mathlib.Data.List.FinRange
import Mathlib.Tactic.Ring

namespace Elimination

variable {K : Type} [Field K] {n : Nat}

/-! ## The operations on rows -/

def swapRows (i j : Fin n) (M : Matrix (Fin n) (Fin n) K) : Matrix (Fin n) (Fin n) K :=
  Matrix.of fun r k => M (if r = i then j else if r = j then i else r) k

def scaleRow (i : Fin n) (c : K) (M : Matrix (Fin n) (Fin n) K) : Matrix (Fin n) (Fin n) K :=
  Matrix.of fun r k => if r = i then M r k * c else M r k

/-- Every row but row `i` loses its own multiple of row `i`. -/
def clearRows (i : Fin n) (f : Fin n → K) (M : Matrix (Fin n) (Fin n) K) :
    Matrix (Fin n) (Fin n) K :=
  Matrix.of fun r k => if r = i then M r k else M r k - f r * M i k

/-- One column: a row from the diagonal on with an entry there becomes the pivot row, with the entry
one, and all other rows lose theirs. -/
def reduceColumn [DecidableEq K] (s : Matrix (Fin n) (Fin n) K × Matrix (Fin n) (Fin n) K)
    (column : Fin n) : Option (Matrix (Fin n) (Fin n) K × Matrix (Fin n) (Fin n) K) :=
  match (List.finRange n).find? fun row => decide (column ≤ row ∧ s.1 row column ≠ 0) with
  | none => none
  | some pivot =>
    let work := swapRows pivot column s.1
    let inverse := swapRows pivot column s.2
    let scale := (work column column)⁻¹
    let work := scaleRow column scale work
    let inverse := scaleRow column scale inverse
    let factor := fun row => work row column
    some (clearRows column factor work, clearRows column factor inverse)

/-- The inverse of a matrix, if every column has a pivot. -/
def gaussJordan [DecidableEq K] (M : Matrix (Fin n) (Fin n) K) :
    Option (Matrix (Fin n) (Fin n) K) :=
  ((List.finRange n).foldlM reduceColumn (M, 1)).map Prod.snd

/-! ## What the operations keep -/

open Matrix

variable (i : Fin n) (f : Fin n → K) (j : Fin n) (c : K) (W V : Matrix (Fin n) (Fin n) K)
  (v : Fin n → K) (r : Fin n)

theorem swapRows_mulVec :
    (swapRows i j W *ᵥ v) r = (W *ᵥ v) (if r = i then j else if r = j then i else r) := rfl

theorem scaleRow_mulVec :
    (scaleRow i c W *ᵥ v) r = if r = i then (W *ᵥ v) r * c else (W *ᵥ v) r := by
  unfold scaleRow
  simp [mulVec, dotProduct]
  split
  · rw [Finset.sum_mul]
    apply Finset.sum_congr rfl
    intro x _
    ring
  · rfl

theorem clearRows_mulVec : (clearRows i f W *ᵥ v) r =
      if r = i then (W *ᵥ v) r else (W *ᵥ v) r - f r * (W *ᵥ v) i := by
  unfold clearRows
  simp [mulVec, dotProduct]
  split
  · rfl
  · rw [Finset.mul_sum, ← Finset.sum_sub_distrib]
    apply Finset.sum_congr rfl
    intro x _
    ring

section
variable (M : Matrix (Fin n) (Fin n) K)

theorem mul_entry (r k : Fin n) :
    (V * M) r k = (V *ᵥ fun x => M x k) r := rfl

theorem swapRows_mul :
    swapRows i j V * M = swapRows i j (V * M) := rfl

theorem scaleRow_mul : scaleRow i c V * M = scaleRow i c (V * M) := by
  ext r k
  rw [mul_entry, scaleRow_mulVec]
  rfl

theorem clearRows_mul : clearRows i f V * M = clearRows i f (V * M) := by
  ext r k
  rw [mul_entry, clearRows_mulVec]
  rfl

end

/-- A vector that the changed rows send to zero is one that the rows send to zero. -/
theorem swapRows_kernel (h : swapRows i j W *ᵥ v = 0) : W *ᵥ v = 0 := by
  funext r
  have hr := congrFun h (if r = i then j else if r = j then i else r)
  rw [swapRows_mulVec] at hr
  have hback : (if (if r = i then j else if r = j then i else r) = i then j
      else if (if r = i then j else if r = j then i else r) = j then i
      else (if r = i then j else if r = j then i else r)) = r := by
    split <;> split <;> simp_all
  rw [hback] at hr
  exact hr

theorem scaleRow_kernel (hc : c ≠ 0) (W : Matrix (Fin n) (Fin n) K) (v : Fin n → K)
    (h : scaleRow i c W *ᵥ v = 0) : W *ᵥ v = 0 := by
  funext r
  have hr := congrFun h r
  rw [scaleRow_mulVec] at hr
  split at hr
  · exact (mul_eq_zero.mp hr).resolve_right hc
  · exact hr

theorem clearRows_kernel (h : clearRows i f W *ᵥ v = 0) : W *ᵥ v = 0 := by
  have hi := congrFun h i
  rw [clearRows_mulVec, if_pos rfl] at hi
  funext r
  have hr := congrFun h r
  rw [clearRows_mulVec, hi] at hr
  split at hr
  · exact hr
  · simpa using hr

/-! ## The sweep -/

/-- After the columns before `c`: `V` takes `M` to `W`, no vector was added to the kernel, and the
columns before `c` are those of the identity. -/
structure Swept (M : Matrix (Fin n) (Fin n) K) (c : Nat)
    (s : Matrix (Fin n) (Fin n) K × Matrix (Fin n) (Fin n) K) : Prop where
  product : s.2 * M = s.1
  kernel : ∀ v, s.1 *ᵥ v = 0 → M *ᵥ v = 0
  done : ∀ k : Fin n, k.val < c → ∀ r, s.1 r k = if r = k then 1 else 0

theorem swept_start (M : Matrix (Fin n) (Fin n) K) : Swept M 0 (M, 1) :=
  ⟨Matrix.one_mul M, fun _ h => h, fun _ hk => absurd hk (Nat.not_lt_zero _)⟩

omit [Field K] in
theorem swapRows_pivot (pivot column : Fin n) (W : Matrix (Fin n) (Fin n) K) :
    swapRows pivot column W column column = W pivot column := by
  change W (if column = pivot then column else if column = column then pivot else column) column = _
  by_cases hcp : column = pivot
  · rw [if_pos hcp, ← hcp]
  · rw [if_neg hcp, if_pos rfl]

variable {column : Fin n} {M : Matrix (Fin n) (Fin n) K}

/-- The columns that were done stay done, and the pivot column is done too. -/
theorem cleared_columns {W : Matrix (Fin n) (Fin n) K} {pivot : Fin n}
    (hdone : ∀ k : Fin n, k < column → ∀ r, W r k = if r = k then 1 else 0) (hle : column ≤ pivot)
    (hne : W pivot column ≠ 0) (k : Fin n) (hk : k ≤ column) (r : Fin n) :
    let work := swapRows pivot column W
    let scaled := scaleRow column (work column column)⁻¹ work
    clearRows column (fun row => scaled row column) scaled r k = if r = k then 1 else 0 := by
  intro work scaled
  have hone : scaled column column = 1 := by
    change (if column = column then work column column * (work column column)⁻¹ else _) = _
    rw [if_pos rfl, mul_inv_cancel₀]
    change swapRows pivot column W column column ≠ 0
    rw [swapRows_pivot]
    exact hne
  change (if r = column then scaled r k else scaled r k - scaled r column * scaled column k) = _
  by_cases hkc : k = column
  · subst hkc
    rw [hone, mul_one, sub_self]
    by_cases hr : r = k
    · rw [if_pos hr, if_pos hr, hr, hone]
    · rw [if_neg hr, if_neg hr]
  · -- an earlier column has no entry in the pivot row
    have hlt : k < column := lt_of_le_of_ne hk hkc
    have hwork : ∀ x, work x k = if x = k then 1 else 0 := by
      intro x
      change W (if x = pivot then column else if x = column then pivot else x) k = _
      rw [hdone k hlt]
      have hkp : k ≠ pivot := ne_of_lt (lt_of_lt_of_le hlt hle)
      by_cases hxp : x = pivot
      · rw [if_pos hxp, if_neg (Ne.symm hkc), hxp, if_neg (Ne.symm hkp)]
      · by_cases hxc : x = column
        · rw [if_neg hxp, if_pos hxc, if_neg (Ne.symm hkp), hxc, if_neg (Ne.symm hkc)]
        · rw [if_neg hxp, if_neg hxc]
    have hzero : scaled column k = 0 := by
      change (if column = column then work column k * (work column column)⁻¹ else _) = _
      rw [if_pos rfl, hwork, if_neg (Ne.symm hkc), zero_mul]
    have hscaled : scaled r k = if r = k then 1 else 0 := by
      by_cases hr : r = column
      · rw [hr, hzero, if_neg (Ne.symm hkc)]
      · change (if r = column then work r k * (work column column)⁻¹ else work r k) = _
        rw [if_neg hr, hwork]
    rw [hzero, mul_zero, sub_zero, ite_self]
    exact hscaled

variable [DecidableEq K]

theorem reduceColumn_swept {s s' : Matrix (Fin n) (Fin n) K × Matrix (Fin n) (Fin n) K}
    (h : Swept M column.val s) (hs : reduceColumn s column = some s') :
    Swept M (column.val + 1) s' := by
  unfold reduceColumn at hs
  split at hs
  · cases hs
  rename_i pivot hfind
  have hp := List.find?_some hfind
  simp at hp
  obtain ⟨hle, hne⟩ := hp
  cases hs
  have hcol := fun k hk => cleared_columns (fun k hk => h.done k hk) hle hne k hk
  have hpiv : swapRows pivot column s.1 column column ≠ 0 := by
    rw [swapRows_pivot]
    exact hne
  refine ⟨?_, ?_, ?_⟩
  · simp only [clearRows_mul, scaleRow_mul, swapRows_mul, h.product]
  · intro v hv
    apply h.kernel
    apply swapRows_kernel pivot column
    apply scaleRow_kernel column _ (inv_ne_zero hpiv)
    exact clearRows_kernel column _ _ v hv
  · intro k hk r
    exact hcol k (by rw [Fin.le_def]; omega) r

/-- Without a pivot the column is a combination of the earlier ones, so that some vector other than
zero is sent to zero. -/
theorem pivot_exists {s : Matrix (Fin n) (Fin n) K × Matrix (Fin n) (Fin n) K}
    (h : Swept M column.val s) (hM : ∀ v, M *ᵥ v = 0 → v = 0) : (reduceColumn s column).isSome := by
  unfold reduceColumn
  split
  · rename_i hfind
    rw [List.find?_eq_none] at hfind
    have hbelow : ∀ r, column ≤ r → s.1 r column = 0 := by
      intro r hr
      have := hfind r (List.mem_finRange r)
      simp at this
      exact this hr
    let v : Fin n → K := fun k => if k < column then - s.1 k column else if k = column then 1 else 0
    have hv : v = 0 := by
      apply hM
      apply h.kernel
      funext r
      have hterm : ∀ k, s.1 r k * v k =
          (if k = r then (if r < column then - s.1 r column else 0) else 0) +
            (if k = column then s.1 r column else 0) := by
        intro k
        by_cases hk : k < column
        · have hkc : k ≠ column := ne_of_lt hk
          by_cases hkr : k = r
          · subst hkr
            simp [v, h.done k hk, hk, hkc]
          · simp [v, h.done k hk, hk, hkc, hkr, Ne.symm hkr]
        · by_cases hkc : k = column
          · subst hkc
            by_cases hkr : k = r
            · subst hkr
              simp [v]
            · simp [v, hkr]
          · by_cases hkr : k = r
            · subst hkr
              simp [v, hk, hkc]
            · simp [v, hk, hkc, hkr]
      simp [mulVec, dotProduct, hterm, Finset.sum_add_distrib]
      by_cases hr : r < column
      · simp [hr]
      · simp [hr, hbelow r (not_lt.mp hr)]
    have hone := congrFun hv column
    simp [v] at hone
  · rfl

section
variable (M : Matrix (Fin n) (Fin n) K) (hM : ∀ v, M *ᵥ v = 0 → v = 0)
include hM

/-- The columns that are left, once the first ones are done. -/
theorem sweep_rest (before after : List (Fin n)) (hl : List.finRange n = before ++ after)
    (s : Matrix (Fin n) (Fin n) K × Matrix (Fin n) (Fin n) K) (h : Swept M before.length s) :
    ∃ s', after.foldlM reduceColumn s = some s' ∧ Swept M n s' := by
  induction after generalizing before s with
  | nil =>
    have hlen := congrArg List.length hl
    simp at hlen
    rw [← hlen] at h
    exact ⟨s, rfl, h⟩
  | cons column after ih =>
    have hcol : column.val = before.length := by
      have hget : (List.finRange n)[before.length]? = some column := by
        rw [hl]
        simp
      simp only [List.getElem?_eq_some_iff, List.getElem_finRange] at hget
      obtain ⟨hlt, hget⟩ := hget
      rw [← hget]
      rfl
    rw [← hcol] at h
    obtain ⟨s1, hs1⟩ := Option.isSome_iff_exists.mp (pivot_exists h hM)
    have h1 := reduceColumn_swept h hs1
    obtain ⟨s', hs', hsw⟩ := ih (before ++ [column]) (by rw [hl]; simp) s1
      (by rw [List.length_append, ← hcol]; exact h1)
    refine ⟨s', ?_, hsw⟩
    rw [List.foldlM_cons, hs1]
    exact hs'

/-- Elimination inverts every matrix that sends only zero to zero. -/
theorem gaussJordan_inverts : ∃ N, gaussJordan M = some N ∧ N * M = 1 := by
  obtain ⟨s, hs, hsw⟩ := sweep_rest M hM [] (List.finRange n) rfl (M, 1) (swept_start M)
  refine ⟨s.2, ?_, ?_⟩
  · unfold gaussJordan
    rw [hs]
    rfl
  · rw [hsw.product]
    ext r k
    rw [hsw.done k k.isLt r, Matrix.one_apply]

end

end Elimination
