-- Forward error correction, as `fec.rs` has it: a systematic Reed–Solomon code
-- from a Cauchy matrix. Any `data` shards of a group, whichever they are,
-- give the group back.
import Multiplex.Lib.Bytes
import Multiplex.Lib.Cauchy
import Multiplex.Lib.Elimination
import Multiplex.ScreenProtocol.Galois

open Bytes

namespace multiplex_screen_protocol

inductive ProtocolError
  | FrameTooLarge
  | Malformed
  | UnsupportedVersion
  | InvalidBatch
  deriving DecidableEq

def MAX_SHARDS : Nat := 256

abbrev Shard := List UInt8

/-! ## The code -/

/-- A code for a fixed shape. `coefficients` has a row for each parity shard. -/
structure Fec where
  data : Nat
  parity : Nat
  coefficients : Nat → Nat → UInt8

def Fec.new (data parity : Nat) : Except ProtocolError Fec :=
  if data = 0 ∨ parity = 0 ∨ data + parity > MAX_SHARDS then .error .Malformed
  else .ok ⟨data, parity, fun row column => invert (UInt8.ofNat (data + row) ^^^ UInt8.ofNat column)⟩

/-- `*destination ^= multiply(coefficient, *source)` along a shard, skipped when the coefficient is
zero. -/
def add_scaled (out : Shard) (term : UInt8 × Shard) : Shard :=
  if term.1 = 0 then out
  else List.zipWith (fun destination source => destination ^^^ multiply term.1 source) out term.2

/-- The loops that add up shards, each times its coefficient. -/
def combine (length : Nat) (terms : List (UInt8 × Shard)) : Shard :=
  terms.foldl add_scaled (List.replicate length 0)

def Fec.parity_shard (f : Fec) (length : Nat) (shards : List Shard) (row : Nat) : Shard :=
  combine length (shards.zipIdx.map fun s => (f.coefficients row s.2, s.1))

def Fec.encode (f : Fec) (shards : List Shard) : Except ProtocolError (List Shard) :=
  if shards.length ≠ f.data then .error .Malformed
  else
    let length := (shards.headD []).length
    if length = 0 ∨ shards.any (fun shard => decide (shard.length ≠ length)) then .error .Malformed
    else .ok ((List.range f.parity).map (f.parity_shard length shards))

/-- Gauss–Jordan elimination in GF(256). -/
def invert_matrix {size : Nat} (matrix : Matrix (Fin size) (Fin size) GF256) :
    Except ProtocolError (Matrix (Fin size) (Fin size) GF256) :=
  match Elimination.gaussJordan matrix with
  | some inverse => .ok inverse
  | none => .error .Malformed

/-- `matrix[row * size + column]`. -/
def entry {size : Nat} (matrix : Matrix (Fin size) (Fin size) GF256) (row column : Nat) : UInt8 :=
  if h : row < size ∧ column < size then (matrix ⟨row, h.1⟩ ⟨column, h.2⟩).byte else 0

/-- `vec![0u8; self.data]` with a one at `column`. -/
def unit_row (column : Nat) : Nat → UInt8 := fun at_ => if at_ = column then 1 else 0

def data_rows (data : List (Option Shard)) : List ((Nat → UInt8) × Shard) :=
  data.zipIdx.filterMap fun d => d.1.map fun shard => (unit_row d.2, shard)

/-- The rows of `matrix` with the shards of `known`: the data shards that arrived, then the parity
shards, up to `data` rows. -/
def Fec.known_rows (f : Fec) (data : List (Option Shard)) (parity : List (Nat × Shard)) :
    List ((Nat → UInt8) × Shard) :=
  (data_rows data ++ parity.map fun p => (f.coefficients p.1, p.2)).take f.data

def rowsMatrix (size : Nat) (rows : List ((Nat → UInt8) × Shard)) :
    Matrix (Fin size) (Fin size) GF256 :=
  Matrix.of fun i j => ⟨(rows.getD i (unit_row 0, [])).1 j⟩

def Fec.solve (f : Fec) (data : List (Option Shard)) (parity : List (Nat × Shard))
    (missing : List Nat) (length : Nat) : Except ProtocolError (List Shard) :=
  let rows := f.known_rows data parity
  if rows.length < f.data then .error .Malformed
  else
    match invert_matrix (rowsMatrix f.data rows) with
    | .error e => .error e
    | .ok inverse =>
      .ok (missing.map fun row => combine length (rows.zipIdx.map fun r =>
        (entry inverse row r.2, r.1.2)))

def missing_of (data : List (Option Shard)) : List Nat :=
  data.zipIdx.filterMap fun d => if d.1.isNone then some d.2 else none

/-- Rebuilds the missing data shards. The first part of the result is the slice afterwards. -/
def Fec.rebuild (f : Fec) (data : List (Option Shard)) (parity : List (Nat × Shard)) :
    List (Option Shard) × Except ProtocolError Unit :=
  if data.length ≠ f.data then (data, .error .Malformed)
  else if data.all Option.isSome then (data, .ok ())
  else
    match (data.filterMap id ++ parity.map Prod.snd).map List.length with
    | [] => (data, .error .Malformed)
    | length :: _ =>
      if length = 0 ∨ (data.filterMap id).any (fun shard => decide (shard.length ≠ length)) ∨
          parity.any (fun p => decide (p.2.length ≠ length)) ∨
          parity.any (fun p => decide (p.1 ≥ f.parity)) then (data, .error .Malformed)
      else
        match f.solve data parity (missing_of data) length with
        | .error e => (data, .error e)
        | .ok rebuilt =>
          (((missing_of data).zip rebuilt).foldl (fun data m => data.set m.1 (some m.2)) data,
            .ok ())

/-! ## Shards as vectors -/

/-- The byte of a shard at a position, in the field. -/
def byteAt (shard : Shard) (k : Nat) : GF256 := ⟨shard.getD k 0⟩

variable (out : Shard) (term : UInt8 × Shard)

theorem length_add_scaled (h : term.2.length = out.length) :
    (add_scaled out term).length = out.length := by
  unfold add_scaled
  split
  · rfl
  · rw [List.length_zipWith, h, Nat.min_self]

theorem byteAt_add_scaled (h : term.2.length = out.length) (k : Nat) (hk : k < out.length) :
    byteAt (add_scaled out term) k = byteAt out k + ⟨term.1⟩ * byteAt term.2 k := by
  unfold add_scaled byteAt
  split
  case isTrue hz =>
    rw [hz, mk_mul, zero_multiply, mk_add, UInt8.xor_zero]
  case isFalse hz =>
    rw [mk_mul, mk_add]
    simp [List.getElem?_zipWith, List.getElem?_eq_getElem hk,
      List.getElem?_eq_getElem (h ▸ hk : k < term.2.length)]

theorem foldl_add_scaled (terms : List (UInt8 × Shard)) : ∀ out : Shard,
    (∀ t ∈ terms, t.2.length = out.length) → (terms.foldl add_scaled out).length = out.length ∧
    ∀ k < out.length, byteAt (terms.foldl add_scaled out) k =
      byteAt out k + (terms.map fun t => (⟨t.1⟩ : GF256) * byteAt t.2 k).sum := by
  induction terms with
  | nil => simp
  | cons t terms ih =>
    intro out hall
    have hlen := length_add_scaled out t (hall t (by simp))
    obtain ⟨h1, h2⟩ := ih (add_scaled out t) fun u hu => by rw [hlen, hall u (by simp [hu])]
    rw [List.foldl_cons]
    refine ⟨by rw [h1, hlen], fun k hk => ?_⟩
    rw [h2 k (by omega), byteAt_add_scaled out t (hall t (by simp)) k hk, List.map_cons,
      List.sum_cons, add_assoc]

section
variable (length : Nat) (terms : List (UInt8 × Shard)) (h : ∀ t ∈ terms, t.2.length = length)
include h

theorem length_combine : (combine length terms).length = length := by
  unfold combine
  have hall : ∀ t ∈ terms, t.2.length = (List.replicate length (0 : UInt8)).length := by simpa using h
  rw [(foldl_add_scaled terms _ hall).1, List.length_replicate]

theorem byteAt_combine (k : Nat) (hk : k < length) :
    byteAt (combine length terms) k = (terms.map fun t => (⟨t.1⟩ : GF256) * byteAt t.2 k).sum := by
  unfold combine
  have hall : ∀ t ∈ terms, t.2.length = (List.replicate length (0 : UInt8)).length := by simpa using h
  rw [(foldl_add_scaled terms _ hall).2 k (by simpa using hk)]
  have hzero : byteAt (List.replicate length (0 : UInt8)) k = 0 := by
    unfold byteAt
    simp [List.getElem?_replicate, if_pos hk]
    rfl
  rw [hzero, zero_add]

end

theorem shard_ext {s t : Shard} (hlen : s.length = t.length)
    (h : ∀ k < t.length, byteAt s k = byteAt t k) : s = t := by
  apply List.ext_getElem hlen
  intro k hs ht
  have hk := h k ht
  unfold byteAt at hk
  simpa [List.getD_eq_getElem?_getD, hs, ht] using hk

theorem getD_mem {α : Type} {l : List α} {i : Nat} (d : α) (hi : i < l.length) : l.getD i d ∈ l := by
  rw [List.getD_eq_getElem?_getD, List.getElem?_eq_getElem hi, Option.getD_some]
  exact List.getElem_mem hi

theorem sum_zipIdx {α : Type} (l : List α) (d : α) (n : Nat) (hn : l.length = n) (g : α → Nat → GF256) :
    (l.zipIdx.map fun s => g s.1 s.2).sum = ∑ j : Fin n, g (l.getD j d) j := by
  subst hn
  congr 1
  apply List.ext_getElem (by simp)
  simp

/-! ## The rows of the matrix -/

/-- A row's shard is what the row makes of the group. -/
structure Fits (n length : Nat) (shards : List Shard) (row : (Nat → UInt8) × Shard) : Prop where
  sized : row.2.length = length
  bytes : ∀ k < length,
    byteAt row.2 k = ∑ j : Fin n, (⟨row.1 j⟩ : GF256) * byteAt (shards.getD j []) k

theorem sum_unit_row {n : Nat} (c : Fin n) (v : Fin n → GF256) :
    ∑ j : Fin n, (⟨unit_row c j⟩ : GF256) * v j = v c := by
  rw [Finset.sum_eq_single c]
  · have hone : (⟨unit_row c c⟩ : GF256) = 1 := by
      unfold unit_row
      rw [if_pos rfl]
      rfl
    rw [hone, one_mul]
  · intro j _ hj
    have hzero : (⟨unit_row c j⟩ : GF256) = 0 := by
      unfold unit_row
      rw [if_neg fun h => hj (Fin.ext h)]
      rfl
    rw [hzero, zero_mul]
  · exact fun h => absurd (Finset.mem_univ c) h

section Group

variable {n length : Nat} {shards : List Shard}

theorem fits_unit (hn : shards.length = n) (hlen : ∀ s ∈ shards, s.length = length) {c : Nat}
    {shard : Shard} (hc : shards[c]? = some shard) : Fits n length shards (unit_row c, shard) := by
  refine ⟨hlen shard (List.mem_of_getElem? hc), fun k _ => ?_⟩
  have hcn : c < n := by
    rw [← hn]
    exact (List.getElem?_eq_some_iff.mp hc).1
  have hget : shards.getD c [] = shard := by rw [List.getD_eq_getElem?_getD, hc, Option.getD_some]
  rw [← hget]
  exact (sum_unit_row ⟨c, hcn⟩ fun j => byteAt (shards.getD j []) k).symm

theorem mem_zipIdx_terms (hlen : ∀ s ∈ shards, s.length = length) (g : Nat → UInt8) :
    ∀ t ∈ shards.zipIdx.map fun s => (g s.2, s.1), t.2.length = length := by
  intro t ht
  obtain ⟨s, hs, rfl⟩ := List.mem_map.mp ht
  exact hlen s.1 (List.fst_mem_of_mem_zipIdx hs)

theorem fits_parity (hn : shards.length = n) (hlen : ∀ s ∈ shards, s.length = length) (f : Fec)
    (row : Nat) : Fits n length shards (f.coefficients row, f.parity_shard length shards row) := by
  unfold Fec.parity_shard
  have hterms := mem_zipIdx_terms hlen (f.coefficients row)
  refine ⟨length_combine _ _ hterms, fun k hk => ?_⟩
  simp [byteAt_combine _ _ hterms k hk, Function.comp_def]
  exact sum_zipIdx shards [] n hn fun s j => (⟨f.coefficients row j⟩ : GF256) * byteAt s k

end Group

/-! ## The matrix has an inverse -/

theorem length_data_rows (data : List (Option Shard)) :
    (data_rows data).length = data.countP Option.isSome := by
  have key : ∀ (data : List (Option Shard)) (k : Nat),
      ((data.zipIdx k).filterMap fun d => d.1.map fun shard => (unit_row d.2, shard)).length =
        data.countP Option.isSome := by
    intro data
    induction data with
    | nil => simp
    | cons d data ih =>
      cases d with
      | none => simp [List.zipIdx_cons, ih]
      | some shard => simp [List.zipIdx_cons, ih]
  exact key data 0

variable {data : List (Option Shard)}

variable {row : (Nat → UInt8) × Shard} {rows : List ((Nat → UInt8) × Shard)}

theorem mem_data_rows :
    row ∈ data_rows data ↔ ∃ c shard, data[c]? = some (some shard) ∧ row = (unit_row c, shard) := by
  unfold data_rows
  simp only [List.mem_filterMap, List.mem_zipIdx_iff_getElem?, Prod.exists, Option.map_eq_some_iff]
  constructor
  · rintro ⟨d, c, hd, shard, rfl, rfl⟩
    exact ⟨c, shard, hd, rfl⟩
  · rintro ⟨c, shard, hd, rfl⟩
    exact ⟨some shard, c, hd, shard, rfl, rfl⟩

theorem known_rows_eq (f : Fec) (data : List (Option Shard)) (parity : List (Nat × Shard))
    (hlen : data.length = f.data) : f.known_rows data parity = data_rows data ++
      (parity.take (f.data - data.countP Option.isSome)).map fun p => (f.coefficients p.1, p.2) := by
  unfold Fec.known_rows
  have hle : (data_rows data).length ≤ f.data := by
    rw [length_data_rows, ← hlen]
    exact List.countP_le_length
  rw [List.take_append, List.take_of_length_le hle, length_data_rows, List.map_take]

/-- The code that `Fec::new` makes. -/
def cauchyCode (data parity : Nat) : Fec :=
  ⟨data, parity, fun row column => invert (UInt8.ofNat (data + row) ^^^ UInt8.ofNat column)⟩

theorem new_eq {data parity : Nat} (hd : 0 < data) (hp : 0 < parity)
    (hsum : data + parity ≤ MAX_SHARDS) : Fec.new data parity = .ok (cauchyCode data parity) := by
  unfold Fec.new cauchyCode
  rw [if_neg (by omega)]

theorem ofNat_injective {i j : Nat} (hi : i < 256) (hj : j < 256)
    (h : UInt8.ofNat i = UInt8.ofNat j) : i = j := by
  have hnat := congrArg UInt8.toNat h
  simp at hnat
  omega

theorem coefficient_eq {data parity row column : Nat} (hsum : data + parity ≤ MAX_SHARDS)
    (hrow : row < parity) (hcolumn : column < data) :
    (⟨(cauchyCode data parity).coefficients row column⟩ : GF256) =
      1 / ((⟨UInt8.ofNat (data + row)⟩ : GF256) - ⟨UInt8.ofNat column⟩) := by
  have hmax : MAX_SHARDS = 256 := by decide
  have hne : UInt8.ofNat (data + row) ^^^ UInt8.ofNat column ≠ 0 := by
    intro h
    have := ofNat_injective (by omega) (by omega) (UInt8.xor_eq_zero_iff.mp h)
    omega
  unfold cauchyCode
  rw [one_div, mk_sub, inv_mk hne]

theorem row_sum_of_mulVec {n : Nat} (hn : rows.length = n) {v : Fin n → GF256}
    (hv : Matrix.mulVec (rowsMatrix n rows) v = 0) (hrow : row ∈ rows) :
    ∑ j : Fin n, (⟨row.1 j⟩ : GF256) * v j = 0 := by
  obtain ⟨i, hi, rfl⟩ := List.getElem_of_mem hrow
  have h := congrFun hv ⟨i, hn ▸ hi⟩
  simpa [rowsMatrix, Matrix.mulVec, dotProduct, hi] using h

theorem card_missing {n : Nat} (hlen : data.length = n) :
    (Finset.univ.filter fun j : Fin n => (data.getD j none).isSome = false).card =
      n - data.countP Option.isSome := by
  subst hlen
  have hpart : (Finset.univ.filter fun j : Fin data.length => (data.getD j none).isSome).card =
      data.countP Option.isSome := by
    have hlist : data =
        (List.finRange data.length).map fun j : Fin data.length => data.getD j none := by
      simp
    conv_rhs => rw [hlist, List.countP_map, List.countP_eq_length_filter]
    rw [← List.toFinset_card_of_nodup ((List.nodup_finRange _).filter _)]
    simp
  have hall := Finset.card_filter_add_card_filter_not (s := Finset.univ)
    fun j : Fin data.length => (data.getD j none).isSome = true
  simp only [Bool.not_eq_true, hpart, Finset.card_univ, Fintype.card_fin] at hall
  omega

/-- Unit rows and Cauchy rows, as many as there are unknowns, send only zero to zero. -/
theorem known_rows_kernel {n parity : Nat} (hsum : n + parity ≤ MAX_SHARDS) (hlen : data.length = n)
    {held : List (Nat × Shard)} (hheld : ∀ p ∈ held, p.1 < parity)
    (hdistinct : (held.map Prod.fst).Nodup) (henough : n ≤ data.countP Option.isSome + held.length)
    {v : Fin n → GF256}
    (hv : Matrix.mulVec (rowsMatrix n ((cauchyCode n parity).known_rows data held)) v = 0) :
    v = 0 := by
  have hmax : MAX_SHARDS = 256 := by decide
  have hrows := known_rows_eq (cauchyCode n parity) data held hlen
  have hcount : data.countP Option.isSome ≤ n := hlen ▸ List.countP_le_length
  have hn : ((cauchyCode n parity).known_rows data held).length = n := by
    rw [hrows]
    simp [length_data_rows]
    change _ + min (n - _) _ = n
    omega
  have hsums := fun (row : (Nat → UInt8) × Shard) hrow => row_sum_of_mulVec hn hv (hrow : row ∈ _)
  rw [hrows] at hsums
  -- a data shard that arrived
  have hunit : ∀ j : Fin n, (data.getD j none).isSome → v j = 0 := by
    intro j hj
    have hjl : (j : Nat) < data.length := hlen ▸ j.isLt
    obtain ⟨shard, hshard⟩ := Option.isSome_iff_exists.mp hj
    have hget : data[(j : Nat)]? = some (some shard) := by
      rw [List.getD_eq_getElem?_getD, List.getElem?_eq_getElem hjl, Option.getD_some] at hshard
      rw [List.getElem?_eq_getElem hjl, hshard]
    have h := hsums _ (List.mem_append_left _ (mem_data_rows.mpr ⟨j, shard, hget, rfl⟩))
    rwa [sum_unit_row j v] at h
  -- the rest is a Cauchy system
  let m := n - data.countP Option.isSome
  let missing := Finset.univ.filter fun j : Fin n => (data.getD j none).isSome = false
  let y : Fin n → GF256 := fun j => ⟨UInt8.ofNat j⟩
  let x : Nat × Shard → GF256 := fun p => ⟨UInt8.ofNat (n + p.1)⟩
  have hx : ∀ p ∈ held, ∀ q ∈ held, x p = x q → p.1 = q.1 := by
    intro p hp q hq h
    have hp' := hheld p hp
    have hq' := hheld q hq
    have := ofNat_injective (by omega) (by omega) (GF256.mk.inj h)
    omega
  have hnodup : ((held.take m).map x).Nodup := by
    have htake : ((held.take m).map Prod.fst).Nodup := by
      rw [List.map_take]
      exact hdistinct.sublist (List.take_sublist _ _)
    refine List.Nodup.map_on ?_ htake.of_map
    intro p hp q hq h
    exact List.inj_on_of_nodup_map htake hp hq
      (hx p (List.mem_of_mem_take hp) q (List.mem_of_mem_take hq) h)
  have hcauchy := Cauchy.unknowns_are_zero missing y v ?_ ((held.take m).map x).toFinset ?_ ?_ ?_
  · funext j
    cases hj : (data.getD j none).isSome with
    | true => exact hunit j hj
    | false => exact hcauchy j (Finset.mem_filter.mpr ⟨Finset.mem_univ j, hj⟩)
  · intro i _ j _ h
    exact Fin.ext (ofNat_injective (by omega) (by omega) (GF256.mk.inj h))
  · intro e he j _ h
    obtain ⟨p, hp, rfl⟩ := List.mem_map.mp (List.mem_toFinset.mp he)
    have hp' := hheld p (List.mem_of_mem_take hp)
    have := ofNat_injective (by omega) (by omega) (GF256.mk.inj h)
    omega
  · rw [card_missing hlen, List.toFinset_card_of_nodup hnodup, List.length_map, List.length_take]
    omega
  · intro e he
    obtain ⟨p, hp, rfl⟩ := List.mem_map.mp (List.mem_toFinset.mp he)
    have hp' := hheld p (List.mem_of_mem_take hp)
    have h := hsums _ (List.mem_append_right _ (List.mem_map.mpr ⟨p, hp, rfl⟩))
    rw [← h]
    apply Finset.sum_subset_zero_on_sdiff (Finset.subset_univ _)
    · intro j hj
      have hsome : (data.getD j none).isSome = true := by
        by_contra hnone
        apply (Finset.mem_sdiff.mp hj).2
        exact Finset.mem_filter.mpr ⟨Finset.mem_univ j, by simpa using hnone⟩
      rw [hunit j hsome, mul_zero]
    · intro j _
      simp only [coefficient_eq hsum hp' j.isLt, x, y]
      ring

/-! ## Solving the group -/

theorem invert_matrix_eq {n : Nat} {M : Matrix (Fin n) (Fin n) GF256}
    (hM : ∀ v, Matrix.mulVec M v = 0 → v = 0) : ∃ N, invert_matrix M = .ok N ∧ N * M = 1 := by
  obtain ⟨N, hN, hone⟩ := Elimination.gaussJordan_inverts M hM
  refine ⟨N, ?_, hone⟩
  unfold invert_matrix
  rw [hN]

theorem combine_inverse {n length : Nat} {shards : List Shard} (hn : shards.length = n)
    (hlen : ∀ s ∈ shards, s.length = length) (hrows : rows.length = n)
    (hfits : ∀ row ∈ rows, Fits n length shards row) {N : Matrix (Fin n) (Fin n) GF256}
    (hN : N * rowsMatrix n rows = 1) (m : Fin n) :
    combine length (rows.zipIdx.map fun r => (entry N m r.2, r.1.2)) = shards.getD m [] := by
  have hterms : ∀ t ∈ rows.zipIdx.map fun r => (entry N m r.2, r.1.2), t.2.length = length := by
    intro t ht
    obtain ⟨r, hr, rfl⟩ := List.mem_map.mp ht
    exact (hfits r.1 (List.fst_mem_of_mem_zipIdx hr)).sized
  have hshard : (shards.getD m []).length = length := by
    exact hlen _ (getD_mem [] (hn ▸ m.isLt))
  apply shard_ext (by rw [length_combine _ _ hterms, hshard])
  intro k hk
  rw [hshard] at hk
  have hentry : ∀ i : Fin n, (⟨entry N m i⟩ : GF256) = N m i := by
    intro i
    unfold entry
    rw [dif_pos ⟨m.isLt, i.isLt⟩]
  have hrow : ∀ i : Fin n, byteAt (rows.getD i (unit_row 0, [])).2 k =
      ∑ j, rowsMatrix n rows i j * byteAt (shards.getD j []) k := by
    intro i
    exact (hfits _ (getD_mem (unit_row 0, []) (hrows ▸ i.isLt))).bytes k hk
  calc byteAt (combine length (rows.zipIdx.map fun r => (entry N m r.2, r.1.2))) k
      = ∑ i : Fin n, N m i * byteAt (rows.getD i (unit_row 0, [])).2 k := by
        rw [byteAt_combine _ _ hterms k hk, List.map_map]
        simp only [Function.comp_def, ← hentry]
        exact sum_zipIdx rows (unit_row 0, []) n hrows fun r i =>
          (⟨entry N m i⟩ : GF256) * byteAt r.2 k
    _ = Matrix.mulVec N (Matrix.mulVec (rowsMatrix n rows) fun j =>
          byteAt (shards.getD j []) k) m := by
        simp only [hrow, Matrix.mulVec, dotProduct]
    _ = byteAt (shards.getD m []) k := by rw [Matrix.mulVec_mulVec, hN, Matrix.one_mulVec]

/-! ## What survives of a group -/

/-- The shards that arrived of a group: data shards in their places, and parity shards with the
index that each was sent under. -/
structure Survived (shards encoded : List Shard) (received : List (Option Shard))
    (held : List (Nat × Shard)) : Prop where
  places : received.length = shards.length
  data : ∀ (i : Nat) (shard : Shard), received[i]? = some (some shard) → shards[i]? = some shard
  parity : ∀ p ∈ held, encoded[p.1]? = some p.2
  distinct : (held.map Prod.fst).Nodup

def survivors (received : List (Option Shard)) (held : List (Nat × Shard)) : Nat :=
  received.countP Option.isSome + held.length

/-- The same, with the parity shards as `length` and the code make them. -/
structure Arrived (n parity length : Nat) (shards : List Shard) (received : List (Option Shard))
    (held : List (Nat × Shard)) : Prop where
  group : shards.length = n
  sized : ∀ s ∈ shards, s.length = length
  places : received.length = n
  data : ∀ (i : Nat) (shard : Shard), received[i]? = some (some shard) → shards[i]? = some shard
  index : ∀ p ∈ held, p.1 < parity
  parity : ∀ p ∈ held, p.2 = (cauchyCode n parity).parity_shard length shards p.1
  distinct : (held.map Prod.fst).Nodup

theorem mem_missing_of {m : Nat} : m ∈ missing_of data ↔ data[m]? = some none := by
  unfold missing_of
  simp only [List.mem_filterMap, List.mem_zipIdx_iff_getElem?, Prod.exists, Option.isNone_iff_eq_none,
    Option.ite_none_right_eq_some, Option.some.injEq]
  constructor
  · rintro ⟨d, c, hd, rfl, rfl⟩
    exact hd
  · exact fun h => ⟨none, m, h, rfl, rfl⟩

theorem getElem?_foldl_set (g : Nat → Shard) (missing : List Nat) :
    ∀ (data : List (Option Shard)) (i : Nat),
      (missing.foldl (fun data m => data.set m (some (g m))) data)[i]? =
        if i ∈ missing ∧ i < data.length then some (some (g i)) else data[i]? := by
  induction missing with
  | nil => simp
  | cons m missing ih =>
    intro data i
    rw [List.foldl_cons, ih, List.length_set, List.getElem?_set]
    by_cases him : i = m
    · subst him
      by_cases hi : i < data.length
      · simp [hi]
      · simp [hi]
    · simp [him, Ne.symm him]

theorem survivors_eq (received : List (Option Shard)) (held : List (Nat × Shard)) :
    survivors received held = (received.filterMap id ++ held.map Prod.snd).length := by
  rw [List.length_append, List.length_map, List.length_filterMap_eq_countP]
  rfl

section Rebuild

variable {n parity length : Nat} {shards : List Shard} {received : List (Option Shard)}
  {held : List (Nat × Shard)}

section
variable (h : Arrived n parity length shards received held)
include h

theorem Arrived.fills :
    ¬received.length ≠ (cauchyCode n parity).data := not_not.mpr h.places

theorem Arrived.data_sized {shard : Shard} (hs : shard ∈ received.filterMap id) :
    shard.length = length := by
  simp at hs
  obtain ⟨i, hi⟩ := List.mem_iff_getElem?.mp hs
  exact h.sized shard (List.mem_of_getElem? (h.data i shard hi))

theorem Arrived.parity_sized {p : Nat × Shard} (hp : p ∈ held) : p.2.length = length := by
  rw [h.parity p hp]
  exact (fits_parity h.group h.sized _ p.1).sized

theorem Arrived.fits :
    ∀ row ∈ (cauchyCode n parity).known_rows received held, Fits n length shards row := by
  intro row hrow
  rw [known_rows_eq _ _ _ h.places] at hrow
  rcases List.mem_append.mp hrow with hdata | hpar
  · obtain ⟨c, shard, hc, rfl⟩ := mem_data_rows.mp hdata
    exact fits_unit h.group h.sized (h.data c shard hc)
  · obtain ⟨p, hp, rfl⟩ := List.mem_map.mp hpar
    rw [h.parity p (List.mem_of_mem_take hp)]
    exact fits_parity h.group h.sized _ p.1

theorem Arrived.length_known_rows :
    ((cauchyCode n parity).known_rows received held).length = min n (survivors received held) := by
  have hcount : received.countP Option.isSome ≤ n := h.places ▸ List.countP_le_length
  rw [known_rows_eq _ _ _ h.places]
  simp [length_data_rows, survivors]
  change _ + min (n - _) _ = _
  omega

theorem Arrived.solve_enough (hsum : n + parity ≤ MAX_SHARDS)
    (henough : n ≤ survivors received held) :
    (cauchyCode n parity).solve received held (missing_of received) length =
      .ok ((missing_of received).map fun m => shards.getD m []) := by
  have hrows : ((cauchyCode n parity).known_rows received held).length = n := by
    rw [h.length_known_rows]
    omega
  obtain ⟨N, hN, hone⟩ := invert_matrix_eq fun v hv =>
    known_rows_kernel hsum h.places h.index h.distinct henough hv
  unfold Fec.solve
  rw [if_neg (by rw [hrows]; exact lt_irrefl n)]
  rw [show invert_matrix (rowsMatrix (cauchyCode n parity).data _) = _ from hN]
  simp only
  congr 1
  apply List.map_congr_left
  intro m hm
  have hmn : m < n := by
    rw [← h.places]
    exact (List.getElem?_eq_some_iff.mp (mem_missing_of.mp hm)).1
  exact combine_inverse h.group h.sized hrows h.fits hone ⟨m, hmn⟩

theorem Arrived.solve_few (hfew : survivors received held < n) (missing : List Nat) :
    (cauchyCode n parity).solve received held missing length = .error .Malformed := by
  unfold Fec.solve
  rw [if_pos]
  rw [h.length_known_rows]
  change _ < n
  omega

/-- Writing the group's shards over the missing ones gives the whole group. -/
theorem Arrived.restored :
    ((missing_of received).zip ((missing_of received).map fun m => shards.getD m [])).foldl
      (fun data m => data.set m.1 (some m.2)) received = shards.map some := by
  rw [← List.map_prod_left_eq_zip, List.foldl_map]
  apply List.ext_getElem?
  intro i
  rw [getElem?_foldl_set, List.getElem?_map]
  simp only [mem_missing_of]
  by_cases hi : i < n
  · have hs : shards[i]? = some (shards.getD i []) := by
      rw [List.getD_eq_getElem?_getD, List.getElem?_eq_getElem (h.group ▸ hi), Option.getD_some]
    obtain ⟨d, hd⟩ : ∃ d, received[i]? = some d :=
      ⟨_, List.getElem?_eq_getElem (h.places ▸ hi : i < received.length)⟩
    cases d with
    | none => rw [if_pos ⟨hd, h.places ▸ hi⟩, hs, Option.map_some]
    | some shard => simp [hd, h.data i shard hd]
  · have hr : received[i]? = none := List.getElem?_eq_none (by rw [h.places]; omega)
    have hs : shards[i]? = none := List.getElem?_eq_none (by rw [h.group]; omega)
    rw [if_neg (by rw [hr]; simp), hr, hs, Option.map_none]

theorem Arrived.all_here (hall : received.all Option.isSome = true) :
    received = shards.map some := by
  rw [← h.restored]
  have hnone : missing_of received = [] := by
    apply List.eq_nil_iff_forall_not_mem.mpr
    intro m hm
    have := List.all_eq_true.mp hall none (List.mem_of_getElem? (mem_missing_of.mp hm))
    simp at this
  rw [hnone]
  rfl

theorem Arrived.rebuild_eq (hpos : 0 < length) (hmissing : ¬received.all Option.isSome = true)
    (hsome : 0 < survivors received held) :
    (cauchyCode n parity).rebuild received held =
      match (cauchyCode n parity).solve received held (missing_of received) length with
      | .error e => (received, .error e)
      | .ok rebuilt =>
        (((missing_of received).zip rebuilt).foldl (fun data m => data.set m.1 (some m.2)) received,
          .ok ()) := by
  unfold Fec.rebuild
  rw [if_neg h.fills, if_neg hmissing]
  have hsized : ∀ s ∈ received.filterMap id ++ held.map Prod.snd, s.length = length := by
    intro s hs
    rcases List.mem_append.mp hs with hs | hs
    · exact h.data_sized hs
    · obtain ⟨p, hp, rfl⟩ := List.mem_map.mp hs
      exact h.parity_sized hp
  obtain ⟨first, rest, hfirst⟩ : ∃ first rest,
      received.filterMap id ++ held.map Prod.snd = first :: rest := by
    apply List.exists_cons_of_length_pos
    rwa [← survivors_eq]
  rw [hfirst] at hsized ⊢
  simp
  rw [hsized first (by simp), if_neg]
  simp only [not_or, List.any_eq_true, decide_eq_true_eq, not_exists, not_and, not_not, not_le]
  exact ⟨by omega, fun s hs => h.data_sized hs, fun p hp => h.parity_sized hp, h.index⟩

theorem Arrived.rebuild_enough (hsum : n + parity ≤ MAX_SHARDS) (hn : 0 < n) (hpos : 0 < length)
    (henough : n ≤ survivors received held) :
    (cauchyCode n parity).rebuild received held = (shards.map some, .ok ()) := by
  by_cases hall : received.all Option.isSome = true
  · unfold Fec.rebuild
    rw [if_neg h.fills, if_pos hall, ← h.all_here hall]
  · rw [h.rebuild_eq hpos hall (by omega), h.solve_enough hsum henough]
    simp only
    rw [h.restored]

theorem Arrived.rebuild_few (hpos : 0 < length) (hfew : survivors received held < n) :
    (cauchyCode n parity).rebuild received held = (received, .error .Malformed) := by
  have hmissing : ¬received.all Option.isSome = true := by
    intro hall
    have hcount : received.countP Option.isSome = n := by
      rw [← h.places]
      exact List.countP_eq_length.mpr (List.all_eq_true.mp hall)
    unfold survivors at hfew
    omega
  rcases Nat.eq_zero_or_pos (survivors received held) with hzero | hsome
  · rw [survivors_eq, List.length_eq_zero_iff] at hzero
    unfold Fec.rebuild
    rw [if_neg h.fills, if_neg hmissing, hzero]
    rfl
  · rw [h.rebuild_eq hpos hmissing hsome, h.solve_few hfew]

end

end Rebuild

theorem rebuild_index_refused (f : Fec) {data : List (Option Shard)} {held : List (Nat × Shard)}
    (hmissing : ¬data.all Option.isSome = true) {p : Nat × Shard} (hp : p ∈ held)
    (hindex : f.parity ≤ p.1) : f.rebuild data held = (data, .error .Malformed) := by
  unfold Fec.rebuild
  by_cases hlen : data.length ≠ f.data
  · rw [if_pos hlen]
  · rw [if_neg hlen, if_neg hmissing]
    split
    · rfl
    · rw [if_pos]
      refine .inr (.inr (.inr ?_))
      exact List.any_eq_true.mpr ⟨p, hp, decide_eq_true hindex⟩

theorem encode_eq {n parity length : Nat} {shards : List Shard} (hn : 0 < n)
    (hgroup : shards.length = n) (hpos : 0 < length) (hsized : ∀ s ∈ shards, s.length = length) :
    (cauchyCode n parity).encode shards =
      .ok ((List.range parity).map ((cauchyCode n parity).parity_shard length shards)) := by
  have hfirst : (shards.headD []).length = length := by
    cases shards with
    | nil => simp at hgroup; omega
    | cons s shards => exact hsized s (by simp)
  unfold Fec.encode
  simp only [hfirst]
  rw [if_neg (show ¬shards.length ≠ (cauchyCode n parity).data from not_not.mpr hgroup), if_neg]
  · rfl
  · simp
    exact ⟨by omega, hsized⟩

/-- The law of the code: any `data` shards of a group, whichever they are, give the group back byte
for byte. With fewer the call fails, and the slice stays as it was. -/
theorem any_surviving_shards_rebuild_the_group (data parity : Nat) (hd : 1 ≤ data)
    (hp : 1 ≤ parity) (hsum : data + parity ≤ 256) : ∃ fec, Fec.new data parity = .ok fec ∧
      ∀ (shards : List Shard) (length : Nat), shards.length = data → 1 ≤ length →
        (∀ s ∈ shards, s.length = length) →
        ∃ encoded, fec.encode shards = .ok encoded ∧ encoded.length = parity ∧
          ∀ received held, Survived shards encoded received held → (data ≤ survivors received held →
              fec.rebuild received held = (shards.map some, .ok ())) ∧
            (survivors received held < data →
              ∃ e, fec.rebuild received held = (received, .error e)) := by
  refine ⟨cauchyCode data parity, new_eq hd hp hsum, ?_⟩
  intro shards length hgroup hpos hsized
  refine ⟨_, encode_eq hd hgroup hpos hsized, by simp, ?_⟩
  intro received held hs
  have harrived : Arrived data parity length shards received held := by
    refine ⟨hgroup, hsized, hs.places.trans hgroup, hs.data, ?_, ?_, hs.distinct⟩
    · intro p hp'
      simpa using (List.getElem?_eq_some_iff.mp (hs.parity p hp')).1
    · intro p hp'
      obtain ⟨_, hget⟩ := List.getElem?_eq_some_iff.mp (hs.parity p hp')
      rw [← hget]
      simp
  constructor
  · exact harrived.rebuild_enough hsum hd hpos
  · exact fun hfew => ⟨_, harrived.rebuild_few hpos hfew⟩

theorem a_lost_shard_comes_back :
    ∃ fec encoded, Fec.new 2 1 = .ok fec ∧ fec.encode [[1, 2], [3, 4]] = .ok encoded ∧
      fec.rebuild [some [1, 2], none] [(0, encoded.getD 0 [])] =
        ([some [1, 2], some [3, 4]], .ok ()) := by
  obtain ⟨fec, hfec, hgroup⟩ :=
    any_surviving_shards_rebuild_the_group 2 1 (by decide) (by decide) (by decide)
  obtain ⟨encoded, hencoded, hlen, hrebuild⟩ :=
    hgroup [[1, 2], [3, 4]] 2 (by decide) (by decide) (by simp)
  refine ⟨fec, encoded, hfec, hencoded, (hrebuild _ _ ⟨rfl, ?_, ?_, by simp⟩).1 (by simp [survivors])⟩
  · intro i shard hi
    match i, hi with
    | 0, hi => exact Option.some.inj hi
    | 1, hi => simp at hi
  · intro p hp
    rw [List.mem_singleton.mp hp]
    simp [hlen]

/-! ## Shards of payloads -/

/-- How long every shard of a group has to be: the longest payload plus its length prefix. -/
def shard_length (payloads : List Shard) : Nat :=
  (payloads.map List.length).foldl max 0 + 4

/-- One payload as a shard: its length, then its bytes, then zeros. -/
def pack_shard (payload : Shard) (length : Nat) : Except ProtocolError Shard :=
  if payload.length + 4 > length ∨ payload.length > 2 ^ 32 - 1 then .error .Malformed
  else
    let shard := beBytes 4 payload.length ++ payload
    .ok (shard ++ List.replicate (length - shard.length) 0)

def unpack_shard (shard : Shard) : Except ProtocolError Shard :=
  if shard.length < 4 then .error .Malformed
  else
    let length := beNat (shard.take 4)
    if length = 0 ∨ length + 4 > shard.length then .error .Malformed
    else .ok ((shard.drop 4).take length)

theorem pack_shard_ok {payload shard : Shard} {length : Nat}
    (h : pack_shard payload length = .ok shard) :
    payload.length + 4 ≤ length ∧ payload.length < 2 ^ 32 ∧
      shard = beBytes 4 payload.length ++ payload ++
        List.replicate (length - (beBytes 4 payload.length ++ payload).length) 0 := by
  unfold pack_shard at h
  split at h
  · cases h
  · cases h
    exact ⟨by omega, by omega, rfl⟩

theorem length_pack_shard {payload shard : Shard} {length : Nat}
    (h : pack_shard payload length = .ok shard) : shard.length = length := by
  obtain ⟨hlen, -, rfl⟩ := pack_shard_ok h
  simp
  omega

theorem unpack_pack {payload shard : Shard} {length : Nat} (hne : payload ≠ [])
    (h : pack_shard payload length = .ok shard) : unpack_shard shard = .ok payload := by
  have hpos : 0 < payload.length := List.length_pos_of_ne_nil hne
  have hlength := length_pack_shard h
  obtain ⟨hlen, hsmall, rfl⟩ := pack_shard_ok h
  unfold unpack_shard
  rw [if_neg (by omega), List.append_assoc, List.take_left' (length_beBytes 4 _),
    beNat_beBytes (by omega)]
  rw [if_neg, List.drop_left' (length_beBytes 4 _), List.take_left' rfl]
  simp only [List.length_append, length_beBytes, List.length_replicate]
  omega

end multiplex_screen_protocol
