-- Arithmetic in GF(256), as `fec.rs` has it: tables of powers and logarithms,
-- and products read from them. With exclusive-or as the sum, the tables make
-- the bytes a field.
import Mathlib.Algebra.Field.Defs
import Mathlib.Data.Fintype.Card
import Mathlib.Logic.Function.Iterate
import Mathlib.Tactic

namespace multiplex_screen_protocol

/-! ## The tables -/

/-- The primitive polynomial. -/
def POLY : UInt16 := 0x11D

/-- `struct Field`: `exp[i]` is the generator to the power `i`, and `log` is its inverse. -/
structure FieldTables where
  exp : Nat → UInt8
  log : Nat → UInt8

/-- `value <<= 1`, reduced by the polynomial. -/
def next_value (value : UInt16) : UInt16 :=
  let value := value <<< 1
  if value &&& 0x100 ≠ 0 then value ^^^ POLY else value

/-- One turn of the first loop of `build_field`, with the value of the power. -/
def build_power (s : FieldTables × UInt16) (power : Nat) : FieldTables × UInt16 :=
  (⟨Function.update s.1.exp power s.2.toUInt8,
    Function.update s.1.log s.2.toNat (UInt8.ofNat power)⟩, next_value s.2)

/-- One turn of the second loop, which doubles the powers. -/
def double_exp (exp : Nat → UInt8) (at_ : Nat) : Nat → UInt8 :=
  Function.update exp at_ (exp (at_ - 255))

def build_field : FieldTables :=
  let s := ((List.range 255).foldl build_power (⟨fun _ => 0, fun _ => 0⟩, 1)).1
  ⟨(List.range' 255 257).foldl double_exp s.exp, s.log⟩

def FIELD : FieldTables := build_field

def multiply (a b : UInt8) : UInt8 :=
  if a = 0 ∨ b = 0 then 0
  else FIELD.exp ((FIELD.log a.toNat).toNat + (FIELD.log b.toNat).toNat)

def invert (a : UInt8) : UInt8 := FIELD.exp (255 - (FIELD.log a.toNat).toNat)

/-! ## Powers of the generator -/

def xtime (a : UInt8) : UInt8 := (next_value a.toUInt16).toUInt8

def power : Nat → UInt8
  | 0 => 1
  | n + 1 => xtime (power n)

theorem forall_byte {P : UInt8 → Prop} (h : ∀ n < 256, P (UInt8.ofNat n)) (a : UInt8) : P a := by
  have ha := h a.toNat a.toNat_lt
  rwa [UInt8.ofNat_toNat] at ha

theorem xtime_table : ∀ a : UInt8, (xtime a).toUInt16 = next_value a.toUInt16 ∧
    xtime a = (a <<< 1) ^^^ (if a >>> 7 = 0 then 0 else 0x1D) ∧ (a >>> 7 = 0 ∨ a >>> 7 = 1) ∧
    (xtime a = 0 → a = 0) := by
  apply forall_byte
  decide +kernel

variable (a : UInt8) (n : Nat) (b c : UInt8)

theorem xor_exchange (d : UInt8) : (a ^^^ b) ^^^ (c ^^^ d) = (a ^^^ c) ^^^ (b ^^^ d) := by
  rw [UInt8.xor_assoc, ← UInt8.xor_assoc b c d, UInt8.xor_comm b c, UInt8.xor_assoc c b d,
    ← UInt8.xor_assoc a c]

theorem xtime_xor : xtime (a ^^^ b) = xtime a ^^^ xtime b := by
  have hcarry : (if a >>> 7 ^^^ b >>> 7 = 0 then (0 : UInt8) else 0x1D) =
      (if a >>> 7 = 0 then 0 else 0x1D) ^^^ (if b >>> 7 = 0 then 0 else 0x1D) := by
    obtain ⟨-, -, hbita, -⟩ := xtime_table a
    obtain ⟨-, -, hbitb, -⟩ := xtime_table b
    rcases hbita with ha | ha <;> rcases hbitb with hb | hb <;> rw [ha, hb] <;> decide
  simp only [(xtime_table _).2.1, UInt8.shiftLeft_xor, UInt8.shiftRight_xor, hcarry]
  exact xor_exchange _ _ _ _

theorem xtime_injective : Function.Injective xtime := by
  intro a b h
  have hz : xtime (a ^^^ b) = 0 := by rw [xtime_xor, h, UInt8.xor_self]
  exact UInt8.xor_eq_zero_iff.mp ((xtime_table _).2.2.2 hz)

theorem power_order : power 255 = 1 ∧ ∀ n < 255, 0 < n → power n ≠ 1 := by decide +kernel

theorem power_eq_iterate : power n = xtime^[n] 1 := by
  induction n with
  | zero => rfl
  | succ n ih => rw [Function.iterate_succ_apply', ← ih]; rfl

theorem power_add (m n : Nat) : power (m + n) = xtime^[m] (power n) := by
  rw [power_eq_iterate, power_eq_iterate, Function.iterate_add_apply]

theorem power_add_255 : power (n + 255) = power n := by
  rw [power_add, power_order.1, ← power_eq_iterate]

theorem power_injective {m n : Nat} (hm : m < 255) (hn : n < 255) (h : power m = power n) :
    m = n := by
  have key : ∀ {i j : Nat}, i ≤ j → j < 255 → power i = power j → i = j := by
    intro i j hij hj hp
    by_contra hne
    have hd : power (i + 0) = power (i + (j - i)) := by
      rw [Nat.add_zero, Nat.add_sub_cancel' hij, hp]
    rw [power_add, power_add] at hd
    have h1 : power 0 = power (j - i) := (xtime_injective.iterate i) hd
    exact power_order.2 (j - i) (by omega) (by omega) h1.symm
  rcases le_total m n with hmn | hmn
  · exact key hmn hn h
  · exact (key hmn hm h.symm).symm

theorem power_ne_zero : power n ≠ 0 := by
  induction n with
  | zero => decide
  | succ n ih => exact fun h => ih ((xtime_table _).2.2.2 h)

theorem exists_power (ha : a ≠ 0) : ∃ n < 255, power n = a := by
  let f : Fin 255 → Fin 255 := fun n => ⟨(power n).toNat - 1, by
    have := (power n).toNat_lt
    omega⟩
  have hpos : ∀ b : UInt8, b ≠ 0 → 0 < b.toNat := by
    intro b hb
    by_contra hz
    exact hb (UInt8.toNat_inj.mp (by simpa using hz))
  have hinj : Function.Injective f := by
    intro m n h
    have hm := hpos _ (power_ne_zero m)
    have hn := hpos _ (power_ne_zero n)
    have heq : (power m).toNat = (power n).toNat := by
      have := congrArg Fin.val h
      simp only [f] at this
      omega
    exact Fin.ext (power_injective m.isLt n.isLt (UInt8.toNat_inj.mp heq))
  have hlt : a.toNat - 1 < 255 := by
    have := a.toNat_lt
    omega
  obtain ⟨n, hn⟩ := (Finite.injective_iff_surjective.mp hinj) ⟨a.toNat - 1, hlt⟩
  refine ⟨n, n.isLt, UInt8.toNat_inj.mp ?_⟩
  have h1 := congrArg Fin.val hn
  have h2 := hpos a ha
  have h3 := hpos _ (power_ne_zero n)
  simp only [f] at h1
  omega

/-! ## What the tables hold -/

/-- After `n` turns of the first loop. -/
structure Powers (n : Nat) (s : FieldTables × UInt16) : Prop where
  value : s.2 = (power n).toUInt16
  exp : ∀ i < n, s.1.exp i = power i
  log : ∀ i < n, s.1.log (power i).toNat = UInt8.ofNat i

theorem powers_range (hn : n ≤ 255) :
    Powers n ((List.range n).foldl build_power (⟨fun _ => 0, fun _ => 0⟩, 1)) := by
  induction n with
  | zero => exact ⟨rfl, by simp, by simp⟩
  | succ n ih =>
    have h := ih (by omega)
    rw [List.range_succ, List.foldl_append]
    simp
    generalize (List.range n).foldl build_power (⟨fun _ => 0, fun _ => 0⟩, 1) = s at h
    have hval : s.2.toUInt8 = power n ∧ s.2.toNat = (power n).toNat := by
      rw [h.value]
      exact ⟨by simp, by simp⟩
    refine ⟨?_, ?_, ?_⟩
    · simp only [build_power, h.value]
      exact (xtime_table (power n)).1.symm
    · intro i hi
      simp only [build_power, hval.1]
      by_cases hin : i = n
      · simp [hin]
      · simp [hin]
        exact h.exp i (by omega)
    · intro i hi
      simp only [build_power, hval.2]
      by_cases hin : i = n
      · simp [hin]
      · have hne : (power i).toNat ≠ (power n).toNat := by
          intro heq
          exact hin (power_injective (by omega) (by omega) (UInt8.toNat_inj.mp heq))
        simp [hne]
        exact h.log i (by omega)

theorem double_exp_range (exp : Nat → UInt8) (h : ∀ i < 255, exp i = power i) (k : Nat) :
    ∀ i < 255 + k, (List.range' 255 k).foldl double_exp exp i = power i := by
  induction k with
  | zero => simpa using h
  | succ k ih =>
    intro i hi
    rw [List.range'_1_concat, List.foldl_append]
    simp only [List.foldl_cons, List.foldl_nil, double_exp]
    by_cases hik : i = 255 + k
    · subst hik
      simp only [Function.update_self]
      rw [ih _ (by omega), Nat.add_sub_cancel_left, Nat.add_comm, power_add_255]
    · simp [hik]
      exact ih i (by omega)

theorem exp_eq_power (i : Nat) (hi : i < 512) : FIELD.exp i = power i := by
  have h := powers_range 255 (le_refl 255)
  unfold FIELD build_field
  generalize (List.range 255).foldl build_power (⟨fun _ => 0, fun _ => 0⟩, 1) = s at h ⊢
  have hk := double_exp_range s.1.exp h.exp 257 i (by omega)
  simp only
  exact hk

theorem log_power (i : Nat) (hi : i < 255) : (FIELD.log (power i).toNat).toNat = i := by
  have h := (powers_range 255 (le_refl 255)).log i hi
  unfold FIELD build_field
  rw [h, UInt8.toNat_ofNat']
  exact Nat.mod_eq_of_lt (by omega)

/-! ## The field -/

theorem multiply_power {i j : Nat} (hi : i < 255) (hj : j < 255) :
    multiply (power i) (power j) = power (i + j) := by
  unfold multiply
  rw [if_neg (by simp [power_ne_zero]), log_power i hi, log_power j hj, exp_eq_power _ (by omega)]

theorem multiply_zero : multiply a 0 = 0 := by simp [multiply]

theorem zero_multiply : multiply 0 a = 0 := by simp [multiply]

/-- A product with a power is the generator applied that often. -/
theorem multiply_eq_iterate {i : Nat} (hi : i < 255) (b : UInt8) :
    multiply (power i) b = xtime^[i] b := by
  by_cases hb : b = 0
  · subst hb
    rw [multiply_zero]
    have hfix : Function.IsFixedPt xtime 0 := by decide
    exact (hfix.iterate i).symm
  · obtain ⟨j, hj, rfl⟩ := exists_power b hb
    rw [multiply_power hi hj, power_add]

theorem iterate_xor (a b : UInt8) : xtime^[n] (a ^^^ b) = xtime^[n] a ^^^ xtime^[n] b := by
  induction n generalizing a b with
  | zero => rfl
  | succ n ih => rw [Function.iterate_succ_apply, xtime_xor, ih]; rfl

theorem multiply_comm : multiply a b = multiply b a := by
  unfold multiply
  by_cases h : a = 0 ∨ b = 0
  · rw [if_pos h, if_pos h.symm]
  · rw [if_neg h, if_neg fun h' => h h'.symm, Nat.add_comm]

theorem multiply_xor : multiply a (b ^^^ c) = multiply a b ^^^ multiply a c := by
  by_cases ha : a = 0
  · subst ha
    simp [zero_multiply]
  · obtain ⟨i, hi, rfl⟩ := exists_power a ha
    simp only [multiply_eq_iterate hi, iterate_xor]

theorem multiply_assoc : multiply (multiply a b) c = multiply a (multiply b c) := by
  by_cases ha : a = 0
  · subst ha
    simp [zero_multiply]
  by_cases hb : b = 0
  · subst hb
    simp [zero_multiply, multiply_zero]
  obtain ⟨i, hi, rfl⟩ := exists_power a ha
  obtain ⟨j, hj, rfl⟩ := exists_power b hb
  rw [multiply_power hi hj, multiply_eq_iterate hj, multiply_eq_iterate hi,
    ← Function.iterate_add_apply]
  -- the product of two powers is a power below 255 again
  by_cases hij : i + j < 255
  · rw [multiply_eq_iterate hij]
  · have hfold : power (i + j) = power (i + j - 255) := by
      rw [← power_add_255 (i + j - 255), Nat.sub_add_cancel (by omega)]
    have hfix : ∀ x, xtime^[255] x = x := by
      intro x
      by_cases hx : x = 0
      · have hz : Function.IsFixedPt xtime 0 := by decide
        rw [hx]
        exact hz.iterate 255
      · obtain ⟨k, -, rfl⟩ := exists_power x hx
        rw [← power_add, Nat.add_comm, power_add_255]
    rw [hfold, multiply_eq_iterate (by omega)]
    have hsum : i + j = (i + j - 255) + 255 := by omega
    conv_rhs => rw [hsum, Function.iterate_add_apply, hfix]

theorem one_multiply : multiply 1 a = a := multiply_eq_iterate (by decide : 0 < 255) a

theorem multiply_invert (ha : a ≠ 0) : multiply a (invert a) = 1 := by
  obtain ⟨i, hi, rfl⟩ := exists_power a ha
  unfold invert
  rw [log_power i hi, exp_eq_power _ (by omega), multiply_eq_iterate hi, ← power_add]
  rw [Nat.add_sub_cancel' (by omega), power_order.1]

theorem multiply_one : multiply a 1 = a := by rw [multiply_comm, one_multiply]

theorem xor_multiply : multiply (a ^^^ b) c = multiply a c ^^^ multiply b c := by
  rw [multiply_comm, multiply_xor, multiply_comm c a, multiply_comm c b]

/-- A byte as an element of the field. -/
@[ext]
structure GF256 where
  byte : UInt8
  deriving DecidableEq

instance : Zero GF256 := ⟨⟨0⟩⟩
instance : One GF256 := ⟨⟨1⟩⟩
instance : Add GF256 := ⟨fun a b => ⟨a.byte ^^^ b.byte⟩⟩
instance : Neg GF256 := ⟨fun a => a⟩
instance : Mul GF256 := ⟨fun a b => ⟨multiply a.byte b.byte⟩⟩
instance : Inv GF256 := ⟨fun a => if a.byte = 0 then 0 else ⟨invert a.byte⟩⟩

theorem mk_add : (⟨a⟩ : GF256) + ⟨b⟩ = ⟨a ^^^ b⟩ := rfl

theorem mk_mul : (⟨a⟩ : GF256) * ⟨b⟩ = ⟨multiply a b⟩ := rfl

theorem inv_mk {a : UInt8} (ha : a ≠ 0) : (⟨a⟩ : GF256)⁻¹ = ⟨invert a⟩ := if_neg ha

theorem mul_inv_one (a : GF256) (ha : a ≠ 0) : a * a⁻¹ = 1 := by
  obtain ⟨a⟩ := a
  have hbyte : a ≠ 0 := fun h => ha (congrArg GF256.mk h)
  rw [inv_mk hbyte, mk_mul, multiply_invert a hbyte]
  rfl

/-- The sum is exclusive-or, the product is `multiply`, and the inverse is `invert`. -/
instance : Field GF256 where
  nsmul := nsmulRec
  zsmul := zsmulRec
  nnqsmul := _
  nnqsmul_def := fun _ _ => rfl
  qsmul := _
  qsmul_def := fun _ _ => rfl
  add_assoc a b c := congrArg GF256.mk (UInt8.xor_assoc a.byte b.byte c.byte)
  zero_add _ := congrArg GF256.mk UInt8.zero_xor
  add_zero _ := congrArg GF256.mk UInt8.xor_zero
  add_comm a b := congrArg GF256.mk (UInt8.xor_comm a.byte b.byte)
  neg_add_cancel _ := congrArg GF256.mk UInt8.xor_self
  left_distrib a b c := congrArg GF256.mk (multiply_xor a.byte b.byte c.byte)
  right_distrib a b c := congrArg GF256.mk (xor_multiply a.byte b.byte c.byte)
  zero_mul a := congrArg GF256.mk (zero_multiply a.byte)
  mul_zero a := congrArg GF256.mk (multiply_zero a.byte)
  mul_assoc a b c := congrArg GF256.mk (multiply_assoc a.byte b.byte c.byte)
  one_mul a := congrArg GF256.mk (one_multiply a.byte)
  mul_one a := congrArg GF256.mk (multiply_one a.byte)
  mul_comm a b := congrArg GF256.mk (multiply_comm a.byte b.byte)
  exists_pair_ne := ⟨0, 1, by decide⟩
  mul_inv_cancel := mul_inv_one
  inv_zero := rfl

theorem mk_sub : (⟨a⟩ : GF256) - ⟨b⟩ = ⟨a ^^^ b⟩ := by
  rfl

end multiplex_screen_protocol
