-- Numbers in groups of seven bits, and the fields of a protobuf message that are
-- made of them. A field with the default value of its type is left out.
import Mathlib.Data.Nat.Log
import Mathlib.Tactic

namespace Varints

/-- The low group comes first. Every byte but the last has its high bit set. -/
def varint (n : Nat) : List UInt8 :=
  if n < 128 then [UInt8.ofNat n] else UInt8.ofNat (n % 128 + 128) :: varint (n / 128)

theorem length_varint_le {k : Nat} : ∀ {n : Nat}, n < 128 ^ (k + 1) → (varint n).length ≤ k + 1 := by
  induction k with
  | zero =>
    intro n h
    rw [varint, if_pos (by omega), List.length_singleton]
  | succ k ih =>
    intro n h
    rw [varint]
    split
    · simp
    · have hnext : n / 128 < 128 ^ (k + 1) := by
        rw [Nat.div_lt_iff_lt_mul (by decide), ← Nat.pow_succ]
        exact h
      have hlength := ih hnext
      rw [List.length_cons]
      omega

theorem length_varint_pos (n : Nat) : 0 < (varint n).length := by
  rw [varint]
  split <;> simp

theorem lt_length_varint {k : Nat} : ∀ {n : Nat}, 128 ^ k ≤ n → k < (varint n).length := by
  induction k with
  | zero => exact fun _ => length_varint_pos _
  | succ k ih =>
    intro n h
    have hlarge : ¬ n < 128 := by
      have hone := Nat.one_le_pow k 128 (by decide)
      omega
    have hnext : 128 ^ k ≤ n / 128 := by
      rw [Nat.le_div_iff_mul_le (by decide), ← Nat.pow_succ]
      exact h
    have hlength := ih hnext
    rw [varint, if_neg hlarge, List.length_cons]
    omega

/-! ## Fields -/

/-- The number of a field, with how its value is written. -/
def tag (field wire_type : Nat) : List UInt8 := varint (8 * field + wire_type)

def uintField (field n : Nat) : List UInt8 := if n = 0 then [] else tag field 0 ++ varint n

/-- A message inside another one. It is there also when it is empty. -/
def messageField (field : Nat) (bytes : List UInt8) : List UInt8 :=
  tag field 2 ++ (varint bytes.length ++ bytes)

def bytesField (field : Nat) (bytes : List UInt8) : List UInt8 :=
  if bytes = [] then [] else messageField field bytes

theorem length_tag {field wire_type : Nat} (hfield : field < 16) (htype : wire_type < 8) :
    (tag field wire_type).length = 1 := by
  rw [tag, varint, if_pos (by omega), List.length_singleton]

end Varints
