-- Compact JSON as text: numbers in decimal, strings with the escapes that they
-- need and no others, arrays and objects without blanks. What matters of it
-- here is how long it gets.
import Mathlib.Data.Nat.Digits.Lemmas
import Mathlib.Tactic

namespace JsonText

/-! ## Values -/

def number (n : Nat) : List UInt8 :=
  if n = 0 then [48] else (Nat.digits 10 n).reverse.map fun d => UInt8.ofNat (48 + d)

def null : List UInt8 := [110, 117, 108, 108]

def boolean (b : Bool) : List UInt8 :=
  if b then [116, 114, 117, 101] else [102, 97, 108, 115, 101]

def hex (n : Nat) : UInt8 := if n < 10 then UInt8.ofNat (48 + n) else UInt8.ofNat (87 + n)

/-- A character of a string: quotes, backslashes and control characters are escaped. -/
def escaped (c : Char) : List UInt8 :=
  if c = '"' then [92, 34]
  else if c = '\\' then [92, 92]
  else if c.toNat = 8 then [92, 98]
  else if c.toNat = 9 then [92, 116]
  else if c.toNat = 10 then [92, 110]
  else if c.toNat = 12 then [92, 102]
  else if c.toNat = 13 then [92, 114]
  else if c.toNat < 32 then [92, 117, 48, 48, hex (c.toNat / 16), hex (c.toNat % 16)]
  else String.utf8EncodeChar c

def string (s : String) : List UInt8 := 34 :: s.toList.flatMap escaped ++ [34]

def option {α : Type} (text : α → List UInt8) : Option α → List UInt8
  | none => null
  | some a => text a

/-- Texts with a comma between each two. -/
def joined : List (List UInt8) → List UInt8
  | [] => []
  | [item] => item
  | item :: items => item ++ 44 :: joined items

def array (items : List (List UInt8)) : List UInt8 := 91 :: joined items ++ [93]

def member (name : String) (value : List UInt8) : List UInt8 := string name ++ 58 :: value

def object (members : List (List UInt8)) : List UInt8 := 123 :: joined members ++ [125]

/-! ## Lengths -/

theorem length_number_le {n k : Nat} (hk : 0 < k) (h : n < 10 ^ k) : (number n).length ≤ k := by
  unfold number
  split
  · exact hk
  · rw [List.length_map, List.length_reverse]
    exact (Nat.digits_length_le_iff (by decide) n).mpr h

@[simp] theorem length_joined (items : List (List UInt8)) :
    (joined items).length = (items.map List.length).sum + (items.length - 1) := by
  induction items with
  | nil => rfl
  | cons item items ih =>
    cases items with
    | nil => simp [joined]
    | cons item' items =>
      simp [joined] at ih ⊢
      omega

@[simp] theorem length_array (items : List (List UInt8)) :
    (array items).length = (items.map List.length).sum + (items.length - 1) + 2 := by
  simp [array]

@[simp] theorem length_object (members : List (List UInt8)) :
    (object members).length = (members.map List.length).sum + (members.length - 1) + 2 := by
  simp [object]

@[simp] theorem length_member (name : String) (value : List UInt8) :
    (member name value).length = (string name).length + 1 + value.length := by
  simp [member]
  omega

theorem utf8ByteSize_ofList (chars : List Char) :
    (String.ofList chars).utf8ByteSize = (chars.map Char.utf8Size).sum := by
  induction chars with
  | nil => simp
  | cons first rest ih =>
    simp [String.ofList_cons, String.utf8ByteSize_append, ih]

theorem length_escaped_le (c : Char) : (escaped c).length ≤ 6 * c.utf8Size := by
  have hpos := c.utf8Size_pos
  unfold escaped
  repeat' split
  all_goals
    simp
    omega

theorem length_string_le (s : String) : (string s).length ≤ 6 * s.utf8ByteSize + 2 := by
  have hlist : ∀ l : List Char, (l.flatMap escaped).length ≤ 6 * (l.map Char.utf8Size).sum := by
    intro l
    induction l with
    | nil => simp
    | cons c l ih =>
      have hhead := length_escaped_le c
      simp only [List.flatMap_cons, List.length_append, List.map_cons, List.sum_cons]
      omega
  have hbody := hlist s.toList
  rw [← utf8ByteSize_ofList, String.ofList_toList] at hbody
  simp only [string, List.length_append, List.length_cons, List.length_nil]
  omega

theorem length_bytes (bytes : List UInt8) : (array (bytes.map fun b => number b.toNat)).length =
      (bytes.map fun b => (number b.toNat).length).sum + (bytes.length - 1) + 2 := by
  simp [List.map_map, Function.comp_def]

end JsonText
