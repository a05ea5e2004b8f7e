-- Authenticated encryption as it should be: a ciphertext opens only where the
-- same bytes were made under the same key and nonce for the same data, and
-- then it gives back what was put in. Keys are given or come out of a rekey.
import Mathlib.Tactic

namespace Aead

variable {κ : Type}

/-- A key, so many rekeys after the one that was given. -/
structure Key (κ : Type) where
  base : κ
  generation : Nat
  deriving DecidableEq

def Key.rekey (key : Key κ) : Key κ := { key with generation := key.generation + 1 }

structure Encryption (κ : Type) where
  key : Key κ
  nonce : Nat
  ad : List UInt8
  plaintext : List UInt8
  ciphertext : List UInt8

/-- What the bytes of a ciphertext are, which matters to nobody but for their number. -/
abbrev Cipher (κ : Type) := Key κ → Nat → List UInt8 → List UInt8 → List UInt8

def encrypt (cipher : Cipher κ) (key : Key κ) (nonce : Nat) (ad plaintext : List UInt8) :
    Encryption κ := ⟨key, nonce, ad, plaintext, cipher key nonce ad plaintext⟩

section
variable [DecidableEq κ]

def decrypt (made : List (Encryption κ)) (key : Key κ) (nonce : Nat) (ad ciphertext : List UInt8) :
    Option (List UInt8) :=
  (made.find? fun r => r.key = key ∧ r.nonce = nonce ∧ r.ad = ad ∧ r.ciphertext = ciphertext).map
    (·.plaintext)

theorem made_of_decrypt {made : List (Encryption κ)} {key : Key κ} {nonce : Nat}
    {ad ciphertext plaintext : List UInt8} (h : decrypt made key nonce ad ciphertext = some plaintext) :
    ⟨key, nonce, ad, plaintext, ciphertext⟩ ∈ made := by
  obtain ⟨r, hfind, hplaintext⟩ := Option.map_eq_some_iff.mp h
  have hmem := List.mem_of_find?_eq_some hfind
  have hfields := List.find?_some hfind
  simp at hfields
  obtain ⟨hkey, hnonce, had, hciphertext⟩ := hfields
  subst hkey hnonce had hciphertext hplaintext
  exact hmem

end

/-- No nonce was used twice under one key. -/
def NoncesFresh (made : List (Encryption κ)) : Prop := (made.map fun r => (r.key, r.nonce)).Nodup

theorem noncesFresh_nil : NoncesFresh ([] : List (Encryption κ)) := List.nodup_nil

theorem NoncesFresh.append {made : List (Encryption κ)} {r : Encryption κ} (h : NoncesFresh made)
    (hnew : ∀ s ∈ made, s.key = r.key → s.nonce ≠ r.nonce) : NoncesFresh (made ++ [r]) := by
  unfold NoncesFresh at *
  rw [List.map_append, List.map_singleton, List.nodup_append]
  refine ⟨h, List.nodup_singleton _, ?_⟩
  intro a ha b hb hab
  obtain ⟨s, hs, rfl⟩ := List.mem_map.mp ha
  obtain rfl := List.mem_singleton.mp hb
  exact hnew s hs (congrArg Prod.fst hab) (congrArg Prod.snd hab)

theorem decrypt_of_made [DecidableEq κ] {made : List (Encryption κ)} {r : Encryption κ}
    (h : NoncesFresh made) (hr : r ∈ made) :
    decrypt made r.key r.nonce r.ad r.ciphertext = some r.plaintext := by
  cases hfind : made.find? fun s => decide (s.key = r.key ∧ s.nonce = r.nonce ∧ s.ad = r.ad ∧
      s.ciphertext = r.ciphertext) with
  | none =>
    have hnone := List.find?_eq_none.mp hfind r hr
    simp at hnone
  | some s =>
    have hfields := List.find?_some hfind
    simp at hfields
    -- the nonce tells the encryption
    have heq : s = r := List.inj_on_of_nodup_map h (List.mem_of_find?_eq_some hfind) hr
      (Prod.ext hfields.1 hfields.2.1)
    rw [decrypt, hfind, heq]
    rfl

end Aead
