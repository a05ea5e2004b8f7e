-- Streams cut into chunks. A step takes one message off the front of what has
-- arrived, asks for more, or fails. When more bytes never change what a step
-- has already said, the way a stream is cut does not matter.
import Mathlib.Tactic

namespace Chunks

variable {β μ ε : Type}

/-- One message and the bytes after it, nothing yet, or an error. -/
abbrev Step (β μ ε : Type) := List β → Except ε (Option (μ × List β))

/-- More bytes never change what the step has said. -/
structure Incremental (read : Step β μ ε) : Prop where
  empty : read [] = .ok none
  shrinks : ∀ {b m rest}, read b = .ok (some (m, rest)) → rest.length < b.length
  more_message : ∀ {b m rest}, read b = .ok (some (m, rest)) → ∀ c,
    read (b ++ c) = .ok (some (m, rest ++ c))
  more_error : ∀ {b e}, read b = .error e → ∀ c, read (b ++ c) = .error e

/-- All messages of the bytes, and then the bytes left or the error. -/
def drainFor (read : Step β μ ε) : Nat → List β → List μ × Except ε (List β)
  | 0, b => ([], .ok b)
  | fuel + 1, b =>
    match read b with
    | .error e => ([], .error e)
    | .ok none => ([], .ok b)
    | .ok (some (m, rest)) => (m :: (drainFor read fuel rest).1, (drainFor read fuel rest).2)

/-- Each message takes a byte or more, so this is enough fuel. -/
def drain (read : Step β μ ε) (b : List β) : List μ × Except ε (List β) :=
  drainFor read (b.length + 1) b

variable {read : Step β μ ε}

theorem drainFor_enough (h : Incremental read) (fuel : Nat) (b : List β) (hf : b.length < fuel) :
    drainFor read fuel b = drain read b := by
  induction fuel using Nat.strong_induction_on generalizing b with
  | _ fuel ih =>
    obtain ⟨n, rfl⟩ : ∃ n, fuel = n + 1 := ⟨fuel - 1, by omega⟩
    rw [drain, drainFor, drainFor]
    cases hr : read b with
    | error e => rfl
    | ok r =>
      cases r with
      | none => rfl
      | some p =>
        obtain ⟨m, rest⟩ := p
        have hlt := h.shrinks hr
        have h1 := ih n (by omega) rest (by omega)
        have h2 : drainFor read b.length rest = drain read rest := by
          rcases Nat.lt_or_ge b.length (n + 1) with hb | hb
          · exact ih b.length hb rest hlt
          · rw [show b.length = n by omega, h1]
        simp only [h1, h2]

/-- One step of the drain, without the fuel. -/
theorem drain_step (h : Incremental read) (b : List β) : drain read b =
      match read b with
      | .error e => ([], .error e)
      | .ok none => ([], .ok b)
      | .ok (some (m, rest)) => (m :: (drain read rest).1, (drain read rest).2) := by
  conv_lhs => rw [drain, drainFor]
  cases hr : read b with
  | error e => rfl
  | ok r =>
    cases r with
    | none => rfl
    | some p =>
      simp only [drainFor_enough h _ _ (h.shrinks hr)]

/-- More bytes after what was drained: they follow the bytes left, and come to nothing after an
error. -/
def more (read : Step β μ ε) (c : List β) :
    List μ × Except ε (List β) → List μ × Except ε (List β)
  | (ms, .error e) => (ms, .error e)
  | (ms, .ok rest) => (ms ++ (drain read (rest ++ c)).1, (drain read (rest ++ c)).2)

theorem drain_append (h : Incremental read) (b c : List β) :
    drain read (b ++ c) = more read c (drain read b) := by
  induction hn : b.length using Nat.strong_induction_on generalizing b with
  | _ n ih =>
    rw [drain_step h b]
    cases hr : read b with
    | error e =>
      rw [drain_step h (b ++ c), h.more_error hr c]
      rfl
    | ok r =>
      cases r with
      | none => simp [more]
      | some p =>
        obtain ⟨m, rest⟩ := p
        rw [drain_step h (b ++ c), h.more_message hr c]
        simp only [ih rest.length (hn ▸ h.shrinks hr) rest rfl]
        rcases drain read rest with ⟨ms, o | o⟩ <;> rfl

/-- The chunks one after the other, draining after each. -/
def feed (read : Step β μ ε) (chunks : List (List β)) : List μ × Except ε (List β) :=
  chunks.foldl (fun heard chunk => more read chunk heard) ([], .ok [])

/-- Chunks are heard as the stream they make up. -/
theorem feed_eq (h : Incremental read) (chunks : List (List β)) :
    feed read chunks = drain read chunks.flatten := by
  induction chunks using List.reverseRecOn with
  | nil =>
    rw [drain_step h]
    simp [h.empty]
    rfl
  | append_singleton chunks chunk ih =>
    unfold feed at ih ⊢
    rw [List.foldl_append, List.foldl_cons, List.foldl_nil, ih, ← drain_append h, List.flatten_append]
    simp

/-- Frames that the step reads one by one are heard as their messages, with nothing left. -/
theorem drain_frames (h : Incremental read) (frames : List (List β × μ))
    (hread : ∀ f ∈ frames, ∀ rest, read (f.1 ++ rest) = .ok (some (f.2, rest))) :
    drain read (frames.map Prod.fst).flatten = (frames.map Prod.snd, .ok []) := by
  induction frames with
  | nil =>
    rw [drain_step h]
    simp [h.empty]
  | cons f frames ih =>
    rw [drain_step h, List.map_cons, List.flatten_cons, hread f (by simp)]
    simp [ih fun g hg => hread g (by simp [hg])]

/-! ## Cutting a list into chunks -/

def chunksFor (n : Nat) : Nat → List β → List (List β)
  | fuel + 1, b :: l => (b :: l).take n :: chunksFor n fuel ((b :: l).drop n)
  | _, _ => []

/-- Chunks of length `n`, the last of which may be shorter. -/
def chunks (n : Nat) (l : List β) : List (List β) := chunksFor n l.length l

theorem flatten_chunksFor {n : Nat} (hn : 0 < n) {fuel : Nat} {l : List β} (hl : l.length ≤ fuel) :
    (chunksFor n fuel l).flatten = l := by
  induction fuel generalizing l with
  | zero =>
    rw [List.length_eq_zero_iff.mp (Nat.le_zero.mp hl)]
    rfl
  | succ fuel ih =>
    cases l with
    | nil => rfl
    | cons b l =>
      have hdrop : ((b :: l).drop n).length ≤ fuel := by
        rw [List.length_drop]
        omega
      unfold chunksFor
      rw [List.flatten_cons, ih hdrop, List.take_append_drop]

theorem flatten_chunks {n : Nat} (hn : 0 < n) (l : List β) : (chunks n l).flatten = l :=
  flatten_chunksFor hn le_rfl

end Chunks
