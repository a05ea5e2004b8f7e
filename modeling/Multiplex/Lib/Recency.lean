-- Sized entries in the order of their last use, oldest first, under a bound on
-- their total. A list that is the newest end of another one stays its newest end
-- when the same keys are used and stored on both: what a small memory holds of
-- the two, a large one holds as well.
import Mathlib.Data.List.Infix
import Mathlib.Tactic

namespace Recency

variable {κ : Type} [DecidableEq κ]

def total (l : List (κ × Nat)) : Nat := (l.map Prod.snd).sum

def find (k : κ) (l : List (κ × Nat)) : Option (κ × Nat) := l.find? fun e => e.1 == k

def without (k : κ) (l : List (κ × Nat)) : List (κ × Nat) := l.filter fun e => e.1 != k

def touch (k : κ) (l : List (κ × Nat)) : List (κ × Nat) :=
  match find k l with
  | none => l
  | some e => without k l ++ [e]

def shed (room : Nat) : List (κ × Nat) → List (κ × Nat)
  | [] => []
  | e :: l => if total (e :: l) > room then shed room l else e :: l

/-- An entry of some size becomes the newest, unless it is larger than everything together may
be. -/
def store (budget : Nat) (k : κ) (size : Nat) (l : List (κ × Nat)) : List (κ × Nat) :=
  if size > budget then l else shed (budget - size) (without k l) ++ [(k, size)]

/-! ## Totals -/

omit [DecidableEq κ] in
@[simp] theorem total_nil : total ([] : List (κ × Nat)) = 0 := rfl

omit [DecidableEq κ] in
@[simp] theorem total_cons (e : κ × Nat) (l : List (κ × Nat)) : total (e :: l) = e.2 + total l := by
  simp [total]

omit [DecidableEq κ] in
@[simp] theorem total_append (l l' : List (κ × Nat)) : total (l ++ l') = total l + total l' := by
  simp [total]

/-! ## Distinct keys -/

def Distinct (l : List (κ × Nat)) : Prop := (l.map Prod.fst).Nodup

variable {l : List (κ × Nat)}

theorem find_eq_some {k : κ} {e : κ × Nat} (h : find k l = some e) : e.1 = k ∧ e ∈ l := by
  refine ⟨by simpa using List.find?_some h, List.mem_of_find?_eq_some h⟩

theorem Distinct.find_of_mem (h : Distinct l) {k : κ} {size : Nat} (hmem : (k, size) ∈ l) :
    find k l = some (k, size) := by
  cases hfind : find k l with
  | none =>
    have hnot := List.find?_eq_none.mp hfind (k, size) hmem
    simp at hnot
  | some e =>
    obtain ⟨hkey, he⟩ := find_eq_some hfind
    rw [List.inj_on_of_nodup_map h he hmem hkey]

theorem Distinct.total_without (h : Distinct l) {k : κ} {size : Nat} (hmem : (k, size) ∈ l) :
    total (Recency.without k l) + size = total l := by
  induction l with
  | nil => cases hmem
  | cons e l ih =>
    have hcons := List.nodup_cons.mp h
    rcases List.mem_cons.mp hmem with rfl | hold
    · have hrest : Recency.without k l = l := by
        unfold Recency.without
        rw [List.filter_eq_self]
        intro f hf
        simp
        rintro rfl
        exact hcons.1 (List.mem_map.mpr ⟨f, hf, rfl⟩)
      have hgone : Recency.without k ((k, size) :: l) = l := by
        rw [← hrest]
        simp [Recency.without]
      rw [hgone]
      simp [Nat.add_comm]
    · have hne : e.1 ≠ k := by
        rintro rfl
        exact hcons.1 (List.mem_map.mpr ⟨_, hold, rfl⟩)
      have hkept : Recency.without k (e :: l) = e :: Recency.without k l := by
        simp [Recency.without, hne]
      have hrest := ih hcons.2 hold
      simp [hkept]
      omega

/-! ## The newest end of a longer list -/

omit [DecidableEq κ] in
/-- The longer list sheds what the shorter one lacks before it sheds anything of it. -/
theorem shed_append (room : Nat) (older held : List (κ × Nat)) :
    ∃ kept, shed room (older ++ held) = kept ++ shed room held := by
  induction older with
  | nil => exact ⟨[], by simp⟩
  | cons e older ih =>
    rw [List.cons_append, shed]
    split
    · exact ih
    · rename_i hfits
      -- all of the longer list fits, so all of the shorter one does
      have hheld : shed room held = held := by
        cases held with
        | nil => simp [shed]
        | cons f held =>
          rw [shed, if_neg]
          simp only [total_cons, total_append] at hfits ⊢
          omega
      exact ⟨e :: older, by rw [hheld]; simp⟩

variable {small big : List (κ × Nat)}

omit [DecidableEq κ] in
theorem suffix_shed (h : small <:+ big) (room : Nat) :
    shed room small <:+ shed room big := by
  obtain ⟨older, rfl⟩ := h
  obtain ⟨kept, hkept⟩ := shed_append room older small
  exact ⟨kept, hkept.symm⟩

theorem suffix_without (h : small <:+ big) (k : κ) :
    without k small <:+ without k big := h.filter _

theorem suffix_store (h : small <:+ big) (budget : Nat) (k : κ)
    (size : Nat) : store budget k size small <:+ store budget k size big := by
  unfold store
  split
  · exact h
  · exact List.suffix_append_self_iff.mpr (suffix_shed (suffix_without h k) _)

/-- A key that the shorter list holds is found in the longer one, with the same size. -/
theorem find_suffix (h : small <:+ big) (hdistinct : Distinct big)
    {k : κ} {e : κ × Nat} (hfind : find k small = some e) : find k big = some e := by
  obtain ⟨older, rfl⟩ := h
  obtain ⟨rfl, hmem⟩ := find_eq_some hfind
  unfold Distinct at hdistinct
  rw [List.map_append, List.nodup_append] at hdistinct
  have hnone : older.find? (fun f => f.1 == e.1) = none := by
    rw [List.find?_eq_none]
    intro f hf heq
    exact hdistinct.2.2 f.1 (List.mem_map_of_mem hf) e.1 (List.mem_map_of_mem hmem)
      (by simpa using heq)
  unfold find at hfind ⊢
  simp [List.find?_append, hnone, hfind]

theorem suffix_touch (h : small <:+ big) (hdistinct : Distinct big)
    {k : κ} (hheld : (find k small).isSome) : touch k small <:+ touch k big := by
  obtain ⟨e, hfind⟩ := Option.isSome_iff_exists.mp hheld
  unfold touch
  rw [hfind, find_suffix h hdistinct hfind]
  exact List.suffix_append_self_iff.mpr (suffix_without h k)

end Recency
