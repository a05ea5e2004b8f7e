-- Strictly sorted lists, which their members determine, and the maximal
-- members of a finite set under a rank: what is not maximal is below a
-- maximal member, and reducing a part to its maximal members first changes
-- nothing.
import Mathlib.Data.List.Sort
import Mathlib.Order.Preorder.Finite
import Mathlib.Tactic

/-! ## Strictly sorted lists -/

namespace SortedList

variable {α : Type} [LinearOrder α]

variable {l : List α}

theorem nodup_of_strict (h : l.Pairwise (· < ·)) : l.Nodup :=
  h.imp fun hlt => hlt.ne

theorem eq_of_mem_iff {l' : List α} (h : l.Pairwise (· < ·)) (h' : l'.Pairwise (· < ·))
    (hmem : ∀ a, a ∈ l ↔ a ∈ l') : l = l' := by
  have hperm : l.Perm l' :=
    (List.perm_ext_iff_of_nodup (nodup_of_strict h) (nodup_of_strict h')).mpr hmem
  exact hperm.eq_of_pairwise (fun a b _ _ hab hba => absurd hba hab.not_gt) h h'

theorem insertionSort_eq_of_perm {l' : List α} (h : l.Perm l') :
    l.insertionSort (· ≤ ·) = l'.insertionSort (· ≤ ·) := by
  have hperm : (l.insertionSort (· ≤ ·)).Perm (l'.insertionSort (· ≤ ·)) :=
    (List.perm_insertionSort _ l).trans (h.trans (List.perm_insertionSort _ l').symm)
  exact hperm.eq_of_pairwise (fun a b _ _ => le_antisymm) (List.pairwise_insertionSort _ l)
    (List.pairwise_insertionSort _ l')

def dropRepeats : List α → List α
  | [] => []
  | [a] => [a]
  | a :: b :: rest => if a = b then dropRepeats (b :: rest) else a :: dropRepeats (b :: rest)

@[simp] theorem mem_dropRepeats {a : α} : a ∈ dropRepeats l ↔ a ∈ l := by
  fun_induction dropRepeats l with
  | case1 => simp
  | case2 b => simp
  | case3 b rest ih => simp [ih]
  | case4 b c rest hne ih => simp [ih]

theorem strict_dropRepeats (h : l.Pairwise (· ≤ ·)) : (dropRepeats l).Pairwise (· < ·) := by
  fun_induction dropRepeats l with
  | case1 => exact List.Pairwise.nil
  | case2 a => exact List.pairwise_singleton _ a
  | case3 a rest ih => exact ih (List.pairwise_cons.mp h).2
  | case4 a b rest hne ih =>
    obtain ⟨hhead, htail⟩ := List.pairwise_cons.mp h
    refine List.pairwise_cons.mpr ⟨fun c hc => ?_, ih htail⟩
    have hab : a < b := lt_of_le_of_ne (hhead b List.mem_cons_self) hne
    rcases List.mem_cons.mp (mem_dropRepeats.mp hc) with rfl | hc
    · exact hab
    · exact lt_of_lt_of_le hab ((List.pairwise_cons.mp htail).1 c hc)

theorem insertionSort_of_strict (h : l.Pairwise (· < ·)) : l.insertionSort (· ≤ ·) = l :=
  List.Pairwise.insertionSort_eq (h.imp fun hlt => hlt.le)

end SortedList

/-! ## Maximal members -/

namespace Maxima

variable {α β : Type} [Preorder β] {rank : α → β} {s t : Set α} {x : α}

theorem maximalFor_iff {P : α → Prop} :
    MaximalFor P rank x ↔ P x ∧ ∀ y, P y → ¬ rank x < rank y := by
  refine and_congr_right fun _ => forall₂_congr fun y _ => ?_
  rw [lt_iff_le_not_ge, not_and_not_right]

variable (rank) in
/-- Nothing is lost by keeping the maximal members only. -/
theorem maximal_or_below (hs : s.Finite) (hx : x ∈ s) :
    MaximalFor (· ∈ s) rank x ∨ ∃ y, MaximalFor (· ∈ s) rank y ∧ rank x < rank y := by
  by_cases hmax : MaximalFor (· ∈ s) rank x
  · exact .inl hmax
  · right
    rw [maximalFor_iff] at hmax
    push Not at hmax
    obtain ⟨y, hy, hlt⟩ := hmax hx
    -- the maximal ones among those above `x` have nothing above them in `s` either
    have habove : {z ∈ s | rank x < rank z}.Finite := hs.subset (Set.sep_subset _ _)
    obtain ⟨m, hm⟩ := habove.exists_maximalFor rank _ ⟨y, hy, hlt⟩
    obtain ⟨⟨hms, hxm⟩, hmtop⟩ := maximalFor_iff.mp hm
    refine ⟨m, maximalFor_iff.mpr ⟨hms, fun z hz hmz => ?_⟩, hxm⟩
    exact hmtop z ⟨hz, hxm.trans hmz⟩ hmz

/-- A part may be reduced to its maximal members before the rest is added. -/
theorem maximalFor_reduced_union (hs : s.Finite) :
    MaximalFor (· ∈ {y | MaximalFor (· ∈ s) rank y} ∪ t) rank x ↔
      MaximalFor (· ∈ s ∪ t) rank x := by
  rw [maximalFor_iff, maximalFor_iff]
  constructor
  · rintro ⟨hx, htop⟩
    refine ⟨hx.imp MaximalFor.prop id, ?_⟩
    rintro y (hy | hy) hlt
    · rcases maximal_or_below rank hs hy with hmax | ⟨z, hz, hyz⟩
      · exact htop y (.inl hmax) hlt
      · exact htop z (.inl hz) (hlt.trans hyz)
    · exact htop y (.inr hy) hlt
  · rintro ⟨hx, htop⟩
    constructor
    · rcases hx with hx | hx
      · exact .inl (maximalFor_iff.mpr ⟨hx, fun y hy => htop y (.inl hy)⟩)
      · exact .inr hx
    · rintro y (hy | hy)
      · exact htop y (.inl hy.prop)
      · exact htop y (.inr hy)

end Maxima
