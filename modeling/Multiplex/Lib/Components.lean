-- Connected components, found by a search that keeps a stack. Things are near
-- each other in both directions, and only some of them count. A search from a
-- thing finds its component, and the largest of the components found is a largest
-- connected set.
import Mathlib.Data.Finset.Card
import Mathlib.Logic.Relation
import Mathlib.Tactic

namespace Components

variable {α : Type} [DecidableEq α]

/-- A chain of things that count, each near the one before it. -/
def Joined (near : α → List α) (counts : α → Bool) : α → α → Prop :=
  Relation.ReflTransGen fun a b => counts a = true ∧ counts b = true ∧ b ∈ near a

/-- What a search has seen, what it has found, and whose neighbours it has yet to look at. -/
structure Search (α : Type) where
  seen : α → Bool
  found : List α
  stack : List α

def meet (counts : α → Bool) (s : Search α) (b : α) : Search α :=
  if counts b && !s.seen b then ⟨Function.update s.seen b true, s.found ++ [b], b :: s.stack⟩ else s

def search (near : α → List α) (counts : α → Bool) : Nat → Search α → Search α
  | 0, s => s
  | fuel + 1, s =>
    match s.stack with
    | [] => s
    | a :: stack => search near counts fuel ((near a).foldl (meet counts) { s with stack })

/-- One turn of the loop over the starts. -/
def lookFrom (near : α → List α) (counts : α → Bool) (fuel : Nat) (s : (α → Bool) × List α)
    (start : α) : (α → Bool) × List α :=
  if s.1 start then s
  else
    let r := search near counts fuel ⟨Function.update s.1 start true, [start], [start]⟩
    (r.seen, if r.found.length > s.2.length then r.found else s.2)

/-- The first of the longest finds, when the search starts from everything not seen before. -/
def largest (near : α → List α) (counts : α → Bool) (fuel : Nat) (starts : List α) : List α :=
  (starts.foldl (lookFrom near counts fuel) (fun _ => false, [])).2

def Connected (near : α → List α) (counts : α → Bool) (s : Finset α) : Prop :=
  (∀ a ∈ s, counts a = true) ∧ ∀ a ∈ s, ∀ b ∈ s, Joined near counts a b

/-- The things of one component, each once, and no connected set has more. -/
structure IsLargest (near : α → List α) (counts : α → Bool) (found : List α) : Prop where
  nodup : found.Nodup
  connected : Connected near counts found.toFinset
  whole : ∀ a ∈ found, ∀ b, Joined near counts a b → b ∈ found
  most : ∀ s : Finset α, Connected near counts s → s.card ≤ found.length

section
variable {near : α → List α} {counts : α → Bool}

omit [DecidableEq α] in
theorem Joined.symm (hnear : ∀ a b, counts a = true → counts b = true → b ∈ near a → a ∈ near b)
    {a b : α} (h : Joined near counts a b) : Joined near counts b a := by
  unfold Joined at h ⊢
  induction h with
  | refl => exact .refl
  | tail _ hlast ih =>
    exact .head ⟨hlast.2.1, hlast.1, hnear _ _ hlast.1 hlast.2.1 hlast.2.2⟩ ih

/-! ## One turn -/

variable (counts) in
/-- The neighbours that count and were not seen are found, once each, and go on the stack. -/
theorem foldl_meet (l : List α) (s : Search α) :
    ∃ new : List α, (l.foldl (meet counts) s).found = s.found ++ new ∧
      (l.foldl (meet counts) s).stack = new.reverse ++ s.stack ∧ new.Nodup ∧
      (∀ b ∈ new, b ∈ l ∧ counts b = true ∧ s.seen b = false) ∧
      (∀ b, (l.foldl (meet counts) s).seen b = true ↔ s.seen b = true ∨ b ∈ new) ∧
      ∀ b ∈ l, counts b = true → (l.foldl (meet counts) s).seen b = true := by
  induction l generalizing s with
  | nil => exact ⟨[], by simp⟩
  | cons a l ih =>
    obtain ⟨new, hfound, hstack, hnodup, hnew, hseen, hall⟩ := ih (meet counts s a)
    rw [List.foldl_cons]
    by_cases hmeet : (counts a && !s.seen a) = true
    · have hs : meet counts s a =
          ⟨Function.update s.seen a true, s.found ++ [a], a :: s.stack⟩ := if_pos hmeet
      simp only [Bool.and_eq_true, Bool.not_eq_true'] at hmeet
      rw [hs] at hfound hstack hnew hseen hall
      refine ⟨a :: new, by simp [hs, hfound], by simp [hs, hstack], ?_, ?_, ?_, ?_⟩
      · refine List.nodup_cons.mpr ⟨fun hmem => ?_, hnodup⟩
        simpa using (hnew a hmem).2.2
      · intro b hb
        rcases List.mem_cons.mp hb with rfl | hb
        · exact ⟨List.mem_cons_self, hmeet⟩
        · obtain ⟨hmem, hin, hunseen⟩ := hnew b hb
          have hne : b ≠ a := by
            rintro rfl
            simp at hunseen
          exact ⟨List.mem_cons_of_mem a hmem, hin, by simpa [hne] using hunseen⟩
      · intro b
        rw [hs, hseen]
        by_cases hba : b = a <;> simp [hba]
      · intro b hb hin
        rw [hs]
        rcases List.mem_cons.mp hb with rfl | hb
        · exact (hseen b).mpr (.inl (by simp))
        · exact hall b hb hin
    · have hs : meet counts s a = s := if_neg hmeet
      rw [hs] at hfound hstack hnew hseen hall ⊢
      refine ⟨new, hfound, hstack, hnodup, ?_, hseen, ?_⟩
      · intro b hb
        obtain ⟨hmem, hrest⟩ := hnew b hb
        exact ⟨List.mem_cons_of_mem a hmem, hrest⟩
      · intro b hb hin
        rcases List.mem_cons.mp hb with rfl | hb
        · simp only [hin, Bool.true_and, Bool.not_eq_true', Bool.not_eq_false] at hmeet
          exact (hseen b).mpr (.inl hmeet)
        · exact hall b hb hin

/-! ## A search -/

/-- A search from `start`, after other searches have seen `old`: what it found is joined to the
start and new, and whatever is found and not on the stack has all its neighbours seen. -/
structure Filling (near : α → List α) (counts : α → Bool) (old : α → Bool) (start : α)
    (s : Search α) : Prop where
  first : start ∈ s.found
  nodup : s.found.Nodup
  joined : ∀ b ∈ s.found, Joined near counts start b
  members : ∀ b ∈ s.found, counts b = true
  fresh : ∀ b ∈ s.found, old b = false
  seen : ∀ b, s.seen b = true ↔ old b = true ∨ b ∈ s.found
  stack : ∀ b ∈ s.stack, b ∈ s.found
  settled : ∀ a ∈ s.found, a ∉ s.stack → ∀ b ∈ near a, counts b = true → s.seen b = true

variable {old : α → Bool} {start : α}

theorem filling_start (hin : counts start = true) (hold : old start = false) :
    Filling near counts old start ⟨Function.update old start true, [start], [start]⟩ where
  first := by simp
  nodup := by simp
  joined b hb := by
    rw [List.mem_singleton.mp hb]
    exact .refl
  members b hb := by
    rw [List.mem_singleton.mp hb]
    exact hin
  fresh b hb := by
    rw [List.mem_singleton.mp hb]
    exact hold
  seen b := by
    by_cases hb : b = start <;> simp [hb]
  stack b hb := hb
  settled a ha hnot := absurd ha hnot

theorem Filling.turn {a : α} {stack : List α} {s : Search α} (h : Filling near counts old start s)
    (hstack : s.stack = a :: stack) :
    Filling near counts old start ((near a).foldl (meet counts) { s with stack }) := by
  obtain ⟨new, hfound, hpushed, hnodup, hnew, hseen, hall⟩ :=
    foldl_meet counts (near a) { s with stack }
  have ha : a ∈ s.found := h.stack a (by simp [hstack])
  constructor
  · rw [hfound]
    exact List.mem_append_left new h.first
  · rw [hfound, List.nodup_append]
    refine ⟨h.nodup, hnodup, ?_⟩
    rintro b hb c hc rfl
    have hunseen := (hnew b hc).2.2
    rw [(h.seen b).mpr (.inr hb)] at hunseen
    cases hunseen
  · intro b hb
    rw [hfound, List.mem_append] at hb
    rcases hb with hb | hb
    · exact h.joined b hb
    · exact .tail (h.joined a ha) ⟨h.members a ha, (hnew b hb).2.1, (hnew b hb).1⟩
  · intro b hb
    rw [hfound, List.mem_append] at hb
    rcases hb with hb | hb
    · exact h.members b hb
    · exact (hnew b hb).2.1
  · intro b hb
    rw [hfound, List.mem_append] at hb
    rcases hb with hb | hb
    · exact h.fresh b hb
    · have hunseen : s.seen b = false := (hnew b hb).2.2
      by_contra hold
      rw [(h.seen b).mpr (.inl (by simpa using hold))] at hunseen
      cases hunseen
  · intro b
    rw [hseen, hfound, List.mem_append, h.seen, or_assoc]
  · intro b hb
    rw [hpushed, List.mem_append, List.mem_reverse] at hb
    rw [hfound, List.mem_append]
    rcases hb with hb | hb
    · exact .inr hb
    · exact .inl (h.stack b (by simp [hstack, hb]))
  · intro c hc hnot b hb hin
    rw [hpushed, List.mem_append, List.mem_reverse, not_or] at hnot
    rw [hfound, List.mem_append] at hc
    by_cases hca : c = a
    · subst hca
      exact hall b hb hin
    · have hold : c ∉ s.stack := by simp [hstack, hca, hnot.2]
      exact (hseen b).mpr (.inl (h.settled c (hc.resolve_right hnot.1) hold b hb hin))

/-- What a search may still find. -/
def unseen (counts : α → Bool) (all : Finset α) (s : Search α) : Finset α :=
  all.filter fun b => counts b = true ∧ s.seen b = false

/-- With a turn for each thing on the stack and each that may still be found, the stack runs
empty. -/
theorem Filling.search {all : Finset α} (hall : ∀ b, counts b = true → b ∈ all) (fuel : Nat)
    {s : Search α} (h : Filling near counts old start s)
    (hfuel : (unseen counts all s).card + s.stack.length ≤ fuel) :
    Filling near counts old start (search near counts fuel s) ∧
      (search near counts fuel s).stack = [] := by
  induction fuel generalizing s with
  | zero => exact ⟨h, List.length_eq_zero_iff.mp (by simp only [Components.search]; omega)⟩
  | succ fuel ih =>
    unfold Components.search
    split
    · rename_i hempty
      exact ⟨h, hempty⟩
    · rename_i a stack hstack
      apply ih (h.turn hstack)
      obtain ⟨new, -, hpushed, hnodup, hnew, hseen, -⟩ :=
        foldl_meet counts (near a) { s with stack }
      -- what is found now could be found before, and cannot be found again
      have hparts : new.toFinset ∪
          unseen counts all ((near a).foldl (meet counts) { s with stack }) ⊆
          unseen counts all s := by
        intro b hb
        rw [Finset.mem_union, List.mem_toFinset] at hb
        unfold unseen at hb ⊢
        rw [Finset.mem_filter] at hb ⊢
        rcases hb with hb | ⟨hmem, hin, hunseen⟩
        · exact ⟨hall b (hnew b hb).2.1, (hnew b hb).2⟩
        · refine ⟨hmem, hin, ?_⟩
          by_contra hsaw
          rw [(hseen b).mpr (.inl (by simpa using hsaw))] at hunseen
          cases hunseen
      have hdisjoint : Disjoint new.toFinset
          (unseen counts all ((near a).foldl (meet counts) { s with stack })) := by
        rw [Finset.disjoint_left]
        intro b hb hmem
        have hunseen := (Finset.mem_filter.mp hmem).2.2
        rw [(hseen b).mpr (.inr (List.mem_toFinset.mp hb))] at hunseen
        cases hunseen
      have hcard := Finset.card_le_card hparts
      rw [Finset.card_union_of_disjoint hdisjoint, List.toFinset_card_of_nodup hnodup] at hcard
      rw [hstack] at hfuel
      simp [hpushed] at hfuel ⊢
      omega

omit [DecidableEq α] in
/-- With nothing left on the stack, and with whole components seen before, the find is the
component of the start. -/
theorem Filling.component {s : Search α}
    (hnear : ∀ a b, counts a = true → counts b = true → b ∈ near a → a ∈ near b)
    (hold : ∀ a b, old a = true → counts b = true → b ∈ near a → old b = true)
    (h : Filling near counts old start s) (hempty : s.stack = []) (b : α) :
    b ∈ s.found ↔ Joined near counts start b := by
  refine ⟨h.joined b, fun hjoined => ?_⟩
  induction hjoined with
  | refl => exact h.first
  | @tail a b _ hlast ih =>
    obtain ⟨ha, hb, hmem⟩ := hlast
    have hseen := h.settled a ih (by simp [hempty]) b hmem hb
    refine ((h.seen b).mp hseen).resolve_left fun hb' => ?_
    have haold := hold b a hb' ha (hnear a b ha hb hmem)
    rw [h.fresh a ih] at haold
    cases haold

/-! ## The largest find -/

/-- The searches from some starts: they have seen whole components, and the best find is one of
them and no smaller than any. -/
structure Best (near : α → List α) (counts : α → Bool) (s : (α → Bool) × List α) : Prop where
  closed : ∀ a b, s.1 a = true → counts b = true → b ∈ near a → s.1 b = true
  nodup : s.2.Nodup
  connected : Connected near counts s.2.toFinset
  whole : ∀ a ∈ s.2, ∀ b, Joined near counts a b → b ∈ s.2
  most : ∀ t : Finset α, Connected near counts t → (∃ a ∈ t, s.1 a = true) → t.card ≤ s.2.length

theorem Best.lookFrom {all : Finset α} {fuel : Nat} {s : (α → Bool) × List α}
    (hnear : ∀ a b, counts a = true → counts b = true → b ∈ near a → a ∈ near b)
    (hall : ∀ b, counts b = true → b ∈ all) (hfuel : all.card ≤ fuel) (h : Best near counts s)
    (hstart : counts start = true) : Best near counts (lookFrom near counts fuel s start) ∧
      (lookFrom near counts fuel s start).1 start = true ∧
      ∀ a, s.1 a = true → (lookFrom near counts fuel s start).1 a = true := by
  unfold Components.lookFrom
  by_cases hseen : s.1 start = true
  · rw [if_pos hseen]
    exact ⟨h, hseen, fun a ha => ha⟩
  have hold : s.1 start = false := by simpa using hseen
  have hroom : (unseen counts all ⟨Function.update s.1 start true, [start], [start]⟩).card +
      [start].length ≤ fuel := by
    have hless : unseen counts all ⟨Function.update s.1 start true, [start], [start]⟩ ⊆
        all.erase start := by
      intro b hb
      obtain ⟨hmem, -, hunseen⟩ := Finset.mem_filter.mp hb
      refine Finset.mem_erase.mpr ⟨?_, hmem⟩
      rintro rfl
      simp at hunseen
    have hcard := Finset.card_le_card hless
    rw [Finset.card_erase_of_mem (hall start hstart)] at hcard
    have hpos := Finset.card_pos.mpr ⟨start, hall start hstart⟩
    simp
    omega
  have hfirst : Filling near counts s.1 start _ := filling_start hstart hold
  obtain ⟨hfilling, hempty⟩ := hfirst.search hall fuel hroom
  have hcomponent := hfilling.component hnear h.closed hempty
  simp [hold]
  generalize search near counts fuel ⟨Function.update s.1 start true, [start], [start]⟩ = r at *
  have hwhole : ∀ a ∈ r.found, ∀ b, Joined near counts a b → b ∈ r.found := fun a ha b hab =>
    (hcomponent b).mpr (((hcomponent a).mp ha).trans hab)
  refine ⟨⟨?_, ?_, ?_, ?_, ?_⟩, (hfilling.seen start).mpr (.inr hfilling.first), fun a ha =>
    (hfilling.seen a).mpr (.inl ha)⟩
  · intro a b ha hb hmem
    rcases (hfilling.seen a).mp ha with hbefore | hfound
    · exact (hfilling.seen b).mpr (.inl (h.closed a b hbefore hb hmem))
    · exact hfilling.settled a hfound (by simp [hempty]) b hmem hb
  · split
    · exact hfilling.nodup
    · exact h.nodup
  · split
    · refine ⟨fun a ha => hfilling.members a (List.mem_toFinset.mp ha), fun a ha b hb => ?_⟩
      rw [List.mem_toFinset] at ha hb
      exact (((hcomponent a).mp ha).symm hnear).trans ((hcomponent b).mp hb)
    · exact h.connected
  · split
    · exact hwhole
    · exact h.whole
  · rintro t ht ⟨a, hat, ha⟩
    have hlonger : s.2.length ≤ (if r.found.length > s.2.length then r.found else s.2).length ∧
        r.found.length ≤ (if r.found.length > s.2.length then r.found else s.2).length := by
      split <;> omega
    rcases (hfilling.seen a).mp ha with hbefore | hfound
    · exact (h.most t ht ⟨a, hat, hbefore⟩).trans hlonger.1
    · -- the set lies in the component that was found just now
      have hsub : t ⊆ r.found.toFinset := by
        intro b hb
        exact List.mem_toFinset.mpr (hwhole a hfound b (ht.2 a hat b hb))
      have hcard := Finset.card_le_card hsub
      rw [List.toFinset_card_of_nodup hfilling.nodup] at hcard
      exact hcard.trans hlonger.2

theorem largest_isLargest (all : Finset α) {starts : List α} {fuel : Nat}
    (hnear : ∀ a b, counts a = true → counts b = true → b ∈ near a → a ∈ near b)
    (hall : ∀ b, counts b = true → b ∈ all) (hfuel : all.card ≤ fuel)
    (hstarts : ∀ a, a ∈ starts ↔ counts a = true) :
    IsLargest near counts (largest near counts fuel starts) := by
  have hrun : ∀ (l : List α) (s : (α → Bool) × List α), (∀ a ∈ l, counts a = true) →
      Best near counts s → Best near counts (l.foldl (lookFrom near counts fuel) s) ∧
        ∀ a, a ∈ l ∨ s.1 a = true → (l.foldl (lookFrom near counts fuel) s).1 a = true := by
    intro l
    induction l with
    | nil => exact fun s _ h => ⟨h, by simp⟩
    | cons start l ih =>
      intro s hl h
      obtain ⟨hbest, hstart, hkept⟩ := h.lookFrom hnear hall hfuel (hl start (by simp))
      obtain ⟨hlast, hseen⟩ := ih _ (fun a ha => hl a (by simp [ha])) hbest
      refine ⟨hlast, fun a ha => ?_⟩
      rcases ha with ha | ha
      · rcases List.mem_cons.mp ha with rfl | ha
        · exact hseen a (.inr hstart)
        · exact hseen a (.inl ha)
      · exact hseen a (.inr (hkept a ha))
  have hnone : Best near counts (fun _ : α => false, []) := {
    closed := by simp
    nodup := by simp
    connected := by simp [Connected]
    whole := by simp
    most := by simp }
  obtain ⟨hbest, hseen⟩ := hrun starts (fun _ => false, []) (fun a ha => (hstarts a).mp ha) hnone
  refine ⟨hbest.nodup, hbest.connected, hbest.whole, fun t ht => ?_⟩
  by_cases hempty : t = ∅
  · simp [hempty]
  · obtain ⟨a, ha⟩ := Finset.nonempty_iff_ne_empty.mpr hempty
    exact hbest.most t ht ⟨a, ha, hseen a (.inl ((hstarts a).mpr (ht.1 a ha)))⟩

end

end Components
