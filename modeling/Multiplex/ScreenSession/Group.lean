-- The repair of one group of frames, on its own: which frames are there, which
-- shards are held, and when the missing ones come back. What order the pieces
-- arrive in decides whether they do.
import Mathlib.Data.Finset.Card
import Mathlib.Data.List.Perm.Basic
import Mathlib.Tactic

namespace multiplex_screen_session

/-! ## A group -/

/-- The shards held suffice: there are as many as frames are missing, and no index is beyond the
number of shards held. -/
def Solvable (held : List Nat) (missing : Nat) : Prop :=
  missing ≤ held.length ∧ ∀ i ∈ held, i < held.length

instance (held : List Nat) (missing : Nat) : Decidable (Solvable held missing) := by
  unfold Solvable
  infer_instance

/-- The frames of a group that are at the viewer, and the indices of the shards held. -/
structure Group where
  present : Finset Nat
  held : List Nat

/-- What arrives of a group. -/
inductive Piece
  | frame (sequence : Nat)
  | shard (index : Nat)
  deriving DecidableEq

def pushIndex (held : List Nat) (index : Nat) : List Nat :=
  if index ∈ held then held else held ++ [index]

/-- The abstract repair of a group with the frames `whole`. -/
def Group.arrive (whole : Finset Nat) (s : Group) : Piece → Group
  | .frame q => ⟨insert q s.present, s.held⟩
  | .shard i =>
    if whole ⊆ s.present then ⟨s.present, []⟩
    else if Solvable (pushIndex s.held i) (whole \ s.present).card then ⟨s.present ∪ whole, []⟩
    else ⟨s.present, pushIndex s.held i⟩

def Group.empty : Group := ⟨∅, []⟩

def Group.run (whole : Finset Nat) (pieces : List Piece) : Group :=
  pieces.foldl (Group.arrive whole) .empty

/-! ## What has arrived -/

def Piece.sequence? : Piece → Option Nat
  | .frame q => some q
  | .shard _ => none

def Piece.index? : Piece → Option Nat
  | .frame _ => none
  | .shard i => some i

def framesOf (pieces : List Piece) : Finset Nat := (pieces.filterMap Piece.sequence?).toFinset

def indicesOf (pieces : List Piece) : Finset Nat := (pieces.filterMap Piece.index?).toFinset

variable {pieces : List Piece}

theorem mem_framesOf {q : Nat} : q ∈ framesOf pieces ↔ .frame q ∈ pieces := by
  unfold framesOf
  rw [List.mem_toFinset, List.mem_filterMap]
  constructor
  · rintro ⟨p, hp, hq⟩
    cases p with
    | frame q' => cases hq; exact hp
    | shard i => cases hq
  · exact fun h => ⟨_, h, rfl⟩

theorem mem_indicesOf {i : Nat} : i ∈ indicesOf pieces ↔ .shard i ∈ pieces := by
  unfold indicesOf
  rw [List.mem_toFinset, List.mem_filterMap]
  constructor
  · rintro ⟨p, hp, hi⟩
    cases p with
    | frame q => cases hi
    | shard i' => cases hi; exact hp
  · exact fun h => ⟨_, h, rfl⟩

/-- The last of these pieces is a shard that closes the group. -/
def Closes (whole : Finset Nat) (pieces : List Piece) : Prop :=
  (whole \ framesOf pieces).card ≤ (indicesOf pieces).card ∧
    ∀ i ∈ indicesOf pieces, i < (indicesOf pieces).card

/-- Some shard closed the group when it arrived. -/
def Closed (whole : Finset Nat) (pieces : List Piece) : Prop :=
  ∃ before i after, pieces = before ++ .shard i :: after ∧ Closes whole (before ++ [.shard i])

/-- As long as nothing closed the group, it holds what arrived. -/
structure Waiting (pieces : List Piece) (s : Group) : Prop where
  present : s.present = framesOf pieces
  held : s.held.toFinset = indicesOf pieces
  distinct : s.held.Nodup

variable {whole : Finset Nat}

variable {s : Group} {p : Piece}

theorem Waiting.push (h : Waiting pieces s) (i : Nat) :
    (pushIndex s.held i).toFinset = indicesOf (pieces ++ [.shard i]) ∧
      (pushIndex s.held i).Nodup := by
  unfold pushIndex
  have hindices : indicesOf (pieces ++ [.shard i]) = insert i (indicesOf pieces) := by
    ext j
    simp [mem_indicesOf]
    exact or_comm
  rw [hindices, ← h.held]
  split
  · rename_i hin
    exact ⟨(Finset.insert_eq_self.mpr (List.mem_toFinset.mpr hin)).symm, h.distinct⟩
  · rename_i hnew
    refine ⟨?_, ?_⟩
    · simp
    · exact List.Nodup.append h.distinct (List.nodup_singleton i) (by simpa using hnew)

theorem framesOf_append (pieces : List Piece) (p : Piece) : framesOf (pieces ++ [p]) = match p with
      | .frame q => insert q (framesOf pieces)
      | .shard _ => framesOf pieces := by
  cases p with
  | frame q =>
    ext j
    simp [mem_framesOf]
    exact or_comm
  | shard i =>
    ext j
    simp [mem_framesOf]

theorem indicesOf_append_frame (pieces : List Piece) (q : Nat) :
    indicesOf (pieces ++ [.frame q]) = indicesOf pieces := by
  ext j
  simp [mem_indicesOf]

theorem closed_append : Closed whole (pieces ++ [p]) ↔
      Closed whole pieces ∨ ∃ i, p = .shard i ∧ Closes whole (pieces ++ [.shard i]) := by
  constructor
  · rintro ⟨before, i, after, heq, hcloses⟩
    rcases List.eq_nil_or_concat after with rfl | ⟨after, p', rfl⟩
    · obtain ⟨rfl, hp⟩ := List.append_inj' heq rfl
      exact .inr ⟨i, List.singleton_inj.mp hp, hcloses⟩
    · rw [List.concat_eq_append, ← List.cons_append, ← List.append_assoc] at heq
      obtain ⟨rfl, -⟩ := List.append_inj' heq rfl
      exact .inl ⟨before, i, after, rfl, hcloses⟩
  · rintro (⟨before, i, after, rfl, hcloses⟩ | ⟨i, rfl, hcloses⟩)
    · exact ⟨before, i, after ++ [p], by simp, hcloses⟩
    · exact ⟨pieces, i, [], rfl, hcloses⟩

theorem Waiting.solvable_iff (h : Waiting pieces s) (i : Nat) :
    Solvable (pushIndex s.held i) (whole \ s.present).card ↔
      Closes whole (pieces ++ [.shard i]) := by
  obtain ⟨hindices, hnodup⟩ := h.push i
  have hcard : (pushIndex s.held i).length = (indicesOf (pieces ++ [.shard i])).card := by
    rw [← hindices, List.toFinset_card_of_nodup hnodup]
  unfold Solvable Closes
  rw [hcard, framesOf_append, h.present, ← hindices]
  simp

/-- What a run comes to, when not all frames arrive: the group is whole if some shard closed it, and
otherwise it holds what arrived. -/
theorem run_cases (pieces : List Piece) (hsub : framesOf pieces ⊆ whole)
    (hmissing : ¬whole ⊆ framesOf pieces) :
    Closed whole pieces ∧ (Group.run whole pieces).present = whole ∨
      ¬Closed whole pieces ∧ Waiting pieces (Group.run whole pieces) := by
  induction pieces using List.reverseRecOn with
  | nil =>
    right
    refine ⟨?_, rfl, rfl, List.nodup_nil⟩
    rintro ⟨before, i, after, h, -⟩
    simp at h
  | append_singleton pieces p ih =>
    have hmono : framesOf pieces ⊆ framesOf (pieces ++ [p]) := by
      intro q hq
      rw [mem_framesOf] at hq ⊢
      exact List.mem_append_left _ hq
    have hrun : Group.run whole (pieces ++ [p]) = (Group.run whole pieces).arrive whole p := by
      unfold Group.run
      rw [List.foldl_append]
      rfl
    rw [closed_append, hrun]
    rcases ih (hmono.trans hsub) (fun h => hmissing (h.trans hmono)) with
      ⟨hclosed, hall⟩ | ⟨hopen, hwait⟩
    · left
      refine ⟨.inl hclosed, ?_⟩
      cases p with
      | frame q =>
        change insert q (Group.run whole pieces).present = whole
        rw [hall, Finset.insert_eq_self]
        exact hsub (mem_framesOf.mpr (by simp))
      | shard i =>
        unfold Group.arrive
        simp [hall]
    · cases p with
      | frame q =>
        right
        refine ⟨by simp [hopen], ?_, ?_, hwait.distinct⟩
        · change insert q (Group.run whole pieces).present = _
          rw [hwait.present, framesOf_append]
        · rw [indicesOf_append_frame]
          exact hwait.held
      | shard i =>
        rw [framesOf_append] at hmissing
        have hnot : ¬whole ⊆ (Group.run whole pieces).present := by
          rw [hwait.present]
          exact hmissing
        unfold Group.arrive
        simp only [if_neg hnot]
        by_cases hsolve : Solvable (pushIndex (Group.run whole pieces).held i)
            (whole \ (Group.run whole pieces).present).card
        · left
          rw [if_pos hsolve]
          refine ⟨.inr ⟨i, rfl, hwait.solvable_iff i |>.mp hsolve⟩, ?_⟩
          rw [hwait.present]
          exact Finset.union_eq_right.mpr (hmono.trans hsub)
        · right
          rw [if_neg hsolve]
          refine ⟨?_, ?_, (hwait.push i).1, (hwait.push i).2⟩
          · rintro (h | ⟨j, hj, hcloses⟩)
            · exact hopen h
            · cases hj
              exact hsolve ((hwait.solvable_iff i).mpr hcloses)
          · rw [framesOf_append]
            exact hwait.present

theorem run_bounds (pieces : List Piece) (hsub : framesOf pieces ⊆ whole) :
    framesOf pieces ⊆ (Group.run whole pieces).present ∧
      (Group.run whole pieces).present ⊆ whole := by
  induction pieces using List.reverseRecOn with
  | nil => exact ⟨Finset.Subset.refl _, Finset.empty_subset _⟩
  | append_singleton pieces p ih =>
    have hrun : Group.run whole (pieces ++ [p]) = (Group.run whole pieces).arrive whole p := by
      unfold Group.run
      rw [List.foldl_append]
      rfl
    rw [hrun]
    cases p with
    | frame q =>
      rw [framesOf_append] at hsub ⊢
      obtain ⟨h1, h2⟩ := ih ((Finset.subset_insert _ _).trans hsub)
      refine ⟨Finset.insert_subset_insert q h1, Finset.insert_subset ?_ h2⟩
      exact hsub (Finset.mem_insert_self q _)
    | shard i =>
      rw [framesOf_append] at hsub ⊢
      obtain ⟨h1, h2⟩ := ih hsub
      unfold Group.arrive
      simp only
      split
      · exact ⟨h1, h2⟩
      · split
        · exact ⟨h1.trans Finset.subset_union_left, Finset.union_subset h2 (subset_refl _)⟩
        · exact ⟨h1, h2⟩

/-! ## Orders -/

theorem framesOf_perm {l l' : List Piece} (h : l'.Perm l) : framesOf l' = framesOf l := by
  ext q
  rw [mem_framesOf, mem_framesOf, h.mem_iff]

theorem indicesOf_perm {l l' : List Piece} (h : l'.Perm l) : indicesOf l' = indicesOf l := by
  ext i
  rw [mem_indicesOf, mem_indicesOf, h.mem_iff]

theorem framesOf_mono {l l' : List Piece} (h : ∀ p ∈ l, p ∈ l') : framesOf l ⊆ framesOf l' := by
  intro q hq
  rw [mem_framesOf] at hq ⊢
  exact h _ hq

theorem indicesOf_mono {l l' : List Piece} (h : ∀ p ∈ l, p ∈ l') : indicesOf l ⊆ indicesOf l' := by
  intro i hi
  rw [mem_indicesOf] at hi ⊢
  exact h _ hi

/-- The condition under which the order of a group's pieces does not matter. -/
def AnyOrder (whole : Finset Nat) (pieces : List Piece) : Prop :=
  whole ⊆ framesOf pieces ∨
    ¬Finset.range (whole \ framesOf pieces).card ⊆ indicesOf pieces ∨
    whole.card ≤ (indicesOf pieces).card ∧ ∀ i ∈ indicesOf pieces, i < (indicesOf pieces).card

/-- A set of as many indices as it has below its size is an initial segment. -/
theorem range_subset_of_lt_card {indices : Finset Nat} (h : ∀ i ∈ indices, i < indices.card) :
    Finset.range indices.card = indices := by
  symm
  apply Finset.eq_of_subset_of_card_le
  · intro i hi
    exact Finset.mem_range.mpr (h i hi)
  · rw [Finset.card_range]

theorem range_subset_of_closed (h : Closed whole pieces) :
    Finset.range (whole \ framesOf pieces).card ⊆ indicesOf pieces := by
  obtain ⟨before, i, after, rfl, hcount, hindices⟩ := h
  have hmem : ∀ p ∈ before ++ [Piece.shard i], p ∈ before ++ .shard i :: after := by
    intro p hp
    rw [List.mem_append, List.mem_singleton] at hp
    rw [List.mem_append, List.mem_cons]
    exact hp.imp_right .inl
  have hfewer : (whole \ framesOf (before ++ .shard i :: after)).card ≤
      (indicesOf (before ++ [.shard i])).card :=
    (Finset.card_le_card (Finset.sdiff_subset_sdiff (subset_refl _) (framesOf_mono hmem))).trans hcount
  calc Finset.range (whole \ framesOf (before ++ .shard i :: after)).card
      ⊆ Finset.range (indicesOf (before ++ [.shard i])).card := Finset.range_subset_range.mpr hfewer
    _ = indicesOf (before ++ [.shard i]) := range_subset_of_lt_card hindices
    _ ⊆ indicesOf (before ++ .shard i :: after) := indicesOf_mono hmem

/-- With an initial segment as long as the group, the last shard closes the group, whatever the
order. -/
theorem closed_of_many (hpos : 0 < whole.card) (hmany : whole.card ≤ (indicesOf pieces).card)
    (hindices : ∀ i ∈ indicesOf pieces, i < (indicesOf pieces).card) : Closed whole pieces := by
  induction pieces using List.reverseRecOn with
  | nil =>
    change whole.card ≤ 0 at hmany
    omega
  | append_singleton pieces p ih =>
    rw [closed_append]
    cases p with
    | frame q =>
      rw [indicesOf_append_frame] at hmany hindices
      exact .inl (ih hmany hindices)
    | shard i =>
      refine .inr ⟨i, rfl, ?_, hindices⟩
      exact (Finset.card_le_card Finset.sdiff_subset).trans hmany

def Piece.isFrame : Piece → Bool
  | .frame _ => true
  | .shard _ => false

def Piece.isBelow (m : Nat) : Piece → Bool
  | .frame _ => false
  | .shard i => decide (i < m)

theorem eq_shard_of_below {m : Nat} (h : p.isBelow m = true) : ∃ i < m, p = .shard i := by
  cases p with
  | frame q => cases h
  | shard i => exact ⟨i, by simpa [Piece.isBelow] using h, rfl⟩

/-- Frames first and then the low indices: the group closes as soon as it can. -/
theorem exists_closed_order (hmissing : ¬whole ⊆ framesOf pieces)
    (hrange : Finset.range (whole \ framesOf pieces).card ⊆ indicesOf pieces) :
    ∃ order, order.Perm pieces ∧ Closed whole order := by
  have hm : 0 < (whole \ framesOf pieces).card := by
    apply Finset.card_pos.mpr
    rw [Finset.nonempty_iff_ne_empty, ne_eq, Finset.sdiff_eq_empty_iff_subset]
    exact hmissing
  generalize hmdef : (whole \ framesOf pieces).card = m at hrange hm
  let frames := pieces.filter Piece.isFrame
  let shards := pieces.filter fun p => !p.isFrame
  let low := shards.filter (Piece.isBelow m)
  let high := shards.filter fun p => !p.isBelow m
  have hlow : ∀ p, p ∈ low ↔ ∃ i < m, p = .shard i ∧ p ∈ pieces := by
    intro p
    simp only [low, shards, List.mem_filter]
    constructor
    · rintro ⟨⟨hp, -⟩, hbelow⟩
      obtain ⟨i, hi, rfl⟩ := eq_shard_of_below hbelow
      exact ⟨i, hi, rfl, hp⟩
    · rintro ⟨i, hi, rfl, hp⟩
      exact ⟨⟨hp, rfl⟩, decide_eq_true hi⟩
  refine ⟨frames ++ (low ++ high), ?_, ?_⟩
  · exact ((List.filter_append_perm _ shards).append_left frames).trans
      (List.filter_append_perm _ pieces)
  · have hne : low ≠ [] := by
      apply List.ne_nil_of_mem (a := .shard 0)
      exact (hlow _).mpr ⟨0, hm, rfl, mem_indicesOf.mp (hrange (Finset.mem_range.mpr hm))⟩
    obtain ⟨low', last, hlast⟩ := (List.eq_nil_or_concat low).resolve_left hne
    rw [List.concat_eq_append] at hlast
    obtain ⟨j, -, rfl, -⟩ := (hlow last).mp (by rw [hlast]; simp)
    have hinitial : frames ++ low' ++ [.shard j] = frames ++ low := by
      rw [hlast, List.append_assoc]
    refine ⟨frames ++ low', j, high, by rw [hlast]; simp, ?_⟩
    rw [hinitial]
    have hframes : framesOf (frames ++ low) = framesOf pieces := by
      ext q
      simp only [mem_framesOf, List.mem_append, hlow, frames, List.mem_filter]
      constructor
      · rintro (⟨h, -⟩ | ⟨i, -, h, -⟩)
        · exact h
        · cases h
      · exact fun h => .inl ⟨h, rfl⟩
    have hindices : indicesOf (frames ++ low) = Finset.range m := by
      ext i
      simp only [mem_indicesOf, List.mem_append, hlow, frames, List.mem_filter, Finset.mem_range,
        Piece.shard.injEq]
      constructor
      · rintro (⟨-, h⟩ | ⟨i', hi, rfl, -⟩)
        · cases h
        · exact hi
      · exact fun h => .inr ⟨i, h, rfl, mem_indicesOf.mp (hrange (Finset.mem_range.mpr h))⟩
    unfold Closes
    rw [hframes, hindices, Finset.card_range, hmdef]
    exact ⟨le_refl m, fun i hi => Finset.mem_range.mp hi⟩

/-- Unless the shards alone rebuild the group in any order, some order never closes it. -/
theorem exists_open_order (h : ¬(whole.card ≤ (indicesOf pieces).card ∧
      ∀ i ∈ indicesOf pieces, i < (indicesOf pieces).card)) :
    ∃ order, order.Perm pieces ∧ ¬Closed whole order := by
  by_cases hfew : (indicesOf pieces).card < whole.card
  · -- all shards first: none of them has a frame to help
    refine ⟨(pieces.filter fun p => !p.isFrame) ++ pieces.filter fun p => !!p.isFrame,
      List.filter_append_perm _ pieces, ?_⟩
    rintro ⟨before, i, after, heq, hcount, -⟩
    have hbefore : ∀ p ∈ before, p ∈ pieces ∧ p.isFrame = false := by
      rcases List.append_eq_append_iff.mp heq with ⟨rest, rfl, hrest⟩ | ⟨rest, hshards, -⟩
      · have hmem : Piece.shard i ∈ pieces.filter fun p => !!p.isFrame := by
          rw [hrest]
          simp
        simp [Piece.isFrame] at hmem
      · intro p hp
        have hp' : p ∈ pieces.filter fun p => !p.isFrame := by
          rw [hshards]
          exact List.mem_append_left _ hp
        simpa using hp'
    have hnone : framesOf (before ++ [.shard i]) = ∅ := by
      ext q
      simp [mem_framesOf]
      intro hq
      have := (hbefore _ hq).2
      cases this
    rw [hnone, Finset.sdiff_empty] at hcount
    have hsub : indicesOf (before ++ [.shard i]) ⊆ indicesOf pieces := by
      apply indicesOf_mono
      intro p hp
      have hall : p ∈ before ++ .shard i :: after := by
        rw [List.mem_append, List.mem_singleton] at hp
        rw [List.mem_append, List.mem_cons]
        exact hp.imp_right .inl
      rw [← heq] at hall
      exact (List.filter_append_perm _ pieces).mem_iff.mp hall
    have := Finset.card_le_card hsub
    omega
  · -- an index beyond the number of shards, first: it is beyond every number of shards held
    push Not at h
    obtain ⟨x, hx, hbeyond⟩ := h (by omega)
    refine ⟨pieces.filter (fun p => decide (p = .shard x)) ++
      pieces.filter fun p => !decide (p = .shard x), List.filter_append_perm _ pieces, ?_⟩
    rintro ⟨before, i, after, heq, -, hindices⟩
    have hall : ∀ p ∈ before ++ [.shard i], p ∈ pieces := by
      intro p hp
      have hall : p ∈ before ++ .shard i :: after := by
        rw [List.mem_append, List.mem_singleton] at hp
        rw [List.mem_append, List.mem_cons]
        exact hp.imp_right .inl
      rw [← heq] at hall
      exact (List.filter_append_perm _ pieces).mem_iff.mp hall
    have hfirst : x ∈ indicesOf (before ++ [.shard i]) := by
      have hmem : Piece.shard x ∈ pieces.filter fun p => decide (p = .shard x) :=
        List.mem_filter.mpr ⟨mem_indicesOf.mp hx, decide_eq_true rfl⟩
      obtain ⟨first, rest, hcons⟩ := List.exists_cons_of_ne_nil (List.ne_nil_of_mem hmem)
      have hx' : first = .shard x := by
        have : first ∈ pieces.filter fun p => decide (p = .shard x) := by rw [hcons]; simp
        simpa using (List.mem_filter.mp this).2
      rw [hcons, hx'] at heq
      rw [mem_indicesOf]
      cases before with
      | nil =>
        cases (List.cons.inj heq).1
        exact List.mem_cons_self
      | cons p before =>
        rw [← (List.cons.inj heq).1]
        exact List.mem_cons_self
    have hlt := hindices x hfirst
    have := Finset.card_le_card (indicesOf_mono hall)
    omega

/-- The order of the pieces does not matter exactly when all frames arrive, or the first indices are
not all there, or the shards alone rebuild the group whatever their order. -/
theorem any_order_iff (hsub : framesOf pieces ⊆ whole) (hpos : 0 < whole.card) :
    (∀ order, order.Perm pieces →
      (Group.run whole order).present = (Group.run whole pieces).present) ↔
      AnyOrder whole pieces := by
  have hwhole : ∀ order : List Piece, order.Perm pieces → whole ⊆ framesOf pieces →
      (Group.run whole order).present = whole := by
    intro order hperm hall
    rw [← framesOf_perm hperm] at hsub hall
    obtain ⟨h1, h2⟩ := run_bounds order hsub
    exact Finset.Subset.antisymm h2 (hall.trans h1)
  have hcases : ∀ order : List Piece, order.Perm pieces → ¬whole ⊆ framesOf pieces →
      Closed whole order ∧ (Group.run whole order).present = whole ∨
        ¬Closed whole order ∧ (Group.run whole order).present = framesOf pieces := by
    intro order hperm hmissing
    rw [← framesOf_perm hperm] at hsub hmissing ⊢
    exact (run_cases order hsub hmissing).imp id (And.imp id Waiting.present)
  constructor
  · intro hsame
    by_contra hbad
    unfold AnyOrder at hbad
    push Not at hbad
    obtain ⟨hmissing, hrange, hmany⟩ := hbad
    obtain ⟨first, hfirst, hclosed⟩ := exists_closed_order hmissing hrange
    obtain ⟨second, hsecond, hopen⟩ := exists_open_order
      fun h : whole.card ≤ (indicesOf pieces).card ∧ _ => by
        obtain ⟨i, hi, hle⟩ := hmany h.1
        exact absurd (h.2 i hi) (not_lt.mpr hle)
    have h1 := ((hcases first hfirst hmissing).resolve_right fun h => h.1 hclosed).2
    have h2 := ((hcases second hsecond hmissing).resolve_left fun h => hopen h.1).2
    rw [hsame first hfirst] at h1
    rw [hsame second hsecond, h1] at h2
    exact hmissing h2.subset
  · rintro (hall | hrange | ⟨hmany, hindices⟩) order hperm
    · rw [hwhole order hperm hall, hwhole pieces (List.Perm.refl _) hall]
    · by_cases hmissing : whole ⊆ framesOf pieces
      · rw [hwhole order hperm hmissing, hwhole pieces (List.Perm.refl _) hmissing]
      · have hopen : ∀ order : List Piece, order.Perm pieces → ¬Closed whole order := by
          intro order hperm hclosed
          have := range_subset_of_closed hclosed
          rw [framesOf_perm hperm, indicesOf_perm hperm] at this
          exact hrange this
        have h1 := ((hcases order hperm hmissing).resolve_left fun h => hopen order hperm h.1).2
        have h2 := ((hcases pieces (List.Perm.refl _) hmissing).resolve_left fun h =>
          hopen pieces (List.Perm.refl _) h.1).2
        rw [h1, h2]
    · by_cases hmissing : whole ⊆ framesOf pieces
      · rw [hwhole order hperm hmissing, hwhole pieces (List.Perm.refl _) hmissing]
      · have hclosed : ∀ order : List Piece, order.Perm pieces → Closed whole order := by
          intro order hperm
          rw [← indicesOf_perm hperm] at hmany hindices
          exact closed_of_many hpos hmany hindices
        have h1 := ((hcases order hperm hmissing).resolve_right fun h => h.1 (hclosed order hperm)).2
        have h2 := ((hcases pieces (List.Perm.refl _) hmissing).resolve_right fun h =>
          h.1 (hclosed pieces (List.Perm.refl _))).2
        rw [h1, h2]

/-! ## Frames first -/

variable (frames indices : List Nat)

theorem framesOf_first : framesOf (frames.map .frame ++ indices.map .shard) = frames.toFinset := by
  ext q
  simp [mem_framesOf]

theorem indicesOf_first :
    indicesOf (frames.map .frame ++ indices.map .shard) = indices.toFinset := by
  ext i
  simp [mem_indicesOf]

/-- When the frames come first, the group closes at the first number of shards that is enough and
has no index beyond it. -/
theorem closed_first_iff (hdistinct : indices.Nodup) :
    Closed whole (frames.map .frame ++ indices.map .shard) ↔
      ∃ j, 0 < j ∧ j ≤ indices.length ∧ (whole \ frames.toFinset).card ≤ j ∧
        ∀ i ∈ indices.take j, i < j := by
  induction indices using List.reverseRecOn with
  | nil =>
    constructor
    · rintro ⟨before, i, after, heq, -⟩
      have hmem : Piece.shard i ∈ frames.map Piece.frame ++ ([] : List Nat).map .shard := by
        rw [heq]
        simp
      simp at hmem
    · rintro ⟨j, hpos, hle, -⟩
      simp at hle
      omega
  | append_singleton indices i ih =>
    have hpart : indices.Nodup := hdistinct.sublist (List.sublist_append_left _ _)
    have hlist : frames.map Piece.frame ++ (indices ++ [i]).map .shard =
        frames.map Piece.frame ++ indices.map .shard ++ [.shard i] := by simp
    have hcloses : Closes whole (frames.map .frame ++ indices.map .shard ++ [.shard i]) ↔
        (whole \ frames.toFinset).card ≤ (indices ++ [i]).length ∧
          ∀ x ∈ indices ++ [i], x < (indices ++ [i]).length := by
      rw [← hlist]
      unfold Closes
      rw [framesOf_first, indicesOf_first, List.toFinset_card_of_nodup hdistinct]
      simp only [List.mem_toFinset]
    rw [hlist, closed_append, ih hpart]
    constructor
    · rintro (⟨j, hpos, hle, hcount, hindices⟩ | ⟨i', heq, hc⟩)
      · refine ⟨j, hpos, by rw [List.length_append]; omega, hcount, ?_⟩
        rwa [List.take_append_of_le_length hle]
      · cases heq
        obtain ⟨hcount, hindices⟩ := hcloses.mp hc
        refine ⟨(indices ++ [i]).length, by simp, le_rfl, hcount, ?_⟩
        rwa [List.take_length]
    · rintro ⟨j, hpos, hle, hcount, hindices⟩
      by_cases hj : j ≤ indices.length
      · left
        refine ⟨j, hpos, hj, hcount, ?_⟩
        rwa [List.take_append_of_le_length hj] at hindices
      · right
        have hlast : j = (indices ++ [i]).length := by
          rw [List.length_append, List.length_singleton] at hle ⊢
          omega
        refine ⟨i, rfl, hcloses.mpr ?_⟩
        rw [hlast, List.take_length] at hindices
        rw [← hlast] at hindices ⊢
        exact ⟨hcount, hindices⟩

end multiplex_screen_session
